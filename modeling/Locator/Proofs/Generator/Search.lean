/-
The search for the shortest spelling of a path

* `Thing.SelectsOnly`: from a context an expression, taken according to its plan,
  selects one node alone, and `Generator.findsOnly_iff`: this is **what the search
  tests**;
* `Generator.firstThatFinds_some`, `Generator.firstThatFinds_none`: what the search
  has tested when it ends;
* `Generator.of_shortest`: **what the search answers** if no attribute makes the path.
-/
import Locator.Proofs.Generator.Path
import Locator.Proofs.XPath.Candidates

namespace Locator

open XPath

variable {s c r : Text} {cs steps : List Text} {context : Thing} {n : Node}
  {namespaces : List (Text × Text)}

/-! ### What the search tests -/

/-- From a context a text stands for a node, or what is to be evaluated for it selects
this node alone. -/
def Thing.SelectsOnly (context : Thing) (namespaces : List (Text × Text)) (n : Node)
    (c : Text) : Prop :=
  (∃ x, Plan.of c context = .ok (.node x) ∧ x.same n) ∨
    ∃ e x, Plan.of c context = .ok (.expression e) ∧
      evaluateAt context e namespaces = .ok [x] ∧ n.same x

/-- What is evaluated for a text without blanks at its ends has none either. -/
lemma Plan.isTrim_of_expression {e : Text} (hc : Text.IsTrim c)
    (h : Plan.of c context = .ok (.expression e)) : Text.IsTrim e := by
  cases hx : context.element? with
  | none =>
      obtain rfl : c = e := by simpa [Plan.of, hx] using h
      exact hc
  | some x =>
      simp only [Plan.of, hx] at h
      obtain ⟨tag, -, h⟩ := bind_eq_ok.mp h
      split_ifs at h
      · simp at h
      · cases hb : Text.behind? ('/' :: tag ++ ['/']) c with
        | none =>
            rw [hb] at h
            obtain rfl : c = e := by simpa using h
            exact hc
        | some rest =>
            rw [hb] at h
            obtain rfl : '.' :: '/' :: rest = e := by simpa using h
            have hrest : c = ('/' :: tag ++ ['/']) ++ rest := by
              rw [Text.behind?] at hb
              split_ifs at hb with hpre
              obtain ⟨t, ht⟩ := List.isPrefixOf_iff_prefix.mp hpre
              obtain rfl := Option.some.inj hb
              rw [← ht, List.drop_left]
            refine ⟨by simp, by simp; decide, fun b hb => ?_⟩
            cases rest with
            | nil =>
                obtain rfl : '/' = b := by simpa using hb
                rfl
            | cons d rest =>
                refine hc.last b ?_
                rw [hrest, List.getLast?_append_of_ne_nil _ (by simp)]
                exact hb

namespace Generator

/-- The verdict on a text without blanks at its ends. -/
lemma check_isUnique_iff {e : Text} (he : Text.IsTrim e) {v : Verdict}
    (h : check context e (.node n) namespaces = .ok v) :
    v.isUnique = true ↔ ∃ x, evaluateAt context e namespaces = .ok [x] ∧ n.same x := by
  have hstrip := Text.strip_eq_self he
  rw [check, hstrip] at h
  obtain ⟨b, t, rfl⟩ := List.exists_cons_of_ne_nil he.ne_nil
  cases hev : evaluateAt context (b :: t) namespaces with
  | error why =>
      simp only [hev] at h
      split_ifs at h
      obtain rfl := Except.ok.inj h
      simp [Verdict.isUnique]
  | ok xs =>
      simp only [hev] at h
      obtain rfl := Except.ok.inj h
      match xs with
      | [] => simp [Verdict.ofMatches, Verdict.isUnique]
      | [x] =>
          cases hx : n.same x <;>
            simp [Verdict.ofMatches, Verdict.isUnique, Thing.isNothing, Thing.same, hx]
      | x :: y :: xs => simp [Verdict.ofMatches, Verdict.isUnique]

/-- **What the search tests** of a candidate. -/
theorem findsOnly_iff (hc : Text.IsTrim c) {b : Bool}
    (h : findsOnly c context namespaces n = .ok b) :
    b = true ↔ context.SelectsOnly namespaces n c := by
  rw [findsOnly] at h
  obtain ⟨p, hp, h⟩ := bind_eq_ok.mp h
  rw [Thing.SelectsOnly, hp]
  cases p with
  | node x =>
      obtain rfl : x.same n = b := Except.ok.inj h
      simp
  | expression e =>
      obtain ⟨v, hv, h⟩ := bind_eq_ok.mp h
      obtain rfl : v.isUnique = b := Except.ok.inj h
      rw [check_isUnique_iff (Plan.isTrim_of_expression hc hp) hv]
      simp

/-- Bindings that cannot be used have no name, no namespace or a character that XML
forbids. -/
lemma checkNamespaces_eq_error {why : Failure} (h : checkNamespaces namespaces = .error why) :
    why = .emptyPrefix ∨ why = .emptyNamespace ∨ why = .forbiddenText := by
  induction namespaces with
  | nil => simp [checkNamespaces] at h
  | cons x xs ih =>
      change (checkBinding x >>= fun _ => checkNamespaces xs) = .error why at h
      rcases bind_eq_error.mp h with hx | ⟨-, -, h⟩
      · cases h1 : x.1.isEmpty <;> cases h2 : x.2.isEmpty <;>
          cases h3 : Text.isXmlText x.1 <;> cases h4 : Text.isXmlText x.2 <;>
          simp [checkBinding, checkText, h1, h2, h3, h4, throw, throwThe, MonadExceptOf.throw]
            at hx <;>
          subst hx <;> simp
      · exact ih h

/-- Bindings that cannot be used are no failure of an expression. -/
lemma isPath_of_checkNamespaces {why : Failure} (h : checkNamespaces namespaces = .error why) :
    why.isPath = false := by
  rcases checkNamespaces_eq_error h with rfl | rfl | rfl <;> rfl

/-- What is tested from a node by evaluation is tested with bindings that can be used. -/
lemma checkNamespaces_of_findsOnly {x : Node} {e : Text} {b : Bool} (hc : Text.IsTrim c)
    (hplan : Plan.of c (.node x) = .ok (.expression e))
    (h : findsOnly c (.node x) namespaces n = .ok b) : checkNamespaces namespaces = .ok () := by
  cases hcheck : checkNamespaces namespaces with
  | ok u => rfl
  | error why =>
      have hstrip := Text.strip_eq_self (Plan.isTrim_of_expression hc hplan)
      obtain ⟨y, t, rfl⟩ := List.exists_cons_of_ne_nil (Plan.isTrim_of_expression hc hplan).ne_nil
      have heval : evaluateAt (.node x) (y :: t) namespaces = .error why := by
        simp [evaluateAt, Thing.context?, evaluateElements, evaluate, startNode, hcheck]
      rw [findsOnly, hplan, ok_bind] at h
      obtain ⟨v, hv, -⟩ := bind_eq_ok.mp h
      rw [check, hstrip] at hv
      simp [heval, isPath_of_checkNamespaces hcheck] at hv

/-! ### When the search ends -/

/-- Candidates are tested in order until one finds the element alone. -/
lemma firstThatFinds_some (h : firstThatFinds context namespaces n cs = .ok (some r)) :
    ∃ front back, cs = front ++ r :: back ∧ findsOnly r context namespaces n = .ok true ∧
      ∀ c ∈ front, findsOnly c context namespaces n = .ok false := by
  induction cs with
  | nil => simp [firstThatFinds] at h
  | cons c cs ih =>
      rw [firstThatFinds] at h
      obtain ⟨b, hb, h⟩ := bind_eq_ok.mp h
      cases b with
      | true =>
          obtain rfl : c = r := by simpa using h
          exact ⟨[], cs, rfl, hb, by simp⟩
      | false =>
          obtain ⟨front, back, rfl, hr, hfront⟩ := ih (by simpa using h)
          refine ⟨c :: front, back, rfl, hr, fun x hx => ?_⟩
          rcases List.mem_cons.mp hx with rfl | hx
          · exact hb
          · exact hfront x hx

/-- If none is found all have been tested. -/
lemma firstThatFinds_none (h : firstThatFinds context namespaces n cs = .ok none) :
    ∀ c ∈ cs, findsOnly c context namespaces n = .ok false := by
  induction cs with
  | nil => simp
  | cons c cs ih =>
      rw [firstThatFinds] at h
      obtain ⟨b, hb, h⟩ := bind_eq_ok.mp h
      cases b with
      | true => simp at h
      | false =>
          rw [List.forall_mem_cons]
          exact ⟨hb, ih (by simpa using h)⟩

/-- **The search** among candidates finds one that selects the element alone while no
shorter one does, or none does. -/
theorem of_firstThatFinds {found : Option Text}
    (h : firstThatFinds context namespaces n (candidates steps) = .ok found) :
    (∃ r, found = some r ∧ r ∈ candidates steps ∧ context.SelectsOnly namespaces n r ∧
        ∀ c ∈ candidates steps, c.length < r.length → ¬ context.SelectsOnly namespaces n c) ∨
      found = none ∧ ∀ c ∈ candidates steps, ¬ context.SelectsOnly namespaces n c := by
  have hfalse : ∀ c ∈ candidates steps, findsOnly c context namespaces n = .ok false →
      ¬ context.SelectsOnly namespaces n c := by
    intro c hc hf hsel
    exact absurd ((findsOnly_iff (isTrim_of_mem_candidates hc) hf).mpr hsel) (by simp)
  cases found with
  | none => exact .inr ⟨rfl, fun c hc => hfalse c hc (firstThatFinds_none h c hc)⟩
  | some r =>
      obtain ⟨front, back, hcs, hr, hfront⟩ := firstThatFinds_some h
      have hmem : r ∈ candidates steps := by simp [hcs]
      refine .inl ⟨r, rfl, hmem, (findsOnly_iff (isTrim_of_mem_candidates hmem) hr).mp rfl,
        fun c hc hlt => hfalse c hc (hfront c ?_)⟩
      have hsorted := sorted_candidates steps
      rw [hcs] at hsorted hc
      rcases List.mem_append.mp hc with hc | hc
      · exact hc
      · rcases List.mem_cons.mp hc with rfl | hc
        · exact absurd hlt (lt_irrefl _)
        · have hle := List.rel_of_pairwise_cons (List.pairwise_append.mp hsorted).2.1 hc
          exact absurd hlt (not_lt.mpr hle)

/-! ### The shortest spelling -/

section Made

variable {g : Generator} {o : Option Options} {m : Making} (hg : g.registry = .new none)
  (hn : n.isElement) (hm : g.making? n o = some m) (hs : m.HasNoShortcut)
  (hroot : m.node.same m.root = false)
include hg hn hm hs hroot

/-- The search looks among the candidates, and answers the path if it finds none. -/
lemma outcome_shortest : (g.shortest (.node n) o).outcome =
    (stepsOf m Heuristic.builtIn m.ancestors).outcome >>= fun steps =>
      firstThatFinds (firstPresent [m.settings.root, .node m.root])
          (prefixes m.settings (firstPresent [m.settings.root, .node m.root])) n
          (candidates steps) >>= fun found =>
        .ok (found.getD (normalize (path ['/'] steps))) := by
  rw [shortest, Traced.outcome_bind, outcome_make hg hn hm hs hroot]
  cases (stepsOf m Heuristic.builtIn m.ancestors).outcome with
  | error e => rfl
  | ok steps =>
      simp only [ok_bind, Traced.outcome_bind, Traced.outcome_lift]
      rfl

/-- What the search answers if its candidates are known. -/
lemma shortest_of_candidates (found : Option Text)
    (hsteps : (stepsOf m Heuristic.builtIn m.ancestors).outcome = .ok steps)
    (hcs : candidates steps = cs)
    (hfound : firstThatFinds (firstPresent [m.settings.root, .node m.root])
      (prefixes m.settings (firstPresent [m.settings.root, .node m.root])) n cs = .ok found) :
    (g.shortest (.node n) o).outcome = .ok (found.getD (normalize (path ['/'] steps))) := by
  rw [outcome_shortest hg hn hm hs hroot, hsteps, ok_bind, hcs, hfound, ok_bind]

/-- **What the search answers**: a candidate that selects the element alone while no
shorter one does, or the path, if no candidate does. -/
theorem of_shortest (h : (g.shortest (.node n) o).outcome = .ok r) :
    ∃ steps, (stepsOf m Heuristic.builtIn m.ancestors).outcome = .ok steps ∧
      let context := firstPresent [m.settings.root, .node m.root]
      let namespaces := prefixes m.settings context
      (∃ found, firstThatFinds context namespaces n (candidates steps) = .ok found) ∧
      (r ∈ candidates steps ∧ context.SelectsOnly namespaces n r ∧
          (∀ c ∈ candidates steps, c.length < r.length →
            ¬ context.SelectsOnly namespaces n c) ∨
        r = normalize (path ['/'] steps) ∧
          ∀ c ∈ candidates steps, ¬ context.SelectsOnly namespaces n c) := by
  rw [outcome_shortest hg hn hm hs hroot] at h
  obtain ⟨steps, hsteps, h⟩ := bind_eq_ok.mp h
  obtain ⟨found, hfound, h⟩ := bind_eq_ok.mp h
  obtain rfl := Except.ok.inj h
  refine ⟨steps, hsteps, ⟨found, hfound⟩, ?_⟩
  rcases of_firstThatFinds hfound with ⟨r, rfl, hr⟩ | ⟨rfl, hnone⟩
  · exact .inl hr
  · exact .inr ⟨rfl, hnone⟩

end Made

end Generator

end Locator

/-
Prefixes that cannot be bound

* `evaluateAt_eq_error`: an evaluation is misused only by prefixes without a name or a
  namespace;
* `Generator.evaluates`: the search among candidates comes to one that is to be evaluated;
* `Generator.firstThatFinds_of_checkNamespaces`, `Generator.firstThatFinds_eq_error_cases`:
  **the search is misused** exactly where it comes to one and a prefix cannot be bound;
* `Generator.finish`: what the search for the shortest spelling does behind the path.
-/
import Locator.Proofs.Generator.Blame
import Locator.Proofs.Generator.Failing

namespace Locator

/-! ### Evaluations -/

section Search

open XPath

variable {context : Thing} {namespaces : List (Text × Text)} {n : Node} {s c : Text}
  {cs : List Text} {e : Failure}

/-- Can expressions start here? -/
def Thing.CanStart (context : Thing) : Prop :=
  ∃ site start, context.context? = some site ∧ startNode site = .ok start

lemma startNode_eq_error {site : Context} (h : startNode site = .error e) :
    e = .emptyDocument := by
  cases site with
  | document d =>
      rw [startNode.eq_def] at h
      cases hr : d.root? <;> simp_all
  | node k => simp [startNode] at h

/-- Evaluation is misused only by bindings that cannot be used. -/
lemma evaluateAt_eq_error (h : evaluateAt context s namespaces = .error e) :
    e.isOther ∨ context.CanStart ∧ checkNamespaces namespaces = .error e := by
  rw [evaluateAt] at h
  cases hc : context.context? with
  | none =>
      rw [hc] at h
      exact .inl (Except.error.inj h ▸ rfl)
  | some site =>
      simp only [hc, evaluateElements, evaluate] at h
      rcases bind_eq_error.mp h with h | ⟨ps, -, h⟩
      · rcases bind_eq_error.mp h with h | ⟨start, hstart, h⟩
        · exact .inl (startNode_eq_error h ▸ rfl)
        rcases bind_eq_error.mp h with h | ⟨-, -, h⟩
        · exact .inr ⟨⟨site, start, hc, hstart⟩, h⟩
        left
        rcases bind_eq_error.mp h with h | ⟨-, -, h⟩
        · rw [checkText] at h
          split_ifs at h
          exact Except.error.inj h ▸ rfl
        · split at h
          · exact Except.error.inj h ▸ rfl
          · obtain ⟨why, -, rfl⟩ := mapError_eq_error.mp h
            rfl
      · simp at h

/-- With bindings that cannot be used nothing is evaluated. -/
lemma evaluateAt_of_checkNamespaces (hs : context.CanStart)
    (h : checkNamespaces namespaces = .error e) : evaluateAt context s namespaces = .error e := by
  obtain ⟨site, start, hc, hstart⟩ := hs
  simp [evaluateAt, hc, evaluateElements, evaluate, hstart, h]

namespace Generator

/-- The search among candidates comes to one that is to be evaluated: those in front of it
stand for other nodes. -/
def evaluates (context : Thing) (n : Node) : List Text → Bool
  | [] => false
  | c :: cs =>
    match Plan.of c context with
    | .ok (.expression _) => true
    | .ok (.node m) => !m.same n && evaluates context n cs
    | .error _ => false

/-- What is tested by evaluation fails as the evaluation does. -/
lemma findsOnly_expression {x : Text} (hc : Text.IsTrim c)
    (hplan : Plan.of c context = .ok (.expression x)) :
    findsOnly c context namespaces n =
      match evaluateAt context x namespaces with
      | .ok ns => .ok (Verdict.ofMatches (.node n) ns).isUnique
      | .error why => if why.isPath then .ok false else .error why := by
  have htrim := Plan.isTrim_of_expression hc hplan
  obtain ⟨y, t, rfl⟩ := List.exists_cons_of_ne_nil htrim.ne_nil
  rw [findsOnly, hplan, ok_bind]
  simp only [check, Text.strip_eq_self htrim]
  cases evaluateAt context (y :: t) namespaces with
  | ok ns => rfl
  | error why => cases hp : why.isPath <;> simp [hp, Verdict.isUnique]

/-- The search fails where it comes to an expression and bindings cannot be used. -/
lemma firstThatFinds_of_checkNamespaces (hcs : ∀ c ∈ cs, Text.IsTrim c) (hs : context.CanStart)
    (hb : checkNamespaces namespaces = .error e) (h : evaluates context n cs) :
    firstThatFinds context namespaces n cs = .error e := by
  induction cs with
  | nil => simp [evaluates] at h
  | cons c cs ih =>
      rw [List.forall_mem_cons] at hcs
      rw [evaluates] at h
      rw [firstThatFinds]
      split at h
      · next x hplan =>
        rw [findsOnly_expression hcs.1 hplan, evaluateAt_of_checkNamespaces hs hb]
        simp [isPath_of_checkNamespaces hb]
      · next m hplan =>
        obtain ⟨hm, hrest⟩ : m.same n = false ∧ evaluates context n cs := by simpa using h
        simp [findsOnly, hplan, hm, ih hcs.2 hrest]
      · simp at h

/-- The search is misused only by bindings that cannot be used, where it comes to an
expression. -/
lemma firstThatFinds_eq_error_cases (hcs : ∀ c ∈ cs, Text.IsTrim c)
    (h : firstThatFinds context namespaces n cs = .error e) :
    e.isOther ∨
      context.CanStart ∧ evaluates context n cs ∧ checkNamespaces namespaces = .error e := by
  induction cs with
  | nil => simp [firstThatFinds] at h
  | cons c cs ih =>
      rw [List.forall_mem_cons] at hcs
      rw [firstThatFinds] at h
      cases hplan : Plan.of c context with
      | error why =>
          obtain ⟨-, -, -, rfl⟩ := Plan.eq_error hplan
          simp only [findsOnly, hplan, error_bind] at h
          exact .inl (Except.error.inj h ▸ rfl)
      | ok plan =>
          cases plan with
          | node m =>
              simp only [findsOnly, hplan, ok_bind, pure_eq_ok] at h
              cases hm : m.same n with
              | true => simp [hm] at h
              | false =>
                  have hrest := ih hcs.2 (by simpa [hm] using h)
                  simpa only [evaluates, hplan, hm, Bool.not_false, Bool.true_and] using hrest
          | expression x =>
              have hevaluates : evaluates context n (c :: cs) := by simp [evaluates, hplan]
              rcases bind_eq_error.mp h with h | ⟨b, -, h⟩
              · rw [findsOnly_expression hcs.1 hplan] at h
                split at h
                · simp at h
                · next why hwhy =>
                  split_ifs at h
                  obtain rfl := Except.error.inj h
                  rcases evaluateAt_eq_error hwhy with hother | ⟨hs, hb⟩
                  · exact .inl hother
                  · exact .inr ⟨hs, hevaluates, hb⟩
              · split_ifs at h
                · simp at h
                · rcases ih hcs.2 h with hother | ⟨hs, -, hb⟩
                  · exact .inl hother
                  · exact .inr ⟨hs, hevaluates, hb⟩

end Generator

end Search

/-! ### The end of the search -/

namespace Generator

open XPath

variable {g : Generator} {o : Option Options} {thing : Thing} {e : Failure}

/-- What the search for the shortest spelling does behind the path. -/
def finish (thing : Thing) (made : Made) : Traced Text :=
  match made.steps, thing with
  | some steps, .node n => do
    let context := firstPresent [made.settings.root, .node made.root]
    let found ← Traced.lift
      (firstThatFinds context (prefixes made.settings context) n (candidates steps))
    return found.getD made.path
  | _, _ => return made.path

lemma shortest_eq_finish : g.shortest thing o = g.make thing o >>= finish thing := rfl

/-- The search fails only where it looks among candidates. -/
lemma finish_eq_error {made : Made} :
    (finish thing made).outcome = .error e ↔ ∃ n steps, thing = .node n ∧
      made.steps = some steps ∧
      firstThatFinds (firstPresent [made.settings.root, .node made.root])
        (prefixes made.settings (firstPresent [made.settings.root, .node made.root])) n
        (candidates steps) = .error e := by
  rw [finish.eq_def]
  split
  · next steps n hsteps =>
    rw [Traced.outcome_bind, Traced.outcome_lift, bind_eq_error]
    simp [hsteps]
  · next hno =>
    simp only [Traced.outcome_monad_pure, reduceCtorEq, false_iff]
    rintro ⟨n, steps, rfl, hsteps, -⟩
    exact hno steps n hsteps rfl

lemma calls_finish (thing : Thing) (made : Made) : (finish thing made).calls = [] := by
  rw [finish.eq_def]
  split
  · rw [Traced.calls_bind]
    cases (Traced.lift _ : Traced (Option Text)).outcome <;> rfl
  · rfl

lemma isRefusal_of_finish {made : Made} (h : (finish thing made).outcome = .error e) :
    e.isRefusal = false := by
  obtain ⟨n, steps, -, -, h⟩ := finish_eq_error.mp h
  rcases firstThatFinds_eq_error_cases (fun c => isTrim_of_mem_candidates) h with h | ⟨-, -, h⟩
  · simpa using (Bool.and_eq_true_iff.mp h).1
  · rcases checkNamespaces_eq_error h with rfl | rfl | rfl <;> rfl

end Generator

end Locator

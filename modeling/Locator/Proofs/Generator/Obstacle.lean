/-
Why the path of an element cannot be made

* `XPath.evaluate_eq_error`: an expression fails as one, or it holds a character that
  XML forbids;
* `Css.AsksForbidden`: the path of a selector holds such a character, and
  `isAttributeUnique_eq_error`: this alone keeps the uniqueness of a value from being told;
* `Generator.Obstacle`: what is in the way of a path, a name, an attribute or a value;
* `Generator.make_eq_error`: **without an obstacle** a path is made with the built-in
  heuristics, or the element is not inside the root.
-/
import Locator.Proofs.Generator.Hooks
import Locator.Proofs.Uniqueness.Exact

namespace Locator

open XPath

variable {d : Document} {n : Node} {s a v : Text} {e : Failure}

/-! ### Expressions and selectors -/

namespace XPath

variable {c : Context} {namespaces : List (Text × Text)}

/-- An expression fails as one, or it holds a character that XML forbids. -/
lemma evaluate_eq_error (hc : StartsAt c n namespaces)
    (h : evaluate s c namespaces = .error e) :
    e.isPath = true ∨ Text.isXmlText s = false ∧ e = .forbiddenText := by
  rw [evaluate, hc.start, ok_bind, hc.bound, ok_bind, checkText] at h
  split_ifs at h with hx
  · left
    rw [ok_bind] at h
    cases hr : Expr.read? s with
    | none =>
        obtain rfl : .path .malformed = e := by simpa [hr] using h
        rfl
    | some x =>
        simp only [hr, selectFrom] at h
        obtain ⟨why, -, rfl⟩ := mapError_eq_error.mp h
        rfl
  · exact .inr ⟨by simpa using hx, (Except.error.inj h).symm⟩

/-- The same for the elements that it selects. -/
lemma evaluateElements_eq_error (hc : StartsAt c n namespaces)
    (h : evaluateElements s c namespaces = .error e) :
    e.isPath = true ∨ Text.isXmlText s = false ∧ e = .forbiddenText := by
  rcases bind_eq_error.mp h with h | ⟨ps, -, h⟩
  · exact evaluate_eq_error hc h
  · simp at h

end XPath

/-- A selector is read, and its path holds a character that XML forbids. -/
def Css.AsksForbidden (selector : Text) : Prop :=
  ∃ path, Css.queryPath selector = .ok path ∧ Text.isXmlText path = false

/-- A selector is none, or its path fails. -/
lemma querySelector_eq_error (h : querySelector n s = .error e) :
    e.isSelector = true ∨ e.isPath = true ∨ Css.AsksForbidden s ∧ e = .forbiddenText := by
  rcases bind_eq_error.mp h with h | ⟨path, hpath, h⟩
  · obtain ⟨why, -, rfl⟩ := mapError_eq_error.mp h
    exact .inl rfl
  · have hq := mapError_eq_ok.mp hpath
    exact .inr ((evaluateElements_eq_error ⟨rfl, rfl⟩ h).imp_right fun ⟨hx, he⟩ =>
      ⟨⟨path, hq, hx⟩, he⟩)

/-! ### Attributes -/

/-- An attribute is asked for by a text that holds what XML forbids, or that is no
name. -/
lemma Node.lookUp_eq_error (h : n.lookUp a = .error e) :
    Text.isXmlText a = false ∧ e = .forbiddenText ∨ splitExpanded a = .error e := by
  rw [lookUp] at h
  cases hn : n.isElement
  · simp [hn] at h
  · cases hx : Text.isXmlText a
    · exact .inl ⟨rfl, by simpa [hn, hx, bind, Except.bind, throw, throwThe, MonadExceptOf.throw,
        eq_comm] using h⟩
    · rw [hn, hx] at h
      rcases bind_eq_error.mp h with h | ⟨key, -, h⟩
      · exact .inr h
      · simp at h

/-- An identifier can be asked for. -/
lemma Node.exists_lookUp_id (n : Node) : ∃ o, n.lookUp "id".toList = .ok o := by
  cases h : n.lookUp "id".toList with
  | ok o => exact ⟨o, rfl⟩
  | error e =>
      rcases lookUp_eq_error h with ⟨hx, -⟩ | hs
      · exact absurd hx (by decide)
      · exact absurd hs (by simp [splitExpanded_of_head])

/-- A count fails only where a value cannot be looked up. -/
lemma countFrom_eq_error {value : Option Text} {limit : Option ℤ} {fuel count : ℕ}
    {stack : List Node} (h : countFrom a value limit fuel stack count = .error e) :
    ∃ m, hasValue a value m = .error e := by
  induction fuel generalizing stack count with
  | zero => simp [countFrom] at h
  | succ fuel ih =>
      cases stack with
      | nil => simp [countFrom] at h
      | cons m stack =>
          rw [countFrom] at h
          rcases bind_eq_error.mp h with h | ⟨b, -, h⟩
          · exact ⟨m, h⟩
          · split_ifs at h
            · simp at h
            · exact ih h
            · exact ih h

/-- **Whether a value is unique** cannot be told only where the selector for it asks
for what XML forbids. -/
theorem isAttributeUnique_eq_error {scope : Option Node} (hv : n.lookUp a = .ok (some v))
    (h : isAttributeUnique n a scope = .error e) :
    Css.AsksForbidden (Css.attributeTest a v) ∧ e = .forbiddenText := by
  cases scope with
  | none => simp [isAttributeUnique] at h
  | some root =>
      simp only [isAttributeUnique, hv, ok_bind] at h
      cases hq : queryAttribute root a v with
      | ok k => simp [hq] at h
      | error why =>
          simp only [hq] at h
          split_ifs at h with hcaught
          · obtain ⟨m, hm⟩ := countFrom_eq_error ((bind_eq_error.mp h).resolve_right (by simp))
            simp [hasValue_eq hv m] at hm
          · obtain rfl := Except.error.inj h
            simp only [Bool.or_eq_true, not_or] at hcaught
            rcases bind_eq_error.mp hq with hq | ⟨ns, -, hq⟩
            · exact ((querySelector_eq_error hq).resolve_left hcaught.1).resolve_left hcaught.2
            · simp at hq

/-! ### Obstacles -/

/-- A node is an element of a document. -/
structure Node.IsElementOf (n : Node) (d : Document) : Prop where
  document_eq : n.document = d
  isElement : n.isElement = true

/-- The elements around an element are elements of its document. -/
lemma Node.IsElementOf.of_mem_ancestors (h : n.IsElementOf d) {k : Node} (hk : k ∈ n.ancestors) :
    k.IsElementOf d :=
  let ⟨hdoc, hel⟩ := Locator.of_mem_ancestors h.isElement hk
  ⟨hdoc.trans h.document_eq, hel⟩

/-- The root element of a document is one of its elements. -/
lemma Document.isElementOf_root {r : Node} (h : d.root? = some r) : r.IsElementOf d :=
  let ⟨hd, hel⟩ := Context.isElement_of_element? (c := .document d) h
  ⟨hd, hel⟩

/-- What is in the way of the path of an element of a document, where attributes are
tried, and the failure it leads to. -/
inductive Generator.Obstacle (d : Document) (attributes : List Text) : Failure → Prop
  /-- The name of an element cannot stand in a path. -/
  | name {n : Node} (hn : n.IsElementOf d) (h : n.pathName? = none) :
    Obstacle d attributes .unnameable
  /-- The name of an attribute that is tried holds a character that XML forbids. -/
  | text {a : Text} (ha : a ∈ attributes) (h : Text.isXmlText a = false) :
    Obstacle d attributes .forbiddenText
  /-- An attribute that is tried has no name. -/
  | key {a : Text} {e : Failure} (ha : a ∈ attributes) (h : splitExpanded a = .error e) :
    Obstacle d attributes e
  /-- The selector for the value of an identifier or of an attribute that is tried asks
  for a character that XML forbids. -/
  | value {n : Node} {a v : Text} (hn : n.IsElementOf d) (ha : a ∈ "id".toList :: attributes)
    (hv : n.lookUp a = .ok (some v)) (h : Css.AsksForbidden (Css.attributeTest a v)) :
    Obstacle d attributes .forbiddenText

namespace Generator

open Heuristic

variable {m : Making} {as : List Text}

/-! ### Obstacles to heuristics -/

lemma obstacle_provideById (hn : m.node.IsElementOf d) (h : provideById m = .error e) :
    Obstacle d as e := by
  obtain ⟨o, ho⟩ := m.node.exists_lookUp_id
  rw [provideById, ho, ok_bind] at h
  cases o with
  | none => simp at h
  | some v =>
      simp only at h
      split_ifs at h
      · simp at h
      · rcases bind_eq_error.mp h with h | ⟨unique, -, h⟩
        · obtain ⟨hask, rfl⟩ := isAttributeUnique_eq_error ho h
          exact .value hn List.mem_cons_self ho hask
        · cases unique <;> simp at h

lemma obstacle_provideByFirst (hn : m.node.IsElementOf d) {tried : List Text}
    (ht : ∀ a ∈ tried, a ∈ as) (h : provideByFirst m tried = .error e) : Obstacle d as e := by
  induction tried with
  | nil => simp [provideByFirst] at h
  | cons a tried ih =>
      rw [List.forall_mem_cons] at ht
      have ih := ih ht.2
      rcases bind_eq_error.mp h with h | ⟨o, ho, h⟩
      · rcases Node.lookUp_eq_error h with ⟨hx, rfl⟩ | hs
        · exact .text ht.1 hx
        · exact .key ht.1 hs
      · split at h
        · rcases bind_eq_error.mp h with h | ⟨unique, -, h⟩
          · obtain ⟨hask, rfl⟩ := isAttributeUnique_eq_error ho h
            exact .value hn (List.mem_cons_of_mem _ ht.1) ho hask
          · cases unique with
            | false => exact ih h
            | true => simp at h
        · exact ih h

/-- An element that has no step has no name for one. -/
lemma stepName_eq_error (h : stepName n = .error e) : n.pathName? = none ∧ e = .unnameable := by
  rw [stepName] at h
  cases hp : n.pathName? with
  | none => exact ⟨rfl, by simpa [hp, eq_comm] using h⟩
  | some t => simp [hp] at h

lemma obstacle_stepName (hn : n.IsElementOf d) (h : stepName n = .error e) : Obstacle d as e := by
  obtain ⟨hnone, rfl⟩ := stepName_eq_error h
  exact .name hn hnone

/-- No heuristic fails without a hook that does. -/
lemma provided_eq_error {hs : List Heuristic} (h : (provided m hs).outcome = .error e) :
    ∃ k ∈ hs, ∃ hook, k.provide = some hook ∧ hook m = .error e := by
  induction hs with
  | nil => simp [provided, Traced.pure] at h
  | cons k hs ih =>
      have hrest : (provided m hs).outcome = .error e →
          ∃ j ∈ k :: hs, ∃ hook, j.provide = some hook ∧ hook m = .error e := by
        intro h
        obtain ⟨j, hj, hhook⟩ := ih h
        exact ⟨j, List.mem_cons_of_mem k hj, hhook⟩
      cases hk : k.provide with
      | none =>
          rw [provided, hk] at h
          exact hrest h
      | some hook =>
          rw [outcome_provided_cons hk] at h
          rcases bind_eq_error.mp h with h | ⟨x, -, h⟩
          · exact ⟨k, by simp, hook, hk, h⟩
          · split_ifs at h
            exact hrest h

lemma obstacle_provided (hn : m.node.IsElementOf d)
    (h : (provided m builtIn).outcome = .error e) : Obstacle d m.settings.attributes e := by
  obtain ⟨k, hk, hook, hhook, h⟩ := provided_eq_error h
  simp only [builtIn, List.mem_cons, List.not_mem_nil, or_false] at hk
  rcases hk with hk | hk | hk | hk <;> rw [hk] at hhook
  · obtain rfl : provideById = hook := Option.some.inj hhook
    exact obstacle_provideById hn h
  · obtain rfl : provideByAttribute = hook := Option.some.inj hhook
    rw [provideByAttribute] at h
    split_ifs at h
    exact obstacle_provideByFirst hn (fun _ => id) h
  · obtain rfl : provideRoot = hook := Option.some.inj hhook
    rw [provideRoot] at h
    split_ifs at h
    · exact obstacle_stepName hn ((bind_eq_error.mp h).resolve_right (by simp))
    · simp at h
  · have hnone : keepSteps.provide = none := rfl
    exact absurd (hhook.symm.trans hnone) (Option.some_ne_none hook)

/-- Steps fail only where an element has no name for one. -/
lemma obstacle_stepsOf {ns : List Node} (hns : ∀ k ∈ ns, k.IsElementOf d)
    (h : (stepsOf m builtIn ns).outcome = .error e) : Obstacle d as e := by
  induction ns with
  | nil => simp [stepsOf, Traced.pure] at h
  | cons n ns ih =>
      rw [List.forall_mem_cons] at hns
      have hann : (announce { m with node := n } builtIn).outcome = .ok () := rfl
      simp only [stepsOf, Traced.outcome_bind, hann, ok_bind, Traced.outcome_lift] at h
      rcases bind_eq_error.mp h with h | ⟨segment, -, h⟩
      · rcases bind_eq_error.mp h with h | ⟨tag, -, h⟩
        · exact obstacle_stepName hns.1 h
        · split_ifs at h <;> simp at h
      · have hkeep : ∃ t, (decorated n m.settings.strategy segment builtIn).outcome = .ok t := by
          cases segment <;> exact ⟨_, rfl⟩
        obtain ⟨t, ht⟩ := hkeep
        rw [ht, ok_bind] at h
        rcases bind_eq_error.mp h with h | ⟨others, -, h⟩
        · exact ih hns.2 h
        · simp at h

/-! ### Obstacles to paths -/

variable {g : Generator} {o : Option Options}

/-- The elements up to the root are elements of the document. -/
lemma isElementOf_of_mem_ancestors (hn : n.IsElementOf d) (hm : g.making? n o = some m) {k : Node}
    (hk : k ∈ m.ancestors) : k.IsElementOf d := by
  rw [ancestors_of_making? hm] at hk
  exact hn.of_mem_ancestors ((isPrefix_upTo _ _).subset hk)

/-- Nothing is made for an element without a root, or outside it. -/
lemma make_of_making?_eq_none (hn : n.isElement) (hm : g.making? n o = none) :
    (g.make (.node n) o).outcome = .error .noRoot ∨
      (g.make (.node n) o).outcome = .error .outsideRoot := by
  rw [making?] at hm
  cases hr : rootElement? (g.settings o) (some n.document) n with
  | none => simp [make, Thing.element?, hn, hr]
  | some root =>
      cases ha : chainTo n root with
      | none => simp [make, Thing.element?, hn, hr, ha]
      | some ancestors => simp [hr, ha] at hm

/-- **Without an obstacle** the path of an element is made with the built-in heuristics, or
the element is not inside the root. -/
theorem make_eq_error (hg : g.registry = .new none) (hn : n.IsElementOf d)
    (h : (g.make (.node n) o).outcome = .error e) :
    e = .noRoot ∨ e = .outsideRoot ∨ Obstacle d (g.settings o).attributes e := by
  cases hm : g.making? n o with
  | none =>
      rcases make_of_making?_eq_none hn.isElement hm with hnone | hout
      · exact .inl (Except.error.inj (h.symm.trans hnone))
      · exact .inr (.inl (Except.error.inj (h.symm.trans hout)))
  | some m =>
      have hb : (Registry.new none).heuristics = builtIn := rfl
      rw [make_eq hn.isElement hm, hg, hb, outcome_makeInside] at h
      obtain ⟨hnode, hsettings⟩ := of_making? hm
      rw [← hsettings]
      refine .inr (.inr ?_)
      rcases bind_eq_error.mp h with h | ⟨x, -, h⟩
      · exact obstacle_provided (hnode ▸ hn) h
      · cases x with
        | some answer => simp at h
        | none =>
            refine obstacle_stepsOf (fun k => isElementOf_of_mem_ancestors hn hm)
              ((bind_eq_error.mp h).resolve_right (by simp))

/-- The same for the path alone. -/
lemma pathOf_eq_error (hg : g.registry = .new none) (hn : n.IsElementOf d)
    (h : (g.pathOf (.node n) o).outcome = .error e) :
    e = .noRoot ∨ e = .outsideRoot ∨ Obstacle d (g.settings o).attributes e := by
  rw [pathOf, Traced.outcome_bind] at h
  exact make_eq_error hg hn ((bind_eq_error.mp h).resolve_right (by simp))

end Generator

end Locator

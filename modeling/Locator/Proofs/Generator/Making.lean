/-
Making paths with the built-in heuristics

* `Traced.outcome_bind`: the outcome of one result after the other;
* `Making.IsShortcut`, `Making.HasNoShortcut`: a path is made by an attribute, or
  it is not; `Making.shortcut_cases`: there is no third way;
* `Generator.making?`: what is known when a path is made;
  `Generator.making?_eq`: the elements around up to the root;
* `Generator.pathOf_shortcut`, `Generator.pathOf_steps`: **the path** that is made
  by an attribute, and otherwise from the steps on the way from the root.
-/
import Locator.Proofs.Generator.Cut

namespace Locator

/-! ### Outcomes of traced results -/

namespace Traced

variable {α β : Type}

@[simp]
lemma outcome_pure (a : α) : (pure a : Traced α).outcome = .ok a := rfl

@[simp]
lemma outcome_monad_pure (a : α) : (Pure.pure a : Traced α).outcome = .ok a := rfl

@[simp]
lemma outcome_lift (o : Outcome α) : (lift o).outcome = o := rfl

@[simp]
lemma outcome_call (c : Call) (o : Outcome α) : (call c o).outcome = o := rfl

@[simp]
lemma outcome_bind (x : Traced α) (f : α → Traced β) :
    (x >>= f).outcome = (x.outcome >>= fun a => (f a).outcome) := by
  rcases x with ⟨calls, _ | _⟩ <;> rfl

end Traced

/-! ### Shortcuts -/

namespace Making

open Heuristic

/-- The first of the built-in heuristics that answers gives the path to the elements
with the value `v` of the attribute `a`. -/
def IsShortcut (m : Making) (a v : Text) : Prop :=
  provideById m = .ok (.text (XPath.attributePath a v)) ∨
    provideById m = .ok .none ∧ provideByAttribute m = .ok (.text (XPath.attributePath a v))

/-- No built-in heuristic answers for an attribute. -/
def HasNoShortcut (m : Making) : Prop :=
  provideById m = .ok .none ∧ provideByAttribute m = .ok .none

/-- The path by identifier is that by an attribute. -/
lemma provideById_cases {m : Making} {x : Answer} (h : provideById m = .ok x) :
    x = .none ∨ ∃ v, x = .text (XPath.attributePath "id".toList v) ∧
      m.node.lookUp "id".toList = .ok (some v) := by
  obtain ⟨value, hl, h⟩ := bind_eq_ok.mp h
  cases value with
  | none => exact .inl (Except.ok.inj h).symm
  | some v =>
      simp only at h
      split_ifs at h
      · exact .inl (Except.ok.inj h).symm
      · obtain ⟨unique, -, h⟩ := bind_eq_ok.mp h
        cases unique with
        | false => exact .inl (Except.ok.inj h).symm
        | true => exact .inr ⟨v, (Except.ok.inj h).symm, hl⟩

lemma provideByFirst_cases {m : Making} {as : List Text} {x : Answer}
    (h : provideByFirst m as = .ok x) :
    x = .none ∨ ∃ a ∈ as, ∃ v, x = .text (XPath.attributePath a v) ∧
      m.node.lookUp a = .ok (some v) := by
  induction as with
  | nil => exact .inl (Except.ok.inj h).symm
  | cons a as ih =>
      have hrest : provideByFirst m as = .ok x → x = .none ∨
          ∃ b ∈ a :: as, ∃ v, x = .text (XPath.attributePath b v) ∧
            m.node.lookUp b = .ok (some v) := by
        intro h
        exact (ih h).imp_right fun ⟨b, hb, hv⟩ => ⟨b, List.mem_cons_of_mem a hb, hv⟩
      obtain ⟨value, hl, h⟩ := bind_eq_ok.mp h
      split at h
      · next c r =>
        obtain ⟨unique, -, h⟩ := bind_eq_ok.mp h
        cases unique with
        | false => exact hrest h
        | true => exact .inr ⟨a, by simp, c :: r, (Except.ok.inj h).symm, hl⟩
      · exact hrest h

lemma provideByAttribute_cases {m : Making} {x : Answer} (h : provideByAttribute m = .ok x) :
    x = .none ∨ ∃ a ∈ m.settings.attributes, ∃ v, x = .text (XPath.attributePath a v) ∧
      m.node.lookUp a = .ok (some v) := by
  rw [provideByAttribute] at h
  split_ifs at h
  · exact .inl (Except.ok.inj h).symm
  · exact provideByFirst_cases h

/-- What the built-in heuristics answer if they answer at all: the path by an
attribute, or none by one. -/
lemma shortcut_cases {m : Making} {x y : Answer} (hx : provideById m = .ok x)
    (hy : x = .none → provideByAttribute m = .ok y) :
    m.HasNoShortcut ∨ ∃ a v, m.IsShortcut a v ∧ m.node.lookUp a = .ok (some v) ∧
      a ∈ "id".toList :: m.settings.attributes := by
  rcases provideById_cases hx with rfl | ⟨v, rfl, hl⟩
  · rcases provideByAttribute_cases (hy rfl) with rfl | ⟨a, ha, v, rfl, hl⟩
    · exact .inl ⟨hx, hy rfl⟩
    · exact .inr ⟨a, v, .inr ⟨hx, hy rfl⟩, hl, List.mem_cons_of_mem _ ha⟩
  · exact .inr ⟨_, v, .inl hx, hl, List.mem_cons_self⟩

end Making

/-! ### The built-in heuristics -/

namespace Generator

open Heuristic

lemma isTruthy_attributePath (a v : Text) :
    (Answer.text (XPath.attributePath a v)).isTruthy = true := by
  simp [Answer.isTruthy, XPath.attributePath_eq]

/-- The first heuristic is asked first. -/
lemma outcome_provided_cons {m : Making} {h : Heuristic} {hook : Making → Outcome Answer}
    (hh : h.provide = some hook) (hs : List Heuristic) :
    (provided m (h :: hs)).outcome = hook m >>= fun x =>
      if x.isTruthy then .ok (some x) else (provided m hs).outcome := by
  simp only [provided, hh, Traced.outcome_bind, Traced.outcome_call]
  congr 1
  funext x
  split_ifs <;> rfl

/-- The built-in heuristics answer with a path by an attribute. -/
lemma provided_shortcut {m : Making} {a v : Text} (h : m.IsShortcut a v) :
    (provided m builtIn).outcome = .ok (some (.text (XPath.attributePath a v))) := by
  have ht := isTruthy_attributePath a v
  have hnone : ¬ Answer.none.isTruthy = true := Bool.false_ne_true
  rcases h with h | ⟨hid, h⟩
  · rw [builtIn, outcome_provided_cons rfl, h, ok_bind, if_pos ht]
  · rw [builtIn, outcome_provided_cons rfl, hid, ok_bind, if_neg hnone,
      outcome_provided_cons rfl, h, ok_bind, if_pos ht]

/-- Without a path by an attribute they answer for the root alone. -/
lemma provided_root {m : Making} (h : m.HasNoShortcut) :
    (provided m builtIn).outcome =
      if m.node.same m.root then (stepName m.node).map fun s => some (.text ('/' :: s))
      else .ok none := by
  have hnone : ¬ Answer.none.isTruthy = true := Bool.false_ne_true
  rw [builtIn, outcome_provided_cons rfl, h.1, ok_bind, if_neg hnone,
    outcome_provided_cons rfl, h.2, ok_bind, if_neg hnone, outcome_provided_cons rfl, provideRoot]
  split_ifs
  · cases stepName m.node <;> rfl
  · rfl

lemma pathName?_of_stepName {n : Node} {s : Text} (h : stepName n = .ok s) :
    n.pathName?.isSome := by
  rw [stepName] at h
  cases hp : n.pathName? with
  | none => simp [hp] at h
  | some t => rfl

/-- Otherwise there is a step for every element up to the root. -/
lemma stepsOf_eq (m : Making) {ns : List Node}
    (h : ∀ n ∈ ns, ∃ name, n.name? = some name ∧ name.isXml = true) :
    (stepsOf m builtIn ns).outcome =
      .ok (ns.map (Node.stepText m.settings.strategy)).reverse := by
  induction ns with
  | nil => rfl
  | cons n ns ih =>
      obtain ⟨name, hn, hx⟩ := h n (by simp)
      have hkeep : (decorated n m.settings.strategy (n.stepText m.settings.strategy)
          builtIn).outcome = .ok (n.stepText m.settings.strategy) := by
        cases hs : n.stepText m.settings.strategy <;> rfl
      have hann : (announce { m with node := n } builtIn).outcome = .ok () := rfl
      simp [stepsOf, step_eq hn hx, hkeep, hann, ih fun n hn => h n (by simp [hn])]

/-- If the built-in heuristics do not fail, an attribute makes the path or none does. -/
lemma shortcut_cases_of_provided {m : Making} {x : Option Answer}
    (h : (provided m builtIn).outcome = .ok x) :
    m.HasNoShortcut ∨ ∃ a v, m.IsShortcut a v ∧ m.node.lookUp a = .ok (some v) ∧
      a ∈ "id".toList :: m.settings.attributes := by
  rw [builtIn, outcome_provided_cons rfl] at h
  obtain ⟨y, hy, h⟩ := bind_eq_ok.mp h
  by_cases hnone : y = .none
  · subst hnone
    have hanswer : ¬ Answer.none.isTruthy = true := Bool.false_ne_true
    rw [if_neg hanswer, outcome_provided_cons rfl] at h
    obtain ⟨z, hz, -⟩ := bind_eq_ok.mp h
    exact Making.shortcut_cases hy fun _ => hz
  · exact Making.shortcut_cases (y := .none) hy fun h => absurd h hnone

/-- Steps are made only for elements whose names paths can say. -/
lemma pathName?_of_stepsOf {m : Making} {ns : List Node} {steps : List Text}
    (h : (stepsOf m builtIn ns).outcome = .ok steps) : ∀ k ∈ ns, k.pathName?.isSome := by
  induction ns generalizing steps with
  | nil => simp
  | cons n ns ih =>
      simp only [stepsOf, Traced.outcome_bind] at h
      obtain ⟨-, -, h⟩ := bind_eq_ok.mp h
      obtain ⟨segment, hstep, h⟩ := bind_eq_ok.mp h
      obtain ⟨text, -, h⟩ := bind_eq_ok.mp h
      obtain ⟨others, hrest, -⟩ := bind_eq_ok.mp h
      obtain ⟨tag, htag, -⟩ := bind_eq_ok.mp hstep
      intro k hk
      rcases List.mem_cons.mp hk with rfl | hk
      · exact pathName?_of_stepName htag
      · exact ih hrest k hk

end Generator

/-! ### The elements around -/

/-- The pieces around an element are elements of its document. -/
lemma of_mem_ancestors {n k : Node} (hn : n.isElement) (hk : k ∈ n.ancestors) :
    k.document = n.document ∧ k.isElement := by
  rw [Node.ancestors, List.mem_cons, List.mem_filter, List.mem_map] at hk
  rcases hk with rfl | ⟨⟨b, -, rfl⟩, hel⟩
  · exact ⟨rfl, hn⟩
  · exact ⟨rfl, hel⟩

section Ancestors

variable {d : Document} {a : Address} {way : List ℕ}

/-- The piece around a piece that is not at the top is an element. -/
lemma isElementAt_of_cons {i : ℕ} (ha : a ≠ []) (h : d.isElementAt (i :: a)) : d.isElementAt a := by
  obtain ⟨m, hm, -⟩ := Document.isElementAt_iff.mp h
  obtain ⟨e, he, hel⟩ := Document.isElement_of_get? ha hm
  exact Document.isElementAt_iff.mpr ⟨e, he, hel⟩

/-- Around an element on a way are the elements on the way and those around its
start. -/
lemma ancestors_append (ha : a ≠ []) (h : d.isElementAt (way ++ a)) :
    (⟨d, way ++ a⟩ : Node).ancestors = Node.along d a way ++ (⟨d, a⟩ : Node).ancestors := by
  induction way with
  | nil => rfl
  | cons i way ih =>
      have hel := isElementAt_of_cons (by simp [ha]) h
      have hnode : (⟨d, way ++ a⟩ : Node).isElement = true := Document.isElement_iff.mpr hel
      have ih := ih hel
      rw [Node.along, List.cons_append, List.cons_append, ← ih, Node.ancestors, Node.ancestors]
      simp only [Address.above, List.map_cons, List.filter_cons, Node.moved, hnode, if_true]
      rfl

lemma length_address_of_mem_along {n : Node} (h : n ∈ Node.along d a way) :
    n.document = d ∧ a.length < n.address.length := by
  induction way with
  | nil => simp [Node.along] at h
  | cons i way ih =>
      rcases List.mem_cons.mp h with rfl | h
      · exact ⟨rfl, by rw [List.length_cons, List.length_append]; omega⟩
      · exact ih h

/-- The elements from an element up to a root that it is inside of. -/
lemma chainTo_eq (ha : a ≠ []) (h : d.isElementAt (way ++ a)) :
    Generator.chainTo ⟨d, way ++ a⟩ ⟨d, a⟩ = some (Node.along d a way ++ [⟨d, a⟩]) := by
  obtain ⟨rest, hrest⟩ : ∃ rest, (⟨d, a⟩ : Node).ancestors = ⟨d, a⟩ :: rest := ⟨_, rfl⟩
  have hin : ∀ m ∈ Node.along d a way, (!m.same ⟨d, a⟩) = true := by
    intro m hm
    have hl := (length_address_of_mem_along hm).2
    have hne : m.address ≠ a := fun heq => by simp [heq] at hl
    simp [Node.same, hne]
  have htop : (!(⟨d, a⟩ : Node).same ⟨d, a⟩) = false := by simp [Node.same]
  rw [Generator.chainTo, ancestors_append ha h, hrest, List.span_eq_takeWhile_dropWhile,
    List.takeWhile_append_of_pos hin, List.dropWhile_append_of_pos hin]
  simp [htop]

lemma along_append (d : Document) (a : Address) (way : List ℕ) (i : ℕ) :
    Node.along d a (way ++ [i]) = Node.along d (i :: a) way ++ [⟨d, i :: a⟩] := by
  induction way with
  | nil => rfl
  | cons j way ih => simp [Node.along, ih]

end Ancestors

/-! ### Paths -/

namespace Generator

open Heuristic XPath

/-- What is known when the path of an element is made, if it has one. -/
def making? (g : Generator) (n : Node) (o : Option Options) : Option Making := do
  let root ← rootElement? (g.settings o) (some n.document) n
  let ancestors ← chainTo n root
  return ⟨n, root, g.settings o, ancestors⟩

variable {g : Generator} {n : Node} {o : Option Options} {m : Making}

/-- What is made has the element and the settings of the call. -/
lemma of_making? (hm : g.making? n o = some m) : m.node = n ∧ m.settings = g.settings o := by
  obtain ⟨root, -, hm⟩ := Option.bind_eq_some_iff.mp hm
  obtain ⟨ancestors, -, hm⟩ := Option.bind_eq_some_iff.mp hm
  obtain rfl := Option.some.inj hm
  exact ⟨rfl, rfl⟩

lemma make_eq (hn : n.isElement) (hm : g.making? n o = some m) :
    g.make (.node n) o = makeInside g.registry.heuristics m := by
  obtain ⟨root, hr, hm⟩ := Option.bind_eq_some_iff.mp hm
  obtain ⟨ancestors, ha, hm⟩ := Option.bind_eq_some_iff.mp hm
  obtain rfl := Option.some.inj hm
  simp [make, Thing.element?, hn, hr, ha]

/-- **The path by an attribute**, if a built-in heuristic answers with it. -/
theorem pathOf_shortcut (hg : g.registry = .new none) (hn : n.isElement)
    (hm : g.making? n o = some m) {a v : Text} (h : m.IsShortcut a v) :
    (g.pathOf (.node n) o).outcome = .ok (normalize (attributePath a v)) := by
  have hp := provided_shortcut h
  have hb : (Registry.new none).heuristics = builtIn := rfl
  simp [pathOf, make_eq hn hm, hg, hb, makeInside, hp, Answer.normal]

/-- **The path of the root** is its name behind a slash. -/
theorem pathOf_root (hg : g.registry = .new none) (hn : n.isElement)
    (hm : g.making? n o = some m) (h : m.HasNoShortcut) (hroot : m.node.same m.root)
    {s : Text} (hs : stepName m.node = .ok s) :
    (g.pathOf (.node n) o).outcome = .ok (normalize (slashed [s])) := by
  have hp := provided_root h
  have hb : (Registry.new none).heuristics = builtIn := rfl
  rw [if_pos hroot, hs] at hp
  simp [pathOf, make_eq hn hm, hg, hb, makeInside, hp, Except.map, Answer.normal, slashed]

/-- What is made with the built-in heuristics: the path that one of them answers, or the steps
up to the root and the path of them. -/
lemma outcome_makeInside (m : Making) : (makeInside builtIn m).outcome =
    (provided m builtIn).outcome >>= fun x =>
      match x with
      | some answer => .ok ⟨answer.normal, m.settings, m.root, none⟩
      | none => (stepsOf m builtIn m.ancestors).outcome >>= fun steps =>
          .ok ⟨normalize (path ['/'] steps), m.settings, m.root, some steps⟩ := by
  have hadj : ∀ p, (adjusted m p true builtIn).outcome = .ok (p, true) := fun _ => rfl
  rw [makeInside, Traced.outcome_bind]
  refine congrArg _ (funext fun x => ?_)
  cases x with
  | some answer => rfl
  | none => simp only [Traced.outcome_bind, hadj, ok_bind]; rfl

/-- What is made of another element: the steps up to the root, and the path of them. -/
lemma outcome_make (hg : g.registry = .new none) (hn : n.isElement)
    (hm : g.making? n o = some m) (h : m.HasNoShortcut) (hroot : m.node.same m.root = false) :
    (g.make (.node n) o).outcome = (stepsOf m builtIn m.ancestors).outcome >>= fun steps =>
      .ok ⟨normalize (path ['/'] steps), m.settings, m.root, some steps⟩ := by
  have hp := provided_root h
  have hb : (Registry.new none).heuristics = builtIn := rfl
  rw [hroot, if_neg (by simp)] at hp
  rw [make_eq hn hm, hg, hb, outcome_makeInside, hp, ok_bind]

/-- **The path of another element** is made of the steps up to the root. -/
theorem pathOf_steps (hg : g.registry = .new none) (hn : n.isElement)
    (hm : g.making? n o = some m) (h : m.HasNoShortcut) (hroot : m.node.same m.root = false)
    (hne : m.ancestors ≠ [])
    (hns : ∀ k ∈ m.ancestors, ∃ name, k.name? = some name ∧ name.isXml = true) :
    (g.pathOf (.node n) o).outcome =
      .ok (normalize (slashed (m.ancestors.map (Node.stepText m.settings.strategy)))) := by
  simp [pathOf, outcome_make hg hn hm h hroot, stepsOf_eq m hns, path_reverse, hne]

/-- A path that is made is made by an attribute, or paths can say all names on the way
from the root. -/
theorem shortcut_cases_of_pathOf (hn : n.isElement) (hg : g.registry = .new none)
    (hm : g.making? n o = some m) {path : Text} (h : (g.pathOf (.node n) o).outcome = .ok path) :
    (∃ a v, m.IsShortcut a v ∧ a ∈ "id".toList :: m.settings.attributes) ∨
      m.HasNoShortcut ∧
        (m.node.same m.root = false → ∀ k ∈ m.ancestors, k.pathName?.isSome) := by
  have hb : (Registry.new none).heuristics = builtIn := rfl
  rw [pathOf, Traced.outcome_bind, make_eq hn hm, hg, hb, outcome_makeInside] at h
  obtain ⟨made, hmade, -⟩ := bind_eq_ok.mp h
  obtain ⟨x, hx, hmade⟩ := bind_eq_ok.mp hmade
  rcases shortcut_cases_of_provided hx with hs | ⟨a, v, hs, -, ha⟩
  · refine .inr ⟨hs, fun hroot => ?_⟩
    rw [provided_root hs, hroot, if_neg Bool.false_ne_true] at hx
    obtain rfl := Except.ok.inj hx
    obtain ⟨steps, hsteps, -⟩ := bind_eq_ok.mp hmade
    exact pathName?_of_stepsOf hsteps
  · exact .inl ⟨a, v, hs, ha⟩

end Generator

end Locator

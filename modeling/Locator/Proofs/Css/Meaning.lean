/-
What selectors mean

* `Test.holds`, `Compound.matchesAt`: what a selector asks of a single element;
* `Step.chosen`, `Group.chosen`: the addresses that compounds with combinators between
  them choose, read from the left;
* `Document.chosen`: **the elements that a selector chooses**, in document order.
-/
import Locator.Css.Compound
import Locator.Proofs.XPath.Condition

namespace Locator

open XPath

namespace Css

/-! ### A single element -/

/-- Does a comparison hold of the attribute of a name at an address? A text without
characters is no start, end or part, and no word. -/
def Comparison.holds (how : Comparison) (d : Document) (a : Address) (name v : Text) : Bool :=
  match how with
  | .equals => (d.valuesAt a name).contains v
  | .startsWith => !v.isEmpty && v.isPrefixOf (d.valueAt a name)
  | .endsWith => !v.isEmpty && v.isSuffixOf (d.valueAt a name)
  | .contains => !v.isEmpty && Text.occursIn v (d.valueAt a name)
  | .hasWord => (spaceWords (d.valueAt a name)).contains v
  | .dash => (d.valuesAt a name).contains v || (v ++ ['-']).isPrefixOf (d.valueAt a name)

/-- Does a test hold of the element at an address? Its place is counted among the
siblings that pass `test`. -/
def Test.holds (d : Document) (test : NodeTest) (a : Address) : Test → Bool
  | .id v => (d.valuesAt a "id".toList).contains v
  | .classToken v => (spaceWords (d.valueAt a "class".toList)).contains v
  | .present name => !(d.valuesAt a name).isEmpty
  | .compare name how v => how.holds d a name v
  | .nthOfType digits => decide (positionAt d test none a = Text.ofDecimal digits)

namespace Compound

/-- The elements that a compound asks for by name. -/
def nodeTest (c : Compound) : NodeTest := if c.tag = ['*'] then .any none else .name none c.tag

/-- Do the tests of a compound hold of the element at an address? -/
def holds (c : Compound) (d : Document) (a : Address) : Bool :=
  c.tests.all (Test.holds d c.nodeTest a)

/-- Does a compound match the element at an address? -/
def matchesAt (c : Compound) (d : Document) (a : Address) : Bool :=
  passesAt d c.nodeTest none a && c.holds d a

end Compound

/-! ### Compounds with combinators between them -/

/-- Is an address bound to one of those that fulfil `P`? The addresses around it are
its proper endings. -/
def Combinator.binds (how : Combinator) (P : Address → Bool) (b : Address) : Bool :=
  match how with
  | .child => P b.tail
  | .descendant => b.tails.tail.any P

/-- What steps choose one behind the other, from the addresses that fulfil `P` on: `how` tells
how each of them is bound, and `M` what it matches. -/
def chosenBy {α : Type*} (how : α → Combinator) (M : α → Address → Bool) (P : Address → Bool)
    (ss : List α) : Address → Bool :=
  ss.foldl (fun P s b => (how s).binds P b && M s b) P

/-- What a step chooses behind the addresses that fulfil `P`. -/
def Step.chosen (d : Document) (P : Address → Bool) (s : Step) (b : Address) : Bool :=
  s.combinator.binds P b && s.compound.matchesAt d b

/-- Compounds with combinators between them: nothing binds the first one. -/
structure Group where
  first : Compound
  rest : List Step
  deriving Repr, DecidableEq

namespace Group

/-- The compounds of a group. -/
def compounds (g : Group) : List Compound := g.first :: g.rest.map Step.compound

/-- The group as a chain, whose first combinator does not count. -/
def chain (g : Group) : Chain := ⟨.descendant, g.first⟩ :: g.rest

/-- Does a group choose the element at an address? -/
def chosen (g : Group) (d : Document) : Address → Bool :=
  g.rest.foldl (Step.chosen d) (g.first.matchesAt d)

end Group

end Css

/-- **The elements that a selector chooses**: those that one of its groups chooses, in
document order. -/
def Document.chosen (d : Document) (gs : List Css.Group) : List Node :=
  d.elements.filter fun n => gs.any (·.chosen d n.address)

/-! ### What is chosen are elements -/

namespace Css

open XPath

variable {d : Document} {a b : Address} {c : Compound}

lemma Compound.testUri_nodeTest (env : Env) (c : Compound) :
    env.testUri c.nodeTest = .ok none := by
  rw [nodeTest]
  split_ifs <;> rfl

/-- A test for a name or for all names passes elements alone. -/
lemma isElementAt_of_passesAt (h : passesAt d c.nodeTest none a) : d.isElementAt a := by
  obtain ⟨m, hm, hp⟩ := passesAt_iff.mp h
  refine Document.isElementAt_iff.mpr ⟨m, hm, ?_⟩
  rw [Markup.passes, Compound.nodeTest] at hp
  split_ifs at hp
  · exact hp
  · simp only [NodeTest.accepts, Bool.and_eq_true] at hp
    exact hp.1.1

lemma ne_nil_of_passesAt {test : NodeTest} {uri : Option Text} (h : passesAt d test uri a) :
    a ≠ [] := by
  rintro rfl
  simp [passesAt] at h

lemma Compound.passesAt_of_matchesAt (h : c.matchesAt d a) : passesAt d c.nodeTest none a := by
  rw [matchesAt, Bool.and_eq_true] at h
  exact h.1

/-- What is chosen at last is matched, by the last step or in front of all. -/
lemma of_chosenBy {α : Type*} (how : α → Combinator) (M : α → Address → Bool)
    {P : Address → Bool} {ss : List α} {Q : Address → Prop} (hP : ∀ b, P b → Q b)
    (hM : ∀ s ∈ ss, ∀ b, M s b → Q b) (h : chosenBy how M P ss b) : Q b := by
  induction ss generalizing P with
  | nil => exact hP b h
  | cons s ss ih =>
      rw [List.forall_mem_cons] at hM
      exact ih (fun b hb => hM.1 b (Bool.and_eq_true_iff.mp hb).2) hM.2 h

/-- A group chooses what the last of its compounds matches. -/
lemma Group.isElementAt_of_chosen {g : Group} (h : g.chosen d a) : d.isElementAt a := by
  have hmatch : ∀ c : Compound, ∀ b, c.matchesAt d b → d.isElementAt b := fun c b hb =>
    isElementAt_of_passesAt (Compound.passesAt_of_matchesAt hb)
  exact of_chosenBy Step.combinator (fun s => s.compound.matchesAt d)
    (hmatch g.first) (fun s _ => hmatch s.compound) h

/-- An address is bound as a descendant to those in front of which something stands. -/
lemma binds_descendant_iff {P : Address → Bool} :
    Combinator.descendant.binds P b ↔ ∃ a, P a ∧ ∃ way, way ≠ [] ∧ b = way ++ a := by
  rw [Combinator.binds, List.any_eq_true]
  constructor
  · rintro ⟨a, ha, hp⟩
    cases b with
    | nil => simp at ha
    | cons i b =>
        obtain ⟨way, rfl⟩ : a <:+ b := by simpa using ha
        exact ⟨a, hp, i :: way, by simp, rfl⟩
  · rintro ⟨a, hp, way, hw, rfl⟩
    obtain ⟨i, way, rfl⟩ := List.exists_cons_of_ne_nil hw
    exact ⟨a, by simp, hp⟩

/-- From the document on a first step chooses what it matches. -/
lemma chosenBy_root {α : Type*} {how : α → Combinator} {M : α → Address → Bool} {s : α}
    {ss : List α} (hs : how s = .descendant) (hM : ∀ b, M s b → b ≠ []) :
    chosenBy how M (fun a => a == []) (s :: ss) = chosenBy how M (M s) ss := by
  have hfirst : (fun b => (how s).binds (fun a => a == []) b && M s b) = M s := by
    funext b
    rw [hs, Bool.and_eq_right_iff_imp, binds_descendant_iff]
    exact fun h => ⟨[], rfl, b, hM b h, (List.append_nil b).symm⟩
  rw [chosenBy, chosenBy, List.foldl_cons, hfirst]

lemma binds_child_iff {P : Address → Bool} (hb : b ≠ []) :
    Combinator.child.binds P b ↔ ∃ a, P a ∧ ∃ i, b = i :: a := by
  obtain ⟨i, a, rfl⟩ := List.exists_cons_of_ne_nil hb
  simp [Combinator.binds]

end Css

end Locator

/-
Steps with brackets

* `BracketStep`: a step whose tests stand in brackets, one behind the other, and
  `BracketStep.step`: the step with all its tests at once;
* `Test.holdsAmong`, `keptBy`: what a bracket keeps of what the ones in front of it have left,
  with the places counted anew;
* `Document.kept`: the elements that paths of such steps choose;
* `BracketStep.keptAt_eq`, `chosenBy_keptAt`: **the brackets do not count** where places stand
  in the first bracket alone.
-/
import Locator.Proofs.Css.Meaning
import Locator.Proofs.Css.Test

namespace Locator

open XPath

namespace Css

/-- A step whose tests stand in brackets, one behind the other. -/
structure BracketStep where
  combinator : Combinator
  tag : Text
  brackets : List (List Test)
  deriving Repr, DecidableEq

/-- The step with all its tests at once. -/
def BracketStep.step (y : BracketStep) : Step := ⟨y.combinator, ⟨y.tag, y.brackets.flatten⟩⟩

/-- Does a test hold of an element among those that fulfil `M`? Its place is counted among the
siblings that do so too. -/
def Test.holdsAmong (d : Document) (M : Address → Bool) (b : Address) : Test → Bool
  | .nthOfType digits => decide (placeAmong M b = Text.ofDecimal digits)
  | t => t.holds d (.any none) b

/-- What a bracket keeps of what fulfils `M`. -/
def keptByOne (d : Document) (M : Address → Bool) (ts : List Test) (b : Address) : Bool :=
  M b && ts.all (Test.holdsAmong d M b)

/-- What brackets keep of what fulfils `M`: each one counts the places among what the ones in
front of it have left. -/
def keptBy (d : Document) (M : Address → Bool) (tss : List (List Test)) : Address → Bool :=
  tss.foldl (keptByOne d) M

/-- Do the brackets of a step keep the element at an address? -/
def BracketStep.keptAt (y : BracketStep) (d : Document) : Address → Bool :=
  keptBy d (passesAt d y.step.compound.nodeTest none) y.brackets

end Css

open Css

/-- **The elements that paths choose** whose steps have brackets, in document order. -/
def Document.kept (d : Document) (paths : List (List BracketStep)) : List Node :=
  d.elements.filter fun n => paths.any fun ys =>
    chosenBy BracketStep.combinator (fun y => y.keptAt d) (fun a => a == []) ys n.address

/-! ### What is kept -/

namespace Css

variable {d : Document} {M : Address → Bool} {a b : Address} {t : Test} {tss : List (List Test)}
  {test : NodeTest} {y : BracketStep} {ys : List BracketStep}

/-- A test that counts nothing holds of an element wherever it is. -/
lemma Test.holdsAmong_of_counts (h : t.counts = false) (test : NodeTest) :
    t.holdsAmong d M b = t.holds d test b := by
  cases t with
  | nthOfType digits => cases h
  | _ => rfl

/-- Among all that pass, places are counted as usual. -/
lemma Test.holdsAmong_passesAt (d : Document) (test : NodeTest) (b : Address) :
    Test.holdsAmong d (passesAt d test none) b = Test.holds d test b := by
  funext t
  cases t with
  | nthOfType digits => rw [holdsAmong, holds, placeAmong_passesAt]
  | _ => rfl

/-- Brackets keep some of what was there. -/
lemma of_keptBy (h : keptBy d M tss b) : M b := by
  induction tss generalizing M with
  | nil => exact h
  | cons ts tss ih => exact (Bool.and_eq_true_iff.mp (ih h)).1

/-- Brackets that count nothing keep what all their tests hold of. -/
lemma keptBy_of_counts (h : ∀ t ∈ tss.flatten, t.counts = false) (test : NodeTest) :
    keptBy d M tss b = (M b && tss.flatten.all (Test.holds d test b)) := by
  induction tss generalizing M with
  | nil => simp [keptBy]
  | cons ts tss ih =>
      rw [List.flatten_cons, List.forall_mem_append] at h
      have hfirst : ts.all (Test.holdsAmong d M b) = ts.all (Test.holds d test b) := by
        rw [Bool.eq_iff_iff, List.all_eq_true, List.all_eq_true]
        exact forall₂_congr fun t ht => by rw [Test.holdsAmong_of_counts (h.1 t ht) test]
      refine (ih h.2).trans ?_
      rw [keptByOne, hfirst, List.flatten_cons, List.all_append, Bool.and_assoc]

/-- **The brackets do not count** if places stand in the first one alone. -/
theorem BracketStep.keptAt_eq (h : ∀ ts ∈ y.brackets.tail, ∀ t ∈ ts, t.counts = false) :
    y.keptAt d = y.step.compound.matchesAt d := by
  funext b
  rw [keptAt, Compound.matchesAt, Compound.holds]
  set test := y.step.compound.nodeTest
  have htests : y.step.compound.tests = y.brackets.flatten := rfl
  rw [htests]
  cases hy : y.brackets with
  | nil => simp [keptBy]
  | cons ts tss =>
      rw [hy, List.tail_cons] at h
      have hcounts : ∀ t ∈ tss.flatten, t.counts = false := fun t ht => by
        obtain ⟨ts', hts', ht'⟩ := List.mem_flatten.mp ht
        exact h ts' hts' t ht'
      refine (keptBy_of_counts hcounts test).trans ?_
      rw [keptByOne, Test.holdsAmong_passesAt, List.flatten_cons, List.all_append, Bool.and_assoc]

/-- Steps choose what they do with all their tests at once, from any addresses on. -/
lemma chosenBy_keptAt_eq (P : Address → Bool)
    (h : ∀ z ∈ ys, ∀ ts ∈ z.brackets.tail, ∀ t ∈ ts, t.counts = false) :
    chosenBy BracketStep.combinator (fun y => y.keptAt d) P ys =
      (ys.map BracketStep.step).foldl (Step.chosen d) P := by
  induction ys generalizing P with
  | nil => rfl
  | cons z ys ih =>
      rw [List.forall_mem_cons] at h
      have hfirst : (fun b => z.combinator.binds P b && z.keptAt d b) =
          Step.chosen d P z.step := by
        rw [BracketStep.keptAt_eq h.1]
        rfl
      rw [chosenBy, List.foldl_cons, hfirst]
      exact ih _ h.2

/-- **Where places stand in the first bracket of each step alone**, a path chooses what its steps
do with all their tests at once. -/
theorem chosenBy_keptAt (hy : y.combinator = .descendant)
    (h : ∀ z ∈ y :: ys, ∀ ts ∈ z.brackets.tail, ∀ t ∈ ts, t.counts = false) :
    chosenBy BracketStep.combinator (fun y => y.keptAt d) (fun a => a == []) (y :: ys) =
      Group.chosen ⟨y.step.compound, ys.map BracketStep.step⟩ d := by
  rw [List.forall_mem_cons] at h
  rw [chosenBy_root hy fun b hb => ne_nil_of_passesAt (of_keptBy hb), chosenBy_keptAt_eq _ h.2,
    BracketStep.keptAt_eq h.1]
  rfl

/-- What the brackets of a step keep passes its test. -/
lemma BracketStep.passesAt_of_keptAt (h : y.keptAt d b) :
    passesAt d y.step.compound.nodeTest none b := of_keptBy h

/-- What paths choose are elements. -/
lemma isElementAt_of_keptBy (hne : ys ≠ [])
    (h : chosenBy BracketStep.combinator (fun y => y.keptAt d) (fun a => a == []) ys b) :
    d.isElementAt b := by
  obtain ⟨y, ys, rfl⟩ := List.exists_cons_of_ne_nil hne
  have hkept : ∀ y : BracketStep, ∀ b, y.keptAt d b → d.isElementAt b := fun y b hb =>
    isElementAt_of_passesAt (BracketStep.passesAt_of_keptAt hb)
  exact of_chosenBy BracketStep.combinator (fun y => y.keptAt d)
    (fun b hb => hkept y b (Bool.and_eq_true_iff.mp hb).2) (fun y _ => hkept y) h

end Css

end Locator

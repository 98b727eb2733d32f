/-
Places without a name

* `Node.rank`: the number of an element among all elements below its parent, and
  `Node.index_eq_rank_iff`: it is the number among those of its name where no others stand in
  front;
* `evaluate_toXPath_untyped`: **the path of a compound without a name** counts all elements;
* `evaluate_toXPath_untyped_ne`: it does not select the elements that come first of their name.
-/
import Locator.Proofs.Convert.Loose
import Locator.Proofs.Generator.Sibling

namespace Locator

open Text XPath Css

/-! ### Numbers of elements -/

namespace Node

/-- The elements in front of a node below the same parent. -/
def elementsBefore (n : Node) : List Node :=
  n.siblings.filter fun m => m.address.position < n.address.position && m.isElement

/-- The number of an element among all elements below its parent, counted from one. -/
def rank (n : Node) : ℕ := 1 + n.elementsBefore.length

variable {d : Document} {n : Node}

lemma index_eq_filter (n : Node) :
    n.index = 1 + (n.elementsBefore.filter fun m => m.tag == n.tag).length := by
  rw [index, elementsBefore, List.filter_filter]
  simp only [Bool.and_assoc, Bool.and_comm]

/-- **Both numbers agree** where only elements of the name stand in front. -/
lemma index_eq_rank_iff : n.index = n.rank ↔ ∀ m ∈ n.elementsBefore, m.tag = n.tag := by
  rw [index_eq_filter, rank, Nat.add_left_cancel_iff, List.length_filter_eq_length_iff]
  simp

/-- The number of an element is its position among the siblings that pass the test for any
name. -/
lemma rank_eq (d : Document) (i : ℕ) (a : Address) :
    (⟨d, i :: a⟩ : Node).rank = positionAt d (.any none) none (i :: a) := by
  have hpasses : ∀ x : Markup, x.passes (.any none) none = x.isElement := fun x => rfl
  have hcount := length_elements_before (d := d) (i := i) (a := a) (P := fun _ => true)
    (Q := fun _ => true) fun _ _ _ => rfl
  simp only [Bool.and_true] at hcount
  rw [rank, positionAt, Nat.add_comm, Document.earlier]
  simp only [hpasses]
  exact congrArg (· + 1) hcount

/-- Does an element fulfil a test, if `number` tells its place? Its attributes are compared in the
looser reading. -/
def fulfils (number : Node → ℕ) (n : Node) : Test → Bool
  | .nthOfType digits => decide (number n = Text.ofDecimal digits)
  | t => t.admits n.document (.any none) n.address

/-- Where no name is given, all elements are counted. -/
lemma fulfils_rank (hn : n.address ≠ []) (t : Test) :
    n.fulfils rank t = t.admits n.document (.any none) n.address := by
  obtain ⟨d, b⟩ := n
  obtain ⟨i, a, rfl⟩ := List.exists_cons_of_ne_nil hn
  cases t with
  | nthOfType digits => rw [fulfils, rank_eq]; rfl
  | _ => rfl

/-- **Of the elements that fulfil tests with a place**, counted in one way or the other, those
fulfil them in both that have only elements of their name in front. -/
lemma fulfils_iff {ts : List Test} (hts : ∃ t ∈ ts, t.counts = true)
    (h : ts.all (n.fulfils rank) ∨ ts.all (n.fulfils index)) :
    (ts.all (n.fulfils rank) ↔ ts.all (n.fulfils index)) ↔
      ∀ m ∈ n.elementsBefore, m.tag = n.tag := by
  rw [← index_eq_rank_iff]
  constructor
  · intro hsame
    obtain ⟨hrank, hindex⟩ : ts.all (n.fulfils rank) ∧ ts.all (n.fulfils index) := by
      rcases h with h | h
      · exact ⟨h, hsame.mp h⟩
      · exact ⟨hsame.mpr h, h⟩
    obtain ⟨t, ht, hcounts⟩ := hts
    have h1 := List.all_eq_true.mp hrank t ht
    have h2 := List.all_eq_true.mp hindex t ht
    cases t with
    | nthOfType digits => exact (of_decide_eq_true h2).trans (of_decide_eq_true h1).symm
    | _ => cases hcounts
  · intro hsame
    have hall : n.fulfils rank = n.fulfils index := by
      funext t
      cases t with
      | nthOfType digits => rw [fulfils, fulfils, hsame]
      | _ => rfl
    rw [hall]

end Node

/-! ### Compounds without a name -/

namespace Css

variable {c : Compound} {s : Text} {d : Document}

/-- What a compound without a name chooses, if its places are counted among all elements. -/
lemma admitted_untyped (hstar : c.tag = ['*']) (hw : d.IsWhole) :
    d.admitted [⟨c, []⟩] = d.elements.filter fun n => c.tests.all (n.fulfils Node.rank) := by
  have htest : c.nodeTest = .any none := if_pos hstar
  refine List.filter_congr fun n hn => ?_
  obtain ⟨rfl, hel⟩ := (Document.mem_elements hw).mp hn
  have hne : n.address ≠ [] := by
    intro hnil
    rw [hnil] at hel
    simp [Document.isElementAt] at hel
  have hpasses : passesAt n.document (.any none) none n.address = true := by
    obtain ⟨m, hm, hme⟩ := Document.isElementAt_iff.mp hel
    exact passesAt_iff.mpr ⟨m, hm, hme⟩
  have hfulfils : n.fulfils Node.rank = Test.admits n.document (.any none) n.address :=
    funext (Node.fulfils_rank hne)
  rw [List.any_cons, List.any_nil, Bool.or_false, hfulfils]
  change c.admitsAt n.document n.address = _
  rw [Compound.admitsAt, htest, hpasses, Bool.true_and]

/-- **The path of a compound without a name** counts the places among all elements below one
parent. Of the elements that it selects, or that have the place among those of their name, both
hold exactly of those with no element of another name in front. -/
theorem evaluate_toXPath_untyped (h : IsShared [⟨c, []⟩] s) (hstar : c.tag = ['*'])
    (hcounts : ∃ t ∈ c.tests, t.counts = true) (hw : d.IsWhole)
    {namespaces : List (Text × Text)} (hbound : checkNamespaces namespaces = .ok ()) :
    ∃ p, toXPath (.text s) = .ok p ∧
      evaluate p (.document d) namespaces =
        .ok ((d.elements.filter fun n => c.tests.all (n.fulfils Node.rank)).map Node.place) ∧
      ∀ n ∈ d.elements,
        c.tests.all (n.fulfils Node.rank) ∨ c.tests.all (n.fulfils Node.index) →
          ((c.tests.all (n.fulfils Node.rank) ↔ c.tests.all (n.fulfils Node.index)) ↔
            ∀ m ∈ n.elementsBefore, m.tag = n.tag) := by
  obtain ⟨r, hstart⟩ := exists_startsAt hw hbound
  obtain ⟨p, hp, hns⟩ := evaluate_toXPath_admitted hw hstart h
  rw [admitted_untyped hstar hw] at hns
  exact ⟨p, hp, hns, fun n _ => Node.fulfils_iff hcounts⟩

/-- The first place, without a name, and a class. -/
def firstPlace : Compound := ⟨['*'], [.nthOfType ['1'], .classToken ['y']]⟩

/-- The path of the first place counts all elements. -/
theorem evaluate_toXPath_firstPlace :
    (IsShared [⟨firstPlace, []⟩] ":nth-of-type(1).y".toList ∧ firstPlace.tag = ['*'] ∧
      (∃ t ∈ firstPlace.tests, t.counts = true) ∧ nestedTwins.IsWhole ∧
      checkNamespaces [] = .ok ()) ∧
    ∃ p, toXPath (.text ":nth-of-type(1).y".toList) = .ok p ∧
      evaluate p (.document nestedTwins) [] = .ok ((nestedTwins.elements.filter fun n =>
        firstPlace.tests.all (n.fulfils Node.rank)).map Node.place) ∧
      ∀ n ∈ nestedTwins.elements, firstPlace.tests.all (n.fulfils Node.rank) ∨
          firstPlace.tests.all (n.fulfils Node.index) →
        ((firstPlace.tests.all (n.fulfils Node.rank) ↔
            firstPlace.tests.all (n.fulfils Node.index)) ↔
          ∀ m ∈ n.elementsBefore, m.tag = n.tag) := by
  have hshared : IsShared [⟨firstPlace, []⟩] ":nth-of-type(1).y".toList :=
    { isFormed_canonical (List.cons_ne_nil _ _) (by decide) with raw := by decide }
  have hcounts : ∃ t ∈ firstPlace.tests, t.counts = true := by decide
  have hw : nestedTwins.IsWhole := by decide
  have hbound : checkNamespaces [] = .ok () := rfl
  exact ⟨⟨hshared, rfl, hcounts, hw, hbound⟩,
    evaluate_toXPath_untyped hshared rfl hcounts hw hbound⟩

/-- Two children of different names. -/
def strangers : Document where
  key := 0
  content := [.element { base := ['r'] } [] []
    [.element { base := ['b'] } [] [] [], .element { base := ['a'] } [] [] []]]

/-- **The first place without a name**: both children come first of their name, and the path selects
the first one of them alone. -/
theorem evaluate_toXPath_untyped_ne :
    IsShared [⟨⟨['*'], [.nthOfType ['1']]⟩, []⟩] ":nth-of-type(1)".toList ∧
      ∃ p, ∃ ns ms : List Node, toXPath (.text ":nth-of-type(1)".toList) = .ok p ∧
        evaluate p (.document strangers) [] = .ok (ns.map Node.place) ∧
        ns.map Node.address = [[0], [0, 0]] ∧
        (strangers.elements.filter fun n => n.index = 1) = ms ∧
        ms.map Node.address = [[0], [0, 0], [1, 0]] := by
  have hshared : IsShared [⟨⟨['*'], [.nthOfType ['1']]⟩, []⟩] ":nth-of-type(1)".toList :=
    { isFormed_canonical (List.cons_ne_nil _ _) (by decide) with raw := by decide }
  have hw : strangers.IsWhole := by decide
  have hstart : StartsAt (.document strangers) ⟨strangers, [0]⟩ [] := ⟨rfl, rfl⟩
  obtain ⟨p, hp, hns⟩ := evaluate_toXPath_admitted hw hstart hshared
  exact ⟨hshared, p, _, _, hp, hns, by decide +kernel, rfl, by decide +kernel⟩

end Css

end Locator

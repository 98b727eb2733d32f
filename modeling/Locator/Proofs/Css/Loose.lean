/-
A looser reading of comparisons

* `Comparison.admits`, `Test.admits`, `Compound.admitsAt`: what functions of texts tell of an
  attribute, be it there or not: every value starts with the empty text, and blanks may stand in
  a word that is looked for;
* `Group.admits`, `Document.admitted`: the elements that a selector chooses in this reading;
* `Document.admitted_eq_chosen`: **the strict reading chooses all of them** if every
  comparison asks for something;
* `Document.chosen_eq_admitted`: **it leaves out the groups** with a comparison that asks for
  nothing.
-/
import Locator.Proofs.Css.Meaning
import Locator.Proofs.Css.Test

namespace Locator

open Text XPath

namespace Css

/-! ### A single element -/

/-- Does a comparison hold of the attribute of a name in the looser reading? The pieces of a
text with blanks are looked for one behind the other, and the empty text is found where there
are no words. -/
def Comparison.admits (how : Comparison) (d : Document) (a : Address) (name v : Text) : Bool :=
  match how with
  | .startsWith => v.isPrefixOf (d.valueAt a name)
  | .endsWith => v.isSuffixOf (d.valueAt a name)
  | .contains => occursIn v (d.valueAt a name)
  | .hasWord =>
    decide ((v = [] ∧ spaceWords (d.valueAt a name) = []) ∨
      pieces (· == ' ') v <:+: spaceWords (d.valueAt a name))
  | how => how.holds d a name v

/-- Does a test hold of an element in the looser reading? -/
def Test.admits (d : Document) (test : NodeTest) (a : Address) : Test → Bool
  | .compare name how v => how.admits d a name v
  | t => t.holds d test a

/-- Does a compound match an element in the looser reading? -/
def Compound.admitsAt (c : Compound) (d : Document) (a : Address) : Bool :=
  passesAt d c.nodeTest none a && c.tests.all (Test.admits d c.nodeTest a)

/-- Does a group choose an element in the looser reading? -/
def Group.admits (g : Group) (d : Document) : Address → Bool :=
  chosenBy Step.combinator (fun s => s.compound.admitsAt d) (g.first.admitsAt d) g.rest

end Css

/-- **The elements that a selector chooses in the looser reading**, in document order. -/
def Document.admitted (d : Document) (gs : List Css.Group) : List Node :=
  d.elements.filter fun n => gs.any (·.admits d n.address)

/-! ### The two readings -/

namespace Css

variable {how : Comparison} {t : Test} {c : Compound} {g : Group} {gs : List Group}
  {d : Document} {a b : Address} {name v : Text} {test : NodeTest}

/-- The two readings differ only where a comparison asks for nothing. -/
lemma Comparison.admits_of_takes (h : how.takes v = true) :
    how.admits d a name v = how.holds d a name v := by
  have hne : ∀ {x : Bool}, (!v.isEmpty) = true → x = (!v.isEmpty && x) := fun h => by simp [h]
  cases how with
  | startsWith => exact hne h
  | endsWith => exact hne h
  | contains => exact hne h
  | hasWord =>
      simp only [takes, Bool.and_eq_true, Bool.not_eq_true', List.isEmpty_eq_false_iff,
        List.all_eq_true] at h
      have hpieces : pieces (· == ' ') v = [v] := pieces_of_forall fun c hc => by
        rw [beq_eq_false_iff_ne]
        rintro rfl
        exact absurd (h.2 ' ' hc) (by decide)
      rw [admits, holds, hpieces, Bool.eq_iff_iff, decide_eq_true_iff, List.singleton_infix_iff,
        List.contains_iff_mem]
      simp [h.1]
  | _ => rfl

/-- What holds strictly holds in the looser reading. -/
lemma Comparison.admits_of_holds (h : how.holds d a name v = true) :
    how.admits d a name v = true := by
  cases how with
  | startsWith => exact (Bool.and_eq_true_iff.mp h).2
  | endsWith => exact (Bool.and_eq_true_iff.mp h).2
  | contains => exact (Bool.and_eq_true_iff.mp h).2
  | hasWord =>
      have hword : v ∈ spaceWords (d.valueAt a name) := List.contains_iff_mem.mp h
      have hpieces : pieces (· == ' ') v = [v] := pieces_of_forall fun c hc => by
        rw [beq_eq_false_iff_ne]
        rintro rfl
        exact blank_not_mem_of_mem_spaceWords hword hc
      rw [admits, hpieces, decide_eq_true_iff, List.singleton_infix_iff]
      exact .inr hword
  | _ => exact h

lemma Test.admits_of_holds (h : t.holds d test a = true) : t.admits d test a = true := by
  cases t with
  | compare name how v => exact Comparison.admits_of_holds h
  | _ => exact h

lemma Test.admits_of_takes (h : t.takes = true) : t.admits d test a = t.holds d test a := by
  cases t with
  | compare name how v => exact Comparison.admits_of_takes h
  | _ => rfl

lemma Compound.admitsAt_of_matchesAt (h : c.matchesAt d a = true) : c.admitsAt d a = true := by
  simp only [matchesAt, holds, admitsAt, Bool.and_eq_true, List.all_eq_true] at h ⊢
  exact ⟨h.1, fun t ht => Test.admits_of_holds (h.2 t ht)⟩

lemma Compound.admitsAt_of_takes (h : ∀ t ∈ c.tests, t.takes = true) :
    c.admitsAt d a = c.matchesAt d a := by
  have hall : c.tests.all (Test.admits d c.nodeTest a) = c.holds d a := by
    rw [Compound.holds, Bool.eq_iff_iff, List.all_eq_true, List.all_eq_true]
    exact forall₂_congr fun t ht => by rw [Test.admits_of_takes (h t ht)]
  rw [admitsAt, hall, matchesAt]

/-- What matches less chooses less. -/
lemma chosenBy_mono {α : Type*} {combinator : α → Combinator} {M N : α → Address → Bool}
    {P Q : Address → Bool} {ss : List α} (hP : ∀ b, P b → Q b) (hM : ∀ s ∈ ss, ∀ b, M s b → N s b)
    (h : chosenBy combinator M P ss b) : chosenBy combinator N Q ss b := by
  induction ss generalizing P Q with
  | nil => exact hP b h
  | cons s ss ih =>
      rw [List.forall_mem_cons] at hM
      refine ih (fun b hb => ?_) hM.2 h
      simp only [Bool.and_eq_true] at hb ⊢
      refine ⟨?_, hM.1 b hb.2⟩
      cases hs : combinator s with
      | child =>
          rw [hs] at hb
          exact hP _ hb.1
      | descendant =>
          rw [hs, Combinator.binds, List.any_eq_true] at hb
          obtain ⟨c, hc, hPc⟩ := hb.1
          rw [Combinator.binds, List.any_eq_true]
          exact ⟨c, hc, hP c hPc⟩

lemma Group.admits_of_chosen (h : g.chosen d a) : g.admits d a :=
  chosenBy_mono (fun _ => Compound.admitsAt_of_matchesAt)
    (fun _ _ _ => Compound.admitsAt_of_matchesAt) h

/-- What a group chooses in the looser reading are elements. -/
lemma Group.isElementAt_of_admits (h : g.admits d a) : d.isElementAt a := by
  have hmatch : ∀ c : Compound, ∀ b, c.admitsAt d b → d.isElementAt b := fun c b hb =>
    isElementAt_of_passesAt (Bool.and_eq_true_iff.mp hb).1
  exact of_chosenBy Step.combinator (fun s => s.compound.admitsAt d)
    (hmatch g.first) (fun s _ => hmatch s.compound) h

lemma Group.admits_of_takes (h : ∀ c ∈ g.compounds, ∀ t ∈ c.tests, t.takes = true) :
    g.admits d a = g.chosen d a := by
  rw [Group.compounds, List.forall_mem_cons, List.forall_mem_map] at h
  rw [Bool.eq_iff_iff]
  refine ⟨fun hg => ?_, Group.admits_of_chosen⟩
  exact chosenBy_mono (fun b hb => by rwa [Compound.admitsAt_of_takes h.1] at hb)
    (fun s hs b hb => by rwa [Compound.admitsAt_of_takes (h.2 s hs)] at hb) hg

/-! ### Comparisons that ask for nothing -/

/-- A word that is no word has a blank in it, or is empty. -/
lemma Comparison.exists_of_not_takes (h : Comparison.hasWord.takes v = false) :
    v = [] ∨ ∃ c ∈ v, isCssSpace c = true := by
  rw [takes, Bool.and_eq_false_iff, Bool.not_eq_false', List.isEmpty_iff, List.all_eq_false] at h
  exact h.imp_right fun ⟨c, hc, hs⟩ => ⟨c, hc, by simpa using hs⟩

/-- A comparison that asks for nothing holds nowhere. -/
lemma Comparison.holds_of_not_takes (hv : v.all isPlainChar = true)
    (h : how.takes v = false) (d : Document) (b : Address) (a : Text) :
    how.holds d b a v = false := by
  have hempty : ∀ {x : Bool}, (!v.isEmpty) = false → (!v.isEmpty && x) = false := fun h => by simp [h]
  cases how with
  | equals => cases h
  | dash => cases h
  | startsWith => exact hempty h
  | endsWith => exact hempty h
  | contains => exact hempty h
  | hasWord =>
      rw [holds, Bool.eq_false_iff]
      intro hmem
      have hword : v ∈ spaceWords (d.valueAt b a) := List.contains_iff_mem.mp hmem
      rcases exists_of_not_takes h with rfl | ⟨c, hc, hspace⟩
      · simp [spaceWords] at hword
      · have hplain := List.all_eq_true.mp hv c hc
        have hnot := isSpace_of_mem_spaceWords hword c hc
        have hfeed : c = '\x0c' := by simpa [isCssSpace, hnot] using hspace
        rw [hfeed] at hplain
        exact absurd hplain (by decide)

/-- What a formed compound matches, each of its tests asks for. -/
lemma Compound.takes_of_matchesAt (hc : c.isFormed = true) (h : c.matchesAt d a = true) :
    ∀ t ∈ c.tests, t.takes = true := by
  simp only [matchesAt, holds, Bool.and_eq_true, List.all_eq_true] at h
  intro t ht
  have hformed := Compound.isFormed_tests hc t ht
  have hholds := h.2 t ht
  cases t with
  | compare name how v =>
      simp only [Test.isFormed, Bool.and_eq_true] at hformed
      by_contra htakes
      have hnone : how.holds d a name v = false := Comparison.holds_of_not_takes hformed.1.2
        (Bool.eq_false_of_not_eq_true htakes) d a name
      exact absurd (hholds.symm.trans hnone) (by decide)
  | _ => rfl

/-- Does every comparison of a group ask for something? -/
def Group.takes (g : Group) : Bool := g.compounds.all fun c => c.tests.all Test.takes

/-- What is chosen at last is matched by each step somewhere. -/
lemma exists_of_chosenBy {α : Type*} (how : α → Combinator) (M : α → Address → Bool)
    {P : Address → Bool} {ss : List α} (h : chosenBy how M P ss a) :
    (∃ b, P b) ∧ ∀ s ∈ ss, ∃ b, M s b := by
  induction ss generalizing P with
  | nil => exact ⟨⟨a, h⟩, by simp⟩
  | cons s ss ih =>
      obtain ⟨⟨b, hb⟩, hall⟩ := ih h
      rw [Bool.and_eq_true] at hb
      refine ⟨?_, List.forall_mem_cons.mpr ⟨⟨b, hb.2⟩, hall⟩⟩
      cases hs : how s with
      | child =>
          rw [hs] at hb
          exact ⟨b.tail, hb.1⟩
      | descendant =>
          rw [hs, Combinator.binds, List.any_eq_true] at hb
          obtain ⟨c, -, hc⟩ := hb.1
          exact ⟨c, hc⟩

/-- **A group that asks for nothing somewhere** chooses nothing. -/
lemma Group.takes_of_chosen (hg : ∀ c ∈ g.compounds, c.isFormed = true) (h : g.chosen d a) :
    g.takes = true := by
  obtain ⟨⟨b, hb⟩, hrest⟩ := exists_of_chosenBy Step.combinator (fun s => s.compound.matchesAt d) h
  rw [Group.compounds, List.forall_mem_cons, List.forall_mem_map] at hg
  simp only [Group.takes, Group.compounds, List.all_cons, Bool.and_eq_true, List.all_eq_true,
    List.forall_mem_map]
  refine ⟨Compound.takes_of_matchesAt hg.1 hb, fun s hs => ?_⟩
  obtain ⟨b, hb⟩ := hrest s hs
  exact Compound.takes_of_matchesAt (hg.2 s hs) hb

end Css

open Css

variable {d : Document} {gs : List Group}

/-- **Both readings choose the same elements** if every comparison asks for something. -/
theorem Document.admitted_eq_chosen
    (h : ∀ g ∈ gs, ∀ c ∈ g.compounds, ∀ t ∈ c.tests, t.takes = true) :
    d.admitted gs = d.chosen gs := by
  refine List.filter_congr fun n _ => ?_
  rw [Bool.eq_iff_iff, List.any_eq_true, List.any_eq_true]
  exact exists_congr fun g => and_congr_right fun hg => by rw [Group.admits_of_takes (h g hg)]

/-- **The strict reading leaves out the groups that ask for nothing somewhere**, and chooses what the
looser one does for all others. -/
theorem Document.chosen_eq_admitted (h : ∀ g ∈ gs, ∀ c ∈ g.compounds, c.isFormed = true) :
    d.chosen gs = d.admitted (gs.filter Group.takes) := by
  have htakes : ∀ g : Group, g.takes = true → ∀ c ∈ g.compounds, ∀ t ∈ c.tests, t.takes = true :=
    fun g hg c hc => List.all_eq_true.mp (List.all_eq_true.mp hg c hc)
  refine List.filter_congr fun n _ => ?_
  rw [Bool.eq_iff_iff, List.any_eq_true, List.any_eq_true]
  constructor
  · rintro ⟨g, hg, hchosen⟩
    exact ⟨g, List.mem_filter.mpr ⟨hg, Group.takes_of_chosen (h g hg) hchosen⟩,
      Group.admits_of_chosen hchosen⟩
  · rintro ⟨g, hg, hadmits⟩
    obtain ⟨hg, hall⟩ := List.mem_filter.mp hg
    rw [Group.admits_of_takes (htakes g hall)] at hadmits
    exact ⟨g, hg, hadmits⟩

end Locator

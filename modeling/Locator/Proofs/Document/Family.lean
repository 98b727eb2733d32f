/-
The family of an element

* `Address.mem_above`: the addresses above an address are its proper endings;
* `Node.mem_ancestors`: the elements around an element and the element itself are the elements
  at the endings of its address, and `Node.mem_elements_iff`: inside an element are the elements
  that it is around;
* `Node.pairwise_ancestors`: each of them is around the ones in front of it;
* `Node.AreRelatives`: elements of whole documents that are told apart by their keys;
* `Node.commonAncestor_eq_some_iff`: **the nearest common ancestor** is the one that all common
  ancestors are around, and `Node.commonAncestor_eq_none_iff`: there is none only between
  documents;
* `Node.commonAncestor_congr`: order and repetition do not count.
-/
import Locator.Proofs.Document.Whole

namespace Locator

/-! ### Endings of addresses -/

namespace Address

variable {a b : Address}

/-- The addresses above an address are its proper endings. -/
lemma mem_above : b ∈ above a ↔ b <:+ a ∧ b ≠ a := by
  induction a with
  | nil => simp [above]
  | cons i a ih =>
      have hne : b <:+ a → b ≠ i :: a := by
        rintro h rfl
        simpa using h.length_le
      rw [above, List.mem_cons, ih, List.suffix_cons_iff]
      constructor
      · rintro (rfl | ⟨h, -⟩)
        · exact ⟨.inr List.suffix_rfl, hne List.suffix_rfl⟩
        · exact ⟨.inr h, hne h⟩
      · rintro ⟨rfl | h, hni⟩
        · exact absurd rfl hni
        · exact (eq_or_ne b a).imp_right fun hba => ⟨h, hba⟩

/-- The farther addresses above are endings of the nearer ones. -/
lemma pairwise_above (a : Address) : (above a).Pairwise fun b c => c <:+ b := by
  induction a with
  | nil => exact .nil
  | cons i a ih => exact List.pairwise_cons.mpr ⟨fun b hb => (mem_above.mp hb).1, ih⟩

lemma holds_iff : a.holds b ↔ a <:+ b := by
  rw [holds, beq_iff_eq, List.suffix_iff_eq_drop, eq_comm]

end Address

namespace Node

variable {n m k c : Node} {nodes others : List Node}

/-! ### The elements around an element -/

/-- The elements around an element and the element itself are the elements at the endings of
its address. -/
lemma mem_ancestors (hn : n.isElement) :
    m ∈ n.ancestors ↔ m.document = n.document ∧ m.isElement ∧ m.address <:+ n.address := by
  rw [ancestors, List.mem_cons, List.mem_filter, List.mem_map]
  constructor
  · rintro (rfl | ⟨⟨b, hb, rfl⟩, he⟩)
    · exact ⟨rfl, hn, List.suffix_rfl⟩
    · exact ⟨rfl, he, (Address.mem_above.mp hb).1⟩
  · rintro ⟨hd, he, hs⟩
    have hm : n.moved m.address = m := by rw [moved, ← hd]
    by_cases ha : m.address = n.address
    · left
      rw [← hm, ha]
      rfl
    · exact .inr ⟨⟨m.address, Address.mem_above.mpr ⟨hs, ha⟩, hm⟩, he⟩

/-- Inside an element are the elements that it is around, and it itself. -/
lemma mem_elements_iff (hn : n.isElement) : m ∈ n.elements ↔ m.isElement ∧ n ∈ m.ancestors := by
  rw [Document.mem_nodeElements (Document.address_ne_nil hn)]
  constructor
  · rintro ⟨hd, ⟨way, hway⟩, hat⟩
    have hm : m.isElement := Document.isElement_iff.mpr (hd ▸ hat)
    exact ⟨hm, (mem_ancestors hm).mpr ⟨hd.symm, hn, way, hway.symm⟩⟩
  · rintro ⟨hm, hin⟩
    obtain ⟨hd, -, way, hway⟩ := (mem_ancestors hm).mp hin
    exact ⟨hd.symm, ⟨way, hway.symm⟩, hd ▸ Document.isElement_iff.mp hm⟩

lemma self_mem_ancestors (n : Node) : n ∈ n.ancestors := List.mem_cons_self

/-- Of two elements only one is around the other. -/
lemma ancestors_antisymm (hn : n.isElement) (hm : m ∈ n.ancestors) (hnm : n ∈ m.ancestors) :
    m = n := by
  obtain ⟨hd, he, hs⟩ := (mem_ancestors hn).mp hm
  have ha := hs.eq_of_length_le ((mem_ancestors he).mp hnm).2.2.length_le
  cases m
  cases n
  simp_all

/-- Each of the elements around an element is around the ones in front of it. -/
lemma pairwise_ancestors (n : Node) :
    n.ancestors.Pairwise fun m k => k ∈ m.ancestors := by
  have habove : ((Address.above n.address).map n.moved).Pairwise fun m k =>
      m.isElement → k.isElement → k ∈ m.ancestors := by
    rw [List.pairwise_map]
    refine (Address.pairwise_above n.address).imp ?_
    intro b c h hm hk
    exact (mem_ancestors hm).mpr ⟨rfl, hk, h⟩
  refine List.pairwise_cons.mpr ⟨fun k hk => List.mem_cons_of_mem n hk, ?_⟩
  rw [List.pairwise_filter]
  exact habove.imp fun h hm hk => h hm hk

/-- A node is contained in an element of its document if the element is around it. -/
lemma contains_iff (hc : c.isElement) (hn : n.isElement)
    (hkey : c.document.key = n.document.key → c.document = n.document) :
    c.contains n ↔ c ∈ n.ancestors := by
  rw [mem_ancestors hn, contains, Bool.and_eq_true, beq_iff_eq, Address.holds_iff]
  constructor
  · rintro ⟨hk, hs⟩
    exact ⟨hkey hk, hc, hs⟩
  · rintro ⟨hd, -, hs⟩
    exact ⟨hd ▸ rfl, hs⟩

/-! ### The nearest common ancestor -/

/-- Elements of whole documents; a key belongs to one document. -/
structure AreRelatives (nodes : List Node) : Prop where
  isElement : ∀ n ∈ nodes, n.isElement
  whole : ∀ n ∈ nodes, n.document.IsWhole
  key : ∀ n ∈ nodes, ∀ m ∈ nodes, n.document.key = m.document.key → n.document = m.document

/-- An element around every one of several, or one of them. -/
def IsCommonAncestor (c : Node) (nodes : List Node) : Prop := ∀ n ∈ nodes, c ∈ n.ancestors

/-- The deepest of the common ancestors: all of them are around it. -/
structure IsLowestCommonAncestor (c : Node) (nodes : List Node) : Prop where
  common : c.IsCommonAncestor nodes
  lowest : ∀ a : Node, a.IsCommonAncestor nodes → a ∈ c.ancestors

/-- There is but one deepest common ancestor. -/
lemma IsLowestCommonAncestor.unique (hr : AreRelatives nodes) (hne : nodes ≠ [])
    (hc : c.IsLowestCommonAncestor nodes) (hk : k.IsLowestCommonAncestor nodes) : c = k := by
  obtain ⟨n, hn⟩ := List.exists_mem_of_ne_nil nodes hne
  have hel := ((mem_ancestors (hr.isElement n hn)).mp (hk.common n hn)).2.1
  exact ancestors_antisymm hel (hk.lowest c hc.common) (hc.lowest k hk.common)

namespace AreRelatives

/-- Elements are relatives in whatever order and however often they are given. -/
lemma congr (hr : AreRelatives nodes) (h : ∀ n, n ∈ others ↔ n ∈ nodes) :
    AreRelatives others where
  isElement n hn := hr.isElement n ((h n).mp hn)
  whole n hn := hr.whole n ((h n).mp hn)
  key n hn m hm := hr.key n ((h n).mp hn) m ((h m).mp hm)

variable (hr : AreRelatives (n :: nodes))
include hr

/-- The test of the search upwards. -/
lemma all_contains_iff (hc : c ∈ n.ancestors) :
    (n :: nodes).all c.contains ↔ c.IsCommonAncestor (n :: nodes) := by
  obtain ⟨hd, he, -⟩ := (mem_ancestors (hr.isElement n (by simp))).mp hc
  rw [List.all_eq_true]
  refine forall₂_congr fun m hm => contains_iff he (hr.isElement m hm) fun hk => ?_
  rw [hd] at hk ⊢
  exact hr.key n (by simp) m hm hk

/-- What the search upwards finds is the deepest common ancestor: those that it has passed by
are none, and those that it has not come to are around what it finds. -/
lemma isLowest_of_commonAncestor (h : commonAncestor (n :: nodes) = some c) :
    c.IsLowestCommonAncestor (n :: nodes) := by
  rw [commonAncestor] at h
  have hc := List.mem_of_find?_eq_some h
  obtain ⟨htest, front, back, hsplit, hfront⟩ := List.find?_eq_some_iff_append.mp h
  refine ⟨(hr.all_contains_iff hc).mp htest, fun a ha => ?_⟩
  have hmem : a ∈ n.ancestors := ha n (by simp)
  have hpair := pairwise_ancestors n
  rw [hsplit] at hmem hpair
  rcases List.mem_append.mp hmem with hin | hin
  · have hfalse := hfront a hin
    rw [(hr.all_contains_iff (ha n (by simp))).mpr ha] at hfalse
    exact absurd hfalse (by simp)
  · rcases List.mem_cons.mp hin with rfl | hin
    · exact self_mem_ancestors a
    · exact List.rel_of_pairwise_cons (List.pairwise_append.mp hpair).2.1 hin

/-- The search upwards finds nothing only if there is no common ancestor. -/
lemma commonAncestor_cons_eq_none_iff :
    commonAncestor (n :: nodes) = none ↔ ∀ a : Node, ¬ a.IsCommonAncestor (n :: nodes) := by
  rw [commonAncestor, List.find?_eq_none]
  constructor
  · intro h a ha
    exact h a (ha n (by simp)) ((hr.all_contains_iff (ha n (by simp))).mpr ha)
  · intro h a ha htest
    exact h a ((hr.all_contains_iff ha).mp htest)

end AreRelatives

/-- Elements of one document are all inside its root element. -/
lemma AreRelatives.exists_isCommonAncestor (hr : AreRelatives nodes) (hne : nodes ≠ [])
    (hd : ∀ n ∈ nodes, ∀ m ∈ nodes, n.document = m.document) :
    ∃ a : Node, a.IsCommonAncestor nodes := by
  obtain ⟨k, hk⟩ := List.exists_mem_of_ne_nil nodes hne
  obtain ⟨r, -, hel, hu⟩ := (hr.whole k hk).exists_root
  refine ⟨⟨k.document, [r]⟩, fun n hn => ?_⟩
  have he := hr.isElement n hn
  have hat : k.document.isElementAt n.address :=
    hd n hn k hk ▸ Document.isElement_iff.mp he
  obtain ⟨way, hway⟩ := Document.exists_way_of_isElementAt hu hat
  exact (mem_ancestors he).mpr ⟨hd k hk n hn, Document.isElement_iff.mpr hel, way, hway.symm⟩

/-- Elements with a common ancestor are of one document. -/
lemma IsCommonAncestor.document_eq (hr : AreRelatives nodes) (hc : c.IsCommonAncestor nodes)
    (hn : n ∈ nodes) : c.document = n.document :=
  ((mem_ancestors (hr.isElement n hn)).mp (hc n hn)).1

/-- **The nearest common ancestor** of elements is the deepest one. -/
theorem commonAncestor_eq_some_iff (hr : AreRelatives nodes) (hne : nodes ≠ []) :
    commonAncestor nodes = some c ↔ c.IsLowestCommonAncestor nodes := by
  obtain ⟨n, nodes, rfl⟩ := List.exists_cons_of_ne_nil hne
  refine ⟨hr.isLowest_of_commonAncestor, fun hc => ?_⟩
  cases h : commonAncestor (n :: nodes) with
  | none => exact absurd hc.common (hr.commonAncestor_cons_eq_none_iff.mp h c)
  | some k => rw [(hr.isLowest_of_commonAncestor h).unique hr hne hc]

/-- **There is none** exactly between documents. -/
theorem commonAncestor_eq_none_iff (hr : AreRelatives nodes) (hne : nodes ≠ []) :
    commonAncestor nodes = none ↔ ¬ ∀ n ∈ nodes, ∀ m ∈ nodes, n.document = m.document := by
  have hnone : commonAncestor nodes = none ↔ ∀ a : Node, ¬ a.IsCommonAncestor nodes := by
    obtain ⟨n, nodes, rfl⟩ := List.exists_cons_of_ne_nil hne
    exact hr.commonAncestor_cons_eq_none_iff
  rw [hnone]
  constructor
  · intro h hd
    obtain ⟨a, ha⟩ := hr.exists_isCommonAncestor hne hd
    exact h a ha
  · intro h a ha
    exact h fun n hn m hm => (ha.document_eq hr hn).symm.trans (ha.document_eq hr hm)

/-- **Order and repetition** of the elements do not count. -/
theorem commonAncestor_congr (hr : AreRelatives nodes) (h : ∀ n, n ∈ others ↔ n ∈ nodes) :
    commonAncestor others = commonAncestor nodes := by
  rcases eq_or_ne nodes [] with rfl | hne
  · obtain rfl : others = [] := List.eq_nil_iff_forall_not_mem.mpr (by simpa using h)
    rfl
  have hne' : others ≠ [] := by
    rintro rfl
    exact hne (List.eq_nil_iff_forall_not_mem.mpr (by simpa using h))
  have hcommon : ∀ a : Node, a.IsCommonAncestor others ↔ a.IsCommonAncestor nodes :=
    fun a => forall_congr' fun n => imp_congr_left (h n)
  have hlowest : ∀ a : Node, a.IsLowestCommonAncestor nodes → a.IsLowestCommonAncestor others :=
    fun a ha => ⟨(hcommon a).mpr ha.common, fun b hb => ha.lowest b ((hcommon b).mp hb)⟩
  cases hc : commonAncestor nodes with
  | some c =>
      rw [commonAncestor_eq_some_iff (hr.congr h) hne']
      exact hlowest c ((commonAncestor_eq_some_iff hr hne).mp hc)
  | none =>
      rw [commonAncestor_eq_none_iff (hr.congr h) hne']
      rw [commonAncestor_eq_none_iff hr hne] at hc
      simpa only [h] using hc

end Node

end Locator

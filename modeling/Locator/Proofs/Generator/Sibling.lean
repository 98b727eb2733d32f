/-
Elements among their siblings

The index of an element is its position among the children of its name that a
child step leads to, and an element without a twin is the only one there.

* `Node.test`: the test of a step for the name of an element;
* `Markup.passes_test`: what passes it are the elements of the same tag;
* `Node.index_eq`: **the index is the position of the step**;
* `Node.eq_of_index`, `Node.eq_of_not_hasTwin`: a child of the name with the
  index of the element, or any if it has no twin, is the element.
-/
import Locator.Proofs.XPath.Condition
import Locator.Proofs.Document.Xml

namespace Locator

open XPath

/-! ### Tests for names -/

/-- The test of a step for a name; a prefix counts only where there is a
namespace. -/
def Name.test (n : Name) : NodeTest := .name (if n.uri.isSome then n.pfx else none) n.base

lemma Markup.passes_name {pfx : Option Text} {base : Text} {uri : Option Text} (m : Markup) :
    m.passes (.name pfx base) uri = m.name?.any fun n => n.base == base && n.uri == uri := by
  rw [Markup.passes, NodeTest.accepts]
  cases h : m.name? with
  | none => simp [isMainKind, isNamed, isIn, Document.Item.name?, Markup.isElement, h]
  | some n =>
      have hkind : isMainKind .child (.piece m) = true := by
        simp only [isMainKind, Markup.isElement, h]
        rfl
      simp [hkind, isNamed, isIn, Document.Item.name?, h]

/-- The tag of a piece. -/
def Markup.tag (m : Markup) : Text := (m.name?.map Name.expanded).getD []

/-- The elements of a tag pass the test for the name. -/
lemma Markup.passes_test {d : Document} (hd : d.HasClearTags) {a b : Address} {m x : Markup} {n : Name}
    (hm : d.get? a = some m) (hn : m.name? = some n) (hx : d.get? b = some x) :
    x.passes n.test n.uri = (x.isElement && x.tag == m.tag) := by
  rw [Name.test, Markup.passes_name, Markup.isElement, Markup.tag, Markup.tag, hn]
  cases hk : x.name? with
  | none => simp
  | some k =>
      have hname := hd.names a b m x n k hm hn hx hk
      rw [Bool.eq_iff_iff]
      simp [hname]

/-! ### Siblings -/

namespace Node

variable {d : Document} {i j : ℕ} {a : Address} {m x : Markup} {n : Name}

lemma isElement_mk (hm : d.get? a = some m) : (⟨d, a⟩ : Node).isElement = m.isElement := by
  simp [Node.isElement, Node.name?, Node.markup?, hm, Markup.isElement]

lemma tag_mk (hm : d.get? a = some m) : (⟨d, a⟩ : Node).tag = m.tag := by
  simp [Node.tag, Node.name?, Node.markup?, hm, Markup.tag]

/-- The pieces beside a node with their positions. -/
lemma siblings_mk (d : Document) (i : ℕ) (a : Address) :
    (⟨d, i :: a⟩ : Node).siblings =
      ((d.childrenAt a).zipIdx.filter fun x => !x.1.isText).map fun x => ⟨d, x.2 :: a⟩ := rfl

/-- An element is no text. -/
lemma isText_of_isElement (h : m.isElement = true) : m.isText = false := by
  cases m <;> simp_all [Markup.isElement, Markup.name?, Markup.isText]

/-- The elements in front of a node among its siblings are counted among the pieces in front. -/
lemma length_elements_before {P : Node → Bool} {Q : Markup → Bool}
    (h : ∀ j x, d.get? (j :: a) = some x → P ⟨d, j :: a⟩ = Q x) :
    ((⟨d, i :: a⟩ : Node).siblings.filter fun m =>
        m.address.position < i && m.isElement && P m).length =
      ((d.childrenAt a).take i).countP fun x => x.isElement && Q x := by
  rw [siblings_mk, List.filter_map, List.length_map, List.filter_filter,
    ← length_filter_zipIdx _ _ 0 i, Nat.zero_add]
  congr 1
  refine List.filter_congr fun x hx => ?_
  have hget : d.get? (x.2 :: a) = some x.1 := List.mem_zipIdx_iff_getElem?.mp hx
  simp only [Function.comp_apply, isElement_mk hget, h _ _ hget, Address.position,
    List.headD_cons]
  cases he : x.1.isElement with
  | false => simp
  | true =>
      simp [isText_of_isElement he]
      rfl

/-- The index counts the elements of the tag in front. -/
lemma index_eq_countP (hm : d.get? (i :: a) = some m) :
    (⟨d, i :: a⟩ : Node).index =
      1 + ((d.childrenAt a).take i).countP fun x => x.isElement && x.tag == m.tag := by
  rw [← length_elements_before (P := fun x => x.tag == m.tag) fun j x hx => by rw [tag_mk hx],
    Node.index, tag_mk hm]
  rfl

/-- **The index** of an element is its position among the children of its
name. -/
theorem index_eq (hd : d.HasClearTags) (hm : d.get? (i :: a) = some m) (hn : m.name? = some n) :
    (⟨d, i :: a⟩ : Node).index = positionAt d n.test n.uri (i :: a) := by
  rw [index_eq_countP hm, positionAt, Nat.add_comm, Document.earlier]
  congr 1
  refine List.countP_congr fun x hx => ?_
  obtain ⟨j, hj⟩ := List.mem_iff_getElem?.mp (List.mem_of_mem_take hx)
  rw [Markup.passes_test hd hm hn (b := j :: a) hj]

/-- Of two children that pass a test the later one has the larger position. -/
lemma positionAt_lt_positionAt {test : NodeTest} {uri : Option Text}
    (hi : passesAt d test uri (i :: a)) (hij : i < j) :
    positionAt d test uri (i :: a) < positionAt d test uri (j :: a) := by
  obtain ⟨m, hm, hp⟩ := passesAt_iff.mp hi
  have hone : ((d.childrenAt a).take (i + 1)).countP (·.passes test uri) =
      ((d.childrenAt a).take i).countP (·.passes test uri) + 1 := by
    rw [List.take_add_one, List.countP_append, show (d.childrenAt a)[i]? = some m from hm]
    simp [hp]
  have hle : ((d.childrenAt a).take (i + 1)).countP (·.passes test uri) ≤
      ((d.childrenAt a).take j).countP (·.passes test uri) :=
    (List.take_sublist_take_left hij).countP_le
  simp only [positionAt, Document.earlier]
  omega

/-- Positions tell the children of a name apart. -/
lemma positionAt_inj {test : NodeTest} {uri : Option Text} (hi : passesAt d test uri (i :: a))
    (hj : passesAt d test uri (j :: a))
    (h : positionAt d test uri (i :: a) = positionAt d test uri (j :: a)) : i = j := by
  rcases Nat.lt_trichotomy i j with hij | hij | hij
  · exact absurd h (positionAt_lt_positionAt hi hij).ne
  · exact hij
  · exact absurd h (positionAt_lt_positionAt hj hij).ne'

/-- An element without a twin is the only child of its name. The root element
has none, since one element alone stands at the top. -/
theorem eq_of_not_hasTwin (hd : d.HasClearTags) (hm : d.get? (i :: a) = some m) (hn : m.name? = some n)
    (h : (⟨d, i :: a⟩ : Node).hasTwin = false) (hj : passesAt d n.test n.uri (j :: a)) :
    j = i := by
  obtain ⟨x, hx, hp⟩ := passesAt_iff.mp hj
  rw [Markup.passes_test hd hm hn hx, Bool.and_eq_true] at hp
  by_contra hne
  cases a with
  | nil =>
      obtain ⟨r, -, -, hu⟩ := hd.whole.exists_root
      have h1 := hu i (Document.isElementAt_iff.mpr ⟨m, hm, by simp [Markup.isElement, hn]⟩)
      have h2 := hu j (Document.isElementAt_iff.mpr ⟨x, hx, hp.1⟩)
      exact hne (h2.trans h1.symm)
  | cons k a =>
      obtain ⟨e, he, hel⟩ := Document.isElement_of_get? (by simp) hm
      have hparent : (⟨d, i :: k :: a⟩ : Node).parentElement?.isSome = true := by
        simp [Node.parentElement?, Address.parent?, Node.moved, isElement_mk he, hel]
      have hany : (⟨d, i :: k :: a⟩ : Node).siblings.any (fun y =>
          y.address != i :: k :: a && y.isElement && y.tag == (⟨d, i :: k :: a⟩ : Node).tag) :=
        List.any_eq_true.mpr ⟨⟨d, j :: k :: a⟩, by
          rw [siblings_mk]
          exact List.mem_map.mpr ⟨(x, j), List.mem_filter.mpr
            ⟨List.mem_zipIdx_iff_getElem?.mpr hx, by simp [isText_of_isElement hp.1]⟩, rfl⟩,
          by simp [isElement_mk hx, tag_mk hx, tag_mk hm, hp, hne]⟩
      rw [Node.hasTwin, hparent, Bool.true_and] at h
      rw [h] at hany
      exact absurd hany (by simp)

end Node

end Locator

/-
The text of a range

* `Thing.HoldsText`: the containers of a document that a boundary may stand
  in;
* `Boundary.charsBefore`: the number of characters of the document in front of
  a boundary;
* `Boundary.exists_locate`: a boundary is found among the marks of the document
  behind exactly these characters;
* `Range.text_eq`: **the text of a range is a slice** of the text of the
  document, except that a range that starts in the text behind a comment or an
  instruction has none.
-/
import Locator.Proofs.Range.Slot

namespace Locator

/-! ### Where boundaries stand -/

namespace Document

/-- The text of a document: the texts inside the root element, one after the
other. -/
def text (d : Document) : Text := (d.root?.map Node.content).getD []

end Document

namespace Thing

/-- The containers of a document that a boundary may stand in: the document,
an element of it, and a text of it, which is never empty, in front of the
children of an element or behind a piece inside an element. -/
def HoldsText (d : Document) : Thing → Prop
  | .document e => e = d
  | .node n => n.document = d ∧ n.isElement
  | .text n false => n.document = d ∧ n.isElement ∧ n.text ≠ []
  | .text n true => n.document = d ∧ (∃ m, n.markup? = some m ∧ m.isText = false) ∧
      n.parentElement?.isSome ∧ n.tail ≠ []
  | _ => False

/-- The text behind a comment or an instruction. -/
def isLoose : Thing → Bool
  | .text n true => !n.isElement
  | _ => false

end Thing

namespace Boundary

/-- The number of characters of the document in front of a boundary. An offset
of an element counts its pieces, with texts that touch as one and without empty
ones; one of a text counts characters; both stop at the end. -/
def charsBefore (b : Boundary) : ℕ :=
  match b.container with
  | .document d => if b.offset ≤ 0 then 0 else d.text.length
  | .node n => n.document.charsBefore n.address + (Markup.contents
      ((Markup.joinTexts (n.document.childrenAt n.address)).take b.offset.toNat)).length
  | .text n false => n.document.charsBefore n.address + min b.offset.toNat n.text.length
  | .text n true => n.document.charsThrough n.address + min b.offset.toNat n.tail.length
  | _ => 0

/-- A boundary in a document: the container is one of the document and the
offset is not negative. -/
def IsIn (d : Document) (b : Boundary) : Prop := b.container.HoldsText d ∧ 0 ≤ b.offset

end Boundary

/-! ### Finding boundaries -/

open Mark

variable {d : Document} {root : Node}

/-- The root element of a document, and where its elements stand. -/
lemma Document.IsWhole.exists_root_address (h : d.IsWhole) (hroot : d.root? = some root) :
    root.document = d ∧ root.isElement ∧ ∃ r, root.address = [r] ∧
      ∀ n : Node, n.document = d → n.isElement → [r] <:+ n.address := by
  obtain ⟨r, hr, he, hu⟩ := h.exists_root
  obtain rfl : root = ⟨d, [r]⟩ := by simpa [Document.root?, Document.rootAddress?, hr] using hroot.symm
  refine ⟨rfl, Document.isElement_iff.mpr he, r, rfl, fun n hn hel => ?_⟩
  subst hn
  obtain ⟨way, hway⟩ := Document.exists_way_of_isElementAt hu (Document.isElement_iff.mp hel)
  exact ⟨way, hway.symm⟩

/-- The parent of a node is the element at the address above it. -/
lemma Node.of_parentElement? {n p : Node} (h : n.parentElement? = some p) :
    p.isElement ∧ p.document = n.document ∧ ∃ i, n.address = i :: p.address := by
  cases ha : n.address with
  | nil => simp [parentElement?, ha, Address.parent?] at h
  | cons i a =>
      obtain ⟨he, rfl⟩ : (n.moved a).isElement ∧ n.moved a = p := by
        simpa [parentElement?, ha, Address.parent?] using h
      exact ⟨he, rfl, i, rfl⟩

/-- What stands at an element, and its content. -/
lemma Node.markup_of_isElement {n : Node} (he : n.isElement) :
    ∃ m, n.markup? = some m ∧ m.isText = false ∧ n.content = m.content ∧
      n.document.childrenAt n.address = m.children ∧ m.content = Markup.contents m.children := by
  obtain ⟨m, hm, hel⟩ := Document.isElementAt_iff.mp (Document.isElement_iff.mp he)
  have ha : n.address ≠ [] := by
    intro ha
    simp [ha] at hm
  refine ⟨m, hm, ?_, ?_, Document.childrenAt_of_get? hm, ?_⟩
  · cases m <;> simp_all [Markup.isElement, Markup.isText, Markup.name?]
  · rw [Node.content, Document.textOf, hm]
    · cases m <;> simp_all [Markup.isElement, Markup.name?]
    · exact ha
  · cases m <;> simp_all [Markup.isElement, Markup.name?, Markup.content, Markup.children]

/-- The root element holds the text of the document. -/
lemma Document.IsWhole.exists_root_markup (h : d.IsWhole) (hroot : d.root? = some root) :
    ∃ m, root.markup? = some m ∧ m.isText = false ∧ d.text = m.content := by
  obtain ⟨-, he, -⟩ := h.exists_root_address hroot
  obtain ⟨m, hm, ht, hcontent, -⟩ := Node.markup_of_isElement he
  exact ⟨m, hm, ht, by simp [Document.text, hroot, hcontent]⟩

lemma Document.IsWhole.exists_root? (h : d.IsWhole) : ∃ root, d.root? = some root := by
  obtain ⟨r, hr, -⟩ := h.exists_root
  simp [Document.root?, Document.rootAddress?, hr]

/-- The texts of the marks of the root element are the text of the document. -/
lemma Document.IsWhole.contents_ofNode (h : d.IsWhole) (hroot : d.root? = some root) :
    contents (ofNode root) = d.text := by
  obtain ⟨m, hm, ht, htext⟩ := h.exists_root_markup hroot
  rw [ofNode, hm, contents_ofMarkup root m ht, htext]

/-- Through the end of the root element stand all characters of the document. -/
lemma Document.IsWhole.charsThrough_root (h : d.IsWhole) (hroot : d.root? = some root) :
    d.charsThrough root.address = d.text.length := by
  obtain ⟨hrd, -, r, hr, -⟩ := h.exists_root_address hroot
  obtain ⟨m, hm, -, htext⟩ := h.exists_root_markup hroot
  rw [htext, Document.charsThrough, ← hrd, ← Node.markup?, hm, hr]
  simp [Document.charsBefore]

/-- A text of an element is found among the marks, with every place in it. -/
lemma Slot.exists_text (h : d.IsWhole) (hroot : d.root? = some root) {n o : Node} {t : Bool}
    (hd : n.document = d) (he : n.isElement) (hs : (Slot.text o t).IsOf n) :
    ∃ i, (ofNode root).findIdx? (isTextOf o t) = some i ∧
      (ofNode root)[i]? = some (.text o t (Slot.text o t).piece.content) ∧
      ∀ c ≤ (Slot.text o t).piece.content.length,
        IsAt (ofNode root) (i, c) ((Slot.text o t).charsBefore + c) := by
  obtain ⟨rfl, -, r, hr, hin⟩ := h.exists_root_address hroot
  have hw := hin n hd he
  cases t with
  | false =>
      obtain ⟨rfl, hn⟩ := hs
      have := exists_front hr hd hw he hn
      rwa [← hd] at this
  | true =>
      obtain ⟨hc, ⟨i, hi⟩, ⟨m, hm, ht⟩, hn⟩ := hs
      have := exists_behind hr (hc.trans hd) hi hw hm ht hn
      rwa [← hc.trans hd] at this

/-- A text that holds a boundary is a text of an element. -/
lemma Thing.HoldsText.isOf {n : Node} {t : Bool} (hc : (Thing.text n t).HoldsText d) :
    ∃ e : Node, e.document = d ∧ e.isElement ∧ (Slot.text n t).IsOf e := by
  cases t with
  | false =>
      obtain ⟨hd, he, hn⟩ := hc
      exact ⟨n, hd, he, rfl, hn⟩
  | true =>
      obtain ⟨hd, hm, hp, hn⟩ := hc
      obtain ⟨p, hp⟩ := Option.isSome_iff_exists.mp hp
      obtain ⟨he, hpd, i, ha⟩ := Node.of_parentElement? hp
      exact ⟨p, hpd.trans hd, he, hpd.symm, ⟨i, ha⟩, hm, hn⟩

namespace Boundary

/-- The end of an element is found among the marks. -/
lemma exists_find_stop (h : d.IsWhole) (hroot : d.root? = some root) {n : Node}
    (hd : n.document = d) (he : n.isElement) :
    ∃ p, find (ofNode root) (isStopOf n) = some p ∧
      IsAt (ofNode root) p (d.charsThrough n.address) := by
  obtain ⟨rfl, -, r, hr, hin⟩ := h.exists_root_address hroot
  obtain ⟨i, hi, hat⟩ := exists_stop hr hd (hin n hd he) he
  exact ⟨(i, 0), by simp [find, hi], hat⟩

/-- A slot of an element is found among the marks. -/
lemma exists_findSlot (h : d.IsWhole) (hroot : d.root? = some root) {n : Node}
    (hd : n.document = d) (he : n.isElement) {s : Slot} (hs : s.IsOf n) :
    ∃ p, findSlot (ofNode root) s = some p ∧ IsAt (ofNode root) p s.charsBefore := by
  cases s with
  | child c =>
      obtain ⟨rfl, -, r, hr, hin⟩ := h.exists_root_address hroot
      obtain ⟨hc, ⟨i, hi⟩, m, hm, ht⟩ := hs
      have hw : [r] <:+ c.address := hi ▸ (hin n hd he).trans (List.suffix_cons i _)
      obtain ⟨j, hj, hat⟩ := exists_start hr (hc.trans hd) hw hm ht
      exact ⟨(j, 0), by simp [findSlot, find, hj], by rwa [Slot.charsBefore, hc, hd]⟩
  | text o t =>
      obtain ⟨i, hi, -, hat⟩ := Slot.exists_text h hroot hd he hs
      exact ⟨(i, 0), by simp [findSlot, find, hi], hat 0 (Nat.zero_le _)⟩

/-- The characters through the end of an element are those in front of it and
all of its pieces. -/
lemma charsThrough_eq (n : Node) {k : ℕ} (he : n.isElement) (hk : n.slots[k]? = none) :
    n.document.charsThrough n.address = n.document.charsBefore n.address + (Markup.contents
      ((Markup.joinTexts (n.document.childrenAt n.address)).take k)).length := by
  obtain ⟨m, hm, -, -, hchildren, hcontent⟩ := Node.markup_of_isElement he
  have hlen : (Markup.joinTexts (n.document.childrenAt n.address)).length ≤ k := by
    rw [← Node.map_piece_slots he, List.length_map]
    exact List.getElem?_eq_none_iff.mp hk
  rw [List.take_of_length_le hlen, Markup.contents_joinTexts, Document.charsThrough,
    ← Node.markup?, hm, hchildren, Option.map_some, Option.getD_some, hcontent]

/-- A boundary in a document is found among the marks. -/
lemma exists_locate_document (h : d.IsWhole) (hroot : d.root? = some root) (offset : ℤ)
    (placing : Placing) :
    ∃ p, locate (ofNode root) ⟨.document d, offset, placing⟩ = some p ∧
      IsAt (ofNode root) p (charsBefore ⟨.document d, offset, placing⟩) := by
  obtain ⟨hrd, hre, r, hr, -⟩ := h.exists_root_address hroot
  obtain ⟨m, hm, ht, -⟩ := h.exists_root_markup hroot
  by_cases h0 : offset ≤ 0
  · obtain ⟨i, hi, hat⟩ := exists_start hr rfl (hr ▸ List.suffix_refl _) hm ht
    rw [hr] at hat
    exact ⟨(i, 0), by simp [locate, hroot, h0, find, hi], by
      simpa [charsBefore, h0, Document.charsBefore] using hat⟩
  · obtain ⟨p, hp, hat⟩ := exists_find_stop h hroot hrd hre
    rw [h.charsThrough_root hroot] at hat
    exact ⟨p, by simp [locate, hroot, h0, hp], by simpa [charsBefore, h0] using hat⟩

/-- A boundary in an element is found among the marks. -/
lemma exists_locate_node (h : d.IsWhole) (hroot : d.root? = some root) {n : Node}
    (hd : n.document = d) (he : n.isElement) {offset : ℤ} (ho : 0 ≤ offset)
    (placing : Placing) :
    ∃ p, locate (ofNode root) ⟨.node n, offset, placing⟩ = some p ∧
      IsAt (ofNode root) p (charsBefore ⟨.node n, offset, placing⟩) := by
  have ha := Document.address_ne_nil he
  have hlt : ¬ offset < 0 := not_lt.mpr ho
  cases hs : n.slots[offset.toNat]? with
  | none =>
      obtain ⟨p, hp, hat⟩ := exists_find_stop h hroot hd he
      rw [← hd, charsThrough_eq n he hs] at hat
      exact ⟨p, by simp [locate, he, hlt, hs, hp], hat⟩
  | some s =>
      obtain ⟨p, hp, hat⟩ := exists_findSlot h hroot hd he
        (Node.isOf_of_mem_slots he (List.mem_of_getElem? hs))
      rw [Node.charsBefore_slot he ha hs] at hat
      exact ⟨p, by simp [locate, he, hlt, hs, hp], hat⟩

/-- A boundary is found among the marks behind the characters in front of it. -/
theorem exists_locate (h : d.IsWhole) (hroot : d.root? = some root) {b : Boundary}
    (hb : b.IsIn d) :
    ∃ p, b.locate (ofNode root) = some p ∧ IsAt (ofNode root) p b.charsBefore := by
  obtain ⟨container, offset, placing⟩ := b
  obtain ⟨hc, ho⟩ := hb
  cases container with
  | document e =>
      obtain rfl : e = d := hc
      exact exists_locate_document h hroot _ _
  | node n => exact exists_locate_node h hroot hc.1 hc.2 ho _
  | text n t =>
      obtain ⟨e, hd, he, hs⟩ := hc.isOf
      obtain ⟨i, hi, hget, hat⟩ := Slot.exists_text h hroot hd he hs
      refine ⟨_, by simp only [locate, hi, hget]; rfl, ?_⟩
      have := hat (min offset.toNat (Slot.text n t).piece.content.length) (min_le_right _ _)
      cases t <;> exact this
  | _ => exact hc.elim

end Boundary

/-! ### The text of a range -/

namespace Range

/-- A range is taken from the tree of its start, unless the start stands in
the text behind a comment or an instruction. -/
lemma treeRoot?_eq {c : Thing} (hc : c.HoldsText d) :
    treeRoot? c = if c.isLoose then none else d.root? := by
  cases c with
  | document e => exact congrArg Document.root? hc
  | node n =>
      obtain ⟨hd, he⟩ := hc
      simp [treeRoot?, Thing.containing?, Thing.isLoose, he, hd]
  | text n t =>
      cases t with
      | false =>
          obtain ⟨hd, he, -⟩ := hc
          simp [treeRoot?, Thing.containing?, Thing.isLoose, he, hd]
      | true =>
          obtain ⟨hd, -, hp, -⟩ := hc
          obtain ⟨p, hp⟩ := Option.isSome_iff_exists.mp hp
          have hpd : p.document = d := (Node.of_parentElement? hp).2.1.trans hd
          cases he : n.isElement <;> simp [treeRoot?, Thing.containing?, Thing.isLoose, he, hp, hpd]
  | _ => exact hc.elim

/-- Between boundaries of a document stand the characters in front of the end that
are behind the start. -/
lemma text_eq_slice (h : d.IsWhole) {r : Range} (hs : r.start.IsIn d) (he : r.stop.IsIn d) :
    r.text = if r.start.container.isLoose then []
      else (d.text.take r.stop.charsBefore).drop r.start.charsBefore := by
  rw [text, treeRoot?_eq hs.1]
  cases hl : r.start.container.isLoose with
  | true => rfl
  | false =>
      obtain ⟨root, hroot⟩ := h.exists_root?
      obtain ⟨p, hp, hpat⟩ := Boundary.exists_locate h hroot hs
      obtain ⟨q, hq, hqat⟩ := Boundary.exists_locate h hroot he
      simp only [Bool.false_eq_true, ↓reduceIte, hroot, hp, hq, cut_eq hpat hqat,
        h.contents_ofNode hroot]

/-- **The text of a range is a slice** of the text of the document, from the
characters in front of its start to those in front of its end, and empty where
the end comes first; only a range that starts in the text behind a comment or
an instruction has no text at all. -/
theorem text_eq (h : d.IsWhole) {r : Range} (hs : r.start.IsIn d) (he : r.stop.IsIn d) :
    r.text = (if r.start.container.isLoose then []
        else (d.text.take r.stop.charsBefore).drop r.start.charsBefore) ∧
      (r.stop.charsBefore ≤ r.start.charsBefore → r.text = []) := by
  have htext := text_eq_slice h hs he
  refine ⟨htext, fun hle => ?_⟩
  rw [htext, List.drop_eq_nil_of_le ((List.length_take_le _ _).trans hle), ite_self]

/-- A document with text around a comment and around an element. -/
def remark : Document where
  key := 0
  content := [.element { base := ['r'] } [] []
    [.text ['a', 'b'], .comment ['x'], .text ['c', 'd'],
      .element { base := ['e'] } [] [] [.text ['f']], .text ['g']]]

/-- A range from the text in front to an offset of the element, across the
comment. -/
theorem text_acrossRemark :
    remark.IsWhole ∧
      (Range.mk (.of (.text ⟨remark, [0]⟩ false) 1) (.of (.node ⟨remark, [0]⟩) 3)).text =
        ['b', 'c', 'd'] := by
  have hwhole : remark.IsWhole := by decide
  have htext := (text_eq hwhole
    (r := ⟨.of (.text ⟨remark, [0]⟩ false) 1, .of (.node ⟨remark, [0]⟩) 3⟩)
    ⟨⟨rfl, rfl, by decide⟩, by decide⟩ ⟨⟨rfl, rfl⟩, by decide⟩).1
  exact ⟨hwhole, htext.trans rfl⟩

/-- From the text behind a comment to the end of the document there are four
characters, and the range has none of them. -/
theorem text_behindRemark :
    remark.IsWhole ∧ (Boundary.of (.text ⟨remark, [1, 0]⟩ true) 0).IsIn remark ∧
      (Boundary.of (.document remark) 1).IsIn remark ∧
      (remark.text.take (Boundary.of (.document remark) 1).charsBefore).drop
        (Boundary.of (.text ⟨remark, [1, 0]⟩ true) 0).charsBefore = ['c', 'd', 'f', 'g'] ∧
      (Range.mk (.of (.text ⟨remark, [1, 0]⟩ true) 0) (.of (.document remark) 1)).text = [] :=
  ⟨by decide, ⟨⟨rfl, ⟨_, rfl, rfl⟩, rfl, by decide⟩, by decide⟩, ⟨rfl, by decide⟩, rfl, rfl⟩

end Range

end Locator

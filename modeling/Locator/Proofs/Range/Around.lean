/-
The text around an element

* `Node.texts`: the texts inside an element, in document order;
  `Node.content_eq_flatten`: its content is these, one after the other;
* `Document.take_drop_text`: the content of an element is what stands between the
  characters in front of it and those through its end;
* `Boundary.charsBefore_before`, `Boundary.charsBefore_behind`: the boundaries in
  front of an element and behind it stand there;
* `Range.text_around`: **three ways to read an element** agree, the range over
  everything inside it, the one from in front of it to behind it, and its content.
-/
import Locator.Lookup
import Locator.Proofs.Range.Text

namespace Locator

/-! ### The texts inside -/

namespace Markup

/-- The text, if it is one. -/
def text? : Markup → Option Text
  | .text s => some s
  | _ => none

mutual

lemma content_eq_flatten (a : Address) : ∀ m : Markup,
    m.content = ((m.located a).filterMap (·.2.text?)).flatten
  | .element name bs as cs => by
      simpa [content, located, text?] using contents_eq_flatten a 0 cs
  | .text s => by simp [content, located, text?]
  | .comment s => by simp [content, located, text?]
  | .instruction t s => by simp [content, located, text?]

/-- The content of pieces is their texts and those inside them, in document order. -/
lemma contents_eq_flatten (a : Address) (i : ℕ) : ∀ ms : List Markup,
    contents ms = ((locatedFrom a i ms).filterMap (·.2.text?)).flatten
  | [] => by simp [contents, locatedFrom]
  | m :: ms => by
      rw [contents, content_eq_flatten (i :: a) m, contents_eq_flatten a (i + 1) ms, locatedFrom,
        List.filterMap_append, List.flatten_append]

end

end Markup

/-- Is it the slot of a node? -/
def Slot.isChild (n : Node) : Slot → Bool
  | .child c => c.same n
  | .text _ _ => false

namespace Node

variable {n p : Node}

/-- The texts inside an element, in document order; the one behind it is not inside. -/
def texts (n : Node) : List Text :=
  (n.document.piecesBelow n.address).filterMap (·.2.text?)

/-- The content of an element is the texts inside it, one after the other. -/
lemma content_eq_flatten (he : n.isElement) : n.content = n.texts.flatten := by
  obtain ⟨m, -, -, hcontent, hchildren, hin⟩ := markup_of_isElement he
  rw [hcontent, hin, texts, Document.piecesBelow, hchildren]
  exact Markup.contents_eq_flatten n.address 0 m.children

/-- A piece below a node that is no text is one of its children. -/
lemma mem_children {i : ℕ} {m : Markup} (hd : n.document = p.document)
    (ha : n.address = i :: p.address) (hm : n.markup? = some m) (ht : m.isText = false) :
    n ∈ p.children := by
  have hget : (p.document.childrenAt p.address)[i]? = some m := by
    rw [markup?, ha, hd] at hm
    exact hm
  refine List.mem_map.mpr ⟨(m, i), List.mem_filter.mpr ⟨?_, by simp [ht]⟩, ?_⟩
  · exact List.mem_zipIdx_iff_getElem?.mpr hget
  · rw [moved, ← hd, ← ha]

/-- The slot of an element is the one that boundaries beside it are put next to. -/
lemma exists_slot (he : n.isElement) (hp : n.parentElement? = some p) :
    ∃ k, Boundary.around n = (.node p, k) ∧ p.slots[k]? = some (.child n) := by
  obtain ⟨hpe, hpd, i, ha⟩ := of_parentElement? hp
  obtain ⟨m, hm, ht, -⟩ := markup_of_isElement he
  have hmem : Slot.child n ∈ p.slots := by
    have hchild := mem_children hpd.symm ha hm ht
    exact List.mem_append_right _ (List.mem_flatMap.mpr ⟨n, hchild, List.mem_cons_self⟩)
  have hlt : p.slots.findIdx (Slot.isChild n) < p.slots.length :=
    List.findIdx_lt_length_of_exists ⟨_, hmem, Mark.same_self n⟩
  refine ⟨p.slots.findIdx (Slot.isChild n), by rw [Boundary.around, hp]; rfl, ?_⟩
  rw [List.getElem?_eq_getElem hlt, Option.some_inj]
  have hhere : Slot.isChild n p.slots[p.slots.findIdx (Slot.isChild n)] := List.findIdx_getElem
  -- the first child at the address of the node is the node: both are of one document
  cases hs : p.slots[p.slots.findIdx (Slot.isChild n)] with
  | child c =>
      have hc : (Slot.child c).IsOf p := isOf_of_mem_slots hpe (hs ▸ List.getElem_mem hlt)
      have hdoc : c.document = n.document := hc.1.trans hpd
      have haddress : c.address = n.address := by
        rw [hs] at hhere
        simpa using (Bool.and_eq_true_iff.mp hhere).2
      cases c
      cases n
      simp_all
  | text o t => simp [hs, Slot.isChild] at hhere

end Node

/-! ### Around an element -/

variable {n p : Node}

/-- The content of an element is what stands in its document between the characters
in front of it and those through its end. -/
lemma Document.take_drop_text (h : n.document.IsWhole) (he : n.isElement) :
    (n.document.text.take (n.document.charsThrough n.address)).drop
      (n.document.charsBefore n.address) = n.content := by
  obtain ⟨root, hroot⟩ := h.exists_root?
  obtain ⟨hrd, -, r, hr, hin⟩ := h.exists_root_address hroot
  obtain ⟨m, hm, ht, hcontent, -⟩ := Node.markup_of_isElement he
  obtain ⟨pre, post, hmarks, -, hlen⟩ := Mark.exists_marks hr hrd.symm (hin n rfl he) hm ht
  have hthrough : n.document.charsThrough n.address =
      (Mark.contents pre).length + n.content.length := by
    rw [Document.charsThrough, ← Node.markup?, hm, hlen, hrd, hcontent]
    rfl
  rw [← h.contents_ofNode hroot, hmarks, Mark.contents_append, Mark.contents_append,
    Mark.contents_ofMarkup n m ht, hthrough, ← hcontent, ← hrd, ← hlen,
    List.take_length_add_append, List.take_left, List.drop_left]

/-- An element without a parent is the root element. -/
lemma Document.IsWhole.root_of_parentElement? (h : n.document.IsWhole) (he : n.isElement)
    (hp : n.parentElement? = none) : n.document.root? = some n := by
  obtain ⟨root, hroot⟩ := h.exists_root?
  obtain ⟨hrd, hre, r, hr, hin⟩ := h.exists_root_address hroot
  obtain ⟨way, hway⟩ := hin n rfl he
  rcases way with _ | ⟨i, way⟩
  · rw [hroot, Option.some_inj]
    cases n
    cases root
    simp_all
  · -- above any other element there is an element
    have hget : n.document.get? (i :: (way ++ [r])) = n.markup? := by rw [Node.markup?, ← hway]; rfl
    obtain ⟨m, hm, -⟩ := Node.markup_of_isElement he
    obtain ⟨e, hget', hel⟩ := Document.isElement_of_get? (by simp) (hget.trans hm)
    have hpar : (n.moved (way ++ [r])).isElement :=
      Document.isElement_iff.mpr (Document.isElementAt_iff.mpr ⟨e, hget', hel⟩)
    have hparent : n.address.parent? = some (way ++ [r]) := by rw [← hway]; rfl
    simp [Node.parentElement?, hparent, hpar] at hp

/-- A boundary beside an element is put into its parent, at the slot of the element: in
front of it stand the pieces that make up the characters in front of the element. -/
lemma Boundary.exists_around (he : n.isElement) (hp : n.parentElement? = some p) :
    p.isElement ∧ p.document = n.document ∧ ∃ k, around n = (.node p, k) ∧
      (Markup.joinTexts (p.document.childrenAt p.address))[k]? = n.markup? ∧
      n.document.charsBefore n.address = p.document.charsBefore p.address + (Markup.contents
        ((Markup.joinTexts (p.document.childrenAt p.address)).take k)).length := by
  obtain ⟨hpe, hpd, -⟩ := Node.of_parentElement? hp
  obtain ⟨k, hk, hslot⟩ := Node.exists_slot he hp
  obtain ⟨m, hm, -⟩ := Node.markup_of_isElement he
  have hpa := Document.address_ne_nil hpe
  refine ⟨hpe, hpd, k, hk, ?_, Node.charsBefore_slot hpe hpa hslot⟩
  rw [← Node.map_piece_slots hpe, List.getElem?_map, hslot]
  simp [Slot.piece, hm]

namespace Boundary

/-- The boundary in front of an element stands behind the characters in front of
it. -/
lemma charsBefore_before (h : n.document.IsWhole) (he : n.isElement) :
    (before n).IsIn n.document ∧
      (before n).charsBefore = n.document.charsBefore n.address := by
  cases hp : n.parentElement? with
  | none =>
      have hroot := h.root_of_parentElement? he hp
      obtain ⟨-, -, r, hr, -⟩ := h.exists_root_address hroot
      rw [before, around, hp]
      exact ⟨⟨rfl, le_rfl⟩, by simp [charsBefore, hr, Document.charsBefore]⟩
  | some p =>
      obtain ⟨hpe, hpd, k, hk, -, hchars⟩ := exists_around he hp
      rw [before, hk]
      exact ⟨⟨⟨hpd, hpe⟩, Int.natCast_nonneg k⟩, by simp [charsBefore, hchars]⟩

/-- The boundary behind an element stands behind the characters through its end. -/
lemma charsBefore_behind (h : n.document.IsWhole) (he : n.isElement) :
    (behind n).IsIn n.document ∧
      (behind n).charsBefore = n.document.charsThrough n.address := by
  cases hp : n.parentElement? with
  | none =>
      have hroot := h.root_of_parentElement? he hp
      rw [behind, around, hp]
      exact ⟨⟨rfl, by simp⟩, by simp [charsBefore, h.charsThrough_root hroot]⟩
  | some p =>
      obtain ⟨hpe, hpd, k, hk, hpiece, hchars⟩ := exists_around he hp
      obtain ⟨m, hm, -⟩ := Node.markup_of_isElement he
      rw [behind, hk]
      refine ⟨⟨⟨hpd, hpe⟩, by positivity⟩, ?_⟩
      have hnext : ((k : ℤ) + 1).toNat = k + 1 := by omega
      rw [Document.charsThrough, ← Node.markup?, hm, hchars]
      simp [charsBefore, hnext, List.take_add_one, hpiece, hm, Markup.contents, Nat.add_assoc]

/-- The boundaries at both ends of an element, inside it. -/
lemma charsBefore_inside (he : n.isElement) :
    (of (.node n) 0).charsBefore = n.document.charsBefore n.address ∧
      (of (.node n) n.slots.length).charsBefore = n.document.charsThrough n.address := by
  refine ⟨by simp [charsBefore, of, Markup.contents], ?_⟩
  rw [charsThrough_eq n he (List.getElem?_eq_none le_rfl)]
  simp [charsBefore, of]

end Boundary

namespace Range

/-- A range from the start of an element to its end has the content of the element. -/
lemma text_eq_content (h : n.document.IsWhole) (he : n.isElement) {r : Range}
    (hl : r.start.container.isLoose = false)
    (hs : r.start.IsIn n.document ∧ r.start.charsBefore = n.document.charsBefore n.address)
    (ht : r.stop.IsIn n.document ∧ r.stop.charsBefore = n.document.charsThrough n.address) :
    r.text = n.content := by
  rw [text_eq_slice h hs.1 ht.1, hl, hs.2, ht.2, if_neg Bool.false_ne_true,
    Document.take_drop_text h he]

/-- **Three ways to read an element**: the range over everything inside it, any range
put in front of it and behind it, and its text as it stands all give the texts inside
the element, one after the other, and not the text behind it. -/
theorem text_around (h : n.document.IsWhole) (he : n.isElement) (r : Range) :
    (selectContents n).text = n.texts.flatten ∧
      ((r.startBefore n).endAfter n).text = n.texts.flatten ∧
      Lookup.textOf (some n) false = .ok n.texts.flatten := by
  rw [← Node.content_eq_flatten he]
  refine ⟨?_, ?_, by simp [Lookup.textOf, he]⟩
  · have hin := Boundary.charsBefore_inside he
    exact text_eq_content h he rfl ⟨⟨⟨rfl, he⟩, le_rfl⟩, hin.1⟩
      ⟨⟨⟨rfl, he⟩, Int.natCast_nonneg _⟩, hin.2⟩
  · have hloose : (Boundary.before n).container.isLoose = false := by
      rw [Boundary.before, Boundary.around]
      cases n.parentElement? <;> rfl
    exact text_eq_content h he hloose (Boundary.charsBefore_before h he)
      (Boundary.charsBefore_behind h he)

/-- A document with an element between texts, and a comment, an instruction and an
element between the texts of it. -/
def framed : Document where
  key := 0
  content := [.comment ['x'], .element { base := ['r'] } [] []
    [.text ['a'], .comment ['y'], .text ['b'],
      .element { base := ['e'] } [] []
        [.text ['c'], .instruction ['p'] ['z'], .text [], .text ['d'],
          .element { base := ['f'] } [] [] [.text ['g']], .text ['h']],
      .text ['i']]]

/-- The element has four texts inside; the one behind it is left out. -/
theorem text_aroundFramed :
    framed.IsWhole ∧ Node.isElement ⟨framed, [3, 1]⟩ ∧ Node.tail ⟨framed, [3, 1]⟩ = ['i'] ∧
      (selectContents ⟨framed, [3, 1]⟩).text = ['c', 'd', 'g', 'h'] ∧
      (((selectContents ⟨framed, [1]⟩).startBefore ⟨framed, [3, 1]⟩).endAfter
        ⟨framed, [3, 1]⟩).text = ['c', 'd', 'g', 'h'] ∧
      Lookup.textOf (some ⟨framed, [3, 1]⟩) false = .ok ['c', 'd', 'g', 'h'] := by
  have hwhole : framed.IsWhole := by decide
  have helement : Node.isElement ⟨framed, [3, 1]⟩ := by decide
  have htexts : (Node.texts ⟨framed, [3, 1]⟩).flatten = ['c', 'd', 'g', 'h'] := rfl
  have haround := text_around hwhole helement (selectContents ⟨framed, [1]⟩)
  rw [htexts] at haround
  exact ⟨hwhole, helement, rfl, haround⟩

end Range

end Locator

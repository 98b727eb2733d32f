/-
Boundaries that no element contains

* `Mark.isHeld_ofNode`: the texts among the marks of an element stand in front of the
  children of elements, or behind pieces that are inside one;
* `Boundary.locate_eq_none`: a boundary that no element contains is not found among
  the marks of a tree, unless it stands at an attribute or in the text behind a comment
  or an instruction;
* `Range.text_eq_nil_of_uncontained`: **a range with such a boundary has no text**, and
  at an attribute a range ends as if it ended in the text of the element.
-/
import Locator.Proofs.Range.Around

namespace Locator

/-- Is it an attribute? -/
def Thing.isAttribute : Thing → Bool
  | .attribute _ _ => true
  | _ => false

/-- A piece below an element is inside it. -/
lemma Node.parentElement?_moved {n : Node} (he : n.isElement) (i : ℕ) :
    (n.moved (i :: n.address)).parentElement? = some n := by
  simp [parentElement?, moved, Address.parent?, he]

/-! ### Texts among marks -/

namespace Mark

/-- A text in front of children belongs to an element, and one behind a piece to a piece
that is inside an element. -/
def IsHeld : Mark → Prop
  | .text o false _ => o.isElement
  | .text o true _ => o.parentElement?.isSome
  | _ => True

/-- What is listed for a text is one. -/
lemma isHeld_textMark {o : Node} {t : Bool} {s : Text} {x : Mark} (h : (text o t s).IsHeld)
    (hx : x ∈ textMark o t s) : x.IsHeld := by
  rw [textMark] at hx
  split at hx
  · simp at hx
  · exact List.mem_singleton.mp hx ▸ h

mutual

/-- The texts among the marks of a piece belong to elements or are inside them. -/
lemma isHeld_ofMarkup (n : Node) : ∀ m : Markup, n.markup? = some m →
    ∀ x ∈ ofMarkup n m, x.IsHeld
  | .element name bs as cs, hm, x, hx => by
      have he : n.isElement := by simp [Node.isElement, Node.name?, hm, Markup.name?]
      simp only [ofMarkup, List.cons_append, List.mem_cons, List.mem_append, List.not_mem_nil,
        or_false] at hx
      rcases hx with rfl | (hx | hx) | rfl
      · trivial
      · exact isHeld_textMark (show (Mark.text n false _).IsHeld from he) hx
      · exact isHeld_ofChildren n he 0 cs (Document.childrenAt_of_get? hm) x hx
      · trivial
  | .text s, _, x, hx => by
      rcases (by simpa [ofMarkup] using hx : x = .start n ∨ x = .stop n) with rfl | rfl <;> trivial
  | .comment s, _, x, hx => by
      rcases (by simpa [ofMarkup] using hx : x = .start n ∨ x = .stop n) with rfl | rfl <;> trivial
  | .instruction t s, _, x, hx => by
      rcases (by simpa [ofMarkup] using hx : x = .start n ∨ x = .stop n) with rfl | rfl <;> trivial

/-- So do those among the marks of the children from a position on. -/
lemma isHeld_ofChildren (n : Node) (he : n.isElement) (i : ℕ) : ∀ ms : List Markup,
    (n.document.childrenAt n.address).drop i = ms → ∀ x ∈ ofChildren n i ms, x.IsHeld
  | [], _, x, hx => by simp [ofChildren] at hx
  | m :: ms, h, x, hx => by
      obtain ⟨hm, hms⟩ := List.of_drop_eq_cons h
      rw [ofChildren, List.mem_append] at hx
      rcases hx with hx | hx
      · split at hx
        · simp at hx
        · rcases List.mem_append.mp hx with hx | hx
          · exact isHeld_ofMarkup (n.moved (i :: n.address)) m hm x hx
          · refine isHeld_textMark ?_ hx
            rw [IsHeld, Node.parentElement?_moved he, Option.isSome_some]
      · exact isHeld_ofChildren n he (i + 1) ms hms x hx

end

/-- The texts among the marks of a node belong to elements of its document, or stand
behind pieces inside them. -/
lemma isHeld_ofNode {root : Node} {x : Mark} (hx : x ∈ ofNode root) :
    x.IsHeld ∧ x.owner.document = root.document := by
  rw [ofNode] at hx
  cases hm : root.markup? with
  | none => simp [hm] at hx
  | some m =>
      rw [hm] at hx
      exact ⟨isHeld_ofMarkup root m hm x hx, (owner_ofMarkup root m hx).1⟩

end Mark

/-! ### Boundaries without an element -/

/-- No element contains a text that its marks would hold, unless it stands behind a
comment or an instruction. -/
lemma Thing.not_isHeld_of_containing?_eq_none {n : Node} {t : Bool} {s : Text}
    (h : (Thing.text n t).containing? = none) (hl : (Thing.text n t).isLoose = false) :
    ¬ (Mark.text n t s).IsHeld := by
  cases t with
  | false =>
      intro he
      simp [containing?, show n.isElement from he] at h
  | true =>
      have he : n.isElement := by simpa [isLoose] using hl
      intro hp
      simp only [containing?, he, Bool.not_true, Bool.false_eq_true, ↓reduceIte] at h
      simp [Mark.IsHeld, h] at hp

/-- A boundary that no element contains is not found among the marks of a tree, unless
it stands at an attribute or in the text behind a comment or an instruction. -/
lemma Boundary.locate_eq_none {b : Boundary} {root : Node}
    (hkey : ∀ n t, b.container = .text n t → root.document.key = n.document.key →
      root.document = n.document)
    (h : b.container.containing? = none) (hl : b.container.isLoose = false)
    (ha : b.container.isAttribute = false) : b.locate (Mark.ofNode root) = none := by
  obtain ⟨container, offset, placing⟩ := b
  cases container with
  | document d =>
      have hroot : d.root? = none := h
      simp [locate, hroot]
  | node n =>
      have he : n.isElement = false := by
        by_contra he
        simp [Thing.containing?, Bool.eq_true_of_not_eq_false he] at h
      simp [locate, he]
  | text n t =>
      suffices hfind : (Mark.ofNode root).findIdx? (Mark.isTextOf n t) = none by
        simp [locate, hfind]
      rw [List.findIdx?_eq_none_iff]
      intro x hx
      by_contra htext
      cases x with
      | text o u s =>
          obtain ⟨hheld, hdoc⟩ := Mark.isHeld_ofNode hx
          obtain ⟨hsame, rfl⟩ : o.same n ∧ u = t := by simpa [Mark.isTextOf] using htext
          obtain ⟨hk, haddress⟩ : o.document.key = n.document.key ∧ o.address = n.address := by
            simpa [Node.same] using hsame
          -- the text found is the one that the boundary stands in
          obtain rfl : o = n := by
            have hd : o.document = root.document := hdoc
            have := hkey n u rfl (hd ▸ hk)
            cases o
            cases n
            simp_all
          exact Thing.not_isHeld_of_containing?_eq_none h hl hheld
      | _ => simp [Mark.isTextOf] at htext
  | _ => simp_all [locate, Thing.isAttribute]

namespace Range

/-- The tree of a container is that of the element that contains it. -/
lemma treeRoot?_eq_none {t : Thing} (h : t.containing? = none) : treeRoot? t = none := by
  cases t with
  | document d => exact h
  | _ => simp [treeRoot?, h]

/-- A text where the range ends is one of the tree of its start if the key of its
document says so. -/
def IsKeyed (r : Range) : Prop :=
  ∀ root n t, treeRoot? r.start.container = some root → r.stop.container = .text n t →
    root.document.key = n.document.key → root.document = n.document

/-- **A range with a boundary that no element contains has no text**, unless it ends at an
attribute or in the text behind a comment or an instruction: an attribute is taken for the
text in front of the children of its element. -/
theorem text_eq_nil_of_uncontained {r : Range} (hkey : r.IsKeyed) :
    (r.start.container.containing? = none → r.text = []) ∧
      (r.stop.container.containing? = none → r.stop.container.isLoose = false →
        r.stop.container.isAttribute = false → r.text = []) ∧
      ∀ n a, r.stop.container = .attribute n a →
        r.text = { r with stop := { r.stop with container := .text n false } }.text := by
  refine ⟨fun h => by rw [text, treeRoot?_eq_none h], fun h hl ha => ?_, fun n a h => ?_⟩
  · cases hroot : treeRoot? r.start.container with
    | none => rw [text, hroot]
    | some root =>
        have hlocate : r.stop.locate (Mark.ofNode root) = none :=
          Boundary.locate_eq_none (fun n t => hkey root n t hroot) h hl ha
        rw [text, hroot]
        cases hstart : r.start.locate (Mark.ofNode root) <;> simp [hstart, hlocate]
  · have hlocate : ∀ marks, r.stop.locate marks =
        { r.stop with container := .text n false }.locate marks := by
      intro marks
      simp only [Boundary.locate, h]
    simp only [text, hlocate]

/-- From the document to the comment in front of its root element there is no text. -/
theorem text_toTopComment :
    IsKeyed ⟨.of (.document framed) 0, .of (.node ⟨framed, [0]⟩) 0⟩ ∧
      (Thing.node ⟨framed, [0]⟩).containing? = none ∧
      (Range.mk (.of (.document framed) 0) (.of (.node ⟨framed, [0]⟩) 0)).text = [] := by
  have hkeyed : IsKeyed ⟨.of (.document framed) 0, .of (.node ⟨framed, [0]⟩) 0⟩ := by
    intro root n t _ h
    simp [Boundary.of] at h
  exact ⟨hkeyed, rfl, (text_eq_nil_of_uncontained hkeyed).2.1 rfl rfl rfl⟩

/-- An element with an attribute and a text. -/
def labelled : Document where
  key := 0
  content := [.element { base := ['r'] } [] [⟨{ base := ['k'] }, ['v']⟩] [.text ['a', 'b', 'c']]]

/-- No element contains the attribute, and the range that ends at it has a text. -/
theorem text_toAttribute :
    labelled.IsWhole ∧ (Thing.attribute ⟨labelled, [0]⟩ ['k']).containing? = none ∧
      (Range.mk (.of (.node ⟨labelled, [0]⟩) 0)
        (.of (.attribute ⟨labelled, [0]⟩ ['k']) 2)).text = ['a', 'b'] :=
  ⟨by decide, rfl, rfl⟩

end Range

end Locator

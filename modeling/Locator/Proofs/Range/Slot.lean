/-
The slots of an element

* `Slot.piece`: what a slot stands for, a piece or the text of several that
  touch;
* `Slot.charsBefore`: the number of characters in front of a slot;
* `Node.map_piece_slots`: **slots count pieces**: the slots of an element stand
  for the pieces inside, with texts that touch joined;
* `Node.charsBefore_slot`: in front of a slot stand the characters in front of
  the element and those of the earlier slots.
-/
import Locator.Proofs.Range.Find

namespace Locator

namespace Slot

/-- What a slot stands for. -/
def piece : Slot → Markup
  | .child c => c.markup?.getD (.text [])
  | .text n false => .text n.text
  | .text n true => .text n.tail

/-- The number of characters in front of a slot. -/
def charsBefore : Slot → ℕ
  | .child c => c.document.charsBefore c.address
  | .text n false => n.document.charsBefore n.address
  | .text n true => n.document.charsThrough n.address

/-- The slots of an element: children, and texts that are not empty. -/
def IsOf (n : Node) : Slot → Prop
  | .child c => c.document = n.document ∧ (∃ i, c.address = i :: n.address) ∧
      ∃ m, c.markup? = some m ∧ m.isText = false
  | .text o false => o = n ∧ o.text ≠ []
  | .text o true => o.document = n.document ∧ (∃ i, o.address = i :: n.address) ∧
      (∃ m, o.markup? = some m ∧ m.isText = false) ∧ o.tail ≠ []

/-- Slots that follow one another, the first behind `k` characters. -/
def Follow : ℕ → List Slot → Prop
  | _, [] => True
  | k, s :: ss => s.charsBefore = k ∧ Follow (k + s.piece.content.length) ss

/-- The slot of a text, if there is any. -/
def ofText (n : Node) (t : Bool) (s : Text) : List Slot :=
  if s.isEmpty then [] else [.text n t]

/-- The slot of a text may be missing only where the text is empty. -/
lemma Follow.ofText {n : Node} {t : Bool} {s : Text} {k : ℕ} {ss : List Slot}
    (hk : (Slot.text n t).charsBefore = k) (hs : (Slot.text n t).piece = .text s)
    (h : Follow (k + s.length) ss) : Follow k (ofText n t s ++ ss) := by
  by_cases hl : s = []
  · simpa [Slot.ofText, hl] using h
  · rw [Slot.ofText, if_neg (by simpa using hl)]
    refine ⟨hk, ?_⟩
    rw [hs]
    exact h

/-- In front of one of several slots stand the characters of the earlier
ones. -/
lemma Follow.charsBefore_eq {k : ℕ} {ss : List Slot} (h : Follow k ss) {j : ℕ} {s : Slot}
    (hj : ss[j]? = some s) :
    s.charsBefore = k + (Markup.contents ((ss.map piece).take j)).length := by
  induction ss generalizing k j with
  | nil => simp at hj
  | cons x ss ih =>
      cases j with
      | zero =>
          obtain rfl : x = s := by simpa using hj
          simpa [Markup.contents] using h.1
      | succ j =>
          rw [ih h.2 (by simpa using hj)]
          simp [Markup.contents, Nat.add_assoc]

end Slot

namespace Document

variable {d : Document} {a : Address}

lemma charsBefore_cons (ha : a ≠ []) (i : ℕ) :
    d.charsBefore (i :: a) =
      d.charsBefore a + (Markup.contents ((d.childrenAt a).take i)).length := by
  obtain ⟨j, a, rfl⟩ := List.exists_cons_of_ne_nil ha
  rfl

end Document

namespace Markup

/-- The piece of a text, if there is any. -/
def ofText (s : Text) : List Markup := if s.isEmpty then [] else [.text s]

/-- The joined pieces behind the texts in front. -/
def behindTexts : List Markup → List Markup
  | [] => []
  | .text _ :: ms => behindTexts ms
  | m :: ms => m :: joinTexts ms

/-- Behind the texts in front stands a piece that is none. -/
lemma behindTexts_cases (ms : List Markup) :
    behindTexts ms = [] ∨ ∃ m others, behindTexts ms = m :: others ∧ m.isText = false := by
  induction ms with
  | nil => exact .inl rfl
  | cons m ms ih =>
      cases m with
      | text s => exact ih
      | _ => exact .inr ⟨_, _, rfl, rfl⟩

/-- The texts in front are joined to one. -/
lemma joinTexts_eq (ms : List Markup) :
    joinTexts ms = ofText (leadingText ms) ++ behindTexts ms := by
  induction ms with
  | nil => rfl
  | cons m ms ih =>
      cases m with
      | text s =>
          rw [joinTexts, ih, leadingText, behindTexts]
          by_cases hl : leadingText ms = []
          · obtain hb | ⟨m, others, hb, hm⟩ := behindTexts_cases ms
            · simp [hl, hb, ofText]
            · rw [hl, hb]
              cases m with
              | text t => simp [isText] at hm
              | _ => cases s <;> simp [ofText]
          · simp [ofText, hl]
      | _ => rfl

lemma contents_ofText (s : Text) : contents (ofText s) = s := by
  cases s <;> simp [ofText, contents, content]

/-- Joining keeps the texts inside. -/
lemma contents_joinTexts (ms : List Markup) : contents (joinTexts ms) = contents ms := by
  induction ms with
  | nil => rfl
  | cons m ms ih =>
      cases m with
      | text s =>
          rw [joinTexts_eq, contents_append, contents_ofText] at ih ⊢
          rw [leadingText, behindTexts, List.append_assoc, ih]
          rfl
      | _ => simpa [joinTexts, contents] using ih

end Markup

namespace Node

variable (n : Node)

/-- The slots of the children from position `i` on, with the texts behind
them. -/
def slotsFrom : ℕ → List Markup → List Slot
  | _, [] => []
  | i, m :: ms =>
    (if m.isText then []
      else .child (n.moved (i :: n.address)) ::
        Slot.ofText (n.moved (i :: n.address)) true (Markup.leadingText ms)) ++
      slotsFrom (i + 1) ms

variable {n : Node}

/-- The text behind a child. -/
lemma tail_moved {i : ℕ} : (n.moved (i :: n.address)).tail =
    Markup.leadingText ((n.document.childrenAt n.address).drop (i + 1)) := rfl

/-- The slots of the children are those from the first position on. -/
lemma flatMap_slots {i : ℕ} {ms : List Markup}
    (h : (n.document.childrenAt n.address).drop i = ms) :
    (((ms.zipIdx i).filter fun p => !p.1.isText).map fun p => n.moved (p.2 :: n.address)).flatMap
      (fun c => Slot.child c :: (if c.tail.isEmpty then [] else [.text c true])) =
        n.slotsFrom i ms := by
  induction ms generalizing i with
  | nil => rfl
  | cons m ms ih =>
      obtain ⟨-, hms⟩ := List.of_drop_eq_cons h
      rw [slotsFrom, ← ih hms, List.zipIdx_cons]
      cases hm : m.isText with
      | true => simp [hm]
      | false => simp [hm, tail_moved, hms, Slot.ofText]

/-- The slots of an element: the text in front, and the children with the texts
behind them. -/
lemma slots_eq (he : n.isElement) :
    n.slots = Slot.ofText n false n.text ++
      n.slotsFrom 0 (n.document.childrenAt n.address) := by
  obtain ⟨m, hm, hel⟩ := Document.isElementAt_iff.mp (Document.isElement_iff.mp he)
  have hown : n.ownText = n.text := by
    cases m <;> simp_all [ownText, markup?, Markup.isElement, Markup.name?]
  rw [slots, hown, ← flatMap_slots List.drop_zero]
  rfl

/-- The slots of the children stand for the joined pieces behind the texts in
front. -/
lemma map_piece_slotsFrom {i : ℕ} {ms : List Markup}
    (h : (n.document.childrenAt n.address).drop i = ms) :
    (n.slotsFrom i ms).map Slot.piece = Markup.behindTexts ms := by
  induction ms generalizing i with
  | nil => rfl
  | cons m ms ih =>
      obtain ⟨hm, hms⟩ := List.of_drop_eq_cons h
      cases ht : m.isText with
      | true =>
          obtain ⟨s, rfl⟩ : ∃ s, m = .text s := by cases m <;> simp_all [Markup.isText]
          simpa [slotsFrom, ht, Markup.behindTexts] using ih hms
      | false =>
          have hb : Markup.behindTexts (m :: ms) = m :: Markup.joinTexts ms := by
            cases m <;> simp_all [Markup.behindTexts, Markup.isText]
          have hpiece : (Slot.child (n.moved (i :: n.address))).piece = m := by
            rw [Slot.piece, markup?, moved, Document.get?_cons, hm]
            rfl
          have htext : (Slot.ofText (n.moved (i :: n.address)) true
              (Markup.leadingText ms)).map Slot.piece = Markup.ofText (Markup.leadingText ms) := by
            rw [Slot.ofText, Markup.ofText, apply_ite (List.map Slot.piece), ← hms, ← tail_moved]
            rfl
          rw [hb, Markup.joinTexts_eq, slotsFrom, ht, List.map_append, ih hms]
          simp [hpiece, htext]

/-- **Slots count pieces**: the slots of an element stand for the pieces
inside, with texts that touch joined. -/
theorem map_piece_slots (he : n.isElement) :
    n.slots.map Slot.piece = Markup.joinTexts (n.document.childrenAt n.address) := by
  have htext : (Slot.ofText n false n.text).map Slot.piece =
      Markup.ofText (Markup.leadingText (n.document.childrenAt n.address)) := by
    rw [Slot.ofText, Markup.ofText, apply_ite (List.map Slot.piece)]
    rfl
  rw [slots_eq he, List.map_append, map_piece_slotsFrom List.drop_zero, Markup.joinTexts_eq,
    htext]

lemma isOf_of_mem_ofText {t : Bool} {s : Text} {o : Node} {x : Slot}
    (hx : x ∈ Slot.ofText o t s) : x = .text o t ∧ s ≠ [] := by
  rw [Slot.ofText] at hx
  split at hx
  · simp at hx
  · exact ⟨List.mem_singleton.mp hx, by simp_all⟩

/-- The slots of the children are slots of the element. -/
lemma isOf_of_mem_slotsFrom {i : ℕ} {ms : List Markup}
    (h : (n.document.childrenAt n.address).drop i = ms) {s : Slot} (hs : s ∈ n.slotsFrom i ms) :
    s.IsOf n := by
  induction ms generalizing i with
  | nil => simp [slotsFrom] at hs
  | cons m ms ih =>
      obtain ⟨hm, hms⟩ := List.of_drop_eq_cons h
      rw [slotsFrom, List.mem_append] at hs
      rcases hs with hs | hs
      · cases ht : m.isText with
        | true => simp [ht] at hs
        | false =>
            rw [ht, if_neg Bool.false_ne_true, List.mem_cons] at hs
            rcases hs with rfl | hs
            · exact ⟨rfl, ⟨i, rfl⟩, m, hm, ht⟩
            · obtain ⟨rfl, hl⟩ := isOf_of_mem_ofText hs
              exact ⟨rfl, ⟨i, rfl⟩, ⟨m, hm, ht⟩, by rwa [tail_moved, hms]⟩
      · exact ih hms hs

/-- The slots of an element are its children and its texts. -/
lemma isOf_of_mem_slots (he : n.isElement) {s : Slot} (hs : s ∈ n.slots) : s.IsOf n := by
  rw [slots_eq he, List.mem_append] at hs
  rcases hs with hs | hs
  · obtain ⟨rfl, hl⟩ := isOf_of_mem_ofText hs
    exact ⟨rfl, hl⟩
  · exact isOf_of_mem_slotsFrom List.drop_zero hs

/-- The slots of the children follow one another, from the texts in front on. -/
lemma follow_slotsFrom (ha : n.address ≠ []) {i : ℕ} {ms : List Markup}
    (h : (n.document.childrenAt n.address).drop i = ms) :
    Slot.Follow (n.document.charsBefore (i :: n.address) + (Markup.leadingText ms).length)
      (n.slotsFrom i ms) := by
  induction ms generalizing i with
  | nil => trivial
  | cons m ms ih =>
      obtain ⟨hm, hms⟩ := List.of_drop_eq_cons h
      have hnext : n.document.charsBefore ((i + 1) :: n.address) =
          n.document.charsBefore (i :: n.address) + m.content.length := by
        rw [Document.charsBefore_cons ha, Document.charsBefore_cons ha, List.take_add_one, hm]
        simp [Markup.contents, Nat.add_assoc]
      have hrest := ih hms
      rw [hnext] at hrest
      cases ht : m.isText with
      | true =>
          obtain ⟨s, rfl⟩ : ∃ s, m = .text s := by cases m <;> simp_all [Markup.isText]
          simpa [slotsFrom, ht, Markup.leadingText, Markup.content, Nat.add_assoc] using hrest
      | false =>
          have hpiece : (Slot.child (n.moved (i :: n.address))).piece = m := by
            rw [Slot.piece, markup?, moved, Document.get?_cons, hm]
            rfl
          rw [Markup.leadingText_cons_of_not_isText ht, slotsFrom, ht,
            if_neg Bool.false_ne_true, List.cons_append]
          refine ⟨rfl, ?_⟩
          rw [hpiece]
          refine Slot.Follow.ofText ?_ (by rw [Slot.piece, tail_moved, hms]) hrest
          have hm' : n.document.get? (i :: n.address) = some m := hm
          simp [Slot.charsBefore, moved, Document.charsThrough, hm']

/-- In front of a slot of an element stand the characters in front of the
element and those of the earlier slots. -/
theorem charsBefore_slot (he : n.isElement) (ha : n.address ≠ []) {k : ℕ} {s : Slot}
    (hs : n.slots[k]? = some s) :
    s.charsBefore = n.document.charsBefore n.address + (Markup.contents
      ((Markup.joinTexts (n.document.childrenAt n.address)).take k)).length := by
  have hfirst : n.document.charsBefore (0 :: n.address) = n.document.charsBefore n.address := by
    rw [Document.charsBefore_cons ha]
    rfl
  have hrest := follow_slotsFrom ha (List.drop_zero (l := n.document.childrenAt n.address))
  rw [hfirst] at hrest
  rw [← map_piece_slots he]
  rw [slots_eq he] at hs ⊢
  have hall : Slot.Follow (n.document.charsBefore n.address)
      (Slot.ofText n false n.text ++ n.slotsFrom 0 (n.document.childrenAt n.address)) :=
    Slot.Follow.ofText rfl rfl hrest
  exact hall.charsBefore_eq hs

end Node

end Locator

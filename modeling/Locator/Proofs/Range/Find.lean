/-
Finding the marks of a node

* `Document.charsThrough`: the number of characters in front of the end of a
  piece;
* `Mark.exists_start`, `Mark.exists_stop`: the start and the end of a node are
  found among the marks of the root element behind the characters in front of
  them;
* `Mark.exists_front`, `Mark.exists_behind`: so are the text in front of the
  children of an element and the text behind a piece, with every place in them.
-/
import Locator.Proofs.Range.Mark

namespace Locator

/-- The number of characters in front of the end of the piece at an
address. -/
def Document.charsThrough (d : Document) (a : Address) : ℕ :=
  d.charsBefore a + ((d.get? a).map (·.content.length)).getD 0

namespace Mark

variable {root n : Node} {r : ℕ} {m : Markup}

/-- A mark that is the first to pass a test is found behind the characters in
front of it. -/
lemma exists_of_split {marks pre post : List Mark} {x : Mark} {p : Mark → Bool} {k : ℕ}
    (h : marks = pre ++ x :: post) (hpre : ∀ y ∈ pre, p y = false) (hx : p x)
    (hk : (contents pre).length = k) :
    ∃ i, marks.findIdx? p = some i ∧ marks[i]? = some x ∧
      ∀ c ≤ x.content.length, IsAt marks (i, c) (k + c) := by
  subst h hk
  refine ⟨pre.length, ?_, by simp, fun c hc => ⟨pre, x, post, rfl, rfl, hc, rfl⟩⟩
  rw [List.findIdx?_append, List.findIdx?_eq_none_iff.mpr hpre]
  simp [List.findIdx?_cons, hx]

lemma same_self (n : Node) : n.same n := by simp [Node.same]

/-- A mark about another node is none of those of the node. -/
lemma isOf_eq_false {x : Mark} (h : x.owner.address ≠ n.address) :
    isStartOf n x = false ∧ isStopOf n x = false ∧ ∀ t, isTextOf n t x = false := by
  have hne : x.owner.same n = false := by simp [Node.same, h]
  cases x <;> simp_all [isStartOf, isStopOf, isTextOf, owner]

lemma isOf_eq_false_of_avoids {ms : List Mark} (h : Avoids n.address ms) {x : Mark}
    (hx : x ∈ ms) :
    isStartOf n x = false ∧ isStopOf n x = false ∧ ∀ t, isTextOf n t x = false :=
  isOf_eq_false fun he => h x hx (he ▸ List.suffix_refl _)

/-- The marks inside an element are about other nodes. -/
lemma isOf_eq_false_of_mem_ofChildren {cs : List Markup} {x : Mark}
    (hx : x ∈ ofChildren n 0 cs) :
    isStartOf n x = false ∧ isStopOf n x = false ∧ ∀ t, isTextOf n t x = false := by
  obtain ⟨-, j, -, hs⟩ := owner_ofChildren n 0 cs hx
  refine isOf_eq_false fun he => ?_
  simpa [he] using hs.length_le

/-- Only the texts of a node are its texts. -/
lemma isOf_textMark {t : Bool} {s : Text} {x : Mark} (hx : x ∈ textMark n t s) :
    isStopOf n x = false ∧ isTextOf n (!t) x = false := by
  rw [textMark] at hx
  split at hx
  · simp at hx
  · obtain rfl := List.mem_singleton.mp hx
    simp [isStopOf, isTextOf]

/-- The start of a piece is found behind the characters in front of it. -/
lemma exists_start (hr : root.address = [r]) (hd : n.document = root.document)
    (hw : [r] <:+ n.address) (hm : n.markup? = some m) (ht : m.isText = false) :
    ∃ i, (ofNode root).findIdx? (isStartOf n) = some i ∧
      IsAt (ofNode root) (i, 0) (root.document.charsBefore n.address) := by
  obtain ⟨pre, post, h, ha, hl⟩ := exists_marks hr hd hw hm ht
  obtain ⟨rest, hrest⟩ : ∃ rest, ofMarkup n m = .start n :: rest := by
    cases m <;> exact ⟨_, rfl⟩
  rw [hrest, List.cons_append] at h
  obtain ⟨i, hi, -, hat⟩ := exists_of_split h
    (fun x hx => (isOf_eq_false_of_avoids ha hx).1) (same_self n) hl
  exact ⟨i, hi, hat 0 (Nat.zero_le _)⟩

/-- The end of an element is found behind the characters in front of it and
inside it. -/
lemma exists_stop (hr : root.address = [r]) (hd : n.document = root.document)
    (hw : [r] <:+ n.address) (he : n.isElement) :
    ∃ i, (ofNode root).findIdx? (isStopOf n) = some i ∧
      IsAt (ofNode root) (i, 0) (root.document.charsThrough n.address) := by
  obtain ⟨m, hm, hel⟩ := Document.isElementAt_iff.mp (Document.isElement_iff.mp he)
  cases m with
  | element name bs as cs =>
      obtain ⟨pre, post, h, ha, hl⟩ := exists_marks hr hd hw hm rfl
      let front := pre ++ .start n ::
        (textMark n false (Markup.leadingText cs) ++ ofChildren n 0 cs)
      have hsplit : ofNode root = front ++ .stop n :: post := by
        rw [h, ofMarkup]
        simp [front]
      have hlen : (contents front).length = root.document.charsThrough n.address := by
        rw [Document.charsThrough, ← hl, ← hd, hm]
        simp [front, content, leadingText_append_contents, Markup.content]
      have hfront : ∀ x ∈ front, isStopOf n x = false := by
        intro x hx
        simp only [front, List.mem_append, List.mem_cons] at hx
        rcases hx with hx | rfl | hx | hx
        · exact (isOf_eq_false_of_avoids ha hx).2.1
        · rfl
        · exact (isOf_textMark hx).1
        · exact (isOf_eq_false_of_mem_ofChildren hx).2.1
      obtain ⟨i, hi, -, hat⟩ := exists_of_split hsplit hfront (same_self n) hlen
      exact ⟨i, hi, hat 0 (Nat.zero_le _)⟩
  | _ => simp [Markup.isElement, Markup.name?] at hel

/-- The text in front of the children of an element is found behind the
characters in front of the element. -/
lemma exists_front (hr : root.address = [r]) (hd : n.document = root.document)
    (hw : [r] <:+ n.address) (he : n.isElement) (hn : n.text ≠ []) :
    ∃ i, (ofNode root).findIdx? (isTextOf n false) = some i ∧
      (ofNode root)[i]? = some (.text n false n.text) ∧ ∀ c ≤ n.text.length,
        IsAt (ofNode root) (i, c) (root.document.charsBefore n.address + c) := by
  obtain ⟨m, hm, hel⟩ := Document.isElementAt_iff.mp (Document.isElement_iff.mp he)
  cases m with
  | element name bs as cs =>
      obtain ⟨pre, post, h, ha, hl⟩ := exists_marks hr hd hw hm rfl
      have htext : n.text = Markup.leadingText cs := by
        rw [Node.text, Document.childrenAt_of_get? hm]
        rfl
      have hsplit : ofNode root = (pre ++ [.start n]) ++ .text n false n.text ::
          (ofChildren n 0 cs ++ .stop n :: post) := by
        rw [h, ofMarkup, ← htext, textMark, if_neg (by simpa using hn)]
        simp
      refine exists_of_split hsplit (fun x hx => ?_) (by simp [isTextOf, same_self])
        (by simp [content, hl])
      rcases List.mem_append.mp hx with hx | hx
      · exact (isOf_eq_false_of_avoids ha hx).2.2 false
      · obtain rfl := List.mem_singleton.mp hx
        rfl
  | _ => simp [Markup.isElement, Markup.name?] at hel

/-- The text behind a piece is found behind the characters in front of the
piece and inside it. -/
lemma exists_behind (hr : root.address = [r]) (hd : n.document = root.document)
    {i : ℕ} {a : Address} (ha : n.address = i :: a) (hw : [r] <:+ a) (hm : n.markup? = some m)
    (ht : m.isText = false) (hn : n.tail ≠ []) :
    ∃ i, (ofNode root).findIdx? (isTextOf n true) = some i ∧
      (ofNode root)[i]? = some (.text n true n.tail) ∧ ∀ c ≤ n.tail.length,
        IsAt (ofNode root) (i, c) (root.document.charsThrough n.address + c) := by
  obtain ⟨pre, post, h, hav, hl⟩ := exists_marks_tail hr hd ha hw hm ht
  have hsplit : ofNode root = (pre ++ ofMarkup n m) ++ .text n true n.tail :: post := by
    rw [h, textMark, if_neg (by simpa using hn)]
    simp
  have hlen : (contents (pre ++ ofMarkup n m)).length =
      root.document.charsThrough n.address := by
    rw [Document.charsThrough, ← hl, ← hd, ← Node.markup?, hm]
    simp [contents_ofMarkup n m ht]
  refine exists_of_split hsplit (fun x hx => ?_) (by simp [isTextOf, same_self]) hlen
  rcases List.mem_append.mp hx with hx | hx
  · exact (isOf_eq_false_of_avoids hav hx).2.2 true
  · cases m with
    | element name bs as cs =>
        simp only [ofMarkup, List.mem_append, List.mem_cons, List.not_mem_nil, or_false] at hx
        rcases hx with ((rfl | hx) | hx) | rfl
        · rfl
        · exact (isOf_textMark hx).2
        · exact (isOf_eq_false_of_mem_ofChildren hx).2.2 true
        · rfl
    | _ =>
        rcases (by simpa [ofMarkup] using hx : x = .start n ∨ x = .stop n) with rfl | rfl <;> rfl

end Mark

end Locator

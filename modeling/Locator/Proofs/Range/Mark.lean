/-
The marks of a document

* `Mark.owner_ofMarkup`, `Mark.owner_ofChildren`: marks of a piece are about
  nodes at its address or below;
* `Mark.contents_ofMarkup`: the texts of the marks of a piece are the texts
  inside;
* `Document.charsBefore`: the number of characters inside the root element in
  front of an address;
* `Mark.exists_marks`: **the marks around a node**: those of the root element
  are some about nodes that are neither the node nor inside it, with exactly
  the characters in front of it, then those of the node, and then the rest;
  `Mark.exists_marks_tail` adds the text behind the node.
-/
import Locator.Proofs.Document.Whole
import Locator.Proofs.Range.Cut

namespace Locator

namespace Markup

@[simp]
lemma contents_append (xs ys : List Markup) :
    contents (xs ++ ys) = contents xs ++ contents ys := by
  induction xs with
  | nil => simp [contents]
  | cons x xs ih => simp [contents, ih]

/-- The texts in front stop at a piece that is no text. -/
lemma leadingText_append_cons {m : Markup} (h : m.isText = false) (xs ms : List Markup) :
    leadingText (xs ++ m :: ms) = leadingText xs := by
  induction xs with
  | nil => cases m <;> simp_all [leadingText, isText]
  | cons x xs ih => cases x <;> simp [leadingText, ih]

lemma leadingText_cons_of_not_isText {m : Markup} (h : m.isText = false) (ms : List Markup) :
    leadingText (m :: ms) = [] := by
  cases m <;> simp_all [leadingText, isText]

end Markup

namespace Mark

/-- The node that a mark is about. -/
def owner : Mark → Node
  | .start n => n
  | .text n _ _ => n
  | .stop n => n

@[simp]
lemma contents_textMark (n : Node) (t : Bool) (s : Text) : contents (textMark n t s) = s := by
  cases s <;> simp [textMark, content]

lemma owner_textMark {n : Node} {t : Bool} {s : Text} {x : Mark} (h : x ∈ textMark n t s) :
    x.owner = n := by
  rw [textMark] at h
  split at h
  · simp at h
  · obtain rfl := List.mem_singleton.mp h
    rfl

/-! ### Marks of pieces -/

mutual

/-- The marks of a piece are about nodes at its address or below. -/
lemma owner_ofMarkup (n : Node) : ∀ (m : Markup) {x : Mark}, x ∈ ofMarkup n m →
    x.owner.document = n.document ∧ n.address <:+ x.owner.address
  | .element name bs as cs, x, h => by
      simp only [ofMarkup, List.cons_append, List.mem_cons, List.mem_append, List.not_mem_nil,
        or_false] at h
      rcases h with rfl | (h | h) | rfl
      · exact ⟨rfl, List.suffix_refl _⟩
      · rw [owner_textMark h]
        exact ⟨rfl, List.suffix_refl _⟩
      · obtain ⟨hd, j, -, hs⟩ := owner_ofChildren n 0 cs h
        exact ⟨hd, (List.suffix_cons j _).trans hs⟩
      · exact ⟨rfl, List.suffix_refl _⟩
  | .text s, x, h => by
      rcases (by simpa [ofMarkup] using h : x = .start n ∨ x = .stop n) with rfl | rfl <;>
        exact ⟨rfl, List.suffix_refl _⟩
  | .comment s, x, h => by
      rcases (by simpa [ofMarkup] using h : x = .start n ∨ x = .stop n) with rfl | rfl <;>
        exact ⟨rfl, List.suffix_refl _⟩
  | .instruction t s, x, h => by
      rcases (by simpa [ofMarkup] using h : x = .start n ∨ x = .stop n) with rfl | rfl <;>
        exact ⟨rfl, List.suffix_refl _⟩

/-- The marks of the children from a position on are about nodes at or below
such a position. -/
lemma owner_ofChildren (n : Node) (i : ℕ) : ∀ (ms : List Markup) {x : Mark},
    x ∈ ofChildren n i ms → x.owner.document = n.document ∧
      ∃ j, (i ≤ j ∧ j < i + ms.length) ∧ j :: n.address <:+ x.owner.address
  | [], x, h => by simp [ofChildren] at h
  | m :: ms, x, h => by
      rw [ofChildren, List.mem_append] at h
      rcases h with h | h
      · have hi : i < i + (m :: ms).length := by simp
        split at h
        · simp at h
        · rcases List.mem_append.mp h with h | h
          · obtain ⟨hd, hs⟩ := owner_ofMarkup (n.moved (i :: n.address)) m h
            exact ⟨hd, i, ⟨le_rfl, hi⟩, hs⟩
          · rw [owner_textMark h]
            exact ⟨rfl, i, ⟨le_rfl, hi⟩, List.suffix_refl _⟩
      · obtain ⟨hd, j, ⟨hj, hj'⟩, hs⟩ := owner_ofChildren n (i + 1) ms h
        exact ⟨hd, j, ⟨by omega, by simp; omega⟩, hs⟩

end

mutual

/-- The texts of the marks of a piece are the texts inside. -/
lemma contents_ofMarkup (n : Node) : ∀ m : Markup, m.isText = false →
    contents (ofMarkup n m) = m.content
  | .element name bs as cs, _ => by
      simp only [ofMarkup, List.cons_append, contents_cons, contents_append, contents_textMark,
        Markup.content]
      simpa [content] using leadingText_append_contents n 0 cs
  | .text s, h => by simp [Markup.isText] at h
  | .comment s, _ => by simp [ofMarkup, content, Markup.content]
  | .instruction t s, _ => by simp [ofMarkup, content, Markup.content]

/-- The texts in front of the first child and those of the marks of the
children are the texts of the children. -/
lemma leadingText_append_contents (n : Node) (i : ℕ) : ∀ ms : List Markup,
    Markup.leadingText ms ++ contents (ofChildren n i ms) = Markup.contents ms
  | [] => by simp [Markup.leadingText, ofChildren, Markup.contents]
  | m :: ms => by
      have ih := leadingText_append_contents n (i + 1) ms
      rw [ofChildren, contents_append, Markup.contents]
      cases hm : m.isText with
      | true =>
          obtain ⟨s, rfl⟩ : ∃ s, m = .text s := by cases m <;> simp_all [Markup.isText]
          simpa [Markup.leadingText, Markup.content, contents] using ih
      | false =>
          rw [Markup.leadingText_cons_of_not_isText hm, ← ih]
          simp [contents_ofMarkup _ m hm]

end

/-- Children in front of one that is no text keep their marks. -/
lemma ofChildren_append_cons (n : Node) {m : Markup} (h : m.isText = false)
    (ms : List Markup) : ∀ (xs : List Markup) (i : ℕ),
    ofChildren n i (xs ++ m :: ms) =
      ofChildren n i xs ++ ofChildren n (i + xs.length) (m :: ms)
  | [], i => by simp [ofChildren]
  | x :: xs, i => by
      rw [List.cons_append, ofChildren, ofChildren, Markup.leadingText_append_cons h,
        ofChildren_append_cons n h ms xs (i + 1), List.append_assoc, List.length_cons,
        Nat.add_right_comm, Nat.add_assoc]

/-- No mark is about the node at an address or one below it. -/
def Avoids (a : Address) (ms : List Mark) : Prop := ∀ x ∈ ms, ¬ a <:+ x.owner.address

/-- What avoids a piece avoids all inside it. -/
lemma Avoids.below {a : Address} {ms : List Mark} (h : Avoids a ms) (i : ℕ) :
    Avoids (i :: a) ms :=
  fun x hx hs => h x hx ((List.suffix_cons i a).trans hs)

/-- The marks of the earlier children avoid a child. -/
lemma avoids_ofChildren (n : Node) {ms : List Markup} {i : ℕ} (h : ms.length ≤ i) :
    Avoids (i :: n.address) (ofChildren n 0 ms) := by
  intro x hx hs
  obtain ⟨-, j, ⟨-, hj⟩, hs'⟩ := owner_ofChildren n 0 ms hx
  have hlen : (i :: n.address).length = (j :: n.address).length := by simp
  obtain ⟨rfl, -⟩ := List.cons.inj ((List.suffix_of_suffix_length_le hs hs' hlen.le).eq_of_length
    hlen)
  omega

end Mark

/-! ### Characters in front of an address -/

/-- The number of characters inside the root element in front of the piece at
an address: those in front of the piece around it and those of its earlier
siblings. -/
def Document.charsBefore (d : Document) : Address → ℕ
  | i :: j :: a =>
    d.charsBefore (j :: a) + (Markup.contents ((d.childrenAt (j :: a)).take i)).length
  | _ => 0

namespace Mark

variable {root : Node} {a : Address} {i : ℕ} {m : Markup}

/-- The marks of an element around those of a child. -/
lemma exists_ofMarkup_child (n : Node) {e : Markup} (he : n.markup? = some e)
    (hm : e.children[i]? = some m) (ht : m.isText = false) :
    ∃ pre post, ofMarkup n e = pre ++ (ofMarkup (n.moved (i :: n.address)) m ++
        textMark (n.moved (i :: n.address)) true (n.moved (i :: n.address)).tail ++ post) ∧
      Avoids (i :: n.address) pre ∧
      (contents pre).length = (Markup.contents (e.children.take i)).length := by
  obtain ⟨hi, rfl⟩ := List.getElem?_eq_some_iff.mp hm
  cases e with
  | element name bs as cs =>
      simp only [Markup.children] at hi ht ⊢
      have htail : (n.moved (i :: n.address)).tail = Markup.leadingText (cs.drop (i + 1)) := by
        simp [Node.tail, Node.moved, Address.parent?, Address.position,
          Document.childrenAt_of_get? he, Markup.children]
      have hsplit : cs = cs.take i ++ cs[i] :: cs.drop (i + 1) := by simp
      have hlead : Markup.leadingText cs = Markup.leadingText (cs.take i) := by
        conv_lhs => rw [hsplit]
        exact Markup.leadingText_append_cons ht _ _
      have hmarks : ofChildren n 0 cs = ofChildren n 0 (cs.take i) ++
          (ofMarkup (n.moved (i :: n.address)) cs[i] ++
            textMark (n.moved (i :: n.address)) true (Markup.leadingText (cs.drop (i + 1))) ++
            ofChildren n (i + 1) (cs.drop (i + 1))) := by
        conv_lhs => rw [hsplit]
        rw [ofChildren_append_cons n ht, List.length_take_of_le hi.le, Nat.zero_add, ofChildren]
        simp [ht]
      refine ⟨.start n :: textMark n false (Markup.leadingText cs) ++ ofChildren n 0 (cs.take i),
        ofChildren n (i + 1) (cs.drop (i + 1)) ++ [.stop n], ?_, ?_, ?_⟩
      · rw [ofMarkup, htail, hmarks]
        simp
      · -- the element itself is shorter than the address, its earlier children stand beside it
        intro x hx
        rcases List.mem_append.mp hx with hx | hx
        · have hown : x.owner = n := by
            rcases List.mem_cons.mp hx with rfl | hx
            · rfl
            · exact owner_textMark hx
          intro hs
          simpa [hown] using hs.length_le
        · exact avoids_ofChildren n (List.length_take_le i cs) x hx
      · rw [hlead]
        simp [content, ← leadingText_append_contents n 0 (cs.take i)]
  | _ => simp [Markup.children] at hi

/-- The marks of the root element around those of a child of a piece. -/
lemma exists_marks_child {e : Markup} {a : Address} (ha : a ≠ [])
    (he : root.document.get? a = some e) (hm : e.children[i]? = some m) (ht : m.isText = false)
    (h : ∃ pre post, ofNode root = pre ++ (ofMarkup (root.moved a) e ++ post) ∧ Avoids a pre ∧
      (contents pre).length = root.document.charsBefore a) :
    ∃ pre post, ofNode root = pre ++ (ofMarkup (root.moved (i :: a)) m ++
        textMark (root.moved (i :: a)) true (root.moved (i :: a)).tail ++ post) ∧
      Avoids (i :: a) pre ∧ (contents pre).length = root.document.charsBefore (i :: a) := by
  obtain ⟨pre, post, hroot, havoid, hlen⟩ := h
  obtain ⟨pre', post', hin, havoid', hlen'⟩ :=
    exists_ofMarkup_child (root.moved a) (e := e) he hm ht
  refine ⟨pre ++ pre', post' ++ post, ?_, ?_, ?_⟩
  · rw [hroot, hin]
    simp [Node.moved]
  · intro x hx
    rcases List.mem_append.mp hx with hx | hx
    · exact havoid.below i x hx
    · exact havoid' x hx
  · obtain ⟨j, a, rfl⟩ := List.exists_cons_of_ne_nil ha
    rw [contents_append, List.length_append, hlen, hlen', Document.charsBefore,
      Document.childrenAt_of_get? he]

/-- The marks around the piece at the end of a way down from the root element. -/
lemma exists_marks_along {r : ℕ} (hr : root.address = [r]) : ∀ (way : List ℕ) {m : Markup},
    root.document.get? (way ++ [r]) = some m → m.isText = false →
    ∃ pre post, ofNode root = pre ++ (ofMarkup (root.moved (way ++ [r])) m ++ post) ∧
      Avoids (way ++ [r]) pre ∧
      (contents pre).length = root.document.charsBefore (way ++ [r])
  | [], m, hm, _ => by
      refine ⟨[], [], ?_, by simp [Avoids], by simp [Document.charsBefore]⟩
      have hroot : root.moved [r] = root := by rw [← hr]; rfl
      have hmarkup : root.markup? = some m := by rw [Node.markup?, hr]; exact hm
      simp [ofNode, hroot, hmarkup]
  | i :: way, m, hm, ht => by
      obtain ⟨e, he, hel⟩ := Document.isElement_of_get? (by simp) hm
      have hm' : e.children[i]? = some m := by
        rw [← Document.childrenAt_of_get? he]
        exact hm
      have hte : e.isText = false := by
        cases e <;> simp_all [Markup.isElement, Markup.isText, Markup.name?]
      obtain ⟨pre, post, h, ha, hl⟩ :=
        exists_marks_child (by simp) he hm' ht (exists_marks_along hr way he hte)
      let n := root.moved (i :: (way ++ [r]))
      exact ⟨pre, textMark n true n.tail ++ post, by simpa [n] using h, ha, hl⟩

variable {n : Node} {r : ℕ}

/-- **The marks around a node** that is no text. -/
theorem exists_marks (hr : root.address = [r]) (hd : n.document = root.document)
    (hw : [r] <:+ n.address) (hm : n.markup? = some m) (ht : m.isText = false) :
    ∃ pre post, ofNode root = pre ++ (ofMarkup n m ++ post) ∧ Avoids n.address pre ∧
      (contents pre).length = root.document.charsBefore n.address := by
  obtain ⟨way, hway⟩ := hw
  have hn : root.moved (way ++ [r]) = n := by
    rw [hway, Node.moved, ← hd]
  have hm' : root.document.get? (way ++ [r]) = some m := by
    rw [hway, ← hd]
    exact hm
  have h := exists_marks_along hr way hm' ht
  rwa [hn, hway] at h

/-- **The marks around a node and the text behind it**, for a node inside another. -/
theorem exists_marks_tail (hr : root.address = [r]) (hd : n.document = root.document)
    {i : ℕ} {a : Address} (ha : n.address = i :: a) (hw : [r] <:+ a) (hm : n.markup? = some m)
    (ht : m.isText = false) :
    ∃ pre post, ofNode root = pre ++ (ofMarkup n m ++ textMark n true n.tail ++ post) ∧
      Avoids n.address pre ∧ (contents pre).length = root.document.charsBefore n.address := by
  obtain ⟨way, rfl⟩ := hw
  have hn : root.moved (i :: (way ++ [r])) = n := by
    rw [← ha, Node.moved, ← hd]
  have hm' : root.document.get? (i :: (way ++ [r])) = some m := by
    rw [← ha, ← hd]
    exact hm
  obtain ⟨e, he, hel⟩ := Document.isElement_of_get? (by simp) hm'
  have hte : e.isText = false := by
    cases e <;> simp_all [Markup.isElement, Markup.isText, Markup.name?]
  have hc : e.children[i]? = some m := by
    rw [← Document.childrenAt_of_get? he]
    exact hm'
  have h := exists_marks_child (by simp) he hc ht (exists_marks_along hr way he hte)
  rwa [hn, ← ha] at h

end Mark

end Locator

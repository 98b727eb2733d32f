/-
Places among the marks of a document

* `Mark.contents`: the texts of marks, one after the other;
* `Mark.IsAt`: a place among marks stands behind a number of characters;
* `Range.cut_eq`: **cutting is slicing**: what is cut out between two places
  is the slice of the texts between their numbers of characters, and nothing
  if the second place lies in front of the first.
-/
import Mathlib.Tactic
import Locator.Range.Basic

namespace Locator

namespace Mark

/-- The texts of marks, one after the other. -/
def contents (ms : List Mark) : Text := ms.flatMap content

@[simp]
lemma contents_nil : contents [] = [] := rfl

@[simp]
lemma contents_cons (x : Mark) (ms : List Mark) :
    contents (x :: ms) = x.content ++ contents ms := rfl

@[simp]
lemma contents_append (xs ys : List Mark) : contents (xs ++ ys) = contents xs ++ contents ys :=
  List.flatMap_append

/-- A place among marks stands behind `k` characters. -/
def IsAt (marks : List Mark) (p : ℕ × ℕ) (k : ℕ) : Prop :=
  ∃ pre x post, marks = pre ++ x :: post ∧ p.1 = pre.length ∧ p.2 ≤ x.content.length ∧
    k = (contents pre).length + p.2

/-- Of two marks of a list one comes first. -/
lemma split_of_lt {pre pre' post post' : List Mark} {x y : Mark}
    (h : pre ++ x :: post = pre' ++ y :: post') (hl : pre.length < pre'.length) :
    ∃ mid, pre' = pre ++ x :: mid ∧ post = mid ++ y :: post' := by
  obtain ⟨t, rfl, ht⟩ | ⟨t, rfl, ht⟩ := List.append_eq_append_iff.mp h
  · cases t with
    | nil => simp at hl
    | cons z mid =>
        obtain ⟨rfl, hp⟩ : x = z ∧ post = mid ++ y :: post' := by simpa using ht
        exact ⟨mid, rfl, hp⟩
  · simp at hl

end Mark

namespace Range

open Mark

variable {s e : ℕ × ℕ} {i : ℕ} {ms : List Mark}

/-! ### Cutting mark by mark -/

lemma cut_append (xs ys : List Mark) :
    cut s e i (xs ++ ys) = cut s e i xs ++ cut s e (i + xs.length) ys := by
  induction xs generalizing i with
  | nil => simp [cut]
  | cons x xs ih =>
      rw [List.cons_append, cut, cut, ih, List.length_cons, Nat.add_right_comm, List.append_assoc,
        Nat.add_assoc]

/-- In front of the first place nothing is cut out. -/
lemma cut_before (h : i + ms.length ≤ s.1) : cut s e i ms = [] := by
  induction ms generalizing i with
  | nil => rfl
  | cons x ms ih =>
      rw [List.length_cons] at h
      rw [cut, ih (by omega), if_neg (by simp; omega), List.append_nil]

/-- Behind the second place nothing is cut out. -/
lemma cut_behind (h : e.1 < i) : cut s e i ms = [] := by
  induction ms generalizing i with
  | nil => rfl
  | cons x ms ih => rw [cut, ih (by omega), if_neg (by simp; omega), List.append_nil]

/-- Between the places everything is cut out. -/
lemma cut_between (hs : s.1 < i) (he : i + ms.length ≤ e.1) : cut s e i ms = contents ms := by
  induction ms generalizing i with
  | nil => rfl
  | cons x ms ih =>
      rw [List.length_cons] at he
      have hle : s.1 ≤ i ∧ i ≤ e.1 := by omega
      have hsi : (i == s.1) = false := by simp; omega
      have hei : (i == e.1) = false := by simp; omega
      rw [cut, ih (by omega) (by omega), contents_cons]
      simp [hsi, hei, hle]

/-- Of the mark where both places lie the part between them is cut out. -/
lemma cut_both {x : Mark} (hs : s.1 = i) (he : e.1 = i) :
    cut s e i (x :: ms) = (x.content.take e.2).drop s.2 := by
  have hrest : cut s e (i + 1) ms = [] := cut_behind (by omega)
  simp [cut, hrest, hs, he]

/-- Of the mark of the first place the part behind it is cut out. -/
lemma cut_first {x : Mark} (hs : s.1 = i) (he : i < e.1) :
    cut s e i (x :: ms) = x.content.drop s.2 ++ cut s e (i + 1) ms := by
  simp [cut, hs, he.le, he.ne]

/-- Of the mark of the second place the part in front of it is cut out. -/
lemma cut_last {x : Mark} (hs : s.1 < i) (he : e.1 = i) :
    cut s e i (x :: ms) = x.content.take e.2 := by
  have hrest : cut s e (i + 1) ms = [] := cut_behind (by omega)
  simp [cut, hrest, he, hs.le, hs.ne']

/-! ### Cutting is slicing -/

/-- A place behind another one stands behind as many characters at least. -/
lemma le_of_isBehind {marks : List Mark} {p q : ℕ} (hs : IsAt marks s p) (he : IsAt marks e q)
    (h : isBehind s e) : q ≤ p := by
  obtain ⟨pre, x, post, rfl, hs1, hs2, rfl⟩ := hs
  obtain ⟨pre', y, post', heq, he1, he2, rfl⟩ := he
  simp only [isBehind, Bool.or_eq_true, decide_eq_true_eq, Bool.and_eq_true, beq_iff_eq, hs1,
    he1] at h
  rcases h with h | ⟨h, h2⟩
  · obtain ⟨mid, rfl, -⟩ := split_of_lt heq.symm h
    simp only [contents_append, contents_cons, List.length_append]
    omega
  · obtain ⟨rfl, -⟩ := List.append_inj heq h
    omega

/-- **Cutting is slicing**: between two places stand the characters behind the
first and in front of the second. -/
theorem cut_eq {marks : List Mark} {p q : ℕ} (hs : IsAt marks s p) (he : IsAt marks e q) :
    (if isBehind s e then [] else cut s e 0 marks) = ((contents marks).take q).drop p := by
  by_cases h : isBehind s e
  · have hqp := le_of_isBehind hs he h
    rw [if_pos h, List.drop_eq_nil_of_le ((List.length_take_le _ _).trans hqp)]
  obtain ⟨pre, x, post, rfl, hs1, hs2, rfl⟩ := hs
  obtain ⟨pre', y, post', heq, he1, he2, rfl⟩ := he
  have hpre : cut s e 0 pre = [] := cut_before (by omega)
  rw [if_neg h, cut_append, hpre, Nat.zero_add, List.nil_append]
  have hle : pre.length ≤ pre'.length := by
    simp only [isBehind, hs1, he1, Bool.or_eq_true, decide_eq_true_eq, not_or, not_lt] at h
    exact h.1
  rcases Nat.eq_or_lt_of_le hle with hl | hl
  · -- both places in one mark
    obtain ⟨rfl, hcons⟩ := List.append_inj heq hl
    obtain ⟨rfl, rfl⟩ := List.cons.inj hcons
    rw [cut_both hs1 he1, contents_append, contents_cons, List.take_length_add_append,
      List.drop_length_add_append, List.take_append_of_le_length he2]
  · -- the end of the first mark, the marks between and the front of the last
    obtain ⟨mid, rfl, rfl⟩ := split_of_lt heq hl
    rw [List.length_append, List.length_cons] at he1 hl
    have hmid : cut s e (pre.length + 1) mid = contents mid :=
      cut_between (by omega) (by omega)
    rw [cut_first hs1 (by omega), cut_append, hmid, cut_last (by omega) (by omega)]
    simp only [contents_append, contents_cons, List.length_append, Nat.add_assoc,
      List.take_length_add_append, List.take_append_of_le_length he2,
      List.drop_length_add_append, List.drop_append_of_le_length hs2]

end Range

end Locator

/-
Names

* `Text.IsName`: a text that is an XML name without a colon, with
  `Text.plainName?_append`: it is read up to what can be no part of a name;
* `Text.isAlpha_iff`, `Text.isDigit_iff`: letters and digits by their numbers;
* `Text.isDigit_of_isNameStart` and its companions: what a first character of a
  name is not.
-/
import Mathlib.Data.List.TakeWhile
import Locator.Document.Node
import Locator.Proofs.Text.Basic

namespace Locator.Text

/-! ### Characters -/

lemma isAlpha_iff {c : Char} : c.isAlpha = true ↔
    (65 ≤ c.toNat ∧ c.toNat ≤ 90) ∨ (97 ≤ c.toNat ∧ c.toNat ≤ 122) := by
  have h : c.isAlpha = (decide (c.val ≥ 'A'.val ∧ c.val ≤ 'Z'.val) ||
      (decide (c.val ≥ 'a'.val) && decide (c.val ≤ 'z'.val))) := rfl
  rw [h]
  simp only [Bool.or_eq_true, Bool.and_eq_true, decide_eq_true_eq, ge_iff_le,
    UInt32.le_iff_toNat_le]
  rfl

lemma isDigit_iff {c : Char} : c.isDigit = true ↔ 48 ≤ c.toNat ∧ c.toNat ≤ 57 := by
  have h : c.isDigit = (decide (c.val ≥ '0'.val) && decide (c.val ≤ '9'.val)) := rfl
  rw [h]
  simp only [Bool.and_eq_true, decide_eq_true_eq, ge_iff_le, UInt32.le_iff_toNat_le]
  rfl

lemma ne_of_isNameStart {c x : Char} (hc : isNameStart c = true)
    (hx : isNameStart x = false) : c ≠ x := by
  rintro rfl
  simp [hc] at hx

lemma ne_of_isNameChar {c x : Char} (hc : isNameChar c = true)
    (hx : isNameChar x = false) : c ≠ x := by
  rintro rfl
  simp [hc] at hx

lemma isNameChar_of_isNameStart {c : Char} (h : isNameStart c = true) :
    isNameChar c = true := by
  simp [isNameChar, h]

/-- A letter is no digit. -/
lemma isDigit_of_isNameStart {c : Char} (h : isNameStart c = true) : c.isDigit = false := by
  rw [Bool.eq_false_iff]
  intro hd
  rw [isDigit_iff] at hd
  have hscore : '_'.toNat = 95 := rfl
  simp only [isNameStart, Bool.or_eq_true, Bool.and_eq_true, decide_eq_true_eq, beq_iff_eq,
    isAlpha_iff, ← Char.toNat_inj] at h
  omega

/-- A decimal digit is one of the digits of every script. -/
lemma isDigit_of_decimal {c : Char} (h : c.isDigit = true) : isDigit c = true := by
  have hlt : c.toNat < 128 := by
    have := isDigit_iff.mp h
    omega
  rw [isDigit, if_pos hlt, h]

lemma isSpace_of_isNameChar {c : Char} (h : isNameChar c = true) : isSpace c = false := by
  simp [isSpace, ne_of_isNameChar h (x := ' ') rfl, ne_of_isNameChar h (x := '\t') rfl,
    ne_of_isNameChar h (x := '\n') rfl, ne_of_isNameChar h (x := '\r') rfl]

lemma isBlank_of_isSpace {c : Char} (h : isSpace c = true) : isBlank c = true := by
  simp only [isSpace, Bool.or_eq_true, beq_iff_eq] at h
  obtain ((rfl | rfl) | rfl) | rfl := h <;> rfl

/-! ### Names -/

/-- An XML name without a colon. -/
def IsName (s : Text) : Prop :=
  ∃ c r, s = c :: r ∧ isNameStart c = true ∧ ∀ d ∈ r, isNameChar d = true

lemma IsName.isNameChar {s : Text} (h : IsName s) : ∀ d ∈ s, isNameChar d = true := by
  obtain ⟨c, r, rfl, hc, hr⟩ := h
  intro d hd
  rcases List.mem_cons.mp hd with rfl | hd
  · exact isNameChar_of_isNameStart hc
  · exact hr d hd

lemma IsName.ne_nil {s : Text} (h : IsName s) : s ≠ [] := by
  obtain ⟨c, r, rfl, -⟩ := h
  simp

/-- The longest run of characters up to one that is no part of it. -/
lemma takeWhile_append_of_all {p : Char → Bool} {s rest : Text} (hs : ∀ c ∈ s, p c = true)
    (hr : ∀ c ∈ rest.head?, p c = false) : (s ++ rest).takeWhile p = s := by
  rw [List.takeWhile_append_of_pos (by simpa using hs)]
  cases rest with
  | nil => simp
  | cons c r => simp [hr c (by simp)]

lemma dropWhile_append_of_all {p : Char → Bool} {s rest : Text} (hs : ∀ c ∈ s, p c = true)
    (hr : ∀ c ∈ rest.head?, p c = false) : (s ++ rest).dropWhile p = rest := by
  rw [List.dropWhile_append_of_pos (by simpa using hs)]
  cases rest with
  | nil => simp
  | cons c r => simp [hr c (by simp)]

/-- A name is read up to what can be no part of a name. -/
lemma plainName?_append {s t : Text} (h : IsName s)
    (hr : ∀ c ∈ t.head?, Text.isNameChar c = false) :
    plainName? (s ++ t) = some (s, t) := by
  obtain ⟨c, r, rfl, hc, hd⟩ := h
  simp [plainName?, hc, takeWhile_append_of_all hd hr, dropWhile_append_of_all hd hr]

/-- The names are the texts that may stand in a path. -/
lemma isPathName_iff {s : Text} : Node.isPathName s = true ↔ IsName s := by
  constructor
  · intro h
    cases s with
    | nil => simp [Node.isPathName, plainName?] at h
    | cons c r =>
        by_cases hc : isNameStart c
        · refine ⟨c, r, rfl, hc, ?_⟩
          cases hd : r.dropWhile isNameChar with
          | nil => simpa [List.dropWhile_eq_nil_iff] using hd
          | cons d t => simp [Node.isPathName, plainName?, hc, hd] at h
        · simp [Node.isPathName, plainName?, hc] at h
  · intro h
    have := plainName?_append (t := []) h (by simp)
    simp_all [Node.isPathName]

end Locator.Text

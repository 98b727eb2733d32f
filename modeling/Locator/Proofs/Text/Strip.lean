/-
Ends of texts

* `dropEnd_append`, `dropEnd_dropEnd`, `dropEnd_eq_self`: a text without its longest
  ending of some characters;
* `IsTrim`: a text with no blank at either end;
* `strip_of_isTrim`: **blanks around such a text** are all that is stripped.
-/
import Mathlib.Data.List.DropRight
import Locator.Proofs.Text.Basic

namespace Locator.Text

variable {p q : Char → Bool} {s t u v : Text}

/-! ### Endings that are dropped -/

lemma dropEnd_eq (p : Char → Bool) (s : Text) : dropEnd p s = s.rdropWhile p := rfl

/-- Of two endings that are dropped only the longer one counts. -/
lemma dropEnd_dropEnd (h : ∀ c, p c → q c) (s : Text) : dropEnd q (dropEnd p s) = dropEnd q s := by
  have hdrop : ∀ t : Text, (t.dropWhile p).dropWhile q = t.dropWhile q := by
    intro t
    induction t with
    | nil => rfl
    | cons c t ih =>
        by_cases hc : p c
        · simp [hc, h c hc, ih]
        · simp [hc]
  simp [dropEnd, hdrop]

/-- Only the last text is shortened, unless nothing of it stays. -/
lemma dropEnd_append (p : Char → Bool) (s t : Text) :
    dropEnd p (s ++ t) = if dropEnd p t = [] then dropEnd p s else s ++ dropEnd p t := by
  simp only [dropEnd, List.reverse_append, List.dropWhile_append, List.isEmpty_iff,
    List.reverse_eq_nil_iff]
  split_ifs <;> simp

lemma dropEnd_congr (h : ∀ c ∈ s, p c = q c) : dropEnd p s = dropEnd q s := by
  have hdrop : ∀ t : Text, (∀ c ∈ t, p c = q c) → t.dropWhile p = t.dropWhile q := by
    intro t ht
    induction t with
    | nil => rfl
    | cons c t ih =>
        have hc := ht c (by simp)
        have ih := ih fun b hb => ht b (by simp [hb])
        simp only [List.dropWhile_cons, hc, ih]
  rw [dropEnd, dropEnd, hdrop s.reverse fun c hc => h c (by simpa using hc)]

lemma dropEnd_eq_self (h : ∀ c ∈ s.getLast?, p c = false) : dropEnd p s = s := by
  rw [dropEnd_eq, List.rdropWhile_eq_self_iff]
  intro hs
  simp [h _ (List.getLast?_eq_some_getLast hs)]

lemma getLast?_dropEnd : ∀ c ∈ (dropEnd p s).getLast?, p c = false := by
  intro c hc
  obtain ⟨hs, rfl⟩ := List.mem_getLast?_eq_getLast hc
  exact Bool.eq_false_of_not_eq_true (List.rdropWhile_last_not p s hs)

lemma dropEnd_sublist (p : Char → Bool) (s : Text) : (dropEnd p s).Sublist s :=
  (List.rdropWhile_prefix p s).sublist

lemma strip_sublist (s : Text) : (strip s).Sublist s :=
  (dropEnd_sublist _ _).trans (List.dropWhile_sublist _)

/-! ### Texts with no blank at either end -/

/-- A text that neither starts nor ends with a blank. -/
structure IsTrim (s : Text) : Prop where
  ne_nil : s ≠ []
  head : ∀ c ∈ s.head?, isBlank c = false
  last : ∀ c ∈ s.getLast?, isBlank c = false

lemma isTrim_of_all (hne : s ≠ []) (h : ∀ c ∈ s, isBlank c = false) : IsTrim s where
  ne_nil := hne
  head c hc := h c (List.mem_of_mem_head? hc)
  last c hc := h c (List.mem_of_getLast? hc)

/-- Only the ends of a text count. -/
lemma IsTrim.append (hs : IsTrim s) (m : Text) (ht : IsTrim t) : IsTrim (s ++ m ++ t) where
  ne_nil := by simp [hs.ne_nil]
  head c hc := by
    obtain ⟨d, r, rfl⟩ := List.exists_cons_of_ne_nil hs.ne_nil
    exact hs.head c hc
  last c hc := by
    rw [List.getLast?_append_of_ne_nil _ ht.ne_nil] at hc
    exact ht.last c hc

/-- **Blanks around a text** that has none at its ends are all that is stripped. -/
theorem strip_of_isTrim (hs : IsTrim s) (hu : ∀ c ∈ u, isBlank c = true)
    (hv : ∀ c ∈ v, isBlank c = true) : strip (u ++ s ++ v) = s := by
  have hd : (s ++ v).dropWhile isBlank = s ++ v := by
    obtain ⟨c, r, rfl⟩ := List.exists_cons_of_ne_nil hs.ne_nil
    simp [hs.head c rfl]
  have hv' : dropEnd isBlank v = [] := by
    rw [dropEnd_eq, List.rdropWhile_eq_nil_iff]
    exact hv
  rw [strip, stripBy, List.append_assoc, List.dropWhile_append_of_pos hu, hd, dropEnd_append,
    if_pos hv', dropEnd_eq_self hs.last]

lemma strip_eq_self (hs : IsTrim s) : strip s = s := by
  simpa using strip_of_isTrim (u := []) (v := []) hs (by simp) (by simp)

end Locator.Text

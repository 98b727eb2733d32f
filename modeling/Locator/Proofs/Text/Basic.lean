/-
Lemmas on texts

* `Text.decidableForallMem`: checking all characters of a text;
* `Text.join_cons`: parts with a text between each two of them;
* `Text.behind?_eq_some`: what stands behind a text;
* `Text.eq_of_cutAt?`: a text that is cut at a character.
-/
import Mathlib.Data.List.TakeWhile
import Mathlib.Tactic
import Locator.Text.Basic

namespace Locator.Text

/-! ### Deciding -/

/-- What holds of all characters of a text is checked along the text, not along all characters
that there are. -/
instance (priority := high) decidableForallMem {p : Char → Prop} [DecidablePred p] (s : Text) :
    Decidable (∀ c ∈ s, p c) := List.decidableBAll p s

/-- What holds of the character that may be given is checked for it alone. -/
instance (priority := high) decidableForallGiven {p : Char → Prop} [DecidablePred p] :
    (o : Option Char) → Decidable (∀ c ∈ o, p c)
  | none => .isTrue (by simp)
  | some c => decidable_of_iff (p c) (by simp)

/-! ### Joining -/

@[simp]
lemma join_nil (sep : Text) : join sep [] = [] := rfl

@[simp]
lemma join_singleton (sep s : Text) : join sep [s] = s := by
  simp [join, List.intercalate]

lemma join_cons_cons (sep s t : Text) (ss : List Text) :
    join sep (s :: t :: ss) = s ++ sep ++ join sep (t :: ss) := by
  simp [join, List.intercalate]

/-- The separator stands in front of every part but the first. -/
lemma join_cons (sep s : Text) (ss : List Text) :
    join sep (s :: ss) = s ++ ss.flatMap (sep ++ ·) := by
  induction ss generalizing s with
  | nil => simp
  | cons t ss ih => simp [join_cons_cons, ih]

/-- There are no more parts than characters, if the separator has one. -/
lemma length_le_length_join {w : Text} (h : 0 < w.length) (s : Text) (ss : List Text) :
    ss.length ≤ (join w (s :: ss)).length := by
  induction ss generalizing s with
  | nil => simp
  | cons t ss ih =>
      have := ih t
      rw [join_cons_cons, List.length_append, List.length_append, List.length_cons]
      omega

/-! ### Behind a text -/

/-- What stands behind a text is the rest. -/
lemma behind?_eq_some {w s r : Text} : behind? w s = some r ↔ s = w ++ r := by
  constructor
  · intro h
    rw [behind?] at h
    split_ifs at h with hw
    obtain ⟨u, rfl⟩ := List.isPrefixOf_iff_prefix.mp hw
    rw [List.drop_left, Option.some.injEq] at h
    rw [h]
  · rintro rfl
    simp [behind?]

/-- A text is cut at the first of the given characters. -/
lemma eq_of_cutAt? {q : Char} {s v r : Text} (h : cutAt? q s = some (v, r)) :
    s = v ++ q :: r ∧ q ∉ v := by
  rw [cutAt?] at h
  split at h
  · cases h
  · next d w hdrop =>
      obtain ⟨rfl, rfl⟩ := Prod.mk.inj (Option.some.inj h)
      have hhead := List.head?_dropWhile_not (fun d => decide (d ≠ q)) s
      rw [hdrop] at hhead
      obtain rfl : d = q := by simpa using hhead
      refine ⟨by rw [← hdrop, List.takeWhile_append_dropWhile], fun hm => ?_⟩
      simpa using List.mem_takeWhile_imp hm

end Locator.Text

/-
What a normal form is

* `IsNormal`: no blank in front, neither slash nor blank at the end, and nowhere three slashes
  in a row;
* `Shortened`: the runs of slashes of a text are shortened to two, and nothing else changes;
* `normalize_spec`: **normal forms** are what is normalized and what normalizing leaves as it is,
  and a text loses no more than its ends and slashes on the way.
-/
import Locator.Proofs.XPath.Normal

namespace Locator.XPath

/-! ### Normal forms -/

/-- A text without a blank in front, without slashes and blanks at the end, and without
three slashes in a row. -/
structure IsNormal (s : Text) : Prop where
  front : ∀ c ∈ s.head?, Text.isBlank c = false
  back : ∀ c ∈ s.getLast?, isSlashOrBlank c = false
  runs : ¬ slashes <:+: s

/-- What is normalized is in normal form. -/
lemma isNormal_normalize (s : Text) : IsNormal (normalize s) where
  front := head?_normalize s
  back := getLast?_normalize s
  runs := by
    rw [← squeeze_eq_self_iff, normalize_eq, squeeze_squeeze]

/-- **Normal forms** are left as they are, and no other texts. -/
theorem normalize_eq_self_iff {s : Text} : normalize s = s ↔ IsNormal s := by
  constructor
  · intro h
    have hs := isNormal_normalize s
    rwa [h] at hs
  · intro h
    rw [normalize_of_ends h.front h.back, squeeze_eq_self_iff]
    exact h.runs

/-! ### Runs that are shortened -/

/-- The first text becomes the second one when every run of slashes is shortened to two of
them, unless it is shorter already. -/
inductive Shortened : Text → Text → Prop
  | nil : Shortened [] []
  | other {c : Char} {s t : Text} (hc : c ≠ '/') (h : Shortened s t) :
      Shortened (c :: s) (c :: t)
  | run {s t : Text} (n : ℕ) (hs : ∀ c ∈ s.head?, c ≠ '/') (h : Shortened s t) :
      Shortened (List.replicate (n + 1) '/' ++ s) (List.replicate (min (n + 1) 2) '/' ++ t)

/-- Of a whole run so many slashes stay as make up two with those in front. -/
lemma squeezeFrom_replicate_append {s : Text} (hs : ∀ c ∈ s.head?, c ≠ '/') (k n : ℕ) :
    squeezeFrom k (List.replicate n '/' ++ s) =
      List.replicate (min n (2 - k)) '/' ++ squeeze s := by
  induction n generalizing k with
  | zero =>
      cases s with
      | nil => rfl
      | cons c s =>
          have hc : c ≠ '/' := hs c rfl
          simp [squeeze, squeezeFrom, hc]
  | succ n ih =>
      rw [List.replicate_succ, List.cons_append, squeezeFrom]
      by_cases hk : k < 2
      · have hmin : min (n + 1) (2 - k) = min n (2 - (k + 1)) + 1 := by omega
        simp [hk, ih, hmin, List.replicate_succ]
      · have hzero : 2 - k = 0 := by omega
        simp [hk, ih, hzero]

/-- A text starts with a run of slashes, perhaps with an empty one. -/
lemma exists_run (s : Text) :
    ∃ n r, s = List.replicate n '/' ++ r ∧ ∀ c ∈ r.head?, c ≠ '/' := by
  refine ⟨(s.takeWhile (· == '/')).length, s.dropWhile (· == '/'), ?_, fun c hc => ?_⟩
  · have hrun : s.takeWhile (· == '/') = List.replicate (s.takeWhile (· == '/')).length '/' :=
      List.eq_replicate_of_mem fun c hc => by simpa using List.mem_takeWhile_imp hc
    rw [← hrun, List.takeWhile_append_dropWhile]
  · have hnot := List.head?_dropWhile_not (· == '/') s
    rw [Option.mem_def.mp hc] at hnot
    simpa using hnot

/-- Only runs of slashes are shortened. -/
lemma shortened_squeeze (s : Text) : Shortened s (squeeze s) := by
  induction hn : s.length using Nat.strong_induction_on generalizing s with
  | _ n ih =>
      subst hn
      obtain ⟨k, r, rfl, hr⟩ := exists_run s
      have hsqueeze := squeezeFrom_replicate_append hr 0 k
      cases k with
      | zero =>
          cases r with
          | nil => exact .nil
          | cons c r =>
              have hc : c ≠ '/' := hr c rfl
              rw [List.replicate_zero, List.nil_append, squeeze_cons hc]
              exact .other hc (ih _ (by simp) r rfl)
      | succ k =>
          rw [squeeze, hsqueeze]
          exact .run k hr (ih _ (by simp) r rfl)

/-- Blanks in front, slashes and blanks at the end, and slashes in long runs are all that a text
loses. -/
lemma exists_ends (s : Text) : ∃ b m e, s = b ++ m ++ e ∧ (∀ c ∈ b, Text.isBlank c = true) ∧
    (∀ c ∈ e, isSlashOrBlank c = true) ∧ Shortened m (normalize s) := by
  set r := s.dropWhile Text.isBlank with hr
  refine ⟨s.takeWhile Text.isBlank, Text.dropEnd isSlashOrBlank r, r.rtakeWhile isSlashOrBlank,
    ?_, fun c hc => List.mem_takeWhile_imp hc, fun c hc => List.mem_rtakeWhile_imp hc, ?_⟩
  · rw [Text.dropEnd_eq, List.append_assoc, List.rdropWhile_append_rtakeWhile, hr,
      List.takeWhile_append_dropWhile]
  · rw [normalize_eq]
    exact shortened_squeeze _

/-- **Normalizing** gives a normal form, leaves exactly the normal forms as they are, so that
doing it again changes nothing, and takes away no more than blanks in front, slashes and
blanks at the end, and what a run of slashes has beyond two. -/
theorem normalize_spec (s : Text) :
    IsNormal (normalize s) ∧ (∀ t, normalize t = t ↔ IsNormal t) ∧
      normalize (normalize s) = normalize s ∧
      ∃ b m e, s = b ++ m ++ e ∧ (∀ c ∈ b, Text.isBlank c = true) ∧
        (∀ c ∈ e, isSlashOrBlank c = true) ∧ Shortened m (normalize s) :=
  ⟨isNormal_normalize s, fun _ => normalize_eq_self_iff, normalize_normalize s, exists_ends s⟩

/-- Blanks between the slashes at the end go with them, those inside a text stay. -/
example : normalize " x ///y/ // ".toList = "x //y".toList := by decide

end Locator.XPath

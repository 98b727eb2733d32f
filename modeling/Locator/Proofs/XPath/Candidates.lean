/-
The candidates for the shortest spelling of a path

* `LosesIndex`, `losesIndex_dropIndex`: what a step loses with its position;
* `generated`, `spellings_eq_generated`: the spellings in order of generation, ending by ending;
* `mem_candidates`, `sorted_candidates`: the candidates are the normal forms of the spellings, the
  shorter ones first; `filter_candidates`: those of one length keep their order;
* `candidates_ordered`: **the candidates** are the non-empty normal forms, each of them once, by
  length and then by their first place in order of generation;
* `candidates_lineFeed`: a position in front of a line feed at the end is dropped as well.
-/
import Mathlib.Data.List.Sort
import Locator.Proofs.XPath.Normal

namespace Locator.XPath

variable {s t c i : Text} {steps bare l : List Text}

/-! ### Steps without their position -/

/-- Digits in brackets. -/
def IsIndex (i : Text) : Prop :=
  ∃ ds : Text, ds ≠ [] ∧ (∀ d ∈ ds, Text.isDigit d = true) ∧ i = '[' :: ds ++ [']']

/-- **What a step loses**: the digits in brackets at its end, which one line feed may follow, and
nothing if there are none. -/
inductive LosesIndex : Text → Text → Prop
  | last {s i : Text} (hi : IsIndex i) : LosesIndex (s ++ i) s
  | lineFeed {s i : Text} (hi : IsIndex i) : LosesIndex (s ++ i ++ ['\n']) (s ++ ['\n'])
  | nothing {s : Text} (h : ∀ u i, IsIndex i → s ≠ u ++ i ∧ s ≠ u ++ i ++ ['\n']) : LosesIndex s s

lemma IsIndex.getLast? (hi : IsIndex i) (s : Text) : (s ++ i).getLast? = some ']' := by
  obtain ⟨ds, -, -, rfl⟩ := hi
  rw [← List.append_assoc, List.getLast?_concat]

/-- Read backwards, digits in brackets are found in front of the rest. -/
lemma dropIndexReversed?_eq_some {r rest : Text} :
    dropIndexReversed? r = some rest ↔ ∃ i, IsIndex i ∧ r.reverse = rest.reverse ++ i := by
  constructor
  · intro h
    rw [dropIndexReversed?.eq_def] at h
    split at h
    · next r =>
      split at h
      · next d ds rest' htake hdrop =>
        obtain rfl := Option.some.inj h
        have hr : r = d :: ds ++ '[' :: rest' := by
          rw [← htake, ← hdrop, List.takeWhile_append_dropWhile]
        refine ⟨'[' :: (d :: ds).reverse ++ [']'], ⟨_, by simp, fun b hb => ?_, rfl⟩, by simp [hr]⟩
        exact List.mem_takeWhile_imp (htake ▸ List.mem_reverse.mp hb)
      · simp at h
    · simp at h
  · rintro ⟨_, ⟨ds, hne, hds, rfl⟩, hr⟩
    have hr : r = ']' :: (ds.reverse ++ '[' :: rest) := by
      rw [← List.reverse_reverse r, hr]
      simp
    have hdigits : ∀ d ∈ ds.reverse, Text.isDigit d = true := fun d hd =>
      hds d (List.mem_reverse.mp hd)
    have hbracket : Text.isDigit '[' = false := rfl
    obtain ⟨d, more, hmore⟩ := List.exists_cons_of_ne_nil (List.reverse_ne_nil_iff.mpr hne)
    rw [hr, dropIndexReversed?, List.takeWhile_append_of_pos hdigits,
      List.dropWhile_append_of_pos hdigits, List.takeWhile_cons, List.dropWhile_cons, hbracket,
      hmore]
    rfl

/-- A step loses the digits in brackets at its end. -/
lemma dropIndex_append (hi : IsIndex i) (s : Text) : dropIndex (s ++ i) = s := by
  have hdrop : dropIndexReversed? (s ++ i).reverse = some s.reverse :=
    dropIndexReversed?_eq_some.mpr ⟨i, hi, by simp⟩
  rw [dropIndex]
  split
  · next r hr =>
    have hlast := hi.getLast? s
    rw [← List.head?_reverse, hr] at hlast
    exact absurd (Option.some.inj hlast) (by decide)
  · rw [hdrop, Option.getD_some, List.reverse_reverse]

/-- **A step without its position** has lost that, and nothing else. -/
theorem losesIndex_dropIndex (s : Text) : LosesIndex s (dropIndex s) := by
  rw [dropIndex]
  split
  · next r hr =>
    have hs : s = r.reverse ++ ['\n'] := by rw [← List.reverse_reverse s, hr, List.reverse_cons]
    cases h : dropIndexReversed? r with
    | some rest =>
        obtain ⟨i, hi, hrest⟩ := dropIndexReversed?_eq_some.mp h
        rw [hs, hrest]
        exact .lineFeed hi
    | none =>
        rw [Option.getD_none, ← hs]
        refine .nothing fun u i hi => ⟨fun hu => ?_, fun hu => ?_⟩
        · have hlast := hi.getLast? u
          rw [← hu, hs, List.getLast?_concat] at hlast
          exact absurd (Option.some.inj hlast) (by decide)
        · have hu : r.reverse = u ++ i := List.append_cancel_right (hs ▸ hu)
          have hsome : dropIndexReversed? r = some u.reverse :=
            dropIndexReversed?_eq_some.mpr ⟨i, hi, by rw [hu, List.reverse_reverse]⟩
          simp [h] at hsome
  · next hline =>
    cases h : dropIndexReversed? s.reverse with
    | some rest =>
        obtain ⟨i, hi, hrest⟩ := dropIndexReversed?_eq_some.mp h
        rw [List.reverse_reverse] at hrest
        rw [hrest]
        exact .last hi
    | none =>
        rw [Option.getD_none, List.reverse_reverse]
        refine .nothing fun u i hi => ⟨fun hu => ?_, fun hu => ?_⟩
        · have hsome : dropIndexReversed? s.reverse = some u.reverse :=
            dropIndexReversed?_eq_some.mpr ⟨i, hi, by simp [hu]⟩
          simp [h] at hsome
        · exact hline _ (by rw [hu, List.reverse_append]; rfl)

lemma LosesIndex.sublist (h : LosesIndex s t) : t.Sublist s := by
  cases h with
  | last => exact List.sublist_append_left _ _
  | lineFeed => exact (List.sublist_append_left _ _).append_right _
  | nothing => exact List.Sublist.refl _

lemma dropIndex_sublist (s : Text) : (dropIndex s).Sublist s := (losesIndex_dropIndex s).sublist

/-! ### Spellings -/

/-- The spellings of steps and of the steps without their positions, in order of generation: the
whole path, and then behind a double slash what is left from each step on, both ways. -/
def generated (steps bare : List Text) : List Text :=
  [path ['/'] steps, path ['/'] bare] ++ (List.range steps.length).flatMap fun k =>
    [path ['/', '/'] (steps.drop k), path ['/', '/'] (bare.drop k)]

lemma suffixes_eq {α : Type} (l : List α) : suffixes l = (List.range l.length).map l.drop := by
  induction l with
  | nil => rfl
  | cons a l ih =>
      rw [suffixes, ih, List.length_cons, List.range_succ_eq_map, List.map_cons, List.map_map]
      rfl

lemma mem_suffixes {α : Type} {l as : List α} (h : l ∈ suffixes as) : l <:+ as := by
  rw [suffixes_eq, List.mem_map] at h
  obtain ⟨k, -, rfl⟩ := h
  exact List.drop_suffix k as

lemma spellings_eq_generated (steps : List Text) :
    spellings steps = generated steps (steps.map dropIndex) := by
  simp only [spellings, generated, suffixes_eq, List.length_map, List.zip_map', List.flatMap_map,
    List.cons_append, List.nil_append]

/-- The normal forms that are not empty, in order of generation. -/
def forms (steps bare : List Text) : List Text :=
  ((generated steps bare).map normalize).filter fun s => !s.isEmpty

lemma mem_forms : c ∈ forms steps bare ↔ c ≠ [] ∧ ∃ s ∈ generated steps bare, normalize s = c := by
  simp [forms, and_comm]

/-! ### Repetitions -/

lemma mem_dedup : s ∈ dedup l ↔ s ∈ l := by
  induction l with
  | nil => rfl
  | cons a l ih =>
      by_cases h : s = a
      · simp [dedup, h]
      · simp [dedup, ih, h]

/-- Of repetitions the first stays, in its place. -/
lemma pairwise_dedup (l : List Text) : (dedup l).Pairwise fun a b => l.idxOf a < l.idxOf b := by
  induction l with
  | nil => exact .nil
  | cons a l ih =>
      have hbehind : ∀ b ∈ (dedup l).filter (· ≠ a), (a :: l).idxOf b = l.idxOf b + 1 := by
        intro b hb
        have hne : b ≠ a := by simpa using (List.mem_filter.mp hb).2
        exact List.idxOf_cons_ne l hne.symm
      rw [dedup, List.pairwise_cons]
      refine ⟨fun b hb => ?_, (ih.filter _).imp_of_mem fun {b d} hb hd hlt => ?_⟩
      · rw [List.idxOf_cons_self, hbehind b hb]
        exact Nat.succ_pos _
      · rw [hbehind b hb, hbehind d hd]
        exact Nat.succ_lt_succ hlt

/-! ### Candidates -/

lemma length_le_trans (a b c : Text) : decide (a.length ≤ b.length) = true →
    decide (b.length ≤ c.length) = true → decide (a.length ≤ c.length) = true := by
  simp only [decide_eq_true_eq]
  exact Nat.le_trans

lemma length_le_total (a b : Text) :
    (decide (a.length ≤ b.length) || decide (b.length ≤ a.length)) = true := by
  simpa using Nat.le_total a.length b.length

lemma candidates_eq (steps : List Text) : candidates steps =
    (dedup (forms steps (steps.map dropIndex))).mergeSort fun a b => a.length ≤ b.length := by
  cases steps with
  | nil =>
      have hforms : forms [] [] = [] := rfl
      rw [List.map_nil, hforms, dedup, List.mergeSort_nil]
      rfl
  | cons s steps =>
      rw [candidates, if_neg (by simp), spellings_eq_generated]
      rfl

lemma mem_candidates_iff : c ∈ candidates steps ↔ c ∈ forms steps (steps.map dropIndex) := by
  rw [candidates_eq, List.mem_mergeSort, mem_dedup]

/-- **The candidates** are the normal forms of the spellings. -/
theorem mem_candidates :
    c ∈ candidates steps ↔ steps ≠ [] ∧ c ≠ [] ∧ ∃ s ∈ spellings steps, normalize s = c := by
  rw [candidates]
  cases steps with
  | nil => simp
  | cons a l => simp [mem_dedup, and_comm]

/-- The shorter candidates come first. -/
theorem sorted_candidates (steps : List Text) :
    (candidates steps).Pairwise fun a b => a.length ≤ b.length := by
  rw [candidates_eq]
  exact (List.pairwise_mergeSort length_le_trans length_le_total _).imp fun h => by simpa using h

/-- Candidates of one length keep their order. -/
lemma filter_candidates (steps : List Text) (k : ℕ) :
    (candidates steps).filter (·.length == k) =
      (dedup (forms steps (steps.map dropIndex))).filter (·.length == k) := by
  rw [candidates_eq]
  set found := dedup (forms steps (steps.map dropIndex))
  have hlength : ∀ s ∈ found.filter (·.length == k), s.length = k := fun s hs => by
    simpa using (List.mem_filter.mp hs).2
  have hequal : (found.filter (·.length == k)).Pairwise fun a b => decide (a.length ≤ b.length) :=
    List.pairwise_of_forall_mem_list fun a ha b hb => by simp [hlength a ha, hlength b hb]
  have hsub := (List.sublist_mergeSort length_le_trans length_le_total hequal
    List.filter_sublist).filter (·.length == k)
  simp only [List.filter_filter, Bool.and_self] at hsub
  have hperm := List.mergeSort_perm found fun a b => a.length ≤ b.length
  have hlen := (hperm.filter (·.length == k)).length_eq
  exact (hsub.eq_of_length hlen.symm).symm

/-- The candidates stand by length, and those of one length by their first place in order of
generation. -/
lemma pairwise_candidates (steps : List Text) :
    (candidates steps).Pairwise fun a b => a.length < b.length ∨ a.length = b.length ∧
      (forms steps (steps.map dropIndex)).idxOf a <
        (forms steps (steps.map dropIndex)).idxOf b := by
  rw [List.pairwise_iff_forall_sublist]
  intro a b hab
  have hle : a.length ≤ b.length :=
    List.pairwise_iff_forall_sublist.mp (sorted_candidates steps) hab
  rcases Nat.lt_or_eq_of_le hle with hlt | heq
  · exact .inl hlt
  · have hfilter := hab.filter (·.length == b.length)
    rw [filter_candidates] at hfilter
    have hfound : [a, b].Sublist (dedup (forms steps (steps.map dropIndex))) := by
      simpa [heq] using hfilter.trans List.filter_sublist
    exact .inr ⟨heq, List.pairwise_iff_forall_sublist.mp (pairwise_dedup _) hfound⟩

/-- **The candidates** are the normal forms, without the empty one, of the whole path and of what is
left from each step on, with the steps as they are and without their positions. Each is there
once; the shorter ones come first, and those of one length by their first place in order of
generation. -/
theorem candidates_ordered (steps : List Text) :
    (∀ s ∈ steps, LosesIndex s (dropIndex s)) ∧
      (∀ c, c ∈ candidates steps ↔
        c ≠ [] ∧ ∃ s ∈ generated steps (steps.map dropIndex), normalize s = c) ∧
      (candidates steps).Nodup ∧
      (candidates steps).Pairwise fun a b => a.length < b.length ∨ a.length = b.length ∧
        (forms steps (steps.map dropIndex)).idxOf a <
          (forms steps (steps.map dropIndex)).idxOf b := by
  have hordered := pairwise_candidates steps
  refine ⟨fun s _ => losesIndex_dropIndex s, fun c => ?_, hordered.imp ?_, hordered⟩
  · rw [mem_candidates_iff, mem_forms]
  · rintro a b (hlt | ⟨-, hlt⟩) rfl
    · exact Nat.lt_irrefl _ hlt
    · exact Nat.lt_irrefl _ hlt

/-- A step ends in a line feed and not in digits in brackets; the candidates are without those in
front of the line feed nevertheless. -/
theorem candidates_lineFeed :
    (∀ u i, IsIndex i → "a[1]\n".toList ≠ u ++ i) ∧
      candidates ["a[1]\n".toList] = ["/a".toList, "//a".toList, "/a[1]".toList, "//a[1]".toList] ∧
      forms ["a[1]\n".toList] ["a[1]\n".toList] =
        ["/a[1]".toList, "/a[1]".toList, "//a[1]".toList, "//a[1]".toList] := by
  refine ⟨fun u i hi heq => ?_, ?_, by decide⟩
  · have hlast := hi.getLast? u
    rw [← heq] at hlast
    exact absurd hlast (by decide)
  · have hforms : dedup (forms ["a[1]\n".toList] (["a[1]\n".toList].map dropIndex)) =
        ["/a[1]".toList, "/a".toList, "//a[1]".toList, "//a".toList] := by decide
    rw [candidates_eq, hforms]
    simp [List.mergeSort, List.MergeSort.Internal.splitInTwo]

lemma isTrim_of_mem_candidates (h : c ∈ candidates steps) : Text.IsTrim c := by
  obtain ⟨-, hne, s, -, rfl⟩ := mem_candidates.mp h
  exact isTrim_normalize hne

end Locator.XPath

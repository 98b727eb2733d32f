/-
The history of a registry

* `newcomers`: the entries whose names are taken neither from the start nor by an entry in
  front of them, with `newcomers_append_singleton`: whether one more entry is among them;
* `Registry.heuristics_register`: what entries that come one after the other leave;
* `Registry.heuristics_foldl_register`: **a registry after any calls** holds the newcomers,
  the last one first, and behind them what it held before.
-/
import Mathlib.Tactic
import Locator.Generator.Basic

namespace Locator

variable {r : Registry} {h : Heuristic} {es : List Heuristic} {names : List Text} {s : Text}

/-! ### Newcomers -/

/-- Is the name of an entry among given names, or that of an entry in front of it? -/
def isTaken (names : List Text) (front : List Heuristic) (h : Heuristic) : Prop :=
  h.name ∈ names ∨ h.name ∈ front.map Heuristic.name

instance (names : List Text) (front : List Heuristic) (h : Heuristic) :
    Decidable (isTaken names front h) := inferInstanceAs (Decidable (_ ∨ _))

/-- **The newcomers among entries**: those whose names are neither among given names nor
those of entries in front of them. -/
def newcomers (names : List Text) (entries : List Heuristic) : List Heuristic :=
  entries.zipIdx.filterMap fun x =>
    if isTaken names (entries.take x.2) x.1 then none else some x.1

@[simp]
lemma newcomers_nil (names : List Text) : newcomers names [] = [] := rfl

/-- What comes in front of an entry does not depend on what comes behind it. -/
lemma newcomers_append_singleton (names : List Text) (es : List Heuristic) (h : Heuristic) :
    newcomers names (es ++ [h]) =
      newcomers names es ++ if isTaken names es h then [] else [h] := by
  have hfront : ∀ x ∈ es.zipIdx, (es ++ [h]).take x.2 = es.take x.2 := by
    rintro ⟨k, i⟩ hx
    obtain ⟨-, hi, -⟩ := List.mem_zipIdx hx
    exact List.take_append_of_le_length (by omega)
  rw [newcomers, List.zipIdx_append, List.filterMap_append, newcomers]
  congr 1
  · exact List.filterMap_congr fun x hx => by rw [hfront x hx]
  · have hlast : (es ++ [h]).take (0 + es.length) = es := by simp
    rw [List.zipIdx_singleton, List.filterMap_cons, hlast, List.filterMap_nil]
    split_ifs <;> rfl

/-- The names of newcomers are new, and no two of them are the same. -/
lemma nodup_names_newcomers (names : List Text) (es : List Heuristic) :
    ((newcomers names es).map Heuristic.name).Nodup ∧
      ∀ s ∈ (newcomers names es).map Heuristic.name, s ∉ names ∧ s ∈ es.map Heuristic.name := by
  induction es using List.reverseRecOn with
  | nil => simp
  | append_singleton es h ih =>
      obtain ⟨hdistinct, hnew⟩ := ih
      have hmore : ∀ s ∈ (newcomers names es).map Heuristic.name,
          s ∉ names ∧ s ∈ (es ++ [h]).map Heuristic.name := fun s hs =>
        ⟨(hnew s hs).1, by rw [List.map_append, List.mem_append]; exact .inl (hnew s hs).2⟩
      rw [newcomers_append_singleton]
      split_ifs with htaken
      · rw [List.append_nil]
        exact ⟨hdistinct, hmore⟩
      · rw [isTaken, not_or] at htaken
        rw [List.map_append, List.map_singleton, List.nodup_append']
        refine ⟨⟨hdistinct, List.nodup_singleton _, ?_⟩, ?_⟩
        · rw [List.disjoint_singleton]
          exact fun hs => htaken.2 (hnew _ hs).2
        · intro s hs
          rcases List.mem_append.mp hs with hs | hs
          · exact hmore s hs
          · rw [List.mem_singleton.mp hs]
            exact ⟨htaken.1, by simp⟩

/-! ### One call after the other -/

namespace Registry

lemma names_insert (r : Registry) (h : Heuristic) :
    (r.insert h).names = if h.name ∈ r.names then r.names else h.name :: r.names := by
  rw [insert]
  split_ifs with hc hm hm
  · rfl
  · exact absurd (List.contains_iff_mem.mp hc) hm
  · exact absurd (List.contains_iff_mem.mpr hm) hc
  · rfl

lemma register_append_singleton (r : Registry) (es : List Heuristic) (h : Heuristic) :
    r.register (es ++ [h]) = (r.register es).insert h := List.foldl_append

/-- The names of a registry are those from the start and those of all entries. -/
lemma mem_names_register : s ∈ (r.register es).names ↔ s ∈ r.names ∨ s ∈ es.map Heuristic.name := by
  induction es using List.reverseRecOn generalizing s with
  | nil => simp [register]
  | append_singleton es h ih =>
      rw [register_append_singleton, names_insert]
      split_ifs with hm
      · rw [ih] at hm ⊢
        simp only [List.map_append, List.map_singleton, List.mem_append, List.mem_singleton]
        constructor
        · rintro (hs | hs)
          · exact .inl hs
          · exact .inr (.inl hs)
        · rintro (hs | hs | rfl)
          · exact .inl hs
          · exact .inr hs
          · exact hm
      · rw [List.mem_cons, ih]
        simp only [List.map_append, List.map_singleton, List.mem_append, List.mem_singleton]
        tauto

/-- **Entries one after the other**: the newcomers come to the front, the last one first. -/
lemma heuristics_register (r : Registry) (es : List Heuristic) :
    (r.register es).heuristics = (newcomers r.names es).reverse ++ r.heuristics := by
  induction es using List.reverseRecOn with
  | nil => rfl
  | append_singleton es h ih =>
      have htaken : h.name ∈ (r.register es).names ↔ isTaken r.names es h := mem_names_register
      rw [register_append_singleton, insert, newcomers_append_singleton]
      by_cases hm : isTaken r.names es h
      · simp [htaken.mpr hm, hm, ih]
      · simp [mt htaken.mp hm, hm, ih]

/-- Calls one after the other are one call with all entries. -/
lemma foldl_register (r : Registry) (calls : List (List Heuristic)) :
    calls.foldl register r = r.register calls.flatten := by
  induction calls generalizing r with
  | nil => rfl
  | cons es calls ih =>
      rw [List.foldl_cons, ih, List.flatten_cons, register, register, register, List.foldl_append]

/-- **The history of a registry.** After any calls it holds the newcomers among all entries,
taken in the order of calls and arguments, the last one first, and behind them what it held
before. So it does not matter which entries share a call, what was held at any time is held
later in the same order, and distinct names stay distinct. -/
theorem heuristics_foldl_register (r : Registry) (calls : List (List Heuristic)) :
    (calls.foldl register r).heuristics =
        (newcomers r.names calls.flatten).reverse ++ r.heuristics ∧
      (∀ others : List (List Heuristic), others.flatten = calls.flatten →
        others.foldl register r = calls.foldl register r) ∧
      (∀ later : List (List Heuristic), (calls.foldl register r).heuristics <:+
        ((calls ++ later).foldl register r).heuristics) ∧
      (r.names.Nodup → (calls.foldl register r).names.Nodup) := by
  have hclosed : ∀ (r : Registry) (calls : List (List Heuristic)),
      (calls.foldl register r).heuristics =
        (newcomers r.names calls.flatten).reverse ++ r.heuristics := fun r calls => by
    rw [foldl_register, heuristics_register]
  refine ⟨hclosed r calls, fun others h => ?_, fun later => ?_, fun hnames => ?_⟩
  · rw [foldl_register, foldl_register, h]
  · rw [List.foldl_append, hclosed _ later]
    exact List.suffix_append _ _
  · obtain ⟨hdistinct, hnew⟩ := nodup_names_newcomers r.names calls.flatten
    rw [names, hclosed, List.map_append, List.map_reverse, List.nodup_append']
    refine ⟨List.nodup_reverse.mpr hdistinct, hnames, fun s hs hr => ?_⟩
    exact (hnew s (List.mem_reverse.mp hs)).1 hr

/-- Two calls, in which a name comes twice and another one is that of a built-in heuristic. -/
def clashingCalls : List (List Heuristic) :=
  [[{ name := ['x'] }, { name := "default:id".toList }], [{ name := ['x'] }, { name := ['y'] }]]

/-- Of four entries two are newcomers, and the names of the registry stay distinct. -/
theorem names_clashingCalls :
    (new none).names.Nodup ∧
      (clashingCalls.foldl register (new none)).names =
        ["y".toList, "x".toList] ++ (new none).names ∧
      (clashingCalls.foldl register (new none)).names.Nodup := by
  have hnames : (new none).names.Nodup := by decide
  obtain ⟨hclosed, -, -, hdistinct⟩ := heuristics_foldl_register (new none) clashingCalls
  refine ⟨hnames, ?_, hdistinct hnames⟩
  rw [names, hclosed, List.map_append]
  rfl

end Registry

end Locator

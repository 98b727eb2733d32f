/-
Pieces and words

* `Text.forall_of_mem_pieces`, `Text.join_pieces`: the pieces of a text hold no
  separator, and joined by the separator they are the text;
* `Text.occursIn_iff`: what occurs in a text is an infix of it;
* `Text.separated`: words with a separator in front of each and one behind;
* `Text.infix_join_iff`: **words**: a text between blanks occurs in words between single
  blanks exactly when its pieces stand there one behind the other;
* `Text.StandsIn`: a text stands in another between separators, and `Text.mem_pieces_iff`: **the
  pieces of a text** are what stands in it without separators.
-/
import Locator.Proofs.Text.Basic

namespace Locator.Text

/-! ### Pieces -/

lemma pieces_ne_nil (p : Char → Bool) (v : Text) : pieces p v ≠ [] := by
  cases v with
  | nil => simp [pieces]
  | cons c v =>
      rw [pieces]
      split
      · simp
      · split <;> simp

/-- The pieces between separators hold no separator. -/
lemma forall_of_mem_pieces {p : Char → Bool} {v part : Text} (h : part ∈ pieces p v) :
    ∀ c ∈ part, p c = false := by
  induction v generalizing part with
  | nil => simp_all [pieces]
  | cons c v ih =>
      rw [pieces] at h
      split at h
      · rcases List.mem_cons.mp h with rfl | h
        · simp
        · exact ih h
      · next hc =>
        split at h
        · obtain rfl := List.mem_singleton.mp h
          simpa using hc
        · next q qs hq =>
          rcases List.mem_cons.mp h with rfl | h
          · have := @ih q (by simp [hq])
            simpa [hc] using this
          · exact ih (by simp [hq, h])

/-- The pieces joined by the separator are the text. -/
lemma join_pieces (q : Char) (v : Text) : join [q] (pieces (· == q) v) = v := by
  induction v with
  | nil => rfl
  | cons c v ih =>
      rw [pieces]
      cases hp : pieces (· == q) v with
      | nil => exact absurd hp (pieces_ne_nil _ v)
      | cons w ws =>
          rw [hp] at ih
          split
          · next hc =>
            obtain rfl : c = q := by simpa using hc
            rw [join_cons_cons, ih]
            rfl
          · cases ws with
            | nil => simpa [join_singleton] using ih
            | cons x xs =>
                rw [join_cons_cons] at ih ⊢
                rw [← ih]
                rfl

/-! ### Words -/

/-- What occurs in a text is an infix of it. -/
lemma occursIn_iff {u s : Text} : occursIn u s = true ↔ u <:+: s := by
  induction s with
  | nil => simp [occursIn]
  | cons c s ih => simp [occursIn, ih, List.infix_cons_iff]

/-- A text that starts with a separator occurs behind what holds none. -/
lemma infix_append_iff {q : Char} {u w rest : Text} (hw : q ∉ w) :
    q :: u <:+: w ++ rest ↔ q :: u <:+: rest := by
  induction w with
  | nil => rfl
  | cons c w ih =>
      simp only [List.mem_cons, not_or] at hw
      rw [List.cons_append, List.infix_cons_iff, ih hw.2]
      simp [List.cons_prefix_cons, hw.1]

/-- Two texts without a separator, up to the first separator and behind it. -/
lemma prefix_separator_iff {q : Char} {v w u rest : Text} (hv : q ∉ v) (hw : q ∉ w) :
    v ++ q :: u <+: w ++ q :: rest ↔ v = w ∧ u <+: rest := by
  induction v generalizing w with
  | nil =>
      cases w with
      | nil => simp
      | cons c w =>
          simp only [List.mem_cons, not_or] at hw
          simp [hw.1]
  | cons a v ih =>
      simp only [List.mem_cons, not_or] at hv
      cases w with
      | nil => simp [Ne.symm hv.1]
      | cons c w =>
          simp only [List.mem_cons, not_or] at hw
          simp [List.cons_prefix_cons, ih hv.2 hw.2, and_assoc]

/-- Words with a separator in front of each and one behind. -/
def separated (q : Char) (ws : List Text) : Text := ws.flatMap (q :: ·) ++ [q]

lemma separated_cons (q : Char) (w : Text) (ws : List Text) :
    separated q (w :: ws) = q :: (w ++ separated q ws) := by
  simp [separated]

/-- A separator stands in front of everything. -/
lemma exists_separated (q : Char) (ws : List Text) : ∃ rest, separated q ws = q :: rest := by
  cases ws with
  | nil => exact ⟨[], rfl⟩
  | cons w ws => exact ⟨_, separated_cons q w ws⟩

variable {q : Char} {v : Text} {vs ws : List Text}

/-- Separated words start with others exactly when the words do. -/
lemma separated_prefix_iff (hvs : ∀ v ∈ vs, q ∉ v) (hws : ∀ w ∈ ws, q ∉ w) :
    separated q vs <+: separated q ws ↔ vs <+: ws := by
  induction vs generalizing ws with
  | nil =>
      obtain ⟨rest, hrest⟩ := exists_separated q ws
      have hnil : separated q [] = [q] := rfl
      simp [hnil, hrest]
  | cons v vs ih =>
      rw [List.forall_mem_cons] at hvs
      obtain ⟨u, hu⟩ := exists_separated q vs
      cases ws with
      | nil =>
          simp only [List.prefix_nil, reduceCtorEq, iff_false]
          intro h
          have hlen := h.length_le
          simp [separated] at hlen
      | cons w ws =>
          rw [List.forall_mem_cons] at hws
          obtain ⟨rest, hrest⟩ := exists_separated q ws
          have hmore := ih hvs.2 hws.2
          rw [hu, hrest, List.cons_prefix_cons, eq_self, true_and] at hmore
          rw [separated_cons, separated_cons, hu, hrest, List.cons_prefix_cons, eq_self, true_and,
            prefix_separator_iff hvs.1 hws.1, hmore, List.cons_prefix_cons]

/-- Separated words occur in others exactly when the words stand there one behind the other. -/
lemma separated_infix_iff (hvs : ∀ v ∈ vs, q ∉ v) (hws : ∀ w ∈ ws, q ∉ w) :
    separated q vs <:+: separated q ws ↔ vs <:+: ws := by
  obtain ⟨u, hu⟩ := exists_separated q vs
  induction ws with
  | nil =>
      cases vs with
      | nil => simp
      | cons v vs =>
          simp only [List.infix_nil, reduceCtorEq, iff_false]
          intro h
          have hlen := h.length_le
          simp [separated] at hlen
  | cons w ws ih =>
      have hall := separated_prefix_iff hvs hws
      rw [List.forall_mem_cons] at hws
      have hmore := ih hws.2
      rw [separated_cons] at hall ⊢
      rw [List.infix_cons_iff, hall, List.infix_cons_iff, ← hmore, hu, infix_append_iff hws.1]

/-- Words joined by a separator, with one in front and one behind. -/
lemma separated_eq_join (hne : ws ≠ []) : separated q ws = q :: (join [q] ws ++ [q]) := by
  obtain ⟨w, ws, rfl⟩ := List.exists_cons_of_ne_nil hne
  simp [separated, join_cons]

/-- **Texts between separators** occur in words between single ones exactly when their pieces
stand there one behind the other; the empty text where there are no words. -/
theorem infix_join_iff (hws : ∀ w ∈ ws, q ∉ w) : q :: (v ++ [q]) <:+: q :: (join [q] ws ++ [q]) ↔
    (v = [] ∧ ws = []) ∨ pieces (· == q) v <:+: ws := by
  have hpieces : ∀ p ∈ pieces (· == q) v, q ∉ p := fun p hp hq => by
    simpa using forall_of_mem_pieces hp q hq
  have hv : separated q (pieces (· == q) v) = q :: (v ++ [q]) := by
    rw [separated_eq_join (pieces_ne_nil _ v), join_pieces]
  cases ws with
  | nil =>
      have hshort : q :: (v ++ [q]) <:+: [q, q] ↔ v = [] := by
        constructor
        · intro h
          have hlen := h.length_le
          simpa using hlen
        · rintro rfl
          exact List.infix_refl _
      simpa [pieces_ne_nil] using hshort
  | cons w ws =>
      rw [← separated_eq_join (List.cons_ne_nil w ws), ← hv, separated_infix_iff hpieces hws]
      simp

/-- A text without a separator is one piece. -/
lemma pieces_of_forall {s : Text} {p : Char → Bool} (h : ∀ c ∈ s, p c = false) : pieces p s = [s] := by
  induction s with
  | nil => rfl
  | cons c s ih =>
      rw [List.forall_mem_cons] at h
      simp [pieces, h.1, ih h.2]

/-! ### Where pieces stand -/

/-- At a separator the pieces of a text are those in front of it and those behind it. -/
lemma pieces_append_cons {p : Char → Bool} {c : Char} (hc : p c = true) (x y : Text) :
    pieces p (x ++ c :: y) = pieces p x ++ pieces p y := by
  induction x with
  | nil => simp [pieces, hc]
  | cons a x ih =>
      rw [List.cons_append, pieces, pieces, ih]
      split_ifs
      · rfl
      · cases hx : pieces p x with
        | nil => exact absurd hx (pieces_ne_nil p x)
        | cons w ws => rfl

/-- Separators alone matter for the pieces of a text. -/
lemma pieces_congr {p q : Char → Bool} {v : Text} (h : ∀ c ∈ v, p c = q c) :
    pieces p v = pieces q v := by
  induction v with
  | nil => rfl
  | cons c v ih =>
      rw [List.forall_mem_cons] at h
      rw [pieces, pieces, h.1, ih h.2]

/-- A text that stands in another with a separator, or nothing, on either side. -/
def StandsIn (p : Char → Bool) (w v : Text) : Prop :=
  ∃ a b, v = a ++ (w ++ b) ∧ (∀ c ∈ a.getLast?, p c = true) ∧ ∀ c ∈ b.head?, p c = true

/-- With more separators a text still stands where it stood. -/
lemma StandsIn.mono {p q : Char → Bool} {w v : Text} (hpq : ∀ c, p c = true → q c = true)
    (h : StandsIn p w v) : StandsIn q w v := by
  obtain ⟨a, b, hv, ha, hb⟩ := h
  exact ⟨a, b, hv, fun c hc => hpq c (ha c hc), fun c hc => hpq c (hb c hc)⟩

/-- What stands behind a separator stands in the whole text. -/
lemma StandsIn.behind {p : Char → Bool} {c : Char} {w x y : Text} (hc : p c = true)
    (h : StandsIn p w y) : StandsIn p w (x ++ c :: y) := by
  obtain ⟨a, b, rfl, ha, hb⟩ := h
  refine ⟨x ++ c :: a, b, by simp, fun e he => ?_, hb⟩
  cases a with
  | nil => simp_all
  | cons e' a => exact ha e (by simpa using he)

/-- Every piece of a text stands in it. -/
lemma standsIn_of_mem_pieces {p : Char → Bool} {w v : Text} (h : w ∈ pieces p v) :
    StandsIn p w v := by
  -- The induction takes the text apart at its first separator.
  induction hn : v.length using Nat.strong_induction_on generalizing v with
  | _ n ih =>
      subst hn
      cases hfirst : v.find? p with
      | none =>
          have hv : ∀ c ∈ v, p c = false := by simpa using hfirst
          obtain rfl : w = v := by simpa [pieces_of_forall hv] using h
          exact ⟨[], [], by simp, by simp, by simp⟩
      | some c =>
          obtain ⟨hc, x, y, rfl, hx⟩ := List.find?_eq_some_iff_append.mp hfirst
          have hfree : ∀ c ∈ x, p c = false := fun e he => by simpa using hx e he
          rw [pieces_append_cons hc, pieces_of_forall hfree, List.singleton_append,
            List.mem_cons] at h
          rcases h with rfl | h
          · exact ⟨[], c :: y, rfl, by simp, by simpa using hc⟩
          · exact (ih y.length (by simp; omega) h rfl).behind hc

/-- **The pieces of a text** are the texts without separators that stand in it. -/
theorem mem_pieces_iff {p : Char → Bool} {w v : Text} :
    w ∈ pieces p v ↔ (∀ c ∈ w, p c = false) ∧ StandsIn p w v := by
  refine ⟨fun h => ⟨forall_of_mem_pieces h, standsIn_of_mem_pieces h⟩, ?_⟩
  rintro ⟨hw, a, b, rfl, ha, hb⟩
  -- What is in front of the text ends at a separator, and what is behind it starts at one.
  have hfront : w ∈ pieces p (w ++ b) := by
    cases b with
    | nil => simp [pieces_of_forall hw]
    | cons c b =>
        rw [pieces_append_cons (hb c rfl), pieces_of_forall hw]
        exact List.mem_append_left _ (List.mem_singleton_self w)
  rcases List.eq_nil_or_concat' a with rfl | ⟨a, c, rfl⟩
  · exact hfront
  · have hc : p c = true := ha c (by simp)
    rw [List.append_assoc, List.singleton_append, pieces_append_cons hc]
    exact List.mem_append_right _ hfront

end Locator.Text

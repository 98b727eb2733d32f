/-
Words of expressions

* `holdsFrom`: a check at each place of a text, inside and outside of literals;
* `HasReadableWords`, `HasPlainWords`: expressions with ASCII names whose literals need no escapes,
  and those of them without `position()`, with `hasReadableWords_iff`, `hasPlainWords_iff`: both
  can be told from one character after the other;
* `HasReadableWords.isOrdinary`, `HasPlainWords.isOrdinary`: such expressions are ordinary.
-/
import Locator.Proofs.Convert.Ordinary
import Locator.Proofs.XPath.Evaluate

namespace Locator.XPath

open Text Css

variable {P : Option Char → Text → Bool} {m : Option Char} {s x : Text}

/-! ### Checks at each place -/

/-- Does a check hold at each place of a text, if the mark `m` is open in front of it? -/
def holdsFrom (P : Option Char → Text → Bool) (m : Option Char) : Text → Bool
  | [] => true
  | c :: r => P m (c :: r) && holdsFrom P (nextMark m c) r

lemma holdsFrom_iff : holdsFrom P m s = true ↔
    ∀ u c w, s = u ++ c :: w → P (openMark m u) (c :: w) = true := by
  induction s generalizing m with
  | nil => simp [holdsFrom]
  | cons c r ih =>
      rw [holdsFrom, Bool.and_eq_true, ih]
      constructor
      · rintro ⟨hc, hr⟩ u c' w heq
        cases u with
        | nil =>
            rw [List.nil_append] at heq
            exact heq ▸ hc
        | cons b u =>
            obtain ⟨rfl, htail⟩ := List.cons.inj heq
            exact hr u c' w htail
      · exact fun h => ⟨h [] c r rfl, fun u c' w heq => h (c :: u) c' w (heq ▸ rfl)⟩

/-! ### Readable words -/

/-- **Readable words**: names are ASCII, and literals hold no backslashes, no line breaks and no
runs of slashes that are shortened. -/
structure HasReadableWords (x : Text) : Prop where
  names : ∀ u c w, x = u ++ c :: w → IsClosed u → Text.isNameChar c = true → c.toNat < 128
  unescaped : ∀ u c w, x = u ++ c :: w → ¬ IsClosed u → c ≠ '\\' ∧ isBreak c = false
  short : ∀ u w, x = u ++ (slashes ++ w) → IsClosed u

/-- What may stand at a place where the mark `m` is open. -/
def isReadableAt (m : Option Char) (s : Text) : Bool :=
  match m with
  | none => s.head?.all fun c => !Text.isNameChar c || decide (c.toNat < 128)
  | some _ => s.head?.all (fun c => c != '\\' && !isBreak c) && !slashes.isPrefixOf s

/-- Whether the words of a text are readable can be told from one character after the other. -/
lemma hasReadableWords_iff : HasReadableWords x ↔ holdsFrom isReadableAt none x = true := by
  rw [holdsFrom_iff]
  constructor
  · intro h u c w heq
    cases hm : openMark none u with
    | none =>
        have hname := h.names u c w heq hm
        simp only [isReadableAt, List.head?_cons, Option.all_some, Bool.or_eq_true,
          Bool.not_eq_true', decide_eq_true_eq]
        by_cases hc : Text.isNameChar c = true
        · exact .inr (hname hc)
        · exact .inl (Bool.eq_false_iff.mpr hc)
    | some q =>
        have hopen : ¬ IsClosed u := by simp [IsClosed, hm]
        have hshort : ¬ slashes <+: c :: w := by
          rintro ⟨r, hr⟩
          exact hopen (h.short u r (by rw [heq, hr]))
        obtain ⟨hslash, hbreak⟩ := h.unescaped u c w heq hopen
        simp only [isReadableAt, List.head?_cons, Option.all_some, Bool.and_eq_true, bne_iff_ne,
          Bool.not_eq_true', ← Bool.not_eq_true, List.isPrefixOf_iff_prefix]
        exact ⟨⟨hslash, by simpa using hbreak⟩, hshort⟩
  · intro h
    have hopen : ∀ u c w, x = u ++ c :: w → ¬ IsClosed u →
        (c ≠ '\\' ∧ isBreak c = false) ∧ ¬ slashes <+: c :: w := by
      intro u c w heq hu
      have hplain := h u c w heq
      obtain ⟨q, hq⟩ := Option.ne_none_iff_exists'.mp hu
      rw [hq] at hplain
      simp only [isReadableAt, List.head?_cons, Option.all_some, Bool.and_eq_true, bne_iff_ne,
        Bool.not_eq_true', ← Bool.not_eq_true, List.isPrefixOf_iff_prefix] at hplain
      exact ⟨⟨hplain.1.1, by simpa using hplain.1.2⟩, hplain.2⟩
    refine ⟨fun u c w heq hu hc => ?_, fun u c w heq hu => (hopen u c w heq hu).1, fun u w heq => ?_⟩
    · have hplain := h u c w heq
      rw [show openMark none u = none from hu] at hplain
      simp only [isReadableAt, List.head?_cons, Option.all_some, hc, Bool.not_true,
        Bool.false_or, decide_eq_true_eq] at hplain
      exact hplain
    · by_contra hu
      exact (hopen u '/' ('/' :: '/' :: w) heq hu).2 ⟨w, rfl⟩

instance (x : Text) : Decidable (HasReadableWords x) :=
  decidable_of_iff _ hasReadableWords_iff.symm

/-- What an expression holds outside of literals is ASCII if its names are. -/
lemma HasReadableWords.isOrdinary (h : HasReadableWords x) (hx : isExpression x = .ok true) :
    IsOrdinary true x := by
  obtain ⟨hxml, e, he⟩ := isExpression_iff.mp hx
  have hascii : ∀ u c w, x = u ++ c :: w → IsClosed u → c.toNat < 128 := fun u c w heq hu =>
    ((outside_of_read? he).chars u c w heq hu).elim id (h.names u c w heq hu)
  exact ⟨hxml, hascii, fun hplaced => absurd hplaced (by decide), h.unescaped, h.short⟩

/-! ### Plain words -/

/-- **Plain words**: names are ASCII, there is no `position()`, and literals hold no backslashes,
no line breaks and no runs of slashes that are shortened. -/
structure HasPlainWords (x : Text) : Prop where
  names : ∀ u c w, x = u ++ c :: w → IsClosed u → Text.isNameChar c = true → c.toNat < 128
  unplaced : ∀ u w, x = u ++ ("position()".toList ++ w) → ¬ IsClosed u
  unescaped : ∀ u c w, x = u ++ c :: w → ¬ IsClosed u → c ≠ '\\' ∧ isBreak c = false
  short : ∀ u w, x = u ++ (slashes ++ w) → IsClosed u

lemma HasPlainWords.isReadable (h : HasPlainWords x) : HasReadableWords x :=
  ⟨h.names, h.unescaped, h.short⟩

/-- Does no `position()` stand outside of literals, where the mark `m` is open? -/
def isUnplacedAt (m : Option Char) (s : Text) : Bool :=
  m.isSome || !"position()".toList.isPrefixOf s

/-- Whether the words of a text are plain can be told from one character after the other. -/
lemma hasPlainWords_iff : HasPlainWords x ↔
    holdsFrom isReadableAt none x = true ∧ holdsFrom isUnplacedAt none x = true := by
  rw [← hasReadableWords_iff, holdsFrom_iff]
  constructor
  · refine fun h => ⟨h.isReadable, fun u c w heq => ?_⟩
    by_contra hplaced
    simp only [isUnplacedAt, Bool.or_eq_true, Option.isSome_iff_ne_none, not_or, not_not,
      Bool.not_eq_true', Bool.not_eq_false, List.isPrefixOf_iff_prefix] at hplaced
    obtain ⟨hu, r, hr⟩ := hplaced
    exact h.unplaced u r (by rw [heq, hr]) hu
  · rintro ⟨h, hplaced⟩
    refine ⟨h.names, fun u w heq hu => ?_, h.unescaped, h.short⟩
    have hfirst := hplaced u 'p' ("osition()".toList ++ w) heq
    rw [show openMark none u = none from hu, isUnplacedAt, Option.isSome_none, Bool.false_or,
      Bool.not_eq_true', ← Bool.not_eq_true, List.isPrefixOf_iff_prefix] at hfirst
    exact hfirst ⟨w, rfl⟩

instance (x : Text) : Decidable (HasPlainWords x) := decidable_of_iff _ hasPlainWords_iff.symm

lemma HasPlainWords.isOrdinary (h : HasPlainWords x) (hx : isExpression x = .ok true) :
    IsOrdinary false x :=
  { h.isReadable.isOrdinary hx with unplaced := fun _ => h.unplaced }

end Locator.XPath

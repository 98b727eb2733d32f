/-
Tidy texts

* `tidy`: a text with its runs of slashes shortened and without the XML blanks at its end, and
  `tidyFrom`: the same behind slashes;
* `isSolid`: what is kept wherever it stands, with `tidy_cons`, `tidy_append_cons`: a tidy text
  behind such characters, and `exists_cons_of_tidy`: the first character of a tidy text;
* `blanks_tidy`, `takeWhile_tidy`, `dropWhile_tidy`: blanks and runs of characters are passed
  over in both texts alike;
* `plainName?_tidy`, `sign?_tidy`, `minusSigns_tidy`, `read_tidy`, `startsPrimary?_tidy`: **names,
  signs and numbers** are the same in both texts.
-/
import Locator.Proofs.XPath.Normal
import Locator.Proofs.XPath.Token

namespace Locator.XPath

open Text

variable {c d q : Char} {k : ℕ} {r s t u v w : Text} {p : Char → Bool}

/-! ### Tidy texts -/

/-- A text behind `run` slashes with its runs of slashes shortened to two, and without the XML
blanks at its end. -/
def tidyFrom (run : ℕ) (s : Text) : Text := squeezeFrom run (dropEnd isSpace s)

/-- A text with its runs of slashes shortened to two, and without the XML blanks at its end. -/
def tidy (s : Text) : Text := tidyFrom 0 s

/-- Neither a slash nor an XML blank. -/
def isSolid (c : Char) : Bool := c != '/' && !isSpace c

lemma isSolid_iff : isSolid c = true ↔ c ≠ '/' ∧ isSpace c = false := by
  simp [isSolid]

lemma isSolid_of_isNameChar (h : isNameChar c = true) : isSolid c = true :=
  isSolid_iff.mpr ⟨ne_of_isNameChar h rfl, isSpace_of_isNameChar h⟩

lemma isSolid_of_isDigit (h : c.isDigit = true) : isSolid c = true :=
  isSolid_of_isNameChar (by simp [isNameChar, h])

@[simp]
lemma tidy_nil : tidy [] = [] := rfl

/-- Before the end nothing is dropped. -/
lemma tidyFrom_of_isSpace (hc : isSpace c = false) (k : ℕ) (s : Text) :
    tidyFrom k (c :: s) = squeezeFrom k (c :: dropEnd isSpace s) := by
  have h := dropEnd_append isSpace [c] s
  have hc' : dropEnd isSpace [c] = [c] := dropEnd_eq_self (by simpa using hc)
  rw [hc', List.singleton_append, List.singleton_append] at h
  rw [tidyFrom, h]
  split_ifs with hs
  · rw [hs]
  · rfl

lemma tidy_cons (hc : isSolid c = true) (s : Text) : tidy (c :: s) = c :: tidy s := by
  obtain ⟨hslash, hspace⟩ := isSolid_iff.mp hc
  rw [tidy, tidyFrom_of_isSpace hspace]
  exact squeeze_cons hslash _

lemma tidy_slash (s : Text) : tidy ('/' :: s) = '/' :: tidyFrom 1 s := by
  rw [tidy, tidyFrom_of_isSpace rfl]
  rfl

lemma tidyFrom_one_slash (s : Text) : tidyFrom 1 ('/' :: s) = '/' :: tidyFrom 2 s := by
  rw [tidyFrom_of_isSpace rfl]
  rfl

lemma tidyFrom_two_slash (s : Text) : tidyFrom 2 ('/' :: s) = tidyFrom 2 s := by
  rw [tidyFrom_of_isSpace rfl]
  rfl

/-- A blank stays unless nothing but blanks follows. -/
lemma tidy_space (hc : isSpace c = true) (s : Text) :
    tidy (c :: s) = if tidy s = [] then [] else c :: tidy s := by
  have hslash : c ≠ '/' := by
    rintro rfl
    cases hc
  have h := dropEnd_append isSpace [c] s
  have hc' : dropEnd isSpace [c] = [] := by simp [dropEnd, hc]
  have hnil : squeezeFrom 0 (dropEnd isSpace s) = [] ↔ dropEnd isSpace s = [] :=
    squeeze_eq_nil_iff
  rw [hc', List.singleton_append] at h
  rw [tidy, tidy, tidyFrom, tidyFrom, h]
  simp only [hnil]
  split_ifs
  · rfl
  · exact squeeze_cons hslash _

/-- What stands in front of a solid character is shortened by itself. -/
lemma tidy_append_cons (hc : isSolid c = true) (u s : Text) :
    tidy (u ++ c :: s) = squeeze u ++ c :: tidy s := by
  obtain ⟨hslash, hspace⟩ := isSolid_iff.mp hc
  have h := dropEnd_append isSpace (u ++ [c]) s
  have hc' : dropEnd isSpace (u ++ [c]) = u ++ [c] := dropEnd_eq_self (by simpa using hspace)
  have hdrop : dropEnd isSpace (u ++ c :: s) = u ++ c :: dropEnd isSpace s := by
    rw [hc', List.append_assoc, List.append_assoc, List.singleton_append,
      List.singleton_append] at h
    rw [h]
    split_ifs with hs
    · rw [hs]
    · rfl
  rw [tidy, tidyFrom, hdrop]
  exact squeezeFrom_append_cons hslash 0 u _

/-! ### First characters -/

/-- The first character stays, unless it belongs to a run that is long enough already. -/
lemma exists_cons_of_tidyFrom (hk : k < 2) (h : tidyFrom k s = c :: t) : ∃ r, s = c :: r := by
  have hhead : ∀ u : Text, (squeezeFrom k u).head? = u.head? := by
    intro u
    cases u with
    | nil => rfl
    | cons d u =>
        rw [squeezeFrom, if_pos hk]
        split_ifs with hd
        · rw [eq_of_beq hd]
          rfl
        · rfl
  have hdrop : (dropEnd isSpace s).head? = some c := by
    rw [← hhead, ← tidyFrom, h]
    rfl
  obtain ⟨u, hu⟩ := List.rdropWhile_prefix isSpace s
  rw [← dropEnd_eq] at hu
  obtain ⟨r, hr⟩ := List.head?_eq_some_iff.mp hdrop
  exact ⟨r ++ u, by rw [← hu, hr, List.cons_append]⟩

lemma exists_cons_of_tidy (h : tidy s = c :: t) : ∃ r, s = c :: r :=
  exists_cons_of_tidyFrom Nat.zero_lt_two h

/-- Behind the ends the first character stays. -/
lemma tidy_cons_cases (c : Char) (s : Text) :
    isSpace c = true ∧ tidy (c :: s) = [] ∨ ∃ t, tidy (c :: s) = c :: t := by
  cases h : tidy (c :: s) with
  | nil =>
      refine .inl ⟨?_, rfl⟩
      by_contra hc
      rw [tidy, tidyFrom_of_isSpace (Bool.eq_false_of_not_eq_true hc)] at h
      exact List.cons_ne_nil _ _ (squeeze_eq_nil_iff.mp h)
  | cons d t =>
      obtain ⟨r, hr⟩ := exists_cons_of_tidy h
      exact .inr ⟨t, by rw [(List.cons.inj hr).1]⟩

lemma exists_tidy_cons (hc : isSpace c = false) (s : Text) : ∃ t, tidy (c :: s) = c :: t :=
  (tidy_cons_cases c s).resolve_left fun h => by simp [hc] at h

/-- A tidy text does not start with what the text does not start with. -/
lemma tidy_ne (h : ∀ r, s ≠ c :: r) (t : Text) : tidy s ≠ c :: t := fun ht => by
  obtain ⟨r, hr⟩ := exists_cons_of_tidy ht
  exact h r hr

lemma tidy_ne_cons (hc : isSolid c = true) (h : ∀ r, s ≠ c :: d :: r) (t : Text) :
    tidy s ≠ c :: d :: t := fun ht => by
  obtain ⟨r, rfl⟩ := exists_cons_of_tidy ht
  rw [tidy_cons hc] at ht
  obtain ⟨r', rfl⟩ := exists_cons_of_tidy (List.cons.inj ht).2
  exact h r' rfl

lemma tidy_ne_slashes (h : ∀ r, s ≠ '/' :: '/' :: r) (t : Text) : tidy s ≠ '/' :: '/' :: t :=
  fun ht => by
    obtain ⟨r, rfl⟩ := exists_cons_of_tidy ht
    rw [tidy_slash] at ht
    obtain ⟨r', rfl⟩ := exists_cons_of_tidyFrom Nat.one_lt_two (List.cons.inj ht).2
    exact h r' rfl

/-- Another character than a slash ends the run of slashes in front of it. -/
lemma tidyFrom_of_head (h : ∀ r, s ≠ '/' :: r) (k : ℕ) : tidyFrom k s = tidy s := by
  rw [tidy, tidyFrom, tidyFrom]
  cases hs : dropEnd isSpace s with
  | nil => rfl
  | cons c t =>
      have hc : c ≠ '/' := by
        rintro rfl
        obtain ⟨u, hu⟩ := List.rdropWhile_prefix isSpace s
        rw [← dropEnd_eq, hs] at hu
        exact h _ hu.symm
      exact (squeezeFrom_append_cons hc k [] t).trans (squeeze_cons hc t).symm

lemma tidy_slash_of_head (h : ∀ r, s ≠ '/' :: r) : tidy ('/' :: s) = '/' :: tidy s := by
  rw [tidy_slash, tidyFrom_of_head h]

lemma tidy_slashes_of_head (h : ∀ r, s ≠ '/' :: r) :
    tidy ('/' :: '/' :: s) = '/' :: '/' :: tidy s := by
  rw [tidy_slash, tidyFrom_one_slash, tidyFrom_of_head h]

/-! ### Blanks and runs of characters -/

/-- Blanks are passed over in both texts alike. -/
@[simp]
lemma blanks_tidy (s : Text) : blanks (tidy s) = tidy (blanks s) := by
  induction s with
  | nil => rfl
  | cons c s ih =>
      by_cases hc : isSpace c
      · have hb : ∀ r, blanks (c :: r) = blanks r := fun r => by simp [blanks, hc]
        rw [tidy_space hc, hb, ← ih]
        split_ifs with hs
        · rw [hs]
        · exact hb _
      · have hc : isSpace c = false := Bool.eq_false_of_not_eq_true hc
        obtain ⟨t, ht⟩ := exists_tidy_cons hc s
        rw [blanks_cons hc, ht, blanks_cons hc]

lemma isSpace_of_blanks (h : blanks s = c :: r) : isSpace c = false := by
  have hhead := List.head?_dropWhile_not isSpace s
  rw [← blanks, h] at hhead
  simpa using hhead

section Runs

variable (hp : ∀ c, p c = true → isSolid c = true)
include hp

lemma takeWhile_tidy (s : Text) : (tidy s).takeWhile p = s.takeWhile p := by
  induction s with
  | nil => rfl
  | cons c s ih =>
      by_cases hc : p c
      · rw [tidy_cons (hp c hc), List.takeWhile_cons_of_pos hc, List.takeWhile_cons_of_pos hc, ih]
      · rw [List.takeWhile_cons_of_neg hc]
        obtain ⟨-, h⟩ | ⟨t, h⟩ := tidy_cons_cases c s
        · rw [h, List.takeWhile_nil]
        · rw [h, List.takeWhile_cons_of_neg hc]

lemma dropWhile_tidy (s : Text) : (tidy s).dropWhile p = tidy (s.dropWhile p) := by
  induction s with
  | nil => rfl
  | cons c s ih =>
      by_cases hc : p c
      · rw [tidy_cons (hp c hc), List.dropWhile_cons_of_pos hc, List.dropWhile_cons_of_pos hc, ih]
      · rw [List.dropWhile_cons_of_neg hc]
        obtain ⟨-, h⟩ | ⟨t, h⟩ := tidy_cons_cases c s
        · rw [h, List.dropWhile_nil]
        · rw [h, List.dropWhile_cons_of_neg hc]

end Runs

/-! ### Names and signs -/

/-- Names are read from both texts alike. -/
lemma plainName?_tidy (s : Text) :
    plainName? (tidy s) = (plainName? s).map fun x => (x.1, tidy x.2) := by
  cases s with
  | nil => rfl
  | cons c s =>
      by_cases hc : isNameStart c
      · rw [tidy_cons (isSolid_of_isNameChar (isNameChar_of_isNameStart hc))]
        simp only [plainName?, hc, if_true, Option.map_some,
          takeWhile_tidy fun _ => isSolid_of_isNameChar,
          dropWhile_tidy fun _ => isSolid_of_isNameChar]
      · obtain ⟨-, h⟩ | ⟨t, h⟩ := tidy_cons_cases c s <;> simp [plainName?, hc, h]

lemma tidy_eq_append_iff (hw : ∀ c ∈ w, isSolid c = true) :
    tidy s = w ++ t ↔ ∃ r, s = w ++ r ∧ tidy r = t := by
  induction w generalizing s with
  | nil => simp
  | cons c w ih =>
      rw [List.forall_mem_cons] at hw
      constructor
      · intro h
        obtain ⟨r, rfl⟩ := exists_cons_of_tidy h
        rw [tidy_cons hw.1] at h
        obtain ⟨r', rfl, hr'⟩ := (ih hw.2).mp (List.cons.inj h).2
        exact ⟨r', rfl, hr'⟩
      · rintro ⟨r, rfl, rfl⟩
        rw [List.cons_append, tidy_cons hw.1, (ih hw.2).mpr ⟨r, rfl, rfl⟩]
        rfl

lemma behind?_tidy (hw : ∀ c ∈ w, isSolid c = true) (s : Text) :
    behind? w (tidy s) = (behind? w s).map tidy := by
  ext t
  simp only [behind?_eq_some, Option.map_eq_some_iff, tidy_eq_append_iff hw]

/-- Signs without slashes and blanks are read from both texts alike. -/
lemma sign?_tidy {signs : List (Text × Operator)} (h : ∀ x ∈ signs, ∀ c ∈ x.1, isSolid c = true)
    (s : Text) : sign? signs (tidy s) = (sign? signs s).map fun x => (x.1, tidy x.2) := by
  rw [sign?, sign?]
  induction signs with
  | nil => rfl
  | cons x signs ih =>
      rw [List.forall_mem_cons] at h
      rw [List.findSome?_cons, List.findSome?_cons, behind?_tidy h.1]
      cases behind? x.1 s with
      | none => exact ih h.2
      | some r => rfl

/-- Minus signs are read from both texts alike. -/
lemma minusSigns_tidy (any odd : Bool) (s : Text) :
    minusSigns any odd (tidy s) = ((minusSigns any odd s).1, (minusSigns any odd s).2.1,
      tidy (minusSigns any odd s).2.2) := by
  induction s generalizing any odd with
  | nil => rfl
  | cons c s ih =>
      by_cases hminus : c = '-'
      · subst hminus
        rw [tidy_cons rfl]
        exact ih true !odd
      by_cases hspace : (any && isSpace c) = true
      · obtain ⟨rfl, hc⟩ := Bool.and_eq_true_iff.mp hspace
        have hs : minusSigns true odd (c :: s) = minusSigns true odd s := by
          simp [minusSigns, hminus, hc]
        rw [hs, ← ih, tidy_space hc]
        split_ifs with hnil
        · rw [hnil]
        · simp [minusSigns, hminus, hc]
      · have hstop : ∀ t, minusSigns any odd (c :: t) = (any, odd, c :: t) := by
          intro t
          rw [minusSigns, if_neg (by simpa using hminus), if_neg hspace]
        obtain ⟨-, h⟩ | ⟨t, h⟩ := tidy_cons_cases c s
        · rw [hstop, h, minusSigns]
        · rw [hstop, h, hstop]

/-! ### Numbers -/

lemma readExponent?_tidy (s : Text) :
    Number.readExponent? (tidy s) = (Number.readExponent? s).map fun x => (x.1, tidy x.2) := by
  have hdigits : ∀ r, (tidy r).takeWhile Char.isDigit = r.takeWhile Char.isDigit :=
    takeWhile_tidy fun _ => isSolid_of_isDigit
  have hrest : ∀ r, (tidy r).dropWhile Char.isDigit = tidy (r.dropWhile Char.isDigit) :=
    dropWhile_tidy fun _ => isSolid_of_isDigit
  cases s with
  | nil => rfl
  | cons c s =>
      by_cases hc : (c == 'e' || c == 'E') = true
      · have hsolid : isSolid c = true := by
          simp only [Bool.or_eq_true, beq_iff_eq] at hc
          rcases hc with rfl | rfl <;> rfl
        have hunsigned : ∀ t, (∀ r, t ≠ '-' :: r) → (∀ r, t ≠ '+' :: r) →
            Number.readExponent? (c :: t) =
              some ((Number.ofExponent (t.takeWhile Char.isDigit) : ℤ),
                t.dropWhile Char.isDigit) := by
          intro t hminus hplus
          simp [Number.readExponent?, hc]
        rw [tidy_cons hsolid]
        by_cases hminus : ∃ r, s = '-' :: r
        · obtain ⟨r, rfl⟩ := hminus
          rw [tidy_cons rfl]
          simp [Number.readExponent?, hc, hdigits, hrest]
        by_cases hplus : ∃ r, s = '+' :: r
        · obtain ⟨r, rfl⟩ := hplus
          rw [tidy_cons rfl]
          simp [Number.readExponent?, hc, hdigits, hrest]
        rw [not_exists] at hminus hplus
        rw [hunsigned s hminus hplus, hunsigned _ (tidy_ne hminus) (tidy_ne hplus), hdigits, hrest]
        rfl
      · obtain ⟨-, h⟩ | ⟨t, h⟩ := tidy_cons_cases c s <;> simp [Number.readExponent?, hc, h]

lemma readFraction?_tidy (s : Text) :
    Number.readFraction? (tidy s) = (Number.readFraction? s).map fun x => (x.1, tidy x.2) := by
  unfold Number.readFraction?
  split
  · next h =>
      obtain ⟨r, rfl⟩ := exists_cons_of_tidy h
      rw [tidy_cons rfl] at h
      obtain rfl := (List.cons.inj h).2
      simp [takeWhile_tidy fun _ => isSolid_of_isDigit, dropWhile_tidy fun _ => isSolid_of_isDigit]
  · next h =>
      split
      · next r => exact absurd (tidy_cons rfl r) (h _)
      · rfl

/-- Numbers are read from both texts alike. -/
lemma read_tidy (s : Text) :
    Number.read (tidy s) = ((Number.read s).1, tidy (Number.read s).2) := by
  simp only [Number.read, takeWhile_tidy fun _ => isSolid_of_isDigit,
    dropWhile_tidy fun _ => isSolid_of_isDigit, readFraction?_tidy]
  cases Number.readFraction? (s.dropWhile Char.isDigit) with
  | none =>
      simp only [Option.map_none, readExponent?_tidy]
      cases Number.readExponent? (s.dropWhile Char.isDigit) <;> rfl
  | some x =>
      simp only [Option.map_some, readExponent?_tidy]
      cases Number.readExponent? x.2 <;> rfl

/-! ### What starts an operand -/

lemma startsHere_tidy (s : Text) : Number.startsHere (tidy s) = Number.startsHere s := by
  have hspace : ∀ {c}, isSpace c = true → c.isDigit = false := by
    intro c hc
    rw [Bool.eq_false_iff]
    intro hdigit
    have hsolid := isSolid_of_isDigit hdigit
    simp [isSolid, hc] at hsolid
  cases s with
  | nil => rfl
  | cons c s =>
      by_cases hc : c = '.'
      · subst hc
        rw [tidy_cons rfl]
        cases s with
        | nil => rfl
        | cons d s =>
            obtain ⟨hd, h⟩ | ⟨t, h⟩ := tidy_cons_cases d s
            · rw [h]
              exact (hspace hd).symm
            · rw [h]
              rfl
      · have hstart : ∀ t, Number.startsHere (c :: t) = c.isDigit := by
          intro t
          unfold Number.startsHere
          split
          · next heq => exact absurd (List.cons.inj heq).1 hc
          · next heq => rw [(List.cons.inj heq).1]
          · next heq => cases heq
        obtain ⟨hd, h⟩ | ⟨t, h⟩ := tidy_cons_cases c s
        · rw [h, hstart]
          exact (hspace hd).symm
        · rw [h, hstart, hstart]

/-- A call starts in both texts alike, if no blanks are in front. -/
lemma startsCall?_tidy (hs : blanks s = s) : startsCall? (tidy s) = startsCall? s := by
  cases s with
  | nil => rfl
  | cons c s =>
      by_cases hc : (isNameStart c || c == ':') = true
      · have hsolid : isSolid c = true := by
          rw [Bool.or_eq_true, beq_iff_eq] at hc
          rcases hc with hc | rfl
          · exact isSolid_of_isNameChar (isNameChar_of_isNameStart hc)
          · rfl
        have hname : ∀ d, (isNameChar d || d == ':') = true → isSolid d = true := by
          intro d hd
          rw [Bool.or_eq_true, beq_iff_eq] at hd
          rcases hd with hd | rfl
          · exact isSolid_of_isNameChar hd
          · rfl
        rw [tidy_cons hsolid]
        simp only [startsCall?, hc, if_true, takeWhile_tidy hname, dropWhile_tidy hname,
          blanks_tidy]
        split
        · next h =>
            obtain ⟨r, hr⟩ := exists_cons_of_tidy h
            simp [hr]
        · next h =>
            split
            · next r hr => exact absurd ((congrArg tidy hr).trans (tidy_cons rfl r)) (h _)
            · rfl
      · obtain ⟨t, h⟩ := exists_tidy_cons (isSpace_of_blanks hs) s
        simp [h, startsCall?, hc]

/-- An operand that is no path of steps alone starts in both texts alike, if no blanks are in
front. -/
lemma startsPrimary?_tidy (hs : blanks s = s) : startsPrimary? (tidy s) = startsPrimary? s := by
  cases s with
  | nil => rfl
  | cons c s =>
      have hcall := startsCall?_tidy hs
      have hnumber := startsHere_tidy (c :: s)
      obtain ⟨t, h⟩ := exists_tidy_cons (isSpace_of_blanks hs) s
      rw [h] at hcall hnumber ⊢
      simp only [startsPrimary?, hcall, hnumber]

end Locator.XPath

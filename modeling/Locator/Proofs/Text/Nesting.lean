/-
Texts that scanners pass over

* `isInert`: the characters that mean nothing to scanners, with
  `isInert_of_isIdentChar` and `isInert_of_isDigit`: those of names and of numbers;
* `Scan`: the brackets that a scanner counts and what it looks for, and `Scan.Passes`: a
  text in which it does not find it;
* `splitTopFrom_passes`, `splitTop_join`: **such a text lies in one part**.
-/
import Locator.Proofs.Text.Basic
import Locator.Text.TopLevel

namespace Locator.Text

variable {s u v sep : Text} {c q : Char}

/-! ### Characters that mean nothing -/

/-- The marks of selectors and of paths. -/
def marks : Text := "\"'[]()<>,|/#.:*=@".toList

/-- A character that means nothing to scanners. -/
def isInert (c : Char) : Bool := !isBlank c && !marks.contains c

lemma isBlank_of_isInert (h : isInert c = true) : isBlank c = false := by
  simp only [isInert, Bool.and_eq_true, Bool.not_eq_true'] at h
  exact h.1

lemma ne_of_isInert {x : Char} (h : isInert c = true) (hx : isInert x = false) :
    c ≠ x := by
  rintro rfl
  simp [h] at hx

/-- A property of all ASCII characters, checked one by one. -/
lemma forall_ascii {P : Char → Prop} (h : ∀ n < 128, P (Char.ofNat n)) (hc : c.toNat < 128) :
    P c := by
  have hn := h c.toNat hc
  rwa [Char.ofNat_toNat] at hn

/-- The code points of the blanks beyond ASCII. -/
def blankCodes : List ℕ :=
  [0x85, 0xA0, 0x1680, 0x2000, 0x2001, 0x2002, 0x2003, 0x2004, 0x2005, 0x2006, 0x2007, 0x2008,
    0x2009, 0x200A, 0x2028, 0x2029, 0x202F, 0x205F, 0x3000]

lemma toNat_mem_blankCodes (h : isBlank c = true) (hc : 128 ≤ c.toNat) :
    c.toNat ∈ blankCodes := by
  simp only [isBlank, Bool.or_eq_true, Bool.and_eq_true, decide_eq_true_eq, beq_iff_eq] at h
  simp only [blankCodes, List.mem_cons, List.not_mem_nil, or_false]
  omega

/-- Beyond ASCII only blanks are marks. -/
lemma isInert_of_not_mem (hc : 128 ≤ c.toNat) (h : c.toNat ∉ blankCodes) : isInert c = true := by
  have hblank : isBlank c = false := by
    rw [Bool.eq_false_iff]
    exact fun hb => h (toNat_mem_blankCodes hb hc)
  have hmarks : c ∉ marks := by
    intro hm
    have hall : ∀ x ∈ marks, x.toNat < 128 := by decide
    exact absurd (hall c hm) (by omega)
  simp [isInert, hblank, hmarks]

/-- A character in ranges beyond ASCII that hold no blank. -/
lemma isInert_of_inRanges {ranges : List (ℕ × ℕ)} (hc : 128 ≤ c.toNat)
    (h : inRanges ranges c.toNat = true)
    (hr : (blankCodes.all fun n => !inRanges ranges n) = true) : isInert c = true := by
  refine isInert_of_not_mem hc fun hm => ?_
  have := List.all_eq_true.mp hr _ hm
  simp [h] at this

/-- The characters of names mean nothing. -/
lemma isInert_of_isIdentChar (h : isIdentChar c = true) : isInert c = true := by
  by_cases hc : c.toNat < 128
  · exact forall_ascii (P := fun c => isIdentChar c = true → isInert c = true)
      (by decide +kernel) hc h
  · have hhyphen : c ≠ '-' := by
      rintro rfl
      exact hc (by decide)
    simp only [isIdentChar, isWord, hc, if_false, Bool.or_eq_true, beq_iff_eq, hhyphen,
      or_false] at h
    exact isInert_of_inRanges (by omega) h (by decide +kernel)

/-- Digits mean nothing. -/
lemma isInert_of_isDigit (h : isDigit c = true) : isInert c = true := by
  by_cases hc : c.toNat < 128
  · exact forall_ascii (P := fun c => isDigit c = true → isInert c = true)
      (by decide +kernel) hc h
  · simp only [isDigit, hc, if_false] at h
    exact isInert_of_inRanges (by omega) h (by decide +kernel)

/-! ### Scanners -/

/-- The brackets that a scanner counts, and the character that it looks for at a depth of
brackets. -/
structure Scan where
  opening : Text
  closing : Text
  stop : Char
  depth : ℕ
  deriving DecidableEq

namespace Scan

variable {w : Scan} {n n' n'' : Nesting} {k : ℕ}

/-- A text that leads from one nesting to another one, without the character that is
looked for. -/
inductive Passes (w : Scan) : Nesting → Text → Nesting → Prop
  | nil (n : Nesting) : Passes w n [] n
  | cons {n n' : Nesting} {c : Char} {u : Text}
      (hc : c = w.stop → n.quote = none → n.depth ≠ w.depth)
      (h : Passes w (n.next w.opening w.closing c) u n') : Passes w n (c :: u) n'

/-- The nesting behind a text, if it does not hold what is looked for. -/
def after (w : Scan) : Nesting → Text → Option Nesting
  | n, [] => some n
  | n, c :: r =>
    if c == w.stop && n.quote.isNone && n.depth == w.depth then none
    else w.after (n.next w.opening w.closing c) r

/-- Inert characters neither count nor are looked for. -/
def isMarked (w : Scan) : Bool :=
  !isInert w.stop && w.opening.all (!isInert ·) && w.closing.all (!isInert ·)

/-- A character that neither quotes nor counts. -/
def keeps (w : Scan) (c : Char) : Bool :=
  !isQuote c && !w.opening.contains c && !w.closing.contains c

namespace Passes

lemma append (h : w.Passes n u n') (h' : w.Passes n' v n'') : w.Passes n (u ++ v) n'' := by
  induction h with
  | nil => exact h'
  | cons hc _ ih => exact .cons hc (ih h')

/-- Between quotation marks everything passes up to the same mark. -/
lemma quoted (h : q ∉ u) : w.Passes ⟨k, some q⟩ u ⟨k, some q⟩ := by
  induction u with
  | nil => exact .nil _
  | cons c u ih =>
      rw [List.mem_cons, not_or] at h
      have hnext : (⟨k, some q⟩ : Nesting).next w.opening w.closing c = ⟨k, some q⟩ := by
        simp [Nesting.next, Ne.symm h.1]
      refine .cons (by simp) ?_
      rw [hnext]
      exact ih h.2

/-- A text between quotation marks passes. -/
lemma literal (hq : isQuote q = true) (h : q ∉ v) (hs : w.stop ≠ q) :
    w.Passes ⟨k, none⟩ (q :: v ++ [q]) ⟨k, none⟩ := by
  have hopen : (⟨k, none⟩ : Nesting).next w.opening w.closing q = ⟨k, some q⟩ := by
    simp [Nesting.next, hq]
  have hclose : (⟨k, some q⟩ : Nesting).next w.opening w.closing q = ⟨k, none⟩ := by
    simp [Nesting.next]
  refine .cons (fun h => absurd h.symm hs) ?_
  rw [hopen]
  refine (quoted h).append (.cons (by simp) ?_)
  rw [hclose]
  exact .nil _

/-- Characters pass that neither quote nor count, unless they are looked for. -/
lemma plain (h : ∀ c ∈ u, w.keeps c = true ∧ (c = w.stop → k ≠ w.depth)) :
    w.Passes ⟨k, none⟩ u ⟨k, none⟩ := by
  induction u with
  | nil => exact .nil _
  | cons c u ih =>
      rw [List.forall_mem_cons] at h
      obtain ⟨⟨hkeeps, hstop⟩, hu⟩ := h
      simp only [keeps, Bool.and_eq_true, Bool.not_eq_true'] at hkeeps
      have hnext : (⟨k, none⟩ : Nesting).next w.opening w.closing c = ⟨k, none⟩ := by
        simp only [Nesting.next, hkeeps, Bool.false_eq_true, if_false]
      refine .cons (fun hc _ => hstop hc) ?_
      rw [hnext]
      exact ih hu

/-- What can be looked through passes. -/
lemma of_after {u : Text} (h : w.after n u = some n') : w.Passes n u n' := by
  induction u generalizing n with
  | nil =>
      obtain rfl : n = n' := Option.some.inj h
      exact .nil _
  | cons c u ih =>
      rw [after] at h
      split_ifs at h with hc
      refine .cons (fun hstop hquote hdepth => hc ?_) (ih h)
      simp [hstop, hquote, hdepth]

/-- Inert texts pass. -/
lemma inert (hw : w.isMarked = true) (h : ∀ d ∈ u, isInert d = true) :
    w.Passes ⟨k, none⟩ u ⟨k, none⟩ := by
  simp only [isMarked, Bool.and_eq_true, Bool.not_eq_true', List.all_eq_true] at hw
  refine .plain fun d hd => ?_
  have hinert := h d hd
  have hopen : d ∉ w.opening := fun hm => by simp [hw.1.2 d hm] at hinert
  have hclose : d ∉ w.closing := fun hm => by simp [hw.2 d hm] at hinert
  have hquote : isQuote d = false := by
    simp [isQuote, ne_of_isInert (x := '"') hinert rfl, ne_of_isInert (x := '\'') hinert rfl]
  refine ⟨by simp [keeps, hopen, hclose, hquote], fun hstop => ?_⟩
  rw [hstop, hw.1.1] at hinert
  exact absurd hinert Bool.false_ne_true

/-- An opening bracket passes. -/
lemma opens (ho : w.opening.contains c = true) (hq : isQuote c = false) (hs : c ≠ w.stop) :
    w.Passes ⟨k, none⟩ [c] ⟨k + 1, none⟩ := by
  have hnext : (⟨k, none⟩ : Nesting).next w.opening w.closing c = ⟨k + 1, none⟩ := by
    simp only [Nesting.next, hq, ho, Bool.false_eq_true, if_false, if_true]
  refine .cons (fun hc => absurd hc hs) ?_
  rw [hnext]
  exact .nil _

/-- A closing bracket passes. -/
lemma closes (hc : w.closing.contains c = true) (ho : w.opening.contains c = false)
    (hq : isQuote c = false) (hs : c = w.stop → k + 1 ≠ w.depth) :
    w.Passes ⟨k + 1, none⟩ [c] ⟨k, none⟩ := by
  have hnext : (⟨k + 1, none⟩ : Nesting).next w.opening w.closing c = ⟨k, none⟩ := by
    simp only [Nesting.next, hq, ho, hc, Bool.false_eq_true, if_false, if_true,
      Nat.add_sub_cancel]
  refine .cons (fun h _ => hs h) ?_
  rw [hnext]
  exact .nil _

end Passes

end Scan

/-! ### Parts of a text -/

/-- The scanner that looks for separators outside of everything; `c` starts them. -/
def separators (c : Char) : Scan := ⟨opening, closing, c, 0⟩

/-- Inert texts pass where separators are looked for, unless they start with one. -/
lemma passes_of_isInert {n : ℕ} (h : ∀ d ∈ u, isInert d = true) (hc : isInert c = false) :
    (separators c).Passes ⟨n, none⟩ u ⟨n, none⟩ :=
  .inert (by rw [Scan.isMarked, separators, hc]; rfl) h

variable {n n' : Nesting} {more r : Text} {parts : List Text}

/-- What holds no separator on the outside lies in one part. -/
lemma splitTopFrom_passes (h : (separators c).Passes n u n')
    (hr : splitTopFrom (c :: more) 0 n' r = s :: parts) :
    splitTopFrom (c :: more) 0 n (u ++ r) = (u ++ s) :: parts := by
  induction h with
  | nil => exact hr
  | @cons n n' d u hd _ ih =>
      have hcut : (n.isFree opening closing d && (c :: more).isPrefixOf (d :: (u ++ r))) = false := by
        by_cases hdc : d = c
        · have hdepth := hd hdc
          have hfree : n.isFree opening closing d = false := by
            rw [Bool.eq_false_iff]
            intro hfree
            simp only [Nesting.isFree, Bool.and_eq_true, Option.isNone_iff_eq_none,
              beq_iff_eq] at hfree
            exact hdepth hfree.1.1.1.1 hfree.1.1.1.2
          rw [hfree, Bool.false_and]
        · simp [List.isPrefixOf, Ne.symm hdc]
      have hothers : splitTopFrom (c :: more) 0 (n.next opening closing d) (u ++ r) =
          (u ++ s) :: parts := ih hr
      rw [List.cons_append, splitTopFrom, hcut, if_neg Bool.false_ne_true, hothers]
      rfl

/-- The rest of a separator is passed over. -/
lemma splitTopFrom_skip (sep u r : Text) (n : Nesting) :
    splitTopFrom sep u.length n (u ++ r) = splitTopFrom sep 0 n r := by
  induction u with
  | nil => rfl
  | cons d u ih => exact ih

/-- A separator on the outside parts. -/
lemma splitTopFrom_sep (hc : Nesting.outside.isFree opening closing c = true) (more r : Text) :
    splitTopFrom (c :: more) 0 .outside (c :: more ++ r) =
      [] :: splitTopFrom (c :: more) 0 .outside r := by
  have hprefix : (c :: more).isPrefixOf (c :: (more ++ r)) = true := by
    rw [← List.cons_append, List.isPrefixOf_iff_prefix]
    exact List.prefix_append _ _
  rw [List.cons_append, splitTopFrom, hc, hprefix, Bool.and_self, if_pos rfl, List.length_cons,
    Nat.add_sub_cancel, splitTopFrom_skip]

lemma splitTopFrom_nil (sep : Text) (n : Nesting) : splitTopFrom sep 0 n [] = [[]] := rfl

/-- **Parts with a separator between each two of them** are found again, if none holds it on
the outside. -/
theorem splitTop_join (hc : Nesting.outside.isFree opening closing c = true) {us : List Text}
    (h : ∀ x ∈ u :: us, (separators c).Passes .outside x .outside) :
    splitTop (c :: more) (join (c :: more) (u :: us)) = u :: us := by
  induction us generalizing u with
  | nil =>
      have hone := splitTopFrom_passes (h u (by simp)) (splitTopFrom_nil (c :: more) _)
      simpa [splitTop, join, List.intercalate] using hone
  | cons v us ih =>
      rw [List.forall_mem_cons] at h
      have hrest := ih h.2
      have hsep := splitTopFrom_sep hc more (join (c :: more) (v :: us))
      rw [splitTop] at hrest
      rw [hrest] at hsep
      have hall := splitTopFrom_passes h.1 hsep
      simpa [splitTop, join, List.intercalate] using hall

end Locator.Text

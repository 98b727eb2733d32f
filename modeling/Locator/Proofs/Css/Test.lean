/-
Names, tests and compounds

* `isPlainName`, `isWordName`: names of ASCII characters and of word characters of any script;
* `Test.isLegible`, `Test.isFormed`, `Test.isPlain`: the tests that the converter can read,
  those that queries read as they are meant, and those of them that ask for something, with
  `Compound.isLegible`, `Compound.isFormed`, `Compound.isPlain`;
* `isIdent_of_isWordName`, `isIdent_of_isPlainIdent`: names and identifiers are read as such;
* `Compound.isFormed_of_isPlain`, `Compound.isLegible_of_isFormed`: each kind is one of the
  kinds before it.
-/
import Locator.Css.Compound
import Locator.Proofs.Css.Token
import Locator.Proofs.Text.Nesting

namespace Locator.Css

open Text

/-! ### Kinds of tests -/

/-- A name of elements and attributes: an ASCII identifier that starts with no hyphen. -/
def isPlainName : Text → Bool
  | [] => false
  | c :: r => isIdentStart c && r.all isPlainIdentChar

/-- A name of word characters of any script. -/
def isWordName : Text → Bool
  | [] => false
  | c :: r => isIdentStart c && r.all isIdentChar

/-- A character of a value: no backslash and no line break. -/
def isPlainChar (c : Char) : Bool := isXmlChar c && c != '\\' && !isBreak c

/-- A value that fits between quotation marks of one kind. -/
def isQuotable (v : Text) : Bool := !v.contains '"' || !v.contains '\''

/-- Does a comparison with a value ask for anything? A start, an end or a part has a
character at least, and a word holds no blank. -/
def Comparison.takes (how : Comparison) (v : Text) : Bool :=
  match how with
  | .equals => true
  | .dash => true
  | .hasWord => !v.isEmpty && v.all (fun c => !isCssSpace c)
  | _ => !v.isEmpty

/-- Does a test ask for anything? -/
def Test.takes : Test → Bool
  | .compare _ how v => how.takes v
  | _ => true

/-- Does a test count the elements of one name? -/
def Test.counts : Test → Bool
  | .nthOfType _ => true
  | _ => false

/-- The value that a test compares with. -/
def Test.value : Test → Text
  | .compare _ _ v => v
  | _ => []

/-- The tests that the converter can read. -/
def Test.isLegible : Test → Bool
  | .id v => isPlainIdent v
  | .classToken v => isPlainIdent v
  | .present a => isWordName a
  | .compare a _ _ => isWordName a
  | .nthOfType digits => !digits.isEmpty && digits.all Text.isDigit

/-- The compounds that the converter can read. -/
def Compound.isLegible (c : Compound) : Bool :=
  (c.tag == ['*'] || isWordName c.tag) && c.tests.all Test.isLegible

/-- The tests that queries read as they are meant, whether they ask for anything or not. -/
def Test.isFormed : Test → Bool
  | .id v => isPlainIdent v
  | .classToken v => isPlainIdent v
  | .present a => isPlainName a
  | .compare a _ v => isPlainName a && v.all isPlainChar && isQuotable v
  | .nthOfType digits => !digits.isEmpty && digits.all Char.isDigit

/-- The compounds of such tests. -/
def Compound.isFormed (c : Compound) : Bool :=
  (c.tag == ['*'] || isPlainName c.tag) && c.tests.all Test.isFormed

/-- Are elements of one name counted only where there is a name? -/
def Compound.isCountable (c : Compound) : Bool :=
  c.tag != ['*'] || c.tests.all fun t => !t.counts

/-- The tests that queries can ask for. -/
def Test.isPlain : Test → Bool
  | .id v => isPlainIdent v
  | .classToken v => isPlainIdent v
  | .present a => isPlainName a
  | .compare a how v => isPlainName a && v.all isPlainChar && isQuotable v && how.takes v
  | .nthOfType digits => !digits.isEmpty && digits.all Char.isDigit && 0 < ofDecimal digits

/-- The compounds that queries can ask for: only where there is a name elements of one
name are counted. -/
def Compound.isPlain (c : Compound) : Bool :=
  (c.tag == ['*'] || isPlainName c.tag) && c.tests.all Test.isPlain &&
    (c.tag != ['*'] || c.tests.all fun t => !t.counts)

/-! ### Characters of names -/

section Names

variable {s v : Text} {c : Char}

lemma isNameChar_of_isPlainIdentChar (h : isPlainIdentChar c = true) :
    Css.isNameChar c = true := by
  simp [Css.isNameChar, h]

lemma isPlainIdentChar_of_isIdentStart (h : isIdentStart c = true) :
    isPlainIdentChar c = true := by
  simp only [isIdentStart, Bool.or_eq_true] at h
  rcases h with h | h <;> simp [isPlainIdentChar, Char.isAlphanum, h]

/-- A first character of an identifier starts a name. -/
lemma startsIdent_of_isIdentStart (h : isIdentStart c = true) : startsIdent c = true := by
  have hname := isNameChar_of_isPlainIdentChar (isPlainIdentChar_of_isIdentStart h)
  have hdigit : c.isDigit = false :=
    isDigit_of_isNameStart (by simpa [isNameStart, isIdentStart, or_assoc] using Or.inl h)
  have hhyphen : c ≠ '-' := by
    rintro rfl
    exact absurd h (by decide)
  simp [startsIdent, hname, hdigit, hhyphen]

lemma isBlank_of_isPlainIdentChar (h : isPlainIdentChar c = true) : isBlank c = false := by
  have hscore : '_'.toNat = 95 := rfl
  have hhyphen : '-'.toNat = 45 := rfl
  simp only [isPlainIdentChar, Char.isAlphanum, Bool.or_eq_true, isAlpha_iff, isDigit_iff,
    beq_iff_eq, ← Char.toNat_inj] at h
  rw [Bool.eq_false_iff]
  intro hb
  simp only [isBlank, Bool.or_eq_true, Bool.and_eq_true, decide_eq_true_eq, beq_iff_eq] at hb
  omega

lemma toNat_lt_of_isPlainIdentChar (h : isPlainIdentChar c = true) : c.toNat < 128 := by
  have hscore : '_'.toNat = 95 := rfl
  have hhyphen : '-'.toNat = 45 := rfl
  simp only [isPlainIdentChar, Char.isAlphanum, Bool.or_eq_true, isAlpha_iff, isDigit_iff,
    beq_iff_eq, ← Char.toNat_inj] at h
  omega

lemma isIdentChar_of_isPlainIdentChar (h : isPlainIdentChar c = true) : isIdentChar c = true :=
  forall_ascii (P := fun c => isPlainIdentChar c = true → isIdentChar c = true)
    (by decide +kernel) (toNat_lt_of_isPlainIdentChar h) h

lemma isWordName_of_isPlainName (h : isPlainName s = true) : isWordName s = true := by
  cases s with
  | nil => simp [isPlainName] at h
  | cons c r =>
      simp only [isPlainName, isWordName, Bool.and_eq_true, List.all_eq_true] at h ⊢
      exact ⟨h.1, fun d hd => isIdentChar_of_isPlainIdentChar (h.2 d hd)⟩

/-- The characters of names of any script are read as parts of names. -/
lemma isNameChar_of_isIdentChar (h : isIdentChar c = true) : Css.isNameChar c = true := by
  by_cases hc : c.toNat < 128
  · exact forall_ascii (P := fun c => isIdentChar c = true → Css.isNameChar c = true)
      (by decide +kernel) hc h
  · have hbeyond : 127 < c.toNat := by omega
    simp [Css.isNameChar, hbeyond]

/-- Digits of other scripts start names. -/
lemma startsIdent_of_isDigit (h : Text.isDigit c = true) (hascii : c.isDigit = false) :
    startsIdent c = true := by
  have hbeyond : 127 < c.toNat := by
    by_contra hc
    rw [Text.isDigit, if_pos (by omega), hascii] at h
    exact Bool.false_ne_true h
  have hhyphen : c ≠ '-' := by
    rintro rfl
    exact absurd hbeyond (by decide)
  simp [startsIdent, Css.isNameChar, hbeyond, hascii, hhyphen]

lemma isNameChar_of_isDigit (h : Text.isDigit c = true) : Css.isNameChar c = true := by
  by_cases hascii : c.isDigit = true
  · simp [Css.isNameChar, isPlainIdentChar, Char.isAlphanum, hascii]
  · have hstart := startsIdent_of_isDigit h (Bool.eq_false_of_not_eq_true hascii)
    simp only [startsIdent, Bool.and_eq_true] at hstart
    exact hstart.1.1

/-- A name of any script is read as a name. -/
lemma isIdent_of_isWordName (h : isWordName s = true) : IsIdent s := by
  cases s with
  | nil => simp [isWordName] at h
  | cons c r =>
      simp only [isWordName, Bool.and_eq_true, List.all_eq_true] at h
      have hc := isPlainIdentChar_of_isIdentStart h.1
      have hhyphen : c ≠ '-' := by
        rintro rfl
        exact absurd h.1 (by decide)
      refine ⟨by rw [opensIdent_of_ne hhyphen, startsIdent_of_isIdentStart h.1], ?_⟩
      rw [List.forall_mem_cons]
      exact ⟨isNameChar_of_isPlainIdentChar hc, fun d hd => isNameChar_of_isIdentChar (h.2 d hd)⟩

lemma isIdent_of_isPlainName (h : isPlainName s = true) : IsIdent s :=
  isIdent_of_isWordName (isWordName_of_isPlainName h)

lemma isName_of_isPlainName (h : isPlainName s = true) : IsName s := by
  cases s with
  | nil => simp [isPlainName] at h
  | cons c r =>
      simp only [isPlainName, Bool.and_eq_true, List.all_eq_true] at h
      have hstart : isNameStart c = true := by
        have := h.1
        simp only [isIdentStart, Bool.or_eq_true] at this
        rcases this with hc | hc <;> simp [isNameStart, hc]
      refine ⟨c, r, rfl, hstart, fun d hd => ?_⟩
      have := h.2 d hd
      simp only [isPlainIdentChar, Char.isAlphanum, Bool.or_eq_true, beq_iff_eq] at this
      rcases this with ((hd | hd) | hd) | hd <;> simp [Text.isNameChar, isNameStart, hd]

/-- An identifier is a name, perhaps behind a hyphen. -/
lemma isPlainIdent_cases (h : isPlainIdent s = true) :
    isPlainName s = true ∨ ∃ r, s = '-' :: r ∧ isPlainName r = true := by
  unfold isPlainIdent at h
  split at h
  · exact absurd h Bool.false_ne_true
  · next c r heq =>
    split at heq
    · next r' => exact .inr ⟨r', rfl, by rw [heq]; exact h⟩
    · next => exact .inl (by rw [heq]; exact h)

lemma isIdent_of_isPlainIdent (h : isPlainIdent s = true) : IsIdent s := by
  rcases isPlainIdent_cases h with hname | ⟨r, rfl, hname⟩
  · exact isIdent_of_isPlainName hname
  · have hr := isIdent_of_isPlainName hname
    cases r with
    | nil => simp [isPlainName] at hname
    | cons c r =>
        have hc : startsIdent c = true :=
          startsIdent_of_isIdentStart (Bool.and_eq_true_iff.mp hname).1
        refine ⟨hc, fun d hd => ?_⟩
        rcases List.mem_cons.mp hd with rfl | hd
        · rfl
        · exact hr.chars d hd

/-- An identifier starts with no digit. -/
lemma isDigit_head_of_isPlainIdent (h : isPlainIdent s = true) (rest : Text) :
    ∀ c ∈ (s ++ rest).head?, c.isDigit = false := by
  have hident := (isIdent_of_isPlainIdent h).opens
  cases s with
  | nil => simp [isPlainIdent] at h
  | cons c r =>
      rintro _ ⟨rfl⟩
      by_cases hc : c = '-'
      · rw [hc]
        rfl
      · rw [opensIdent_of_ne hc] at hident
        simp only [startsIdent, Bool.and_eq_true, Bool.not_eq_true'] at hident
        exact hident.1.2

lemma isBreak_of_isPlainChar (h : isPlainChar c = true) : isBreak c = false := by
  simp only [isPlainChar, Bool.and_eq_true, Bool.not_eq_true'] at h
  exact h.2

/-- A value without double quotation marks and backslashes needs no escapes. -/
lemma escape_eq_self (hq : '"' ∉ v) (hb : '\\' ∉ v) : escape v = v := by
  induction v with
  | nil => rfl
  | cons c v ih =>
      simp only [List.mem_cons, not_or] at hq hb
      rw [escape_cons_of_ne (Ne.symm hb.1) (Ne.symm hq.1), ih hq.2 hb.2]

lemma backslash_not_mem_of_isPlainChar (h : v.all isPlainChar = true) : '\\' ∉ v := by
  intro hm
  have := List.all_eq_true.mp h _ hm
  exact absurd this (by decide)

/-- A value without backslashes is read back as it was escaped. -/
lemma isClear_of_isPlainChar (h : v.all isPlainChar = true) : IsClear v := by
  have hb := backslash_not_mem_of_isPlainChar h
  rw [IsClear, List.isChain_iff_getElem]
  rintro i hi hc
  exact absurd (hc ▸ List.getElem_mem _) hb

lemma isQuotable_iff : isQuotable v = true ↔ '"' ∉ v ∨ '\'' ∉ v := by
  simp [isQuotable]

/-- A value without the mark around it fits between marks of one kind. -/
lemma isQuotable_of_not_mem {q : Char} (hq : isQuote q = true) (hv : q ∉ v) : isQuotable v = true := by
  simp only [isQuote, Bool.or_eq_true, beq_iff_eq] at hq
  rw [isQuotable_iff]
  rcases hq with rfl | rfl
  · exact .inl hv
  · exact .inr hv

/-- Other characters in front of a value and behind it do not count. -/
lemma isQuotable_append {u w : Text} (hu : u.all (!isQuote ·) = true) (hv : isQuotable v = true)
    (hw : w.all (!isQuote ·) = true) : isQuotable (u ++ v ++ w) = true := by
  have hmark : ∀ {s : Text}, s.all (!isQuote ·) = true → '"' ∉ s ∧ '\'' ∉ s := by
    intro s hs
    rw [List.all_eq_true] at hs
    exact ⟨fun hm => absurd (hs _ hm) (by decide), fun hm => absurd (hs _ hm) (by decide)⟩
  rw [isQuotable_iff] at hv ⊢
  have hu := hmark hu
  have hw := hmark hw
  rcases hv with hv | hv
  · exact .inl (by simp [hu.1, hv, hw.1])
  · exact .inr (by simp [hu.2, hv, hw.2])

end Names

/-! ### Kinds of compounds -/

section Kinds

variable {t : Test} {c : Compound}

lemma Compound.isLegible_tests (h : c.isLegible = true) : ∀ t ∈ c.tests, t.isLegible = true := by
  simp only [isLegible, Bool.and_eq_true] at h
  exact List.all_eq_true.mp h.2

lemma Compound.isLegible_tag (h : c.isLegible = true) (hstar : c.tag ≠ ['*']) :
    isWordName c.tag = true := by
  simp only [isLegible, Bool.and_eq_true, Bool.or_eq_true, beq_iff_eq] at h
  exact h.1.resolve_left hstar

lemma Compound.isFormed_tests (h : c.isFormed = true) : ∀ t ∈ c.tests, t.isFormed = true := by
  simp only [isFormed, Bool.and_eq_true] at h
  exact List.all_eq_true.mp h.2

lemma Compound.isFormed_tag (h : c.isFormed = true) (hstar : c.tag ≠ ['*']) :
    isPlainName c.tag = true := by
  simp only [isFormed, Bool.and_eq_true, Bool.or_eq_true, beq_iff_eq] at h
  exact h.1.resolve_left hstar

lemma Compound.isPlain_tests (h : c.isPlain = true) : ∀ t ∈ c.tests, t.isPlain = true := by
  simp only [isPlain, Bool.and_eq_true] at h
  exact List.all_eq_true.mp h.1.2

/-- A test that queries can ask for is read as it is meant. -/
lemma Test.isFormed_of_isPlain (h : t.isPlain = true) : t.isFormed = true := by
  cases t with
  | compare a how v =>
      rw [isPlain, Bool.and_eq_true] at h
      exact h.1
  | nthOfType digits =>
      rw [isPlain, Bool.and_eq_true] at h
      exact h.1
  | _ => exact h

lemma Test.takes_of_isPlain (h : t.isPlain = true) : t.takes = true := by
  cases t with
  | compare a how v =>
      rw [isPlain, Bool.and_eq_true] at h
      exact h.2
  | _ => rfl

/-- A compound that queries can ask for is read as it is meant. -/
lemma Compound.isFormed_of_isPlain (h : c.isPlain = true) : c.isFormed = true := by
  have htests : c.tests.all Test.isFormed = true := List.all_eq_true.mpr fun t ht =>
    Test.isFormed_of_isPlain (Compound.isPlain_tests h t ht)
  simp only [isPlain, Bool.and_eq_true] at h
  rw [isFormed, h.1.1, htests]
  rfl

lemma Compound.isCountable_of_isPlain (h : c.isPlain = true) : c.isCountable = true := by
  rw [isPlain, Bool.and_eq_true] at h
  exact h.2

/-- A test that queries read as it is meant can be read by the converter. -/
lemma Test.isLegible_of_isFormed (h : t.isFormed = true) : t.isLegible = true := by
  cases t with
  | id v => exact h
  | classToken v => exact h
  | present a => exact isWordName_of_isPlainName (s := a) h
  | compare a how v =>
      simp only [isFormed, Bool.and_eq_true] at h
      exact isWordName_of_isPlainName h.1.1
  | nthOfType digits =>
      simp only [isFormed, Bool.and_eq_true, List.all_eq_true] at h
      rw [isLegible, h.1, Bool.true_and, List.all_eq_true]
      exact fun c hc => isDigit_of_decimal (h.2 c hc)

lemma Compound.isLegible_of_isFormed (h : c.isFormed = true) : c.isLegible = true := by
  have htests : c.tests.all Test.isLegible = true := List.all_eq_true.mpr fun t ht =>
    Test.isLegible_of_isFormed (Compound.isFormed_tests h t ht)
  rw [isLegible, htests, Bool.and_true]
  by_cases hstar : c.tag = ['*']
  · simp [hstar]
  · simp [isWordName_of_isPlainName (Compound.isFormed_tag h hstar)]

end Kinds

end Locator.Css

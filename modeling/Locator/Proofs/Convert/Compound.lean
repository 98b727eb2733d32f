/-
Compounds as the converter reads them

* `Test.Quotes`: the texts of a test with its value between quotation marks of either kind;
* `readAttribute_name`, `readAttribute_compare`: what stands between square brackets is
  read;
* `readTest_quotes`, `readTests_append`: a test is read from its text, unless its value
  holds a closing bracket, and **tests are read one after the other**;
* `readCompound_eq`: **a compound is read from each of its texts**.
-/
import Locator.Convert.ToXPath
import Locator.Proofs.Css.Language
import Locator.Proofs.Outcome
import Locator.Proofs.Text.Nesting
import Locator.Proofs.Text.Strip

namespace Locator.Css

open Text

variable {s w v a : Text} {c q : Char} {t : Test} {ts : List Test} {us : List Text}

/-! ### Texts of tests -/

/-- The texts of a test: its value stands between quotation marks of a kind that it does
not hold. -/
def Test.Quotes : Test → Text → Prop
  | .compare a how v, s =>
    ∃ q, isQuote q = true ∧ q ∉ v ∧ s = '[' :: (a ++ (sign how ++ (q :: v ++ [q]))) ++ [']']
  | t, s => s = t.toCss

/-- A value without double quotation marks and backslashes is escaped as it is. -/
lemma Test.Escapes.quotes (h : t.Escapes s) (hq : '"' ∉ t.value) (hb : '\\' ∉ t.value) :
    t.Quotes s := by
  cases t with
  | compare a how v =>
      have hv : escape v = v := escape_eq_self hq hb
      refine ⟨'"', rfl, hq, ?_⟩
      rw [h]
      change '[' :: a ++ sign how ++ '"' :: escape v ++ ['"', ']'] = _
      rw [hv]
      simp
  | _ => exact h

/-! ### Names -/

lemma isInert_of_isPlainIdentChar (h : isPlainIdentChar c = true) : isInert c = true :=
  isInert_of_isIdentChar (isIdentChar_of_isPlainIdentChar h)

lemma all_of_isPlainName (h : isPlainName s = true) : ∀ c ∈ s, isPlainIdentChar c = true := by
  cases s with
  | nil => simp
  | cons c r =>
      simp only [isPlainName, Bool.and_eq_true, List.all_eq_true] at h
      rw [List.forall_mem_cons]
      exact ⟨isPlainIdentChar_of_isIdentStart h.1, h.2⟩

lemma all_of_isPlainIdent (h : isPlainIdent s = true) : ∀ c ∈ s, isPlainIdentChar c = true := by
  rcases isPlainIdent_cases h with h | ⟨r, rfl, h⟩
  · exact all_of_isPlainName h
  · rw [List.forall_mem_cons]
    exact ⟨rfl, all_of_isPlainName h⟩

lemma isInert_ident (h : isPlainIdent s = true) : ∀ c ∈ s, isInert c = true := fun c hc =>
  isInert_of_isPlainIdentChar (all_of_isPlainIdent h c hc)

lemma isInert_name (h : isWordName s = true) : ∀ c ∈ s, isInert c = true := by
  cases s with
  | nil => simp
  | cons c r =>
      simp only [isWordName, Bool.and_eq_true, List.all_eq_true] at h
      rw [List.forall_mem_cons]
      exact ⟨isInert_of_isPlainIdentChar (isPlainIdentChar_of_isIdentStart h.1),
        fun d hd => isInert_of_isIdentChar (h.2 d hd)⟩

lemma isWordName_ne_nil (h : isWordName s = true) : s ≠ [] := by
  rintro rfl
  exact absurd h Bool.false_ne_true

lemma isInert_digits (h : s.all Text.isDigit = true) : ∀ c ∈ s, isInert c = true := fun c hc =>
  isInert_of_isDigit (List.all_eq_true.mp h c hc)

/-- A name is read up to what can be no part of it. -/
lemma ident?_append (h : isWordName s = true) (hr : ∀ c ∈ w.head?, isIdentChar c = false) :
    ident? (s ++ w) = some (s, w) := by
  cases s with
  | nil => simp [isWordName] at h
  | cons c r =>
      simp only [isWordName, Bool.and_eq_true, List.all_eq_true] at h
      rw [List.cons_append, ident?, if_pos h.1, takeWhile_append_of_all h.2 hr,
        dropWhile_append_of_all h.2 hr]

/-- A character that a test starts with. -/
def startsTest (c : Char) : Bool := "#.[:".toList.contains c

lemma of_startsTest (h : startsTest c = true) :
    isIdentChar c = false ∧ isIdentStart c = false ∧ endsName c = true ∧ c ≠ '*' := by
  have hall : ("#.[:".toList.all fun c =>
      !isIdentChar c && !isIdentStart c && endsName c && c != '*') = true := by decide
  have := List.all_eq_true.mp hall c (by simpa [startsTest] using h)
  simp only [Bool.and_eq_true, Bool.not_eq_true', bne_iff_ne] at this
  exact ⟨this.1.1.1, this.1.1.2, this.1.2, this.2⟩

/-- The text of a test starts with a sign. -/
lemma Test.Quotes.exists_cons (h : t.Quotes s) : ∃ c r, s = c :: r ∧ startsTest c = true := by
  cases t with
  | compare a how v =>
      obtain ⟨q, -, -, rfl⟩ := h
      exact ⟨'[', _, rfl, by decide⟩
  | _ =>
      obtain rfl : s = _ := h
      exact ⟨_, _, rfl, by decide⟩

/-- Only a test stands behind another one. -/
lemma startsTest_head (h : List.Forall₂ Test.Quotes ts us) :
    ∀ c ∈ us.flatten.head?, startsTest c = true := by
  cases h with
  | nil => simp
  | cons hu _ =>
      obtain ⟨c, r, rfl, hc⟩ := hu.exists_cons
      rintro _ ⟨rfl⟩
      exact hc

/-- A text of name characters goes on up to the next test. -/
lemma endsName_of_isInert (h : isInert c = true) : endsName c = false := by
  simp [endsName, ne_of_isInert (x := '.') h rfl, ne_of_isInert (x := '#') h rfl,
    ne_of_isInert (x := '[') h rfl, ne_of_isInert (x := ':') h rfl]

/-! ### What stands between square brackets -/

lemma isTrim_of_isInert (hne : s ≠ []) (h : ∀ c ∈ s, isInert c = true) : IsTrim s :=
  isTrim_of_all hne fun c hc => isBlank_of_isInert (h c hc)

lemma isTrim_name (h : isWordName a = true) : IsTrim a :=
  isTrim_of_isInert (isWordName_ne_nil h) (isInert_name h)

lemma isBlank_of_isQuote (hq : isQuote q = true) : isBlank q = false := by
  simp only [isQuote, Bool.or_eq_true, beq_iff_eq] at hq
  rcases hq with rfl | rfl <;> rfl

lemma isTrim_quotes (hq : isQuote q = true) (v : Text) : IsTrim (q :: v ++ [q]) := by
  have hmark : IsTrim [q] := isTrim_of_all (by simp) (by simpa using isBlank_of_isQuote hq)
  simpa using hmark.append v hmark

/-- The quotation marks around a value are taken off. -/
lemma unquote_quotes (hq : isQuote q = true) (v : Text) : unquote (q :: v ++ [q]) = v := by
  have hstrip := strip_eq_self (isTrim_quotes hq v)
  obtain ⟨d, r, hdr⟩ := List.exists_cons_of_ne_nil (l := v ++ [q]) (by simp)
  have hlast : (d :: r).getLast? = some q := by rw [← hdr]; simp
  have hfront : (d :: r).dropLast = v := by rw [← hdr]; simp
  rw [unquote, hstrip, List.cons_append, hdr]
  simp [hq, hlast, hfront]

/-- The sign of a comparison is read in front of its value. -/
lemma comparison?_sign (how : Comparison) (r : Text) :
    comparison? (Test.sign how ++ r) = some (how, r) := by
  cases how <;> rfl

lemma sign_head (how : Comparison) (r : Text) :
    ∀ c ∈ (Test.sign how ++ r).head?, isIdentChar c = false ∧ isBlank c = false := by
  cases how <;>
    · rintro _ ⟨rfl⟩
      exact ⟨rfl, rfl⟩

/-- A name alone asks for an attribute. -/
lemma readAttribute_name (h : isWordName a = true) : readAttribute a = .ok (.present a) := by
  have hname := ident?_append (w := []) h (by simp)
  rw [List.append_nil] at hname
  simp [readAttribute, hname]

/-- A name, a sign and a text with no blank in front compare an attribute. -/
lemma readAttribute_sign (h : isWordName a = true) (how : Comparison) {w : Text}
    (hv : ∀ c ∈ w.head?, isBlank c = false) :
    readAttribute (a ++ (Test.sign how ++ w)) = .ok (.compare a how (unquote w)) := by
  have hhead := sign_head how w
  have hname := ident?_append h fun c hc => (hhead c hc).1
  have hsign : (Test.sign how ++ w).dropWhile isBlank = Test.sign how ++ w :=
    dropWhile_append_of_all (s := []) (by simp) fun c hc => (hhead c hc).2
  have hvalue : w.dropWhile isBlank = w :=
    dropWhile_append_of_all (s := []) (by simp) hv
  obtain ⟨d, r, hdr⟩ : ∃ d r, Test.sign how ++ w = d :: r := by
    cases how <;> exact ⟨_, _, rfl⟩
  have hcompare := comparison?_sign how w
  rw [readAttribute, hname]
  simp only [hsign]
  rw [hdr] at hcompare ⊢
  simp only [hcompare, hvalue]

/-- A name, a sign and a value between quotation marks compare an attribute. -/
lemma readAttribute_compare (h : isWordName a = true) (how : Comparison) (hq : isQuote q = true)
    (v : Text) :
    readAttribute (a ++ (Test.sign how ++ (q :: v ++ [q]))) = .ok (.compare a how v) := by
  have hread := readAttribute_sign (w := q :: v ++ [q]) h how
    (by rintro _ ⟨rfl⟩; exact isBlank_of_isQuote hq)
  rwa [unquote_quotes hq] at hread

/-! ### Tests -/

lemma not_mem_name (h : isWordName a = true) (hc : isInert c = false) : c ∉ a := fun hm => by
  simp [isInert_name h c hm] at hc

lemma bracket_not_mem_sign (how : Comparison) : ']' ∉ Test.sign how := by
  cases how <;> decide

lemma ne_of_isQuote {x : Char} (hq : isQuote q = true) (hx : isQuote x = false) :
    q ≠ x := by
  rintro rfl
  simp [hq] at hx

/-- A test between square brackets is read up to the closing one. -/
lemma readTest_bracket (whole : Text) {body : Text} (hb : ']' ∉ body)
    (htrim : IsTrim body) (h : readAttribute body = .ok t) (w : Text) :
    readTest whole '[' (body ++ ']' :: w) = .ok (t, w) := by
  have hcut := XPath.cutAt?_append hb w
  simp [readTest, hcut, strip_eq_self htrim, h, Except.map]

/-- The digits in the parentheses of a place. -/
lemma nthOfType?_append {digits : Text} (hne : digits ≠ [])
    (hd : ∀ c ∈ digits, Text.isDigit c = true) (w : Text) :
    nthOfType? ("nth-of-type(".toList ++ (digits ++ ')' :: w)) = some (digits, w) := by
  have hbehind : behind? "nth-of-type(".toList ("nth-of-type(".toList ++ (digits ++ ')' :: w)) =
      some (digits ++ ')' :: w) := by
    simp [behind?]
  have hclose : ∀ c ∈ (')' :: w).head?, Text.isDigit c = false := by
    rintro _ ⟨rfl⟩
    rfl
  have hfirst : (digits ++ ')' :: w).dropWhile isBlank = digits ++ ')' :: w := by
    obtain ⟨c, r, rfl⟩ := List.exists_cons_of_ne_nil hne
    simp [isBlank_of_isInert (isInert_of_isDigit (hd c (by simp)))]
  have hlast : (')' :: w).dropWhile isBlank = ')' :: w := rfl
  rw [nthOfType?, hbehind]
  simp only [Option.bind_eq_bind, Option.bind_some, hfirst, takeWhile_append_of_all hd hclose,
    dropWhile_append_of_all hd hclose, hlast, List.isEmpty_iff, hne, if_false]

/-- **A test is read from its text**, whatever test stands behind it, unless its value
holds a closing bracket. -/
theorem readTest_quotes (whole : Text) (h : t.Quotes s) (ht : t.isLegible = true)
    (hv : ']' ∉ t.value) (hr : ∀ c ∈ w.head?, startsTest c = true) :
    ∃ c r, s = c :: r ∧ readTest whole c (r ++ w) = .ok (t, w) := by
  have hends : ∀ c ∈ w.head?, (!endsName c) = false := fun c hc => by
    simp [(of_startsTest (hr c hc)).2.2.1]
  have hname : ∀ {v : Text}, isPlainIdent v = true → (v ++ w).takeWhile (!endsName ·) = v ∧
      (v ++ w).dropWhile (!endsName ·) = w ∧ v.isEmpty = false := by
    intro v hv
    have hchars : ∀ c ∈ v, (!endsName c) = true := fun c hc => by
      simp [endsName_of_isInert (isInert_ident hv c hc)]
    exact ⟨takeWhile_append_of_all hchars hends, dropWhile_append_of_all hchars hends,
      by simpa using (isIdent_of_isPlainIdent hv).ne_nil⟩
  cases t with
  | id v =>
      obtain ⟨h1, h2, h3⟩ := hname (v := v) ht
      exact ⟨'#', v, h, by simp [readTest, h1, h2, h3]⟩
  | classToken v =>
      obtain ⟨h1, h2, h3⟩ := hname (v := v) ht
      exact ⟨'.', v, h, by simp [readTest, h1, h2, h3]⟩
  | present a =>
      have ha : isWordName a = true := ht
      refine ⟨'[', a ++ [']'], h, ?_⟩
      rw [List.append_assoc]
      exact readTest_bracket whole (not_mem_name ha rfl) (isTrim_name ha)
        (readAttribute_name ha) w
  | compare a how v =>
      have ha : isWordName a = true := ht
      obtain ⟨q, hq, -, rfl⟩ := h
      have hmark : ']' ≠ q := (ne_of_isQuote hq rfl).symm
      have hvalue : ']' ∉ v := hv
      have hbody : ']' ∉ a ++ (Test.sign how ++ (q :: v ++ [q])) := by
        simp [not_mem_name ha (c := ']') rfl, bracket_not_mem_sign, hvalue, hmark]
      have htrim : IsTrim (a ++ (Test.sign how ++ (q :: v ++ [q]))) := by
        simpa using (isTrim_name ha).append (Test.sign how) (isTrim_quotes hq v)
      refine ⟨'[', a ++ (Test.sign how ++ (q :: v ++ [q])) ++ [']'], rfl, ?_⟩
      rw [List.append_assoc]
      exact readTest_bracket whole hbody htrim (readAttribute_compare ha how hq v) w
  | nthOfType digits =>
      simp only [Test.isLegible, Bool.and_eq_true, List.all_eq_true, Bool.not_eq_true',
        List.isEmpty_eq_false_iff] at ht
      refine ⟨':', "nth-of-type(".toList ++ digits ++ [')'], h, ?_⟩
      have hnth := nthOfType?_append ht.1 ht.2 w
      rw [List.append_assoc, List.append_assoc, List.singleton_append]
      simp only [readTest, hnth]
      rfl

/-- **Tests are read one after the other**, and then what stands behind them. -/
theorem readTests_append (whole : Text) (h : List.Forall₂ Test.Quotes ts us)
    (ht : ∀ t ∈ ts, t.isLegible = true ∧ ']' ∉ t.value)
    (hr : ∀ c ∈ w.head?, startsTest c = true) (fuel : ℕ) :
    readTests whole (ts.length + fuel) (us.flatten ++ w) =
      (readTests whole fuel w).map (ts ++ ·) := by
  induction h with
  | nil =>
      rw [List.length_nil, Nat.zero_add, List.flatten_nil, List.nil_append]
      cases readTests whole fuel w <;> rfl
  | @cons t u ts us hu hus ih =>
      rw [List.forall_mem_cons] at ht
      have hhead : ∀ c ∈ (us.flatten ++ w).head?, startsTest c = true := by
        cases hf : us.flatten with
        | nil => simpa using hr
        | cons d r =>
            have := startsTest_head hus
            rw [hf] at this
            simpa using this
      obtain ⟨c, r, rfl, hread⟩ := readTest_quotes whole hu ht.1.1 ht.1.2 hhead
      rw [List.length_cons, Nat.add_right_comm, List.flatten_cons, List.cons_append,
        List.cons_append, List.append_assoc, readTests, hread]
      simp only [ok_bind, ih ht.2]
      cases readTests whole fuel w <;> rfl

/-- There are no more tests than characters. -/
lemma length_le_of_quotes (h : List.Forall₂ Test.Quotes ts us) : ts.length ≤ us.flatten.length := by
  induction h with
  | nil => exact Nat.zero_le _
  | cons hu _ ih =>
      obtain ⟨c, r, rfl, -⟩ := hu.exists_cons
      simp only [List.length_cons, List.flatten_cons, List.length_append]
      omega

/-- Tests alone are read to their end. -/
lemma readTests_quotes (whole : Text) (h : List.Forall₂ Test.Quotes ts us)
    (ht : ∀ t ∈ ts, t.isLegible = true ∧ ']' ∉ t.value) :
    readTests whole us.flatten.length us.flatten = .ok ts := by
  obtain ⟨k, hk⟩ := Nat.exists_eq_add_of_le (length_le_of_quotes h)
  have hread := readTests_append (w := []) whole h ht (by simp) k
  rw [List.append_nil, ← hk] at hread
  rw [hread]
  cases k <;> simp [readTests, Except.map]

/-! ### Compounds -/

/-- The name of a compound is read in front of its tests. -/
lemma readTag_append {c : Compound} (hc : c.isLegible = true)
    (hr : ∀ d ∈ w.head?, isIdentChar d = false) : readTag (c.tag ++ w) = (c.tag, w) := by
  by_cases hstar : c.tag = ['*']
  · rw [hstar]
    rfl
  · simp only [readTag, ident?_append (Compound.isLegible_tag hc hstar) hr]

/-- Where a test stands first any name is meant. -/
lemma readTag_tests (h : List.Forall₂ Test.Quotes ts us) (hne : ts ≠ []) (w : Text) :
    readTag (us.flatten ++ w) = (['*'], us.flatten ++ w) := by
  cases h with
  | nil => exact absurd rfl hne
  | cons hu _ =>
      obtain ⟨c, r, rfl, hc⟩ := hu.exists_cons
      obtain ⟨-, hstart, -, hstar⟩ := of_startsTest hc
      simp [readTag, ident?, hstart, hstar]

/-- The name of a compound is read, and its tests are left. -/
lemma readTag_quotes {c : Compound} (hc : c.isLegible = true)
    (h : List.Forall₂ Test.Quotes c.tests us)
    (hs : s = c.tag ++ us.flatten ∨ (c.tag = ['*'] ∧ c.tests ≠ [] ∧ s = us.flatten)) :
    readTag s = (c.tag, us.flatten) := by
  rcases hs with rfl | ⟨htag, hne, rfl⟩
  · exact readTag_append hc fun d hd => (of_startsTest (startsTest_head h d hd)).1
  · have := readTag_tests h hne []
    rwa [List.append_nil, ← htag] at this

/-- **A compound is read from each of its texts**, unless a value holds a closing bracket. -/
theorem readCompound_eq {c : Compound} (h : c.Writes Test.Quotes s) (hc : c.isLegible = true)
    (hv : ∀ t ∈ c.tests, ']' ∉ t.value) : readCompound s = .ok c := by
  obtain ⟨us, hus, hs⟩ := h
  have htests := readTests_quotes s hus fun t ht => ⟨Compound.isLegible_tests hc t ht, hv t ht⟩
  simp only [readCompound, readTag_quotes hc hus hs, htests, ok_bind, pure_eq_ok]

end Locator.Css

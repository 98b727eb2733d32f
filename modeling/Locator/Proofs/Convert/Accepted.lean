/-
The texts that the converter accepts

* `Test.Accepts`: the texts that are taken for a test, which are more than those it is written
  with: any name behind a sign, and any value;
* `readTest_of_accepts`, `accepts_of_readTest`: such texts are read, and no others;
* `readCompound_eq_ok_iff`: **the texts that are read as a compound**.
-/
import Locator.Proofs.Convert.Level
import Locator.Proofs.Convert.Parts

namespace Locator

open Text

namespace Text

variable {s t bs bs' : Text}

lemma isBlanks_append (hb : XPath.IsBlanks bs) (hb' : XPath.IsBlanks bs') :
    XPath.IsBlanks (bs ++ bs') := by
  rw [XPath.IsBlanks, List.forall_mem_append]
  exact ⟨hb, hb'⟩

/-- Nothing is left of blanks. -/
lemma strip_of_isBlanks (hb : XPath.IsBlanks bs) : strip bs = [] := by
  have hnil : bs.dropWhile isBlank = [] := List.dropWhile_eq_nil_iff.mpr hb
  rw [strip, stripBy, hnil]
  rfl

/-- Blanks at the ends of a text do not count when blanks are stripped. -/
lemma strip_blanks (hb : XPath.IsBlanks bs) (hb' : XPath.IsBlanks bs') (s : Text) :
    strip (bs ++ (s ++ bs')) = strip s := by
  obtain ⟨front, back, hfront, hback, hs⟩ := exists_strip s
  by_cases hnil : strip s = []
  · have hall : XPath.IsBlanks (bs ++ (s ++ bs')) := by
      rw [hnil] at hs
      rw [hs]
      exact isBlanks_append hb (isBlanks_append (isBlanks_append hfront hback) hb')
    rw [strip_of_isBlanks hall, hnil]
  · have htrim := isTrim_strip hnil
    have h := strip_of_isTrim htrim (u := bs ++ front) (v := back ++ bs')
      (isBlanks_append hb hfront) (isBlanks_append hback hb')
    have hall : bs ++ (s ++ bs') = bs ++ front ++ strip s ++ (back ++ bs') := by
      conv_lhs => rw [hs]
      simp only [List.append_assoc]
    rw [hall, h]

end Text

namespace Css

open XPath

variable {s u v w a raw body whole : Text} {c : Char} {t : Test} {ts : List Test} {us : List Text}
  {how : Comparison}

/-! ### The texts of tests -/

/-- **The texts that are taken for a test**: behind `#` and `.` any name is taken, also one
that is no identifier; between square brackets and in parentheses blanks may stand around
everything; and any text is taken for a value, from which quotation marks are taken off. -/
inductive Test.Accepts : Test → Text → Prop
  | id {v : Text} (hne : v ≠ []) (hv : ∀ c ∈ v, endsName c = false) : Accepts (.id v) ('#' :: v)
  | classToken {v : Text} (hne : v ≠ []) (hv : ∀ c ∈ v, endsName c = false) :
      Accepts (.classToken v) ('.' :: v)
  | present {a bs bs' : Text} (ha : isWordName a = true) (hb : IsBlanks bs) (hb' : IsBlanks bs') :
      Accepts (.present a) ('[' :: (bs ++ (a ++ bs')) ++ [']'])
  | compare {a bs bs' raw : Text} {how : Comparison} (ha : isWordName a = true)
      (hb : IsBlanks bs) (hb' : IsBlanks bs') (hraw : ']' ∉ raw) :
      Accepts (.compare a how (unquote raw))
        ('[' :: (bs ++ (a ++ (bs' ++ (sign how ++ raw)))) ++ [']'])
  | nthOfType {digits bs bs' : Text} (hne : digits ≠ [])
      (hd : ∀ c ∈ digits, Text.isDigit c = true) (hb : IsBlanks bs) (hb' : IsBlanks bs') :
      Accepts (.nthOfType digits) (":nth-of-type(".toList ++ (bs ++ (digits ++ (bs' ++ [')']))))

/-- The text of a test starts with a sign. -/
lemma Test.Accepts.exists_cons (h : t.Accepts u) : ∃ c r, u = c :: r ∧ startsTest c = true := by
  cases h <;> exact ⟨_, _, rfl, by decide⟩

/-! ### What stands between square brackets -/

lemma unquote_congr (h : strip s = strip w) : unquote s = unquote w := by
  rw [unquote, unquote, h]

lemma unquote_blanks {bs bs' : Text} (hb : IsBlanks bs) (hb' : IsBlanks bs') (s : Text) :
    unquote (bs ++ (s ++ bs')) = unquote s :=
  unquote_congr (strip_blanks hb hb' s)

/-- No blank stands in the sign of a comparison. -/
lemma isTrim_comparison (how : Comparison) : IsTrim (Test.sign how) := by
  refine isTrim_of_all ?_ ?_ <;> cases how <;> decide

/-- The sign of a comparison and the text behind it. -/
lemma eq_sign_of_comparison? (h : comparison? s = some (how, w)) : s = Test.sign how ++ w := by
  unfold comparison? at h
  split at h <;> simp only [Option.some.injEq, Prod.mk.injEq, reduceCtorEq] at h <;>
    · obtain ⟨rfl, rfl⟩ := h
      rfl

lemma isIdentChar_head {bs r : Text} (hb : IsBlanks bs)
    (hr : ∀ c ∈ r.head?, isIdentChar c = false) : ∀ c ∈ (bs ++ r).head?, isIdentChar c = false := by
  cases bs with
  | nil => exact hr
  | cons b bs =>
      rintro _ ⟨rfl⟩
      exact isIdentChar_of_isBlank (hb b List.mem_cons_self)

/-- A name alone is read, whatever blanks stand around it. -/
lemma readAttribute_present {bs bs' : Text} (ha : isWordName a = true) (hb : IsBlanks bs)
    (hb' : IsBlanks bs') : readAttribute (strip (bs ++ (a ++ bs'))) = .ok (.present a) := by
  rw [strip_blanks hb hb', strip_eq_self (isTrim_name ha), readAttribute_name ha]

/-- Blanks behind a name and behind the sign of a comparison do not count. -/
lemma readAttribute_gap {bs : Text} (ha : isWordName a = true) (hb : IsBlanks bs)
    (how : Comparison) (w : Text) :
    readAttribute (a ++ (bs ++ (Test.sign how ++ w))) = .ok (.compare a how (unquote w)) := by
  obtain ⟨gap, hgap, hw⟩ := exists_skip w
  have hhead := sign_head how w
  have hname := ident?_append ha (isIdentChar_head hb fun c hc => (hhead c hc).1)
  have hskip : (bs ++ (Test.sign how ++ w)).dropWhile isBlank = Test.sign how ++ w :=
    skip_append hb fun c hc => (hhead c hc).2
  have hvalue : unquote (w.dropWhile isBlank) = unquote w := by
    conv_rhs => rw [hw, ← List.append_nil (skip w), unquote_blanks hgap isBlanks_nil]
    rfl
  have hcompare := comparison?_sign how w
  rw [readAttribute, hname]
  simp only [hskip]
  obtain ⟨d, r, hdr⟩ : ∃ d r, Test.sign how ++ w = d :: r := by
    cases how <;> exact ⟨_, _, rfl⟩
  rw [hdr] at hcompare ⊢
  simp only [hcompare, hvalue]

/-- A comparison is read, whatever blanks stand around its parts. -/
lemma readAttribute_raw {bs bs' : Text} (ha : isWordName a = true) (hb : IsBlanks bs)
    (hb' : IsBlanks bs') (how : Comparison) (raw : Text) :
    readAttribute (strip (bs ++ (a ++ (bs' ++ (Test.sign how ++ raw))))) =
      .ok (.compare a how (unquote raw)) := by
  obtain ⟨front, back, hfront, hback, hraw⟩ := exists_strip raw
  have htrim := isTrim_name ha
  by_cases hnil : strip raw = []
  · have hsign : IsTrim (Test.sign how) := isTrim_comparison how
    have hraw : IsBlanks raw := by
      rw [hraw, hnil]
      exact isBlanks_append hfront hback
    have hstrip : strip (bs ++ (a ++ (bs' ++ (Test.sign how ++ raw)))) =
        a ++ (bs' ++ (Test.sign how ++ [])) := by
      have h := strip_of_isTrim (htrim.append bs' hsign) hb hraw
      simpa only [List.append_assoc, List.append_nil] using h
    rw [hstrip, readAttribute_gap ha hb', unquote_congr (w := raw)]
    rw [hnil]
    rfl
  · have hstrip : strip (bs ++ (a ++ (bs' ++ (Test.sign how ++ raw)))) =
        a ++ (bs' ++ (Test.sign how ++ (front ++ strip raw))) := by
      have h := strip_of_isTrim (htrim.append (bs' ++ (Test.sign how ++ front)) (isTrim_strip hnil))
        hb hback
      conv_lhs => rw [hraw]
      simpa only [List.append_assoc] using h
    rw [hstrip, readAttribute_gap ha hb']
    conv_rhs => rw [hraw, unquote_blanks hfront hback]
    conv_lhs => rw [← List.append_nil (strip raw), unquote_blanks hfront isBlanks_nil]

/-- The texts between square brackets that are read. -/
lemma readAttribute_strip_ok (h : readAttribute (strip body) = .ok t) :
    (∃ a bs bs', isWordName a = true ∧ IsBlanks bs ∧ IsBlanks bs' ∧ t = .present a ∧
      body = bs ++ (a ++ bs')) ∨
    ∃ a how bs bs' raw, isWordName a = true ∧ IsBlanks bs ∧ IsBlanks bs' ∧
      t = .compare a how (unquote raw) ∧ body = bs ++ (a ++ (bs' ++ (Test.sign how ++ raw))) := by
  obtain ⟨front, back, hfront, hback, hbody⟩ := exists_strip body
  rw [readAttribute] at h
  split at h
  · simp at h
  · next a r hname =>
      obtain ⟨ha, hstrip, -⟩ := ident?_eq_some hname
      obtain ⟨bs', hb', hr⟩ := exists_skip r
      have hskip : r.dropWhile isBlank = skip r := rfl
      rw [hskip] at h
      split at h
      · next hnil =>
          refine .inl ⟨a, front, bs' ++ back, ha, hfront, isBlanks_append hb' hback,
            (Except.ok.inj h).symm, ?_⟩
          rw [hnil, List.append_nil] at hr
          rw [hbody, hstrip, hr, List.append_assoc]
      · split at h
        · next how value hsign =>
            obtain ⟨gap, hgap, hvalue⟩ := exists_skip value
            refine .inr ⟨a, how, front, bs', value ++ back, ha, hfront, hb', ?_, ?_⟩
            · have hraw : unquote (value ++ back) = unquote (skip value) := by
                conv_lhs => rw [hvalue, List.append_assoc, unquote_blanks hgap hback]
              rw [hraw]
              exact (Except.ok.inj h).symm
            · rw [hbody, hstrip, hr, eq_sign_of_comparison? hsign]
              simp only [List.append_assoc]
        · simp at h

/-! ### Tests -/

/-- The digits in the parentheses of a place, and the blanks around them. -/
lemma nthOfType?_eq_some {digits : Text} (h : nthOfType? s = some (digits, w)) :
    digits ≠ [] ∧ (∀ c ∈ digits, Text.isDigit c = true) ∧ ∃ bs bs', IsBlanks bs ∧ IsBlanks bs' ∧
      s = "nth-of-type(".toList ++ (bs ++ (digits ++ (bs' ++ ')' :: w))) := by
  obtain ⟨r, hr, h⟩ := Option.bind_eq_some_iff.mp h
  obtain ⟨bs, hb, hbs⟩ := exists_skip r
  obtain ⟨bs', hb', hbs'⟩ := exists_skip ((skip r).dropWhile Text.isDigit)
  have hs : s = "nth-of-type(".toList ++ r := by
    rw [behind?] at hr
    split_ifs at hr with hpre
    obtain ⟨t, rfl⟩ := List.isPrefixOf_iff_prefix.mp hpre
    rw [← Option.some.inj hr, List.drop_left]
  dsimp only at h
  split_ifs at h with hempty
  split at h
  · next rest hclose =>
      obtain ⟨rfl, rfl⟩ := Prod.mk.inj (Option.some.inj h)
      have hclose : skip ((skip r).dropWhile Text.isDigit) = ')' :: rest := hclose
      refine ⟨by simpa using hempty, fun c hc => List.mem_takeWhile_imp hc, bs, bs', hb, hb', ?_⟩
      rw [← hclose, ← hbs']
      have hdigits : (r.dropWhile isBlank).takeWhile Text.isDigit ++
          (skip r).dropWhile Text.isDigit = skip r := List.takeWhile_append_dropWhile
      rw [hdigits, ← hbs, hs]
  · simp at h

lemma isBlank_of_isDigit (h : Text.isDigit c = true) : isBlank c = false :=
  isBlank_of_isInert (isInert_of_isDigit h)

lemma isDigit_of_isBlank (h : isBlank c = true) : Text.isDigit c = false := by
  rw [Bool.eq_false_iff]
  intro hd
  simp [isBlank_of_isDigit hd] at h

/-- The digits of a place are read, whatever blanks stand around them. -/
lemma nthOfType?_blanks {digits bs bs' : Text} (hne : digits ≠ [])
    (hd : ∀ c ∈ digits, Text.isDigit c = true) (hb : IsBlanks bs) (hb' : IsBlanks bs') (w : Text) :
    nthOfType? ("nth-of-type(".toList ++ (bs ++ (digits ++ (bs' ++ ')' :: w)))) =
      some (digits, w) := by
  have hbehind : ∀ r : Text, behind? "nth-of-type(".toList ("nth-of-type(".toList ++ r) =
      some r := fun r => by simp [behind?]
  have hfirst : (bs ++ (digits ++ (bs' ++ ')' :: w))).dropWhile isBlank =
      digits ++ (bs' ++ ')' :: w) := by
    refine dropWhile_append_of_all hb fun c hc => ?_
    obtain ⟨d, r, rfl⟩ := List.exists_cons_of_ne_nil hne
    obtain rfl : d = c := by simpa using hc
    exact isBlank_of_isDigit (hd d List.mem_cons_self)
  have hclose : ∀ c ∈ (bs' ++ ')' :: w).head?, Text.isDigit c = false := by
    cases bs' with
    | nil =>
        rintro _ ⟨rfl⟩
        rfl
    | cons b bs' =>
        rintro _ ⟨rfl⟩
        exact isDigit_of_isBlank (hb' b List.mem_cons_self)
  have hlast : (bs' ++ ')' :: w).dropWhile isBlank = ')' :: w :=
    dropWhile_append_of_all hb' (by rintro _ ⟨rfl⟩; rfl)
  rw [nthOfType?, hbehind]
  simp only [Option.bind_eq_bind, Option.bind_some, hfirst, takeWhile_append_of_all hd hclose,
    dropWhile_append_of_all hd hclose, hlast, List.isEmpty_iff, hne, if_false]

/-- **A test is read from each text that is taken for it**, whatever test stands behind it. -/
lemma readTest_of_accepts (whole : Text) (h : t.Accepts u)
    (hr : ∀ c ∈ w.head?, startsTest c = true) :
    ∃ c r, u = c :: r ∧ readTest whole c (r ++ w) = .ok (t, w) := by
  have hends : ∀ c ∈ w.head?, (!endsName c) = false := fun c hc => by
    simp [(of_startsTest (hr c hc)).2.2.1]
  have hname : ∀ {v : Text}, v ≠ [] → (∀ c ∈ v, endsName c = false) →
      (v ++ w).takeWhile (!endsName ·) = v ∧ (v ++ w).dropWhile (!endsName ·) = w ∧
        v.isEmpty = false := by
    intro v hne hv
    have hchars : ∀ c ∈ v, (!endsName c) = true := fun c hc => by simp [hv c hc]
    exact ⟨takeWhile_append_of_all hchars hends, dropWhile_append_of_all hchars hends,
      by simpa using hne⟩
  have hbracket : ∀ {body : Text} {t : Test}, ']' ∉ body → readAttribute (strip body) = .ok t →
      readTest whole '[' (body ++ [']'] ++ w) = .ok (t, w) := by
    intro body t hb hread
    have hcut := XPath.cutAt?_append hb w
    rw [List.append_assoc, List.singleton_append]
    simp [readTest, hcut, hread, Except.map]
  have hblank : ∀ {bs : Text}, IsBlanks bs → ']' ∉ bs := fun hb hm =>
    absurd (hb ']' hm) (by decide)
  cases h with
  | @id v hne hv =>
      obtain ⟨h1, h2, h3⟩ := hname hne hv
      exact ⟨'#', v, rfl, by simp [readTest, h1, h2, h3]⟩
  | @classToken v hne hv =>
      obtain ⟨h1, h2, h3⟩ := hname hne hv
      exact ⟨'.', v, rfl, by simp [readTest, h1, h2, h3]⟩
  | @present a bs bs' ha hb hb' =>
      refine ⟨'[', _, rfl, hbracket ?_ (readAttribute_present ha hb hb')⟩
      simp [hblank hb, hblank hb', not_mem_name ha (c := ']') rfl]
  | @compare a bs bs' raw how ha hb hb' hraw =>
      refine ⟨'[', _, rfl, hbracket ?_ (readAttribute_raw ha hb hb' how raw)⟩
      simp [hblank hb, hblank hb', not_mem_name ha (c := ']') rfl, bracket_not_mem_sign, hraw]
  | @nthOfType digits bs bs' hne hd hb hb' =>
      refine ⟨':', "nth-of-type(".toList ++ (bs ++ (digits ++ (bs' ++ [')']))), rfl, ?_⟩
      have hnth := nthOfType?_blanks hne hd hb hb' w
      have htext : "nth-of-type(".toList ++ (bs ++ (digits ++ (bs' ++ [')']))) ++ w =
          "nth-of-type(".toList ++ (bs ++ (digits ++ (bs' ++ ')' :: w))) := by
        simp only [List.append_assoc, List.singleton_append]
      rw [htext]
      simp only [readTest, hnth]
      rfl

/-- **No other texts are read** as a test. -/
lemma accepts_of_readTest (h : readTest whole c s = .ok (t, w)) :
    startsTest c = true ∧ ∃ u, t.Accepts u ∧ c :: s = u ++ w := by
  unfold readTest at h
  dsimp only at h
  by_cases hname : (c == '#' || c == '.') = true
  · rw [if_pos hname] at h
    have hchars : ∀ d ∈ s.takeWhile fun d => !endsName d, endsName d = false := fun d hd => by
      simpa using List.mem_takeWhile_imp hd
    split_ifs at h with hempty hid
    · obtain ⟨rfl, rfl⟩ := Prod.mk.inj (Except.ok.inj h)
      obtain rfl := beq_iff_eq.mp hid
      exact ⟨rfl, _, .id (by simpa using hempty) hchars,
        by rw [List.cons_append, List.takeWhile_append_dropWhile]⟩
    · obtain ⟨rfl, rfl⟩ := Prod.mk.inj (Except.ok.inj h)
      obtain rfl : c = '.' := by simpa [hid] using hname
      exact ⟨rfl, _, .classToken (by simpa using hempty) hchars,
        by rw [List.cons_append, List.takeWhile_append_dropWhile]⟩
  rw [if_neg hname] at h
  by_cases hbracket : (c == '[') = true
  · rw [if_pos hbracket] at h
    obtain rfl := beq_iff_eq.mp hbracket
    split at h
    · simp at h
    · next body r hcut =>
        cases hread : readAttribute (strip body) with
        | error e => simp [hread, Except.map] at h
        | ok test =>
            rw [hread] at h
            obtain ⟨rfl, rfl⟩ := Prod.mk.inj (Except.ok.inj h)
            obtain ⟨heq, hclosing⟩ := eq_of_cutAt? hcut
            refine ⟨rfl, '[' :: body ++ [']'], ?_, by rw [heq]; simp⟩
            rcases readAttribute_strip_ok hread with ⟨a, bs, bs', ha, hb, hb', rfl, rfl⟩ |
              ⟨a, how, bs, bs', raw, ha, hb, hb', rfl, rfl⟩
            · exact .present ha hb hb'
            · refine .compare ha hb hb' fun hm => hclosing ?_
              simp [hm]
  rw [if_neg hbracket] at h
  split_ifs at h with hcolon
  obtain rfl := beq_iff_eq.mp hcolon
  split at h
  · next digits rest hnth =>
      obtain ⟨rfl, rfl⟩ := Prod.mk.inj (Except.ok.inj h)
      obtain ⟨hne, hd, bs, bs', hb, hb', rfl⟩ := nthOfType?_eq_some hnth
      refine ⟨rfl, _, .nthOfType hne hd hb hb', ?_⟩
      simp only [List.append_assoc, List.singleton_append]
      rfl
  · simp at h

/-! ### Compounds -/

/-- Only a test stands behind another one. -/
lemma startsTest_flatten (h : List.Forall₂ Test.Accepts ts us) :
    ∀ c ∈ us.flatten.head?, startsTest c = true := by
  cases h with
  | nil => simp
  | cons hu _ =>
      obtain ⟨c, r, rfl, hc⟩ := hu.exists_cons
      rintro _ ⟨rfl⟩
      exact hc

/-- **Tests are read** from each text that is taken for them. -/
lemma readTests_of_accepts (whole : Text) (h : List.Forall₂ Test.Accepts ts us) {fuel : ℕ}
    (hf : us.flatten.length ≤ fuel) : readTests whole fuel us.flatten = .ok ts := by
  induction h generalizing fuel with
  | nil => cases fuel <;> rfl
  | @cons t u ts us hu hus ih =>
      obtain ⟨c, r, rfl, hread⟩ := readTest_of_accepts whole hu (startsTest_flatten hus)
      cases fuel with
      | zero => simp at hf
      | succ fuel =>
          have hless : us.flatten.length ≤ fuel := by
            simp at hf ⊢
            omega
          have hrest := ih hless
          rw [List.flatten_cons, List.cons_append, readTests, hread]
          simp only [ok_bind, hrest]
          rfl

/-- **No other texts are read** as tests. -/
lemma accepts_of_readTests {fuel : ℕ} (hf : s.length ≤ fuel)
    (h : readTests whole fuel s = .ok ts) :
    ∃ us, List.Forall₂ Test.Accepts ts us ∧ s = us.flatten := by
  induction fuel generalizing s ts with
  | zero =>
      obtain rfl := List.length_eq_zero_iff.mp (Nat.le_zero.mp hf)
      obtain rfl := Except.ok.inj h
      exact ⟨[], .nil, rfl⟩
  | succ fuel ih =>
      cases s with
      | nil =>
          obtain rfl := Except.ok.inj h
          exact ⟨[], .nil, rfl⟩
      | cons c r =>
          rw [readTests] at h
          obtain ⟨⟨t, w⟩, hfirst, h⟩ := bind_eq_ok.mp h
          obtain ⟨others, hothers, h⟩ := bind_eq_ok.mp h
          obtain rfl := Except.ok.inj h
          obtain ⟨-, u, hu, hs⟩ := accepts_of_readTest hfirst
          have hlength : w.length ≤ fuel := by
            obtain ⟨d, v, rfl, -⟩ := hu.exists_cons
            have := congrArg List.length hs
            simp only [List.length_cons, List.length_append] at this hf
            omega
          obtain ⟨us, hus, rfl⟩ := ih hlength hothers
          exact ⟨u :: us, .cons hu hus, hs⟩

/-- The names that a compound may have. -/
def Compound.HasTag (c : Compound) : Prop := c.tag = ['*'] ∨ isWordName c.tag = true

/-- The name that is read in front of a compound, and the tests behind it. -/
lemma readTag_eq (s : Text) :
    ((readTag s).1 = ['*'] ∨ isWordName (readTag s).1 = true) ∧
      (s = (readTag s).1 ++ (readTag s).2 ∨ ((readTag s).1 = ['*'] ∧ s = (readTag s).2)) := by
  unfold readTag
  split
  · next name r hname =>
      obtain ⟨hword, hs, -⟩ := ident?_eq_some hname
      exact ⟨.inr hword, .inl hs⟩
  · split
    · exact ⟨.inl rfl, .inl rfl⟩
    · exact ⟨.inl rfl, .inr ⟨rfl, rfl⟩⟩

/-- A name is read up to the tests. -/
lemma readTag_of_accepts {x : Compound} (htag : x.HasTag)
    (h : List.Forall₂ Test.Accepts x.tests us)
    (hs : s = x.tag ++ us.flatten ∨ (x.tag = ['*'] ∧ x.tests ≠ [] ∧ s = us.flatten)) :
    readTag s = (x.tag, us.flatten) := by
  have hhead := startsTest_flatten h
  rcases hs with rfl | ⟨hstar, hne, rfl⟩
  · rcases htag with hstar | hword
    · rw [hstar]
      rfl
    · simp only [readTag, ident?_append hword fun d hd => (of_startsTest (hhead d hd)).1]
  · rw [hstar]
    generalize x.tests = ts at h hne
    cases h with
    | nil => exact absurd rfl hne
    | cons hu _ =>
        obtain ⟨c, r, rfl, hc⟩ := hu.exists_cons
        obtain ⟨-, hstart, -, hc⟩ := of_startsTest hc
        simp [readTag, ident?, hstart, hc]

/-- **The texts that are read as a compound**: an element name or none, and tests behind it. -/
theorem readCompound_eq_ok_iff {x : Compound} (hs : s ≠ []) :
    readCompound s = .ok x ↔ x.HasTag ∧ x.Writes Test.Accepts s := by
  constructor
  · intro h
    rw [readCompound] at h
    obtain ⟨htag, htext⟩ := readTag_eq s
    generalize readTag s = tagged at h htag htext
    obtain ⟨ts, hts, h⟩ := bind_eq_ok.mp h
    obtain rfl := Except.ok.inj h
    obtain ⟨us, hus, hrest⟩ := accepts_of_readTests le_rfl hts
    rw [hrest] at htext
    refine ⟨htag, us, hus, htext.imp_right ?_⟩
    rintro ⟨hstar, htests⟩
    refine ⟨hstar, ?_, htests⟩
    rintro rfl
    obtain rfl := List.forall₂_nil_left_iff.mp hus
    exact hs htests
  · rintro ⟨htag, us, hus, htext⟩
    simp only [readCompound, readTag_of_accepts htag hus htext,
      readTests_of_accepts s hus le_rfl, ok_bind, pure_eq_ok]

end Css

end Locator

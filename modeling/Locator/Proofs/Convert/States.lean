/-
Conditions that state tests

* `skipWord_eq_some`, `skipWords_eq_some`: words are passed over with the blanks around them;
* `attributeEquals?_eq_some`, `classToken?_eq_some`, `position?_eq_some`: the three kinds of
  conditions;
* `States`: the texts of the conditions that state a test, and `testOf_iff`: **a condition is
  read as the test that it states**.
-/
import Locator.Convert.ToCss
import Locator.Proofs.Convert.Compound

namespace Locator

open Text

namespace XPath

open Css

variable {s v w r a : Text} {c q : Char} {t : Test} {ws : List Text}

/-! ### Words with blanks around them -/

/-- A text of blanks of any kind, perhaps without any. -/
def IsBlanks (s : Text) : Prop := ∀ c ∈ s, isBlank c = true

lemma isBlanks_nil : IsBlanks [] := by simp [IsBlanks]

lemma isBlanks_singleton (h : isBlank c = true) : IsBlanks [c] := by
  simpa [IsBlanks] using h

/-- No blank stands in front. -/
def IsFlush (s : Text) : Prop := ∀ c ∈ s.head?, isBlank c = false

lemma isFlush_cons (h : isBlank c = false) : IsFlush (c :: r) := by
  rintro _ ⟨rfl⟩
  exact h

lemma isFlush_skip (s : Text) : IsFlush (skip s) := fun c hc => by
  have hc : (s.dropWhile isBlank).head? = some c := hc
  simpa [hc] using List.head?_dropWhile_not isBlank s

lemma skip_append {bs : Text} (hb : IsBlanks bs) (h : IsFlush r) : skip (bs ++ r) = r :=
  dropWhile_append_of_all hb h

/-- The blanks in front of a text. -/
lemma exists_skip (s : Text) : ∃ bs, IsBlanks bs ∧ s = bs ++ skip s :=
  ⟨s.takeWhile isBlank, fun _ hc => List.mem_takeWhile_imp hc,
    (List.takeWhile_append_dropWhile ..).symm⟩

/-- A word that no blank stands in front of. -/
structure IsWord (w : Text) : Prop where
  ne_nil : w ≠ []
  flush : IsFlush w

lemma IsWord.isFlush_append (h : IsWord w) (r : Text) : IsFlush (w ++ r) := by
  obtain ⟨c, u, rfl⟩ := List.exists_cons_of_ne_nil h.ne_nil
  exact h.flush

/-- **A word is passed over** with the blanks around it. -/
theorem skipWord_eq_some (hw : IsWord w) : skipWord w s = some r ↔
    ∃ bs bs', IsBlanks bs ∧ IsBlanks bs' ∧ s = bs ++ (w ++ (bs' ++ r)) ∧ IsFlush r := by
  simp only [skipWord, Option.map_eq_some_iff, behind?_eq_some]
  constructor
  · rintro ⟨u, hu, rfl⟩
    obtain ⟨bs, hb, hs⟩ := exists_skip s
    obtain ⟨bs', hb', hu'⟩ := exists_skip u
    exact ⟨bs, bs', hb, hb', by rw [← hu', ← hu, ← hs], isFlush_skip u⟩
  · rintro ⟨bs, bs', hb, hb', rfl, hr⟩
    exact ⟨bs' ++ r, skip_append hb (hw.isFlush_append _), skip_append hb' hr⟩

/-- Passes over words one after the other. -/
def skipWords : List Text → Text → Option Text
  | [], s => some s
  | w :: ws, s => (skipWord w s).bind (skipWords ws)

/-- Texts of words with blanks in front of each of them. -/
inductive SpacedWords : List Text → Text → Prop
  | nil : SpacedWords [] []
  | cons {w bs u : Text} {ws : List Text} (hb : IsBlanks bs) (hs : SpacedWords ws u) :
      SpacedWords (w :: ws) (bs ++ (w ++ u))

/-- The blanks in front of a word belong to it. -/
lemma SpacedWords.blanks {bs u : Text} (hb : IsBlanks bs) (h : SpacedWords (w :: ws) u) :
    SpacedWords (w :: ws) (bs ++ u) := by
  cases h with
  | @cons w bs' u ws hb' hs =>
      rw [← List.append_assoc]
      refine .cons (fun c hc => ?_) hs
      rcases List.mem_append.mp hc with hc | hc
      · exact hb c hc
      · exact hb' c hc

/-- **Words are passed over** one after the other, with the blanks around them. -/
theorem skipWords_eq_some (hw : ∀ w ∈ ws, IsWord w) (hne : ws ≠ []) :
    skipWords ws s = some r ↔
      ∃ u bs, SpacedWords ws u ∧ IsBlanks bs ∧ s = u ++ (bs ++ r) ∧ IsFlush r := by
  induction ws generalizing s with
  | nil => exact absurd rfl hne
  | cons w ws ih =>
      rw [List.forall_mem_cons] at hw
      simp only [skipWords, Option.bind_eq_some_iff, skipWord_eq_some hw.1]
      cases ws with
      | nil =>
          constructor
          · rintro ⟨_, ⟨bs, bs', hb, hb', rfl, hr⟩, ⟨⟩⟩
            exact ⟨bs ++ (w ++ []), bs', .cons hb .nil, hb', by simp, hr⟩
          · rintro ⟨_, bs', hu, hb', rfl, hr⟩
            cases hu with
            | @cons _ bs _ _ hb hs =>
                cases hs
                exact ⟨r, ⟨bs, bs', hb, hb', by simp, hr⟩, rfl⟩
      | cons w' ws =>
          constructor
          · rintro ⟨m, ⟨bs, bs', hb, hb', rfl, -⟩, hm⟩
            obtain ⟨u, bs'', hu, hb'', rfl, hr⟩ := (ih hw.2 (List.cons_ne_nil _ _)).mp hm
            exact ⟨bs ++ (w ++ (bs' ++ u)), bs'', .cons hb (hu.blanks hb'), hb'', by simp, hr⟩
          · rintro ⟨_, bs'', hu, hb'', rfl, hr⟩
            cases hu with
            | @cons _ bs u _ hb hs =>
                cases hs with
                | @cons _ bs' u _ hb' hs =>
                    have hw' := hw.2 w' (by simp)
                    refine ⟨w' ++ (u ++ (bs'' ++ r)), ⟨bs, bs', hb, hb', by simp, ?_⟩, ?_⟩
                    · exact hw'.isFlush_append _
                    · refine (ih hw.2 (List.cons_ne_nil _ _)).mpr
                        ⟨w' ++ u, bs'', ?_, hb'', by simp, hr⟩
                      exact .cons isBlanks_nil hs

/-! ### Conditions -/

/-- A character of a word that a condition looks for: no blank and no mark. -/
def isWordChar (c : Char) : Bool := c != '\'' && !isBlank c

/-- A word that a condition looks for. -/
def isWordText (w : Text) : Bool := !w.isEmpty && w.all isWordChar

/-- The words of a condition for a class, behind the first one. -/
def classWords : List Text :=
  ["concat(".toList, "' '".toList, [','], "normalize-space(".toList, "@class".toList, [')'],
    [','], "' '".toList, [')'], [',']]

lemma isWord_classWords : ∀ w ∈ classWords, IsWord w := by
  have hall : (classWords.all fun w => !w.isEmpty && w.head?.all fun c => !isBlank c) = true := by
    decide
  intro w hw
  have := List.all_eq_true.mp hall w hw
  simp only [Bool.and_eq_true, Bool.not_eq_true', List.isEmpty_eq_false_iff] at this
  refine ⟨this.1, fun c hc => ?_⟩
  rw [Option.mem_def.mp hc] at this
  simpa using this.2

/-- The test that compares an attribute with a value; an identifier may stand bare. -/
def equalsTest (a v : Text) : Test :=
  if a == "id".toList && isPlainIdent v then .id v else .compare a .equals v

/-- The test that looks for a class; an identifier may stand bare. -/
def classTest (w : Text) : Test :=
  if isPlainIdent w then .classToken w else .compare "class".toList .hasWord w

/-- **The conditions that state a test**: an attribute is compared with a value, a class is
looked for, or the position is compared with a number. -/
inductive States : Test → Text → Prop
  | equals {a bs bs' v : Text} {q : Char} (ha : isWordName a = true) (hb : IsBlanks bs)
      (hb' : IsBlanks bs') (hq : isQuote q = true) (hv : q ∉ v) :
      States (equalsTest a v) ('@' :: (a ++ (bs ++ '=' :: (bs' ++ (q :: v ++ [q])))))
  | word {u bs w bs' : Text} (hu : SpacedWords classWords u) (hb : IsBlanks bs)
      (hw : isWordText w = true) (hb' : IsBlanks bs') :
      States (classTest w)
        ("contains(".toList ++ (u ++ (bs ++ ("' ".toList ++ (w ++ (" '".toList ++ (bs' ++ [')'])))))))
  | position {bs bs' digits : Text} (hb : IsBlanks bs) (hb' : IsBlanks bs') (hne : digits ≠ [])
      (hd : digits.all Text.isDigit = true) :
      States (.nthOfType digits) ("position()".toList ++ (bs ++ '=' :: (bs' ++ digits)))

lemma isWord_singleton (h : isBlank c = false) : IsWord [c] :=
  ⟨List.cons_ne_nil _ _, isFlush_cons h⟩

/-- A text between quotation marks that ends there is read. -/
lemma quotedRest?_eq_some :
    quotedRest? s = some v ↔ ∃ q, isQuote q = true ∧ q ∉ v ∧ s = q :: v ++ [q] := by
  constructor
  · intro h
    cases s with
    | nil => simp [quotedRest?] at h
    | cons q r =>
        rw [quotedRest?] at h
        split_ifs at h with hq
        simp only [Bool.and_eq_true, beq_iff_eq, Bool.not_eq_true', List.contains_eq_mem,
          decide_eq_false_iff_not] at hq
        obtain rfl := Option.some.inj h
        refine ⟨q, hq.1.1, hq.2, ?_⟩
        rw [List.cons_append, List.dropLast_append_getLast? _ hq.1.2]
  · rintro ⟨q, hq, hv, rfl⟩
    simp [quotedRest?, hq, hv]

/-- The longest identifier is read. -/
lemma ident?_eq_some (h : ident? s = some (a, r)) :
    isWordName a = true ∧ s = a ++ r ∧ ∀ c ∈ r.head?, isIdentChar c = false := by
  cases s with
  | nil => simp [ident?] at h
  | cons c s =>
      rw [ident?] at h
      split_ifs at h with hc
      simp only [Option.some.injEq, Prod.mk.injEq] at h
      obtain ⟨rfl, rfl⟩ := h
      refine ⟨?_, by rw [List.cons_append, List.takeWhile_append_dropWhile], fun d hd => ?_⟩
      · rw [isWordName, hc, Bool.true_and, List.all_eq_true]
        exact fun d hd => List.mem_takeWhile_imp hd
      · simpa [Option.mem_def.mp hd] using List.head?_dropWhile_not isIdentChar s

lemma isIdentChar_of_isBlank (h : isBlank c = true) : isIdentChar c = false := by
  rw [Bool.eq_false_iff]
  intro hc
  simp [isBlank_of_isInert (isInert_of_isIdentChar hc)] at h

/-- A comparison with a value is read. -/
lemma attributeEquals?_eq_some : attributeEquals? s = some (a, v) ↔
    isWordName a = true ∧ ∃ bs bs' q, IsBlanks bs ∧ IsBlanks bs' ∧ isQuote q = true ∧ q ∉ v ∧
      s = '@' :: (a ++ (bs ++ '=' :: (bs' ++ (q :: v ++ [q])))) := by
  constructor
  · intro h
    unfold attributeEquals? at h
    split at h
    · next s =>
        simp only [Option.bind_eq_bind, Option.bind_eq_some_iff, Option.pure_def,
          Option.some.injEq, Prod.exists, Prod.mk.injEq,
          skipWord_eq_some (isWord_singleton (c := '=') rfl),
          quotedRest?_eq_some] at h
        obtain ⟨a', r, hname, r', ⟨bs, bs', hb, hb', rfl, -⟩, v', ⟨q, hq, hv, rfl⟩, rfl, rfl⟩ := h
        obtain ⟨ha, rfl, -⟩ := ident?_eq_some hname
        exact ⟨ha, bs, bs', q, hb, hb', hq, hv, rfl⟩
    · simp at h
  · rintro ⟨ha, bs, bs', q, hb, hb', hq, hv, rfl⟩
    have hname : ident? (a ++ (bs ++ '=' :: (bs' ++ (q :: v ++ [q])))) =
        some (a, bs ++ '=' :: (bs' ++ (q :: v ++ [q]))) := by
      refine ident?_append ha fun c hc => ?_
      cases bs with
      | nil =>
          obtain rfl : '=' = c := Option.some.inj hc
          rfl
      | cons b bs =>
          obtain rfl : b = c := Option.some.inj hc
          exact isIdentChar_of_isBlank (hb b (by simp))
    have hword := (skipWord_eq_some (isWord_singleton (c := '=') rfl) (r := q :: v ++ [q])).mpr
      ⟨bs, bs', hb, hb', rfl, isFlush_cons (isBlank_of_isQuote hq)⟩
    have hvalue := quotedRest?_eq_some.mpr ⟨q, hq, hv, rfl⟩
    rw [List.singleton_append] at hword
    simp only [attributeEquals?, hname, Option.bind_eq_bind, Option.bind_some, hword, hvalue,
      Option.pure_def]

/-- Only an attribute starts with an at sign. -/
lemma attributeEquals?_of_ne (h : ∀ r, s ≠ '@' :: r) : attributeEquals? s = none := by
  cases s with
  | nil => rfl
  | cons c r =>
      rw [attributeEquals?]
      intro r' heq
      exact h r' heq

/-- The word between blanks and quotation marks, if a parenthesis closes behind it. -/
def paddedWord? (s : Text) : Option Text :=
  (behind? "' ".toList s).bind fun r =>
    (behind? " '".toList (r.drop (r.takeWhile isWordChar).length)).bind fun r' =>
      if (r.takeWhile isWordChar).isEmpty then none
      else if skip r' == [')'] then some (r.takeWhile isWordChar) else none

/-- A word between blanks and quotation marks is read. -/
lemma paddedWord?_eq_some : paddedWord? s = some w ↔ isWordText w = true ∧
    ∃ bs, IsBlanks bs ∧ s = "' ".toList ++ (w ++ (" '".toList ++ (bs ++ [')']))) := by
  simp only [paddedWord?, Option.bind_eq_some_iff, behind?_eq_some]
  constructor
  · rintro ⟨r, rfl, r', hr', h⟩
    split_ifs at h with hne hclose
    obtain rfl := Option.some.inj h
    obtain ⟨bs, hb, hs⟩ := exists_skip r'
    have hsplit : r.takeWhile isWordChar ++ r.drop (r.takeWhile isWordChar).length = r := by
      have hall := List.takeWhile_append_dropWhile (p := isWordChar) (l := r)
      have hdrop : (r.takeWhile isWordChar ++ r.dropWhile isWordChar).drop
          (r.takeWhile isWordChar).length = r.dropWhile isWordChar := List.drop_left
      rw [hall] at hdrop
      rw [hdrop, hall]
    refine ⟨?_, bs, hb, ?_⟩
    · rw [isWordText, Bool.and_eq_true, List.all_eq_true]
      exact ⟨by simpa using hne, fun c hc => List.mem_takeWhile_imp hc⟩
    · rw [beq_iff_eq.mp hclose] at hs
      rw [← hs, ← hr', hsplit]
  · rintro ⟨hw, bs, hb, rfl⟩
    simp only [isWordText, Bool.and_eq_true, List.all_eq_true] at hw
    have htake : (w ++ (" '".toList ++ (bs ++ [')']))).takeWhile isWordChar = w :=
      takeWhile_append_of_all hw.2 (by rintro _ ⟨rfl⟩; rfl)
    have hskip : skip (bs ++ [')']) = [')'] := skip_append hb (isFlush_cons rfl)
    refine ⟨_, rfl, bs ++ [')'], by rw [htake, List.drop_left], ?_⟩
    rw [htake, hskip, if_neg (by simpa using hw.1), if_pos (beq_self_eq_true _)]

/-- The condition for a class is read word by word. -/
lemma classToken?_eq (s : Text) : classToken? s =
    (behind? "contains(".toList s).bind fun r => (skipWords classWords r).bind paddedWord? := by
  simp only [classWords, skipWords, Option.bind_assoc, Option.bind_some]
  rfl

/-- A condition for a class is read. -/
lemma classToken?_eq_some : classToken? s = some w ↔ isWordText w = true ∧
    ∃ u bs bs', SpacedWords classWords u ∧ IsBlanks bs ∧ IsBlanks bs' ∧
      s = "contains(".toList ++ (u ++ (bs ++ ("' ".toList ++ (w ++ (" '".toList ++
        (bs' ++ [')'])))))) := by
  have hne : classWords ≠ [] := List.cons_ne_nil _ _
  simp only [classToken?_eq, Option.bind_eq_some_iff, paddedWord?_eq_some, behind?_eq_some,
    skipWords_eq_some isWord_classWords hne]
  constructor
  · rintro ⟨_, rfl, _, ⟨u, bs, hu, hb, rfl, -⟩, hw, bs', hb', rfl⟩
    exact ⟨hw, u, bs, bs', hu, hb, hb', rfl⟩
  · rintro ⟨hw, u, bs, bs', hu, hb, hb', rfl⟩
    exact ⟨_, rfl, _, ⟨u, bs, hu, hb, rfl, isFlush_cons rfl⟩, hw, bs', hb', rfl⟩

/-- A comparison with the position is read. -/
lemma position?_eq_some {digits : Text} : position? s = some digits ↔
    digits ≠ [] ∧ digits.all Text.isDigit = true ∧ ∃ bs bs', IsBlanks bs ∧ IsBlanks bs' ∧
      s = "position()".toList ++ (bs ++ '=' :: (bs' ++ digits)) := by
  simp only [position?, Option.bind_eq_bind, Option.bind_eq_some_iff, behind?_eq_some,
    skipWord_eq_some (isWord_singleton (c := '=') rfl)]
  constructor
  · rintro ⟨_, rfl, r, ⟨bs, bs', hb, hb', rfl, -⟩, h⟩
    split_ifs at h with hr
    obtain rfl := Option.some.inj h
    rw [Bool.and_eq_true] at hr
    exact ⟨by simpa using hr.1, hr.2, bs, bs', hb, hb', rfl⟩
  · rintro ⟨hne, hd, bs, bs', hb, hb', rfl⟩
    have hflush : IsFlush digits := by
      obtain ⟨c, r, rfl⟩ := List.exists_cons_of_ne_nil hne
      exact isFlush_cons (isBlank_of_isInert (isInert_digits hd c (by simp)))
    refine ⟨_, rfl, digits, ⟨bs, bs', hb, hb', rfl, hflush⟩, ?_⟩
    rw [hd, Bool.and_true, if_pos (by simpa using hne)]

/-- **A condition is read as the test that it states.** -/
theorem testOf_iff : testOf s = some t ↔ States t s := by
  constructor
  · intro h
    rw [testOf] at h
    split at h
    · next a v heq =>
        obtain ⟨ha, bs, bs', q, hb, hb', hq, hv, rfl⟩ := attributeEquals?_eq_some.mp heq
        have ht : equalsTest a v = t := by
          rw [equalsTest]
          split_ifs at h ⊢ <;> exact Option.some.inj h
        exact ht ▸ .equals ha hb hb' hq hv
    · split at h
      · next w heq =>
          obtain ⟨hw, u, bs, bs', hu, hb, hb', rfl⟩ := classToken?_eq_some.mp heq
          have ht : classTest w = t := by
            rw [classTest]
            split_ifs at h ⊢ <;> exact Option.some.inj h
          exact ht ▸ .word hu hb hw hb'
      · obtain ⟨digits, hdigits, rfl⟩ := Option.map_eq_some_iff.mp h
        obtain ⟨hne, hd, bs, bs', hb, hb', rfl⟩ := position?_eq_some.mp hdigits
        exact .position hb hb' hne hd
  · intro h
    cases h with
    | @equals a bs bs' v q ha hb hb' hq hv =>
        have hread := attributeEquals?_eq_some.mpr ⟨ha, bs, bs', q, hb, hb', hq, hv, rfl⟩
        rw [testOf, hread]
        simp only [equalsTest]
        split_ifs <;> rfl
    | @word u bs w bs' hu hb hw hb' =>
        have hattribute := attributeEquals?_of_ne (s := "contains(".toList ++ (u ++ (bs ++
          ("' ".toList ++ (w ++ (" '".toList ++ (bs' ++ [')']))))))) fun r heq =>
            absurd (List.cons.inj heq).1 (by decide)
        have hread := classToken?_eq_some.mpr ⟨hw, u, bs, bs', hu, hb, hb', rfl⟩
        rw [testOf, hattribute, hread]
        simp only [classTest]
        split_ifs <;> rfl
    | @position bs bs' digits hb hb' hne hd =>
        have hattribute := attributeEquals?_of_ne (s := "position()".toList ++
          (bs ++ '=' :: (bs' ++ digits))) fun r heq => absurd (List.cons.inj heq).1 (by decide)
        have hclass : classToken? ("position()".toList ++ (bs ++ '=' :: (bs' ++ digits))) = none :=
          rfl
        have hread := position?_eq_some.mpr ⟨hne, hd, bs, bs', hb, hb', rfl⟩
        rw [testOf, hattribute, hclass, hread]
        rfl

end XPath

end Locator

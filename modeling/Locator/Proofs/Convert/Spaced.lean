/-
Conditions and steps with blanks between their parts

* `States.isTidy`, `StepText.isTidy`: conditions and steps are tidy texts;
* `reads_spacedClass`, `reads_of_states`: **a condition of an ordinary expression** is read as
  that of the test it states, whatever blanks stand in it;
* `StepText.exists_reads`: **a step of an ordinary expression** is read with predicates that
  hold the conditions of its tests.
-/
import Locator.Proofs.Convert.Condition
import Locator.Proofs.Convert.Ordinary

namespace Locator.XPath

open Text Css

variable {s u r a v w bs bs' p body : Text} {q : Char} {t : Test} {ts : List Test}
  {ws : List Text} {tss : List (List Test)} {tag : Text} {placed : Bool}

/-! ### Tidy texts -/

lemma isTidy_blanks (h : IsBlanks bs) : IsTidy bs := by
  refine .of_plain fun c hc => ⟨?_, ?_⟩
  · rw [Bool.eq_false_iff]
    intro hq
    have hblank := h c hc
    rw [isBlank_of_isQuote hq] at hblank
    exact absurd hblank Bool.false_ne_true
  · rintro rfl
    exact absurd (h _ hc) (by decide)

lemma isTidy_inert (h : ∀ c ∈ s, isInert c = true) : IsTidy s := by
  refine .of_plain fun c hc => ⟨?_, ?_⟩
  · have h1 : c ≠ '"' := ne_of_isInert (h c hc) rfl
    have h2 : c ≠ '\'' := ne_of_isInert (h c hc) rfl
    simp [isQuote, h1, h2]
  · exact ne_of_isInert (h c hc) rfl

lemma isTidy_classWords : ∀ w ∈ classWords, IsTidy w := by
  have hall : ∀ w ∈ classWords, w = "' '".toList ∨ ∀ c ∈ w, isQuote c = false ∧ c ≠ '/' := by decide
  intro w hw
  rcases hall w hw with rfl | h
  · exact isTidy_literal (q := '\'') (v := [' ']) rfl (by decide)
  · exact .of_plain h

lemma SpacedWords.isTidy (h : SpacedWords ws u) (hw : ∀ w ∈ ws, IsTidy w) : IsTidy u := by
  induction h with
  | nil => exact .nil
  | cons hb _ ih =>
      rw [List.forall_mem_cons] at hw
      exact (isTidy_blanks hb).append (hw.1.append (ih hw.2))

lemma not_mem_wordText (hw : isWordText w = true) : '\'' ∉ ' ' :: w ++ [' '] := by
  simpa using mark_not_mem_wordText hw

/-- The literal of a word between blanks. -/
lemma spacedLiteral_eq (w r : Text) :
    "' ".toList ++ (w ++ (" '".toList ++ r)) = '\'' :: (' ' :: w ++ [' ']) ++ ['\''] ++ r := by
  have hopen : "' ".toList = ['\'', ' '] := rfl
  have hclose : " '".toList = [' ', '\''] := rfl
  rw [hopen, hclose]
  simp only [List.append_assoc, List.cons_append, List.nil_append]

/-- A condition is a tidy text. -/
lemma States.isTidy (h : States t u) : IsTidy u := by
  cases h with
  | @equals a bs bs' v q ha hb hb' hq hv =>
      have hat : IsTidy ['@'] := .of_plain (by decide)
      have hsign : IsTidy ['='] := .of_plain (by decide)
      exact hat.append ((isTidy_inert (isInert_name ha)).append ((isTidy_blanks hb).append
        (hsign.append ((isTidy_blanks hb').append (isTidy_literal hq hv)))))
  | @word u bs w bs' hu hb hw hb' =>
      have hopen : IsTidy "contains(".toList := .of_plain (by decide)
      have hclose : IsTidy [')'] := .of_plain (by decide)
      rw [spacedLiteral_eq]
      exact hopen.append ((hu.isTidy isTidy_classWords).append ((isTidy_blanks hb).append
        ((isTidy_literal rfl (not_mem_wordText hw)).append ((isTidy_blanks hb').append hclose))))
  | @position bs bs' digits hb hb' _ hd =>
      have hopen : IsTidy "position()".toList := .of_plain (by decide)
      have hsign : IsTidy ['='] := .of_plain (by decide)
      exact hopen.append ((isTidy_blanks hb).append (hsign.append ((isTidy_blanks hb').append
        (isTidy_inert (isInert_digits hd)))))

lemma Padded.isTidy (h : Padded u s) (hu : IsTidy u) : IsTidy s := by
  obtain ⟨bs, bs', hb, hb', rfl⟩ := h
  exact (isTidy_blanks hb).append (hu.append (isTidy_blanks hb'))

lemma isTidy_parts {parts : List Text}
    (h : List.Forall₂ (fun t p => ∃ u, Padded u p ∧ States t u) ts parts) :
    ∀ p ∈ parts, IsTidy p := by
  intro p hp
  obtain ⟨t, -, u, hu, hstates⟩ := exists_mem_of_forall₂ h hp
  exact hu.isTidy hstates.isTidy

lemma isTidy_and : IsTidy " and ".toList := .of_plain (by decide)

lemma StatesAll.isTidy (h : StatesAll ts body) : IsTidy body := by
  obtain ⟨t, ts', part, parts, rfl, hbody, hparts⟩ := h
  exact hbody.isTidy (.join isTidy_and (isTidy_parts hparts))

lemma isTidy_bracketed (h : IsTidy body) : IsTidy (bracketed body) := by
  have hopen : IsTidy ['['] := .of_plain (by decide)
  have hclose : IsTidy [']'] := .of_plain (by decide)
  exact (hopen.append h).append hclose

lemma isTidy_tag (h : tag = ['*'] ∨ isWordName tag = true) : IsTidy tag := by
  rcases h with hstar | hname
  · rw [hstar]
    exact .of_plain (by decide)
  · exact isTidy_inert (isInert_name hname)

/-- A step is a tidy text. -/
lemma StepText.isTidy (h : StepText tag tss s) : IsTidy s := by
  obtain ⟨htag, bodies, hbodies, hs⟩ := h
  refine hs.isTidy ((isTidy_tag htag).append (.flatMap fun body hbody => ?_))
  obtain ⟨ts, -, hts⟩ := exists_mem_of_forall₂ hbodies hbody
  exact isTidy_bracketed hts.isTidy

/-! ### Conditions are read -/

/-- The blanks in front of a word with what stands behind it. -/
lemma SpacedWords.exists_spaces (h : SpacedWords (w :: ws) u) (hw : IsClosed w)
    (ho : IsOrdinary placed (u ++ r)) :
    ∃ bs u', IsSpaces bs ∧ u = bs ++ (w ++ u') ∧ SpacedWords ws u' ∧ IsOrdinary placed (u' ++ r) := by
  cases h with
  | @cons w bs u' ws hb hs =>
      rw [List.append_assoc, List.append_assoc] at ho
      exact ⟨bs, u', ho.left.isSpaces hb, rfl, hs, (ho.right (isTidy_blanks hb).closed).right hw⟩

/-- A literal is read. -/
lemma reads_quoted (hq : isQuote q = true) (hv : q ∉ v) : Reads 0 0 (q :: v ++ [q]) (.literal v) := by
  simp only [isQuote, Bool.or_eq_true, beq_iff_eq] at hq
  rcases hq with rfl | rfl
  · exact reads_inDouble hv
  · exact reads_inSingle hv

/-- The classes between blanks are read, whatever blanks stand between the words. -/
lemma reads_spacedClass (h : SpacedWords classWords u) (ho : IsOrdinary placed (u ++ r)) :
    IsOrdinary placed r ∧ ∃ s, ReadsBehind 2 loosest s (paddedExpr "class".toList) ∧ u = s ++ [','] := by
  have hclosed := fun w hw => (isTidy_classWords w hw).closed
  obtain ⟨b₀, u₀, hb₀, rfl, h, ho⟩ := h.exists_spaces (hclosed _ (by decide)) ho
  obtain ⟨b₁, u₁, hb₁, rfl, h, ho⟩ := h.exists_spaces (hclosed _ (by decide)) ho
  obtain ⟨b₂, u₂, hb₂, rfl, h, ho⟩ := h.exists_spaces (hclosed _ (by decide)) ho
  obtain ⟨b₃, u₃, hb₃, rfl, h, ho⟩ := h.exists_spaces (hclosed _ (by decide)) ho
  obtain ⟨b₄, u₄, hb₄, rfl, h, ho⟩ := h.exists_spaces (hclosed _ (by decide)) ho
  obtain ⟨b₅, u₅, hb₅, rfl, h, ho⟩ := h.exists_spaces (hclosed _ (by decide)) ho
  obtain ⟨b₆, u₆, hb₆, rfl, h, ho⟩ := h.exists_spaces (hclosed _ (by decide)) ho
  obtain ⟨b₇, u₇, hb₇, rfl, h, ho⟩ := h.exists_spaces (hclosed _ (by decide)) ho
  obtain ⟨b₈, u₈, hb₈, rfl, h, ho⟩ := h.exists_spaces (hclosed _ (by decide)) ho
  obtain ⟨b₉, u₉, hb₉, rfl, h, ho⟩ := h.exists_spaces (hclosed _ (by decide)) ho
  cases h
  have hattribute : ReadsBehind 0 loosest (b₄ ++ ("@class".toList ++ b₅))
      (attributeExpr "class".toList) :=
    (reads_attribute isName_class).behind.lift le_rfl (Nat.zero_le _) |>.spaces hb₄ hb₅
  have hblank : ∀ {bs bs'}, IsSpaces bs → IsSpaces bs' →
      ReadsBehind 1 loosest (bs ++ ("' '".toList ++ bs')) (.literal [' ']) := fun hb hb' =>
    (reads_quoted (q := '\'') (v := [' ']) rfl (by decide)).behind.lift (Nat.zero_le _)
      (Nat.zero_le _) |>.spaces hb hb'
  have hwords := closed_call_spaced isCallName_normalizeSpace hattribute .nil
  have hmiddle := (hwords.toReads.behind.lift (k := loosest) le_rfl (Nat.zero_le _)).spaces hb₃ hb₆
  have hall := closed_call_spaced isCallName_concat (hblank hb₁ hb₂)
    (.cons hmiddle (.cons (hblank hb₇ hb₈) .nil))
  refine ⟨ho, _, (hall.toReads.behind.lift le_rfl (Nat.zero_le _)).spaces hb₀ hb₉, ?_⟩
  have hconcat : "concat(".toList = "concat".toList ++ ['('] := rfl
  have hnormalize : "normalize-space(".toList = "normalize-space".toList ++ ['('] := rfl
  rw [hconcat, hnormalize]
  simp only [join_cons, List.flatMap_cons, List.flatMap_nil, List.append_assoc, List.cons_append,
    List.nil_append, List.append_nil]

/-- A condition for an attribute with a value is read. -/
lemma reads_spacedEquals (ha : isPlainName a = true) (hb : IsSpaces bs) (hb' : IsSpaces bs')
    (hq : isQuote q = true) (hv : q ∉ v) :
    Reads 0 5 ('@' :: (a ++ (bs ++ '=' :: (bs' ++ (q :: v ++ [q])))))
      (.binary .eq (attributeExpr a) (.literal v)) := by
  have hname : Reads 0 4 ('@' :: a) (attributeExpr a) :=
    (reads_attribute (isName_of_isPlainName ha)).lift (by omega) (by omega)
  have h := hname.binary (sign_equals.spaces hb hb') ((reads_quoted hq hv).lift (by omega) (by omega))
  have htext : '@' :: (a ++ (bs ++ '=' :: (bs' ++ (q :: v ++ [q])))) =
      '@' :: a ++ (bs ++ (['='] ++ bs')) ++ (q :: v ++ [q]) := by
    simp only [List.append_assoc, List.cons_append, List.nil_append]
  rw [htext]
  exact h

/-- A condition for a position is read. -/
lemma reads_spacedPosition {digits : Text} (hb : IsSpaces bs) (hb' : IsSpaces bs')
    (hd : IsDigits digits) :
    Reads 0 5 ("position()".toList ++ (bs ++ '=' :: (bs' ++ digits)))
      (.binary .eq (.call none "position".toList []) (.number (.ofDigits digits))) := by
  have hposition : Reads 0 4 ("position".toList ++ ['(', ')'])
      (.call none "position".toList []) :=
    (reads_call_nil isCallName_position).lift le_rfl (by omega)
  have h := hposition.binary (sign_equals.spaces hb hb') ((reads_digits hd).lift le_rfl (by omega))
  have hopen : "position()".toList = "position".toList ++ ['(', ')'] := rfl
  rw [hopen]
  simpa only [List.append_assoc, List.cons_append, List.nil_append] using h

/-- A condition for a word is read, whatever blanks stand in it. -/
lemma reads_spacedWord (hs : ReadsBehind 2 loosest s (paddedExpr "class".toList))
    (hb : IsSpaces bs) (hb' : IsSpaces bs') (hw : isWordText w = true) :
    Reads 3 0 ("contains(".toList ++ (s ++ [','] ++ (bs ++ ("' ".toList ++
      (w ++ (" '".toList ++ (bs' ++ [')'])))))))
      (Comparison.hasWord.expr pathSpelling "class".toList w) := by
  have hliteral := (reads_quoted rfl (not_mem_wordText hw)).behind.lift (m := 2) (k := loosest)
    (Nat.zero_le _) (Nat.zero_le _) |>.spaces hb hb'
  have h := (closed_call_spaced isCallName_contains hs (.cons hliteral .nil)).toReads
  have hname : "contains(".toList = "contains".toList ++ ['('] := rfl
  have htext : "contains(".toList ++ (s ++ [','] ++ (bs ++ ("' ".toList ++
      (w ++ (" '".toList ++ (bs' ++ [')'])))))) = "contains".toList ++ '(' :: (join [','] [s,
        bs ++ ('\'' :: (' ' :: w ++ [' ']) ++ ['\''] ++ bs')] ++ [')']) := by
    rw [spacedLiteral_eq, hname]
    simp only [join_cons, List.flatMap_cons, List.flatMap_nil, List.append_assoc,
      List.cons_append, List.nil_append]
  rw [htext]
  exact h

/-- **What a condition of an ordinary expression states**: a test that queries read as it is
meant and that asks for something. It counts only where positions are allowed. -/
structure IsOrdinaryTest (placed : Bool) (t : Test) : Prop where
  formed : t.isFormed = true
  takes : t.takes = true
  placed : t.counts = true → placed = true

/-- A test that counts nothing may stand everywhere. -/
lemma IsOrdinaryTest.of_counts (hformed : t.isFormed = true) (htakes : t.takes = true)
    (hcounts : t.counts = false) : IsOrdinaryTest placed t :=
  ⟨hformed, htakes, fun h => absurd (hcounts.symm.trans h) Bool.false_ne_true⟩

/-- The test for a value of plain characters. -/
lemma isOrdinaryTest_equalsTest (ha : isPlainName a = true) (hv : v.all isPlainChar = true)
    (hq : isQuotable v = true) : IsOrdinaryTest placed (equalsTest a v) := by
  rw [equalsTest]
  split_ifs with hident
  · rw [Bool.and_eq_true] at hident
    exact .of_counts hident.2 rfl rfl
  · refine .of_counts ?_ rfl rfl
    rw [Test.isFormed, ha, hv, hq]
    rfl

/-- A word between blanks asks for something. -/
lemma takes_of_isWordText (hw : isWordText w = true) : Comparison.hasWord.takes w = true := by
  simp only [isWordText, Bool.and_eq_true, List.all_eq_true] at hw
  simp only [Comparison.takes, Bool.and_eq_true, List.all_eq_true, Bool.not_eq_true']
  refine ⟨by simpa using hw.1, fun c hc => ?_⟩
  have hblank := hw.2 c hc
  simp only [isWordChar, Bool.and_eq_true, Bool.not_eq_true'] at hblank
  rw [Bool.eq_false_iff]
  intro hspace
  rw [isBlank_of_isCssSpace hspace] at hblank
  exact absurd hblank.2 (by decide)

/-- The test for a word of plain characters. -/
lemma isOrdinaryTest_classTest (hw : isWordText w = true) (hchars : w.all isPlainChar = true) :
    IsOrdinaryTest placed (classTest w) := by
  rw [classTest]
  split_ifs with hident
  · exact .of_counts hident rfl rfl
  · refine .of_counts ?_ (takes_of_isWordText hw) rfl
    have hquotable : isQuotable w = true := isQuotable_iff.mpr (.inr (mark_not_mem_wordText hw))
    have hname : isPlainName "class".toList = true := rfl
    rw [Test.isFormed, hname, hchars, hquotable]
    rfl

/-- The test for an identifier is read as the comparison with it. -/
lemma pathExpr_equalsTest (a v : Text) :
    (equalsTest a v).pathExpr = .binary .eq (attributeExpr a) (.literal v) := by
  rw [equalsTest]
  split_ifs with hident
  · rw [Bool.and_eq_true, beq_iff_eq] at hident
    obtain ⟨rfl, -⟩ := hident
    rfl
  · rfl

lemma pathExpr_classTest (w : Text) :
    (classTest w).pathExpr = Comparison.hasWord.expr pathSpelling "class".toList w := by
  rw [classTest]
  split_ifs <;> rfl

/-- **A condition of an ordinary expression** is read as that of the test it states. -/
theorem reads_of_states (h : States t u) (ho : IsOrdinary placed u) :
    IsOrdinaryTest placed t ∧ Reads 3 5 u t.pathExpr := by
  cases h with
  | @equals a bs bs' v q ha hb hb' hq hv =>
      have hat : IsClosed ['@'] := rfl
      have hname := ho.right (a := ['@']) hat
      have hplain := hname.left.isPlainName ha
      have hblanks := hname.right (isTidy_inert (isInert_name ha)).closed
      have hsign : IsClosed ['='] := rfl
      have hvalue := (hblanks.right (isTidy_blanks hb).closed).right (a := ['=']) hsign
      have htext := (hvalue.right (isTidy_blanks hb').closed).isPlainText hq hv
      have hread := reads_spacedEquals hplain (hblanks.left.isSpaces hb) (hvalue.left.isSpaces hb')
        hq hv
      rw [pathExpr_equalsTest]
      exact ⟨isOrdinaryTest_equalsTest hplain htext (isQuotable_of_not_mem hq hv),
        hread.lift (by omega) (by omega)⟩
  | @word u bs w bs' hu hb hw hb' =>
      have hopen : IsClosed "contains(".toList := by decide
      obtain ⟨hrest, s, hs, rfl⟩ := reads_spacedClass hu (ho.right hopen)
      have hliteral := not_mem_wordText hw
      rw [spacedLiteral_eq] at hrest
      have hvalue := hrest.right (isTidy_blanks hb).closed
      have hend := hvalue.right (isTidy_literal rfl hliteral).closed
      have htext := hvalue.left.isPlainText rfl hliteral
      simp only [List.all_cons, List.cons_append, List.all_append, Bool.and_eq_true] at htext
      have hread := reads_spacedWord hs (hrest.left.isSpaces hb) (hend.left.isSpaces hb') hw
      rw [pathExpr_classTest]
      exact ⟨isOrdinaryTest_classTest hw htext.2.1, hread.lift (by omega) (by omega)⟩
  | @position bs bs' digits hb hb' hne hd =>
      have hplaced : placed = true := by
        by_contra hnot
        exact ho.unplaced (Bool.eq_false_of_not_eq_true hnot) [] _ rfl isClosed_nil
      have hopen : IsClosed "position()".toList := by decide
      have hsign : IsClosed ['='] := rfl
      have hblanks := ho.right hopen
      have hvalue := (hblanks.right (isTidy_blanks hb).closed).right (a := ['=']) hsign
      have hdigits := hvalue.right (isTidy_blanks hb').closed
      have hascii : digits.all Char.isDigit = true := hdigits.isDigit hd
      have hformed : (Test.nthOfType digits).isFormed = true := by
        rw [Test.isFormed, hascii, Bool.and_true, Bool.not_eq_true', List.isEmpty_eq_false_iff]
        exact hne
      have hread := reads_spacedPosition (hblanks.left.isSpaces hb) (hvalue.left.isSpaces hb')
        ⟨hne, List.all_eq_true.mp hascii⟩
      exact ⟨⟨hformed, rfl, fun _ => hplaced⟩, hread.lift (by omega) le_rfl⟩

/-! ### Steps are read -/

lemma Padded.isSpaces (h : Padded u s) (hu : IsClosed u) (ho : IsOrdinary placed s) :
    ∃ bs bs', IsSpaces bs ∧ IsOrdinary placed u ∧ IsSpaces bs' ∧ s = bs ++ (u ++ bs') := by
  obtain ⟨bs, bs', hb, hb', rfl⟩ := h
  have hrest := ho.right (isTidy_blanks hb).closed
  exact ⟨bs, bs', ho.left.isSpaces hb, hrest.left, (hrest.right hu).isSpaces hb', rfl⟩

/-- The conditions of a predicate of an ordinary expression are read together. -/
lemma StatesAll.exists_reads (h : StatesAll ts body) (ho : IsOrdinary placed body) :
    (∀ t ∈ ts, IsOrdinaryTest placed t) ∧
      ∃ e, Css.conditions Test.pathExpr ts = [e] ∧ ReadsBehind 3 6 body e := by
  obtain ⟨t, ts', part, parts, rfl, hbody, hparts⟩ := h
  have htidy := isTidy_parts hparts
  have hjoin := Outside.join isTidy_and htidy
  obtain ⟨bs, bs', hb, hinner, hb', rfl⟩ := hbody.isSpaces hjoin.closed ho
  have hordinary := hinner.join isTidy_and.closed fun p hp => (htidy p hp).closed
  have hall : List.Forall₂ (fun t p => IsOrdinaryTest placed t ∧
      ReadsBehind 3 5 p t.pathExpr) (t :: ts') (part :: parts) := by
    refine .flip (List.Forall₂.imp ?_ ((List.forall₂_and_left _ _).mpr ⟨hordinary, hparts.flip⟩))
    rintro p t ⟨hp, u, hu, hstates⟩
    obtain ⟨bs, bs', hb, hou, hb', rfl⟩ := hu.isSpaces hstates.isTidy.closed hp
    obtain ⟨htest, hread⟩ := reads_of_states hstates hou
    exact ⟨htest, hread.behind.spaces hb hb'⟩
  obtain ⟨htests, hreads⟩ := (List.forall₂_and_left _ _).mp hall
  refine ⟨htests, _, rfl, ?_⟩
  obtain ⟨hfirst, hrest⟩ := List.forall₂_cons.mp hreads
  have hrest : List.Forall₂ (ReadsBehind 3 5) parts (ts'.map Test.pathExpr) :=
    List.forall₂_map_right_iff.mpr hrest.flip
  exact (ReadsBehind.join sign_and hfirst hrest).spaces hb hb'

/-- The predicates of a step that holds tests in brackets. -/
def predicatesOf (tss : List (List Test)) : List Expr := tss.flatMap (Css.conditions Test.pathExpr)

/-- Brackets whose tests are read together are read one after the other. -/
lemma readsBehind_predicatesOf {bodies : List Text} (h : List.Forall₂ (fun ts body =>
    ∃ e, Css.conditions Test.pathExpr ts = [e] ∧ ReadsBehind 3 6 body e) tss bodies) :
    List.Forall₂ (ReadsBehind 3 loosest) bodies (predicatesOf tss) := by
  induction h with
  | nil => exact .nil
  | @cons ts body tss bodies hbody _ ih =>
      obtain ⟨e, he, hread⟩ := hbody
      rw [predicatesOf, List.flatMap_cons, he]
      exact .cons (hread.lift le_rfl (by decide)) ih

/-- **A step of an ordinary expression** is read with one predicate for each bracket. -/
theorem StepText.exists_reads (h : StepText tag tss s) (ho : IsOrdinary placed s) :
    Compound.isFormed ⟨tag, tss.flatten⟩ = true ∧ (∀ t ∈ tss.flatten, IsOrdinaryTest placed t) ∧
      ∃ bs u : Text, IsSpaces bs ∧ StepReads 4 u .child
        (Compound.nodeTest ⟨tag, tss.flatten⟩) (predicatesOf tss) ∧ s = bs ++ u := by
  have hclosed := h.isTidy.closed
  obtain ⟨htag, bodies, hbodies, hs⟩ := h
  have hbracketed : ∀ body ∈ bodies, IsTidy (bracketed body) := fun body hbody => by
    obtain ⟨ts, -, hts⟩ := exists_mem_of_forall₂ hbodies hbody
    exact isTidy_bracketed hts.isTidy
  have htagtidy := isTidy_tag htag
  obtain ⟨bs, bs', hb, hinner, hb', rfl⟩ :=
    hs.isSpaces (htagtidy.append (.flatMap hbracketed)).closed ho
  have hordinary : ∀ body ∈ bodies, IsOrdinary placed body := fun body hbody => by
    have hopen : IsClosed ['['] := rfl
    have hwhole := (hinner.right htagtidy.closed).flatMap
      (fun body hbody => (hbracketed body hbody).closed) body hbody
    exact (hwhole.left (a := '[' :: body) (b := [']'])).right (a := ['[']) hopen
  have hall : List.Forall₂ (fun ts body => (∀ t ∈ ts, IsOrdinaryTest placed t) ∧
      ∃ e, Css.conditions Test.pathExpr ts = [e] ∧ ReadsBehind 3 6 body e) tss bodies := by
    refine .flip (List.Forall₂.imp ?_ ((List.forall₂_and_left _ _).mpr ⟨hordinary, hbodies.flip⟩))
    rintro body ts ⟨hbody, hts⟩
    exact StatesAll.exists_reads hts hbody
  obtain ⟨htests, hreads⟩ := (List.forall₂_and_left _ _).mp hall
  have hmeant : ∀ t ∈ tss.flatten, IsOrdinaryTest placed t := fun t ht => by
    obtain ⟨ts, hts, ht⟩ := List.mem_flatten.mp ht
    exact htests ts hts t ht
  have hcompound : Compound.isFormed ⟨tag, tss.flatten⟩ = true := by
    have hname : (tag == ['*'] || isPlainName tag) = true := by
      rw [Bool.or_eq_true, beq_iff_eq]
      exact htag.imp_right hinner.left.isPlainName
    rw [Compound.isFormed, hname, Bool.true_and, List.all_eq_true]
    exact fun t ht => (hmeant t ht).formed
  refine ⟨hcompound, hmeant, bs, _, hb, ?_, rfl⟩
  exact ((Compound.testReads_tag hcompound).step_predicates (readsBehind_predicatesOf hreads)).trail
    hb'

end Locator.XPath

/-
Conditions of paths

* `pathSpelling`: how paths write comparisons, and `isSound_pathSpelling`;
* `Test.pathExpr`, `Test.reads`, `Test.admits_pathExpr`: **a test is read as a condition** that
  holds where it does in the looser reading, with positions counted among the elements that pass;
* `Compound.predicates`, `Compound.stepReads`, `Compound.keeps_predicates`: the step of a
  compound.
-/
import Locator.Proofs.Convert.Compound
import Locator.Proofs.Css.Chosen
import Locator.Proofs.Css.Comparison
import Locator.Proofs.XPath.Attribute

namespace Locator

open Text

namespace XPath

variable {n k : ℕ} {a b c s s' : Text} {op op' : Operator} {e f g : Expr}

/-- Three operands with signs of one level between them. -/
lemma Reads.binary_binary (ha : Reads n k a e) (hop : Sign k op s) (hb : Reads n k b f)
    (hop' : Sign k op' s') (hc : Reads n k c g) :
    Reads n (k + 1) (a ++ s ++ b ++ s' ++ c) (.binary op' (.binary op e f) g) where
  starts := by simpa using ha.starts.append (s ++ (b ++ (s' ++ c)))
  reads d hd rest hr := by
    have ht : Tail (exprAt? d) k (s ++ b ++ (s' ++ c ++ [])) e
        (.binary op' (.binary op e f) g) :=
      .cons hop hb.starts (hb.reads d hd) (.cons hop' hc.starts (hc.reads d hd) (.nil _))
    have h := readerAt_tail ha.starts (ha.reads d hd _ (ht.ends hr)) ht hr
    simpa using h

lemma isCallName_stringLength : IsCallName "string-length".toList := ⟨isPathName_iff.mp rfl, rfl⟩

lemma isCallName_position : IsCallName "position".toList := ⟨isPathName_iff.mp rfl, rfl⟩

/-- The length of an attribute is read. -/
lemma reads_stringLength (ha : IsName a) :
    Reads 1 0 ("string-length".toList ++ '(' :: ('@' :: a ++ [')']))
      (.call none "string-length".toList [attributeExpr a]) :=
  reads_call_one isCallName_stringLength ((reads_attribute ha).lift le_rfl (Nat.zero_le _))

end XPath

namespace Css

open XPath

variable {v a : Text}

/-! ### How paths write comparisons -/

/-- How paths write comparisons. -/
def pathSpelling : Spelling where
  sign := ['=']
  literal := XPath.literal
  padded := paddedLiteral
  start a v := "string-length(@".toList ++ a ++ ") - string-length(".toList ++
    XPath.literal v ++ ") + 1".toList
  startExpr a v := .binary .add
    (.binary .sub (.call none "string-length".toList [attributeExpr a])
      (.call none "string-length".toList [.literal v])) (.number (.ofDigits (decimal 1)))

/-- A value that fits between quotation marks is written between two of them. -/
lemma reads_literal_zero (hv : isQuotable v = true) :
    Reads 0 0 (XPath.literal v) (.literal v) := by
  rw [XPath.literal]
  by_cases hd : '"' ∈ v
  · have hs := (isQuotable_iff.mp hv).resolve_left (fun h => h hd)
    rw [if_neg (by simpa using hd), if_pos (by simpa using hs)]
    exact reads_inSingle hs
  · rw [if_pos (by simpa using hd)]
    exact reads_inDouble hd

/-- A quotable value is quotable between blanks. -/
lemma isQuotable_spaced (hv : isQuotable v = true) : isQuotable (' ' :: (v ++ [' '])) = true :=
  isQuotable_append (u := [' ']) rfl hv rfl

lemma reads_paddedLiteral (hv : isQuotable v = true) :
    Reads 0 0 (paddedLiteral v) (.literal (' ' :: (v ++ [' ']))) := by
  by_cases hs : '\'' ∈ v
  · rw [paddedLiteral, if_pos (by simpa using hs)]
    exact reads_literal_zero (isQuotable_spaced hv)
  · have htext : paddedLiteral v = inSingle (' ' :: (v ++ [' '])) := by
      rw [paddedLiteral, if_neg (by simpa using hs)]
      change ['\'', ' '] ++ v ++ [' ', '\''] = _
      simp [inSingle]
    rw [htext]
    exact reads_inSingle (by simp [hs])

/-- The place where a value at the end of an attribute starts, if its literal is read. -/
lemma reads_pathStart {n : ℕ} {value : Expr} (ha : IsName a)
    (hvalue : Reads n loosest (XPath.literal v) value) :
    Reads (n + 1) loosest (pathSpelling.start a v)
      (.binary .add (.binary .sub (.call none "string-length".toList [attributeExpr a])
        (.call none "string-length".toList [value])) (.number (.ofDigits (decimal 1)))) := by
  have hlength := reads_call_one isCallName_stringLength hvalue
  have hone : Reads (n + 1) 2 (decimal 1) (.number (.ofDigits (decimal 1))) :=
    (reads_digits ⟨decimal_ne_nil 1, fun _ => isDigit_of_mem_decimal⟩).lift (by omega) (by omega)
  have h := ((reads_stringLength ha).lift (m := n + 1) (by omega) (by omega)).binary_binary
    sign_minus (hlength.lift (k := 2) (by omega) (by omega)) sign_plus hone
  have hopen : "string-length(@".toList = "string-length".toList ++ ['(', '@'] := rfl
  have hbetween : ") - string-length(".toList =
      [')'] ++ (" - ".toList ++ ("string-length".toList ++ ['('])) := rfl
  have hclose : ") + 1".toList = [')'] ++ (" + ".toList ++ decimal 1) := rfl
  have htext : pathSpelling.start a v = "string-length".toList ++ '(' :: ('@' :: a ++ [')']) ++
      " - ".toList ++ ("string-length".toList ++ '(' :: (XPath.literal v ++ [')'])) ++
        " + ".toList ++ decimal 1 := by
    change "string-length(@".toList ++ a ++ ") - string-length(".toList ++ XPath.literal v ++
      ") + 1".toList = _
    rw [hopen, hbetween, hclose]
    simp only [List.append_assoc, List.cons_append, List.nil_append]
  rw [htext]
  exact h.lift le_rfl (by decide)

/-- The place where a value at the end of an attribute starts. -/
lemma eval_pathStart {env : Env} {f : Frame} {b : Address} (hf : f.place = .node b) :
    ∃ x, eval env (pathSpelling.startExpr a v) f = .ok x ∧
      (v.length ≤ (env.document.valueAt b a).length →
        x.toNumber env.document = .ofNat ((env.document.valueAt b a).length - v.length + 1)) := by
  set len := (env.document.valueAt b a).length with hlen
  have hattribute : eval env (.call none "string-length".toList [attributeExpr a]) f =
      .ok (.number (.ofNat len)) := eval_stringLength a hf
  have hvalue : eval env (.call none "string-length".toList [.literal v]) f =
      .ok (.number (.ofNat v.length)) := by
    have hargs : evalAll env [.literal v] f = .ok [.text v] := evalAll_literals [v]
    rw [eval_call (g := .stringLength) rfl hargs]
    rfl
  have hone : eval env (.number (.ofDigits (decimal 1))) f = .ok (.number (.ofNat 1)) := by
    rw [eval, Number.ofDigits_decimal (by norm_num [Number.exactLimit])]
  have hrest : eval env (.binary .sub (.call none "string-length".toList [attributeExpr a])
      (.call none "string-length".toList [.literal v])) f =
        .ok (.number ((Number.ofNat len).sub (.ofNat v.length))) :=
    eval_binary rfl hattribute hvalue
  refine ⟨.number (((Number.ofNat len).sub (.ofNat v.length)).add (.ofNat 1)), ?_, fun hle => ?_⟩
  · exact eval_binary rfl hrest hone
  · have hlimit := length_valueAt_lt env.document b a
    rw [← hlen] at hlimit
    rw [Result.toNumber, Number.sub_ofNat hle (by omega), Number.add_ofNat (by omega)]

/-- The comparisons of paths are read as they should be. -/
theorem isSound_pathSpelling : pathSpelling.IsSound where
  isXml_sign := rfl
  isXml_literal hv := by
    rw [← hv]
    exact isXmlText_literal _
  isXml_padded {v} hv := by
    change isXmlText (paddedLiteral v) = true
    rw [paddedLiteral]
    split_ifs
    · rw [isXmlText_literal, isXmlText_append]
      simp only [Bool.and_eq_true]
      exact ⟨hv, rfl⟩
    · simp only [isXmlText_append, hv]
      rfl
  isXml_start {a v} ha hv := by
    change isXmlText ("string-length(@".toList ++ a ++ ") - string-length(".toList ++
      XPath.literal v ++ ") + 1".toList) = true
    simp only [isXmlText_append, isXmlText_literal, ha, hv]
    rfl
  sign := sign_equals
  literal := reads_literal_zero
  padded := reads_paddedLiteral
  start ha hv := reads_pathStart ha ((reads_literal_zero hv).lift le_rfl (Nat.zero_le _))
  eval_start _ _ _ _ hf := eval_pathStart hf

/-! ### Tests as conditions -/

/-- The condition of a comparison. -/
lemma comparisonToXPath_eq (a : Text) (how : Comparison) (v : Text) :
    Test.comparisonToXPath a how v = how.text pathSpelling a v := by
  cases how with
  | hasWord =>
      have hopen : "contains(concat(' ', normalize-space(@".toList =
          "contains(".toList ++ "concat(' ', normalize-space(@".toList := rfl
      have hclose : "), ' '), ".toList = "), ' ')".toList ++ ", ".toList := rfl
      change "contains(".toList ++ ("concat(' ', normalize-space(@".toList ++ a ++
          "), ' ')".toList) ++ ", ".toList ++ paddedLiteral v ++ [')'] =
        "contains(concat(' ', normalize-space(@".toList ++ a ++ "), ' '), ".toList ++
          paddedLiteral v ++ [')']
      rw [hopen, hclose]
      simp only [List.append_assoc]
  | endsWith =>
      have hopen : ", string-length(@".toList = ", ".toList ++ "string-length(@".toList := rfl
      have hclose : ") + 1) = ".toList = ") + 1".toList ++ ") = ".toList := rfl
      change "substring(@".toList ++ a ++ ", string-length(@".toList ++ a ++
          ") - string-length(".toList ++ XPath.literal v ++ ") + 1) = ".toList ++ XPath.literal v =
        "substring(@".toList ++ a ++ ", ".toList ++ ("string-length(@".toList ++ a ++
          ") - string-length(".toList ++ XPath.literal v ++ ") + 1".toList) ++ ") = ".toList ++
            XPath.literal v
      rw [hopen, hclose]
      simp only [List.append_assoc]
  | equals =>
      change '@' :: a ++ '=' :: XPath.literal v = '@' :: a ++ ['='] ++ XPath.literal v
      simp
  | dash =>
      change "(@".toList ++ a ++ '=' :: XPath.literal v ++ " or starts-with(@".toList ++ a ++
          ", ".toList ++ XPath.literal (v ++ ['-']) ++ "))".toList =
        "(@".toList ++ a ++ ['='] ++ XPath.literal v ++ " or starts-with(@".toList ++ a ++
          ", ".toList ++ XPath.literal (v ++ ['-']) ++ "))".toList
      simp only [List.append_assoc, List.cons_append, List.nil_append]
  | startsWith => rfl
  | contains => rfl

/-- What the condition of a test in a path is read as. -/
def Test.pathExpr : Test → Expr
  | .id v => Comparison.equals.expr pathSpelling "id".toList v
  | .classToken v => Comparison.hasWord.expr pathSpelling "class".toList v
  | .present a => attributeExpr a
  | .compare a how v => how.expr pathSpelling a v
  | .nthOfType digits => .binary .eq (.call none "position".toList []) (.number (.ofDigits digits))

lemma isName_id : IsName "id".toList := isPathName_iff.mp rfl

lemma isName_class : IsName "class".toList := isPathName_iff.mp rfl

lemma mark_not_mem_ident (h : isPlainIdent v = true) {q : Char}
    (hq : isPlainIdentChar q = false) : q ∉ v := fun hm => by
  simp [all_of_isPlainIdent h q hm] at hq

lemma isQuotable_ident (h : isPlainIdent v = true) : isQuotable v = true :=
  isQuotable_iff.mpr (.inl (mark_not_mem_ident h rfl))

/-- A class name without apostrophes is asked for as a word of the attribute. -/
lemma classToken_toXPath (hv : '\'' ∉ v) :
    (Test.classToken v).toXPath = Test.comparisonToXPath "class".toList .hasWord v := by
  have hpadded : paddedLiteral v = "' ".toList ++ v ++ " '".toList := by
    rw [paddedLiteral, if_neg (by simpa using hv)]
  change "contains(".toList ++ paddedClass ++ ", ' ".toList ++ v ++ " ')".toList =
    "contains(".toList ++ paddedClass ++ ", ".toList ++ paddedLiteral v ++ [')']
  have hopen : ", ' ".toList = ", ".toList ++ "' ".toList := rfl
  have hclose : " ')".toList = " '".toList ++ [')'] := rfl
  rw [hpadded, hopen, hclose]
  simp only [List.append_assoc]

/-- The position is compared with a number. -/
lemma reads_nthOfType {digits : Text} (h : IsDigits digits) :
    Reads 0 5 (Test.nthOfType digits).toXPath
      (.binary .eq (.call none "position".toList []) (.number (.ofDigits digits))) := by
  have hposition : Reads 0 4 ("position".toList ++ ['(', ')'])
      (.call none "position".toList []) :=
    (reads_call_nil isCallName_position).lift le_rfl (by omega)
  have htext : (Test.nthOfType digits).toXPath =
      "position".toList ++ ['(', ')'] ++ ['='] ++ digits := rfl
  rw [htext]
  exact hposition.binary sign_equals ((reads_digits h).lift le_rfl (by omega))

/-- A test is read as its condition. -/
theorem Test.reads {t : Test} (ht : t.isFormed = true) :
    Reads 3 5 t.toXPath t.pathExpr := by
  have hcompare : ∀ (how : Comparison) {a v : Text}, IsName a → isQuotable v = true →
      Reads 3 5 (Test.comparisonToXPath a how v) (how.expr pathSpelling a v) := by
    intro how a v ha hv
    rw [comparisonToXPath_eq]
    exact how.reads isSound_pathSpelling ha hv
  cases t with
  | id v => exact hcompare .equals isName_id (isQuotable_ident (v := v) ht)
  | classToken v =>
      rw [classToken_toXPath (mark_not_mem_ident (v := v) ht rfl)]
      exact hcompare .hasWord isName_class (isQuotable_ident (v := v) ht)
  | present a => exact (reads_attribute (isName_of_isPlainName (s := a) ht)).lift (by omega) (by omega)
  | compare a how v =>
      simp only [isFormed, Bool.and_eq_true] at ht
      exact hcompare how (isName_of_isPlainName ht.1.1) ht.2
  | nthOfType digits =>
      simp only [isFormed, Bool.and_eq_true, List.all_eq_true, Bool.not_eq_true',
        List.isEmpty_eq_false_iff] at ht
      exact (reads_nthOfType ht).lift (Nat.zero_le _) le_rfl

/-- An identifier is a word. -/
lemma takes_of_isPlainIdent (h : isPlainIdent v = true) : Comparison.hasWord.takes v = true := by
  have hv := isIdent_of_isPlainIdent h
  simp only [Comparison.takes, Bool.and_eq_true, Bool.not_eq_true', List.isEmpty_eq_false_iff,
    List.all_eq_true]
  exact ⟨hv.ne_nil, fun c hc => isCssSpace_of_isNameChar (hv.chars c hc)⟩

/-- The condition of a test that counts nothing holds where the test does in the looser reading,
whatever the position is. -/
lemma Test.admits_pathExpr_of_counts {t : Test} (ht : t.isFormed = true) (hcounts : t.counts = false)
    {env : Env} {f : Frame} {b : Address} {test : NodeTest} (hf : f.place = .node b) :
    Holds env f t.pathExpr (t.admits env.document test b) := by
  cases t with
  | id v =>
      have htakes : Comparison.equals.takes v := rfl
      exact Comparison.holds_expr isSound_pathSpelling htakes hf
  | classToken v =>
      have htakes := takes_of_isPlainIdent (v := v) ht
      exact Comparison.holds_expr isSound_pathSpelling htakes hf
  | present a => exact holds_attribute a hf
  | compare a how v => exact Comparison.admits_expr hf fun _ => eval_pathStart hf
  | nthOfType digits => exact absurd hcounts.symm Bool.false_ne_true

/-- **The condition of a test** in a path holds where the test does in the looser reading. The
position is the place among the siblings that pass. -/
theorem Test.admits_pathExpr {t : Test} (ht : t.isFormed = true) {env : Env} {f : Frame}
    {b : Address} {test : NodeTest} (hb : passesAt env.document test none b)
    (hf : f.place = .node b) (hk : f.position = some (positionAt env.document test none b)) :
    Holds env f t.pathExpr (t.admits env.document test b) := by
  cases hcounts : t.counts with
  | false => exact Test.admits_pathExpr_of_counts ht hcounts hf
  | true =>
      cases t with
      | nthOfType digits =>
          simp only [isFormed, Bool.and_eq_true, List.all_eq_true] at ht
          exact holds_position ht.2 (positionAt_lt hb) hk
      | _ => exact absurd hcounts Bool.false_ne_true

/-! ### Compounds as steps -/

/-- The predicates of a compound. -/
def Compound.predicates (c : Compound) : List Expr :=
  conditions Test.pathExpr c.tests

/-- A compound is read as a step. -/
theorem Compound.stepReads {c : Compound} (hc : c.isFormed = true) :
    StepReads 4 c.toXPath .child c.nodeTest c.predicates := by
  have htests := Compound.isFormed_tests hc
  rw [predicates, toXPath]
  cases hts : c.tests with
  | nil => exact (Compound.testReads_tag hc).step 4
  | cons t ts =>
      rw [hts, List.forall_mem_cons] at htests
      have hall : List.Forall₂ (Reads 3 5) (ts.map Test.toXPath)
          (ts.map Test.pathExpr) := by
        rw [List.forall₂_map_left_iff, List.forall₂_map_right_iff, List.forall₂_same]
        exact fun t ht => Test.reads (htests.2 t ht)
      have hjoin := Reads.join sign_and (Test.reads htests.1) hall
      exact (Compound.testReads_tag hc).step_predicate (hjoin.lift le_rfl (by decide))

/-- The condition of a test is an XML text. -/
lemma Test.isXmlText_toXPath {t : Test} (ht : t.isFormed = true) : isXmlText t.toXPath = true := by
  have hcompare : ∀ (how : Comparison) {a v : Text}, isXmlText a = true → isXmlText v = true →
      isXmlText (Test.comparisonToXPath a how v) = true := by
    intro how a v ha hv
    rw [comparisonToXPath_eq]
    exact how.isXmlText_text isSound_pathSpelling ha hv
  cases t with
  | id v => exact hcompare .equals (a := "id".toList) rfl (isXmlText_ident (s := v) ht)
  | classToken v =>
      change isXmlText ("contains(".toList ++ paddedClass ++ ", ' ".toList ++ v ++ " ')".toList) = true
      simp only [isXmlText_append, isXmlText_ident (s := v) ht]
      rfl
  | present a =>
      change isXmlText (['@'] ++ a) = true
      rw [isXmlText_append, isXmlText_of_isName (isName_of_isPlainName (s := a) ht)]
      rfl
  | compare a how v =>
      simp only [isFormed, Bool.and_eq_true] at ht
      exact hcompare how (isXmlText_of_isName (isName_of_isPlainName ht.1.1))
        (isXmlText_value ht.1.2)
  | nthOfType digits =>
      simp only [isFormed, Bool.and_eq_true] at ht
      change isXmlText ("position()=".toList ++ digits) = true
      rw [isXmlText_append, isXmlText_digits ht.2]
      rfl

/-- A compound as a step is an XML text. -/
lemma Compound.isXmlText_toXPath {c : Compound} (hc : c.isFormed = true) :
    isXmlText c.toXPath = true := by
  have hand : isXmlText " and ".toList = true := rfl
  have htests : (c.tests.map Test.toXPath).all isXmlText = true := by
    simp only [List.all_map, List.all_eq_true]
    exact fun t ht => Test.isXmlText_toXPath (Compound.isFormed_tests hc t ht)
  rw [toXPath]
  split_ifs
  · exact isXmlText_tag hc
  · have hinside : isXmlText (['['] ++ join " and ".toList (c.tests.map Test.toXPath)) = true := by
      rw [isXmlText_append, isXmlText_join hand, htests]
      rfl
    rw [isXmlText_append, isXmlText_append, isXmlText_tag hc, Bool.true_and, Bool.and_eq_true]
    exact ⟨hinside, rfl⟩

/-- The predicates of a compound keep what it matches in the looser reading. -/
theorem Compound.keeps_predicates {c : Compound} (hc : c.isFormed = true) (env : Env) :
    Keeps env c.nodeTest none c.predicates (c.admitsAt env.document) :=
  keeps_conditions (H := fun t b => t.admits env.document c.nodeTest b) fun t ht _ hb _ =>
    Test.admits_pathExpr (Compound.isFormed_tests hc t ht) hb rfl rfl

end Css

end Locator

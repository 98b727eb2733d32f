/-
Comparisons of attributes as conditions

* `reads_equals`, `reads_onTexts`, `reads_padded`: an attribute with an equality sign, a
  function of an attribute, and an attribute with one blank around each of its words;
* `Spelling`: how comparisons are written, and `Spelling.IsSound`: what is written is
  read, and values are looked for where they would start;
* `Comparison.reads`, `Comparison.holds_expr`: **a comparison is read** however it is
  written, and holds where it should.
-/
import Locator.Proofs.Css.Loose
import Locator.Proofs.Css.Language
import Locator.Proofs.Document.Xml
import Locator.Proofs.XPath.Path

namespace Locator

open Text

namespace XPath

variable {a l s : Text} {e e' : Expr} {n : ℕ}

/-! ### Calls -/

lemma isCallName_startsWith : IsCallName "starts-with".toList := ⟨isPathName_iff.mp rfl, rfl⟩

lemma isCallName_contains : IsCallName "contains".toList := ⟨isPathName_iff.mp rfl, rfl⟩

lemma isCallName_substring : IsCallName "substring".toList := ⟨isPathName_iff.mp rfl, rfl⟩

lemma isCallName_normalizeSpace : IsCallName "normalize-space".toList :=
  ⟨isPathName_iff.mp rfl, rfl⟩

/-- A function of one argument. -/
lemma reads_call_one {name : Text} (hn : IsCallName name) (hs : Reads n loosest s e) :
    Reads (n + 1) 0 (name ++ '(' :: (s ++ [')'])) (.call none name [e]) := by
  simpa using reads_call hn isComma_spaced hs .nil

/-- A function of two arguments. -/
lemma reads_call_two {name : Text} (hn : IsCallName name) (hs : Reads n loosest s e)
    (hl : Reads n loosest l e') :
    Reads (n + 1) 0 (name ++ '(' :: (s ++ ", ".toList ++ l ++ [')'])) (.call none name [e, e']) := by
  have h := reads_call hn isComma_spaced hs (.cons hl .nil)
  rw [join_cons] at h
  simpa using h

/-- An attribute with one blank around each of its words. -/
lemma reads_padded (ha : IsName a) :
    Reads 2 0 ("concat(' ', normalize-space(@".toList ++ a ++ "), ' ')".toList) (paddedExpr a) := by
  have hblank : Reads 1 loosest (inSingle [' ']) (.literal [' ']) :=
    (reads_inSingle (by simp)).lift (Nat.zero_le _) (Nat.zero_le _)
  have hwords := reads_call_one isCallName_normalizeSpace
    ((reads_attribute ha).lift (n := 0) (k := loosest) le_rfl (Nat.zero_le _))
  have h := reads_call isCallName_concat isComma_spaced hblank
    (.cons (hwords.lift le_rfl (Nat.zero_le _)) (.cons hblank .nil))
  have htext : "concat(' ', normalize-space(@".toList ++ a ++ "), ' ')".toList =
      "concat".toList ++ '(' :: (join ", ".toList [inSingle [' '],
        "normalize-space".toList ++ '(' :: ('@' :: a ++ [')']), inSingle [' ']] ++ [')']) := by
    simp [join_cons, inSingle]
  rw [htext]
  exact h

end XPath

namespace Css

open XPath

/-! ### How comparisons are written -/

/-- How comparisons of an attribute with a value are written. -/
structure Spelling where
  /-- The equality sign. -/
  sign : Text
  literal : Text → Text
  /-- The literal of a value between blanks. -/
  padded : Text → Text
  /-- The place in an attribute where a value at its end would start. -/
  start : Text → Text → Text
  startExpr : Text → Text → Expr

/-- A comparison of the attribute `a` with the value `v` in a spelling. -/
def Comparison.text (w : Spelling) (how : Comparison) (a v : Text) : Text :=
  match how with
  | .equals => '@' :: a ++ w.sign ++ w.literal v
  | .startsWith => "starts-with(@".toList ++ a ++ ", ".toList ++ w.literal v ++ [')']
  | .endsWith =>
    "substring(@".toList ++ a ++ ", ".toList ++ w.start a v ++ ") = ".toList ++ w.literal v
  | .contains => "contains(@".toList ++ a ++ ", ".toList ++ w.literal v ++ [')']
  | .hasWord =>
    "contains(concat(' ', normalize-space(@".toList ++ a ++ "), ' '), ".toList ++ w.padded v ++ [')']
  | .dash =>
    "(@".toList ++ a ++ w.sign ++ w.literal v ++ " or starts-with(@".toList ++ a ++ ", ".toList ++
      w.literal (v ++ ['-']) ++ "))".toList

/-- What a comparison is read as. -/
def Comparison.expr (w : Spelling) (how : Comparison) (a v : Text) : Expr :=
  match how with
  | .equals => .binary .eq (attributeExpr a) (.literal v)
  | .startsWith => .call none "starts-with".toList [attributeExpr a, .literal v]
  | .endsWith =>
    .binary .eq (.call none "substring".toList [attributeExpr a, w.startExpr a v]) (.literal v)
  | .contains => .call none "contains".toList [attributeExpr a, .literal v]
  | .hasWord => .call none "contains".toList [paddedExpr a, .literal (' ' :: (v ++ [' ']))]
  | .dash =>
    .binary .or (.binary .eq (attributeExpr a) (.literal v))
      (.call none "starts-with".toList [attributeExpr a, .literal (v ++ ['-'])])

/-- A comparison whose parts are read as they are given: the value, the value between blanks,
the value in front of a hyphen, and the place where it would start. -/
def Comparison.exprOf (how : Comparison) (a : Text) (value padded dashed start : Expr) : Expr :=
  match how with
  | .equals => .binary .eq (attributeExpr a) value
  | .startsWith => .call none "starts-with".toList [attributeExpr a, value]
  | .endsWith =>
    .binary .eq (.call none "substring".toList [attributeExpr a, start]) value
  | .contains => .call none "contains".toList [attributeExpr a, value]
  | .hasWord => .call none "contains".toList [paddedExpr a, padded]
  | .dash =>
    .binary .or (.binary .eq (attributeExpr a) value)
      (.call none "starts-with".toList [attributeExpr a, dashed])

lemma Comparison.expr_eq (w : Spelling) (how : Comparison) (a v : Text) :
    how.expr w a v = how.exprOf a (.literal v) (.literal (' ' :: (v ++ [' '])))
      (.literal (v ++ ['-'])) (w.startExpr a v) := by
  cases how <;> rfl

/-- A spelling whose parts are XML texts and are read as they should be, for values that
fit between quotation marks. -/
structure Spelling.IsSound (w : Spelling) : Prop where
  isXml_sign : isXmlText w.sign = true
  isXml_literal : ∀ {v}, isXmlText v = true → isXmlText (w.literal v) = true
  isXml_padded : ∀ {v}, isXmlText v = true → isXmlText (w.padded v) = true
  isXml_start : ∀ {a v}, isXmlText a = true → isXmlText v = true →
    isXmlText (w.start a v) = true
  sign : Sign 4 .eq w.sign
  literal : ∀ {v}, isQuotable v = true → Reads 0 0 (w.literal v) (.literal v)
  padded : ∀ {v}, isQuotable v = true → Reads 0 0 (w.padded v) (.literal (' ' :: (v ++ [' '])))
  start : ∀ {a v}, IsName a → isQuotable v = true → Reads 1 loosest (w.start a v) (w.startExpr a v)
  /-- A value at the end of an attribute starts where its length says. -/
  eval_start : ∀ {a v}, v ≠ [] → ∀ {env : Env} {f : Frame} {b : Address}, f.place = .node b →
    ∃ x, eval env (w.startExpr a v) f = .ok x ∧
      (v.length ≤ (env.document.valueAt b a).length →
        x.toNumber env.document = .ofNat ((env.document.valueAt b a).length - v.length + 1))

variable {w : Spelling} {a v : Text}

/-! ### Comparisons are read -/

/-- A function of the attribute, with its name set apart. -/
lemma callText_eq {name opening u : Text} (hopen : opening = name ++ ['(', '@']) :
    opening ++ a ++ ", ".toList ++ u ++ [')'] =
      name ++ '(' :: ('@' :: a ++ ", ".toList ++ u ++ [')']) := by
  rw [hopen]
  simp only [List.append_assoc, List.cons_append, List.nil_append]

lemma Comparison.text_startsWith : Comparison.text w .startsWith a v =
    "starts-with".toList ++ '(' :: ('@' :: a ++ ", ".toList ++ w.literal v ++ [')']) := by
  have hopen : "starts-with(@".toList = "starts-with".toList ++ ['(', '@'] := rfl
  exact callText_eq hopen

lemma Comparison.text_contains : Comparison.text w .contains a v =
    "contains".toList ++ '(' :: ('@' :: a ++ ", ".toList ++ w.literal v ++ [')']) := by
  have hopen : "contains(@".toList = "contains".toList ++ ['(', '@'] := rfl
  exact callText_eq hopen

lemma Comparison.text_endsWith : Comparison.text w .endsWith a v =
    "substring".toList ++ '(' :: ('@' :: a ++ ", ".toList ++ w.start a v ++ [')']) ++
      " = ".toList ++ w.literal v := by
  have hopen : "substring(@".toList = "substring".toList ++ ['(', '@'] := rfl
  have hclose : ") = ".toList = [')'] ++ " = ".toList := rfl
  change "substring(@".toList ++ a ++ ", ".toList ++ w.start a v ++ ") = ".toList ++
    w.literal v = _
  rw [← callText_eq hopen, hclose]
  simp only [List.append_assoc]

lemma Comparison.text_hasWord : Comparison.text w .hasWord a v = "contains".toList ++
    '(' :: ("concat(' ', normalize-space(@".toList ++ a ++ "), ' ')".toList ++ ", ".toList ++
      w.padded v ++ [')']) := by
  have hopen : "contains(concat(' ', normalize-space(@".toList =
      "contains".toList ++ '(' :: "concat(' ', normalize-space(@".toList := rfl
  have hclose : "), ' '), ".toList = "), ' ')".toList ++ ", ".toList := rfl
  change "contains(concat(' ', normalize-space(@".toList ++ a ++ "), ' '), ".toList ++
    w.padded v ++ [')'] = _
  rw [hopen, hclose]
  simp only [List.append_assoc, List.cons_append]

lemma Comparison.text_dash : Comparison.text w .dash a v =
    '(' :: ('@' :: a ++ w.sign ++ w.literal v ++ " or ".toList ++ ("starts-with".toList ++
      '(' :: ('@' :: a ++ ", ".toList ++ w.literal (v ++ ['-']) ++ [')']))) ++ [')'] := by
  have hopen : "(@".toList = ['(', '@'] := rfl
  have hcall : "starts-with(@".toList = "starts-with".toList ++ ['(', '@'] := rfl
  have hbetween : " or starts-with(@".toList = " or ".toList ++ "starts-with(@".toList := rfl
  have hclose : "))".toList = [')', ')'] := rfl
  change "(@".toList ++ a ++ w.sign ++ w.literal v ++ " or starts-with(@".toList ++ a ++
    ", ".toList ++ w.literal (v ++ ['-']) ++ "))".toList = _
  rw [← callText_eq hcall, hopen, hbetween, hclose]
  simp only [List.append_assoc, List.cons_append, List.nil_append]

/-- A comparison is read if its parts are. -/
lemma Comparison.reads_of {n : ℕ} {value padded dashed start : Expr} (how : Comparison)
    (ha : IsName a) (hsign : Sign 4 .eq w.sign) (hvalue : Reads n 0 (w.literal v) value)
    (hpadded : Reads n 0 (w.padded v) padded) (hdashed : Reads n 0 (w.literal (v ++ ['-'])) dashed)
    (hstart : Reads (n + 1) loosest (w.start a v) start) :
    Reads (n + 3) 5 (how.text w a v) (how.exprOf a value padded dashed start) := by
  have hattribute : ∀ {m}, Reads m loosest ('@' :: a) (attributeExpr a) :=
    (reads_attribute ha).lift (Nat.zero_le _) (Nat.zero_le _)
  have hequals : Reads n 5 ('@' :: a ++ w.sign ++ w.literal v)
      (.binary .eq (attributeExpr a) value) :=
    ((reads_attribute ha).lift (Nat.zero_le _) (by omega)).binary hsign
      (hvalue.lift le_rfl (by omega))
  have hcall : ∀ {name u : Text} {e : Expr}, IsCallName name → Reads n 0 u e → Reads (n + 1) 0
      (name ++ '(' :: ('@' :: a ++ ", ".toList ++ u ++ [')']))
      (.call none name [attributeExpr a, e]) := fun hn hu =>
    reads_call_two hn hattribute (hu.lift le_rfl (Nat.zero_le _))
  cases how with
  | equals => exact hequals.lift (by omega) (by omega)
  | startsWith =>
      rw [text_startsWith]
      exact (hcall isCallName_startsWith hvalue).lift (by omega) (by omega)
  | contains =>
      rw [text_contains]
      exact (hcall isCallName_contains hvalue).lift (by omega) (by omega)
  | endsWith =>
      have hcut := reads_call_two isCallName_substring hattribute hstart
      rw [text_endsWith]
      exact (hcut.lift (m := n + 3) (k := 4) (by omega) (by omega)).binary sign_spaced_equals
        (hvalue.lift (by omega) (by omega))
  | hasWord =>
      have hword := reads_call_two isCallName_contains
        ((reads_padded ha).lift (m := n + 2) (k := loosest) (by omega) (Nat.zero_le _))
        (hpadded.lift (by omega) (Nat.zero_le _))
      rw [text_hasWord]
      exact hword.lift (by omega) (by omega)
  | dash =>
      have hor := (hequals.lift (m := n + 1) (k := 6) (by omega) (by omega)).binary sign_or
        ((hcall isCallName_startsWith hdashed).lift (by omega) (by omega))
      rw [text_dash]
      exact (reads_paren hor).lift (by omega) (by omega)

/-- **A comparison is read** however it is written. -/
theorem Comparison.reads (hw : w.IsSound) (how : Comparison) (ha : IsName a)
    (hv : isQuotable v = true) : Reads 3 5 (how.text w a v) (how.expr w a v) := by
  have hdash : isQuotable (v ++ ['-']) = true := isQuotable_append (u := []) rfl hv rfl
  rw [Comparison.expr_eq]
  exact how.reads_of ha hw.sign (hw.literal hv) (hw.padded hv) (hw.literal hdash) (hw.start ha hv)

/-- A comparison is an XML text. -/
lemma Comparison.isXmlText_text (hw : w.IsSound) (how : Comparison) (ha : isXmlText a = true)
    (hv : isXmlText v = true) : isXmlText (how.text w a v) = true := by
  have hdash : isXmlText (v ++ ['-']) = true := by
    rw [isXmlText_append, hv]
    rfl
  have hparts : isXmlText (['@'] ++ a ++ w.sign ++ w.literal v) = true := by
    simp only [isXmlText_append, ha, hw.isXml_sign, hw.isXml_literal hv]
    rfl
  cases how with
  | equals => exact hparts
  | hasWord =>
      change isXmlText ("contains(concat(' ', normalize-space(@".toList ++ a ++
        "), ' '), ".toList ++ w.padded v ++ [')']) = true
      simp only [isXmlText_append, ha, hw.isXml_padded hv]
      rfl
  | endsWith =>
      change isXmlText ("substring(@".toList ++ a ++ ", ".toList ++ w.start a v ++
        ") = ".toList ++ w.literal v) = true
      simp only [isXmlText_append, ha, hw.isXml_start ha hv, hw.isXml_literal hv]
      rfl
  | startsWith =>
      change isXmlText ("starts-with(@".toList ++ a ++ ", ".toList ++ w.literal v ++ [')']) = true
      simp only [isXmlText_append, ha, hw.isXml_literal hv]
      rfl
  | contains =>
      change isXmlText ("contains(@".toList ++ a ++ ", ".toList ++ w.literal v ++ [')']) = true
      simp only [isXmlText_append, ha, hw.isXml_literal hv]
      rfl
  | dash =>
      change isXmlText ("(@".toList ++ a ++ w.sign ++ w.literal v ++
        " or starts-with(@".toList ++ a ++ ", ".toList ++ w.literal (v ++ ['-']) ++ "))".toList) = true
      simp only [isXmlText_append, ha, hw.isXml_sign, hw.isXml_literal hv, hw.isXml_literal hdash]
      rfl

/-- **A comparison holds** where it should in the looser reading. -/
theorem Comparison.admits_expr {how : Comparison} {env : Env} {f : Frame} {b : Address}
    (hf : f.place = .node b)
    (hstart : how = .endsWith → ∃ x, eval env (w.startExpr a v) f = .ok x ∧
      (v.length ≤ (env.document.valueAt b a).length →
        x.toNumber env.document = .ofNat ((env.document.valueAt b a).length - v.length + 1))) :
    Holds env f (how.expr w a v) (how.admits env.document b a v) := by
  have hl : ∀ u, eval env (.literal u) f = .ok (.text u) := fun u => by rw [eval]
  cases how with
  | equals => exact holds_equals a hf (hl v)
  | startsWith => exact holds_startsWith a hf (hl v)
  | contains => exact holds_contains a hf (hl v)
  | endsWith =>
      obtain ⟨x, hx, hplace⟩ := hstart rfl
      exact holds_endsWith a hf hx hplace (hl v)
  | hasWord => exact holds_hasPieces a hf (hl _)
  | dash => exact (holds_equals a hf (hl v)).or (holds_startsWith a hf (hl _))

/-- A comparison holds where it should, if it asks for anything. -/
theorem Comparison.holds_expr (hw : w.IsSound) {how : Comparison} (hv : how.takes v)
    {env : Env} {f : Frame} {b : Address} (hf : f.place = .node b) :
    Holds env f (how.expr w a v) (how.holds env.document b a v) := by
  rw [← Comparison.admits_of_takes hv]
  refine Comparison.admits_expr hf fun hends => hw.eval_start ?_ hf
  rintro rfl
  rw [hends] at hv
  exact absurd hv (by decide)

end Css

end Locator

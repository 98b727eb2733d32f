/-
Conditions of queries

* `querySpelling`: how queries write comparisons, and `isSound_querySpelling`;
* `Test.condition`, `Test.queryExpr`: the condition of a test in a query, in which an
  attribute that is compared must be there and places are counted among the siblings in
  front;
* `Test.reads_condition`, `Test.holds_queryExpr`: **the condition is read** and holds where
  the test does.
-/
import Locator.Css.Query
import Locator.Proofs.Convert.Condition
import Locator.Proofs.Css.Literal
import Locator.Proofs.Css.Read

namespace Locator

open Text

namespace XPath

variable {n : ℕ} {a b s : Text} {e f : Expr}

/-- A difference without blanks around the sign, behind a text that ends itself. -/
lemma ReadsClosed.minus (h : ReadsClosed n s e) (hb : Reads n 2 b f) :
    Reads n 3 (s ++ '-' :: b) (.binary .sub e f) where
  starts := h.starts.append _
  reads d hd rest hr := by
    have hblanks : blanks ('-' :: (b ++ rest)) = '-' :: (b ++ rest) := blanks_cons rfl _
    have hsigns : ∀ l, 0 < l → l ≤ 2 → sign? (signsAt l) (blanks ('-' :: (b ++ rest))) = none := by
      intro l hl hl2
      rw [hblanks]
      interval_cases l <;> rfl
    have hends : EndsPrimary ('-' :: (b ++ rest)) := by
      rw [EndsPrimary, hblanks]
      rintro _ ⟨rfl⟩
      exact ⟨rfl, rfl⟩
    have hstarts : Starts (s ++ '-' :: (b ++ rest)) := h.starts.append _
    have hfirst : atOperands 2 (readerAt (exprAt? d) 2) (s ++ '-' :: (b ++ rest)) =
        some (e, '-' :: (b ++ rest)) := by
      rw [atOperands_of_starts 2 _ hstarts]
      have hread := readerAt_lift (Nat.zero_le 2) hstarts hsigns (h.reads d hd _ hends)
      rwa [hblanks] at hread
    have hsecond : atOperands 2 (readerAt (exprAt? d) 2) (blanks (b ++ rest)) =
        some (f, blanks rest) := by
      rw [(hb.starts.append rest).blanks_eq, atOperands_of_starts 2 _ (hb.starts.append rest)]
      exact hb.reads d hd rest (hr.mono (by decide))
    have hsign : sign? (signsAt 3) ('-' :: (b ++ rest)) = some (.sub, b ++ rest) := rfl
    have hdone : sign? (signsAt 3) (blanks rest) = none := hr.signs 3 (by decide) le_rfl
    have hlevel : readerAt (exprAt? d) 3 =
        chain (signsAt 3) (atOperands 2 (readerAt (exprAt? d) 2)) := rfl
    rw [List.append_assoc, List.cons_append, hlevel]
    generalize atOperands 2 (readerAt (exprAt? d) 2) = operand at hfirst hsecond
    simp [chain, hfirst, chainFrom, hblanks, hsign, hsecond, hdone]

/-- An equation with a number behind a minus sign. -/
lemma Reads.equals_negative (ha : Reads n 4 a e) (hb : Reads n 0 b f) :
    Reads n 5 (a ++ " = ".toList ++ '-' :: b) (.binary .eq e (.numeric true f)) where
  starts := by simpa using ha.starts.append (" = ".toList ++ '-' :: b)
  reads d hd rest hr := by
    have hblanks : blanks ('-' :: (b ++ rest)) = '-' :: (b ++ rest) := blanks_cons rfl _
    have hfirst : readerAt (exprAt? d) 4 (a ++ (" = ".toList ++ '-' :: (b ++ rest))) =
        some (e, blanks (" = ".toList ++ '-' :: (b ++ rest))) :=
      ha.reads d hd _ (ends_spaced_equals _)
    have hstarts := hb.starts.append rest
    have hunion : readerAt (exprAt? d) 1 (b ++ rest) = some (f, blanks rest) :=
      (hb.lift le_rfl (Nat.zero_le 1)).reads d hd rest (hr.mono (by decide))
    have hsigns : minusSigns false false ('-' :: (b ++ rest)) = (true, true, b ++ rest) := by
      obtain ⟨c, r, hc, hspace, hminus, -⟩ := hstarts
      rw [hc]
      simp [minusSigns, hspace, hminus]
    have hunary : unary (readerAt (exprAt? d) 1) ('-' :: (b ++ rest)) =
        some (.numeric true f, blanks rest) := by
      rw [unary, hblanks, hsigns]
      simp [hunion]
    have hlevel : ∀ k, 2 ≤ k → k ≤ 4 → readerAt (exprAt? d) k ('-' :: (b ++ rest)) =
        some (.numeric true f, blanks rest) := by
      intro k hk hk4
      induction k, hk using Nat.le_induction with
      | base =>
          have h := chain_of_operand hunary (by simpa using hr.signs 2 (by decide) (by decide))
          rwa [blanks_blanks] at h
      | succ k hk ih =>
          have hop : atOperands k (readerAt (exprAt? d) k) ('-' :: (b ++ rest)) =
              some (.numeric true f, blanks rest) := by
            rw [atOperands, if_neg (by omega)]
            exact ih (by omega)
          have h := chain_of_operand hop (by simpa using hr.signs (k + 1) (by omega) (by omega))
          rwa [blanks_blanks] at h
    have hsecond := hlevel 4 (by decide) le_rfl
    have hsign : sign? (signsAt 5) (blanks (" = ".toList ++ '-' :: (b ++ rest))) =
        some (.eq, ' ' :: '-' :: (b ++ rest)) := rfl
    have hspace : blanks (' ' :: '-' :: (b ++ rest)) = '-' :: (b ++ rest) := hblanks
    have hdone : sign? (signsAt 5) (blanks rest) = none := hr.signs 5 (by decide) le_rfl
    have hwhole : readerAt (exprAt? d) 5 =
        chain (signsAt 5) (readerAt (exprAt? d) 4) := rfl
    have htext : a ++ " = ".toList ++ '-' :: b ++ rest =
        a ++ (" = ".toList ++ '-' :: (b ++ rest)) := by
      simp only [List.append_assoc, List.cons_append]
    rw [htext, hwhole]
    generalize readerAt (exprAt? d) 4 = operand at hfirst hsecond
    generalize " = ".toList ++ '-' :: (b ++ rest) = equation at hfirst hsign
    have hlast : ∀ fuel e', chainFrom (signsAt 5) operand fuel e' (blanks rest) =
        some (e', blanks rest) := by
      intro fuel e'
      cases fuel <;> simp [chainFrom, hdone]
    simp [chain, hfirst, chainFrom, hsign, hspace, hsecond, hlast]

/-- The length of an attribute is read. -/
lemma closed_stringLength (ha : IsName a) :
    ReadsClosed 1 ("string-length".toList ++ '(' :: ('@' :: a ++ [')']))
      (.call none "string-length".toList [attributeExpr a]) := by
  have h := closed_call isCallName_stringLength isComma_spaced
    ((reads_attribute ha).lift (n := 0) (k := loosest) le_rfl (Nat.zero_le _)) .nil
  rwa [join_singleton] at h

lemma isCallName_count : IsCallName "count".toList := ⟨isPathName_iff.mp rfl, rfl⟩

lemma isName_precedingSibling : IsName "preceding-sibling".toList := isPathName_iff.mp rfl

end XPath

namespace Css

open XPath

variable {v a : Text}

/-! ### How queries write comparisons -/

/-- How queries write comparisons. -/
def querySpelling : Spelling where
  sign := " = ".toList
  literal := Query.literal
  padded v := Query.literal (' ' :: v ++ [' '])
  start a v := "string-length(@".toList ++ a ++ ")-".toList ++ decimal (v.length - 1)
  startExpr a v := .binary .sub (.call none "string-length".toList [attributeExpr a])
    (.number (.ofDigits (decimal (v.length - 1))))

/-- A value that fits between quotation marks is written between two of them. -/
lemma Query.reads_literal_zero (hv : isQuotable v = true) :
    Reads 0 0 (Query.literal v) (.literal v) := by
  rw [Query.literal]
  by_cases hs : '\'' ∈ v
  · have hd := (isQuotable_iff.mp hv).resolve_right (fun h => h hs)
    rw [if_neg (by simpa using hs), if_pos (by simpa using hd)]
    exact reads_inDouble hd
  · rw [if_pos (by simpa using hs)]
    exact reads_inSingle hs

/-- The place where a value at the end of an attribute starts. -/
lemma eval_queryStart (hv : v ≠ []) {env : Env} {f : Frame} {b : Address}
    (hf : f.place = .node b) :
    ∃ x, eval env (querySpelling.startExpr a v) f = .ok x ∧
      (v.length ≤ (env.document.valueAt b a).length →
        x.toNumber env.document = .ofNat ((env.document.valueAt b a).length - v.length + 1)) := by
  set len := (env.document.valueAt b a).length with hlen
  have hattribute : eval env (.call none "string-length".toList [attributeExpr a]) f =
      .ok (.number (.ofNat len)) := eval_stringLength a hf
  have hdigits : eval env (.number (.ofDigits (decimal (v.length - 1)))) f =
      .ok (.number (.ofDigits (decimal (v.length - 1)))) := by rw [eval]
  have hpos : 0 < v.length := List.length_pos_iff.mpr hv
  refine ⟨_, eval_binary rfl hattribute hdigits, fun hle => ?_⟩
  have hlimit := length_valueAt_lt env.document b a
  rw [← hlen] at hlimit
  change (Number.ofNat len).sub (.ofDigits (decimal (v.length - 1))) = _
  rw [Number.ofDigits_decimal (by omega), Number.sub_ofNat (by omega) (by omega)]
  congr 1
  omega

/-- The comparisons of queries are read as they should be. -/
theorem isSound_querySpelling : querySpelling.IsSound where
  isXml_sign := rfl
  isXml_literal hv := by
    rw [← hv]
    exact Query.isXmlText_literal _
  isXml_padded {v} hv := by
    change isXmlText (Query.literal ([' '] ++ v ++ [' '])) = true
    rw [Query.isXmlText_literal, isXmlText_append, isXmlText_append, hv]
    rfl
  isXml_start {a v} ha _ := by
    have hdigits : isXmlText (decimal (v.length - 1)) = true :=
      isXmlText_digits (List.all_eq_true.mpr fun c hc => isDigit_of_mem_decimal hc)
    change isXmlText ("string-length(@".toList ++ a ++ ")-".toList ++ decimal (v.length - 1)) = true
    simp only [isXmlText_append, ha, hdigits]
    rfl
  sign := sign_spaced_equals
  literal := Query.reads_literal_zero
  padded hv := Query.reads_literal_zero (isQuotable_spaced hv)
  start {a v} ha _ := by
    have hdigits : Reads 1 2 (decimal (v.length - 1)) (.number (.ofDigits (decimal (v.length - 1)))) :=
      (reads_digits ⟨decimal_ne_nil _, fun _ => isDigit_of_mem_decimal⟩).lift (by omega) (by omega)
    have h := (closed_stringLength ha).minus hdigits
    have hopen : "string-length(@".toList = "string-length".toList ++ ['(', '@'] := rfl
    have hclose : ")-".toList = [')', '-'] := rfl
    have htext : querySpelling.start a v = "string-length".toList ++ '(' :: ('@' :: a ++ [')']) ++
        '-' :: decimal (v.length - 1) := by
      change "string-length(@".toList ++ a ++ ")-".toList ++ decimal (v.length - 1) = _
      rw [hopen, hclose]
      simp only [List.append_assoc, List.cons_append, List.nil_append]
    rw [htext]
    exact h.lift le_rfl (by decide)
  eval_start hv _ _ _ hf := eval_queryStart hv hf

/-! ### Comparisons in queries -/

/-- The condition of a comparison that asks for anything: unless it asks for the whole value, the
attribute must be there. -/
def Comparison.asked (how : Comparison) (a v : Text) : Text :=
  match how with
  | .equals => Comparison.equals.text querySpelling a v
  | how => '@' :: a ++ " and ".toList ++ how.text querySpelling a v

/-- The condition of a comparison in a query; one that asks for nothing never holds. -/
def Comparison.condition (how : Comparison) (a v : Text) : Text :=
  if how.takes v then how.asked a v else ['0']

/-- What the condition of a comparison that asks for anything is read as. -/
def Comparison.askedExpr (how : Comparison) (a v : Text) : Expr :=
  match how with
  | .equals => Comparison.equals.expr querySpelling a v
  | how => .binary .and (attributeExpr a) (how.expr querySpelling a v)

/-- What the condition of a comparison is read as. -/
def Comparison.queryExpr (how : Comparison) (a v : Text) : Expr :=
  if how.takes v then how.askedExpr a v else .number (.ofDigits ['0'])

/-- The condition of a comparison that asks for anything. -/
lemma attributeCondition_of_takes {how : Comparison} (hv : how.takes v) (a : Text) :
    Query.attributeCondition ('@' :: a) how.attributeTest v = how.asked a v := by
  have hne : ∀ {s : Text}, (!v.isEmpty) = true → (if v.isEmpty then ['0'] else s) = s :=
    fun h => if_neg (by simpa using h)
  cases how with
  | equals => rfl
  | dash =>
      have hopen : "(@".toList = ['('] ++ ['@'] := rfl
      have hbetween : " or starts-with(@".toList = " or starts-with(".toList ++ ['@'] := rfl
      change '@' :: a ++ " and ".toList ++ ['('] ++ '@' :: a ++ " = ".toList ++ Query.literal v ++
          " or starts-with(".toList ++ '@' :: a ++ ", ".toList ++ Query.literal (v ++ ['-']) ++
            "))".toList =
        '@' :: a ++ " and ".toList ++ ("(@".toList ++ a ++ " = ".toList ++ Query.literal v ++
          " or starts-with(@".toList ++ a ++ ", ".toList ++ Query.literal (v ++ ['-']) ++
            "))".toList)
      rw [hopen, hbetween]
      simp only [List.append_assoc, List.cons_append, List.nil_append]
  | hasWord =>
      simp only [Comparison.takes, Bool.and_eq_true, Bool.not_eq_true', List.isEmpty_eq_false_iff,
        List.all_eq_true] at hv
      have hwords : (v.isEmpty || (dropEnd (· == '\n') v).any isCssSpace) = false := by
        rw [Bool.or_eq_false_iff, List.any_eq_false]
        refine ⟨by simpa using hv.1, fun c hc => ?_⟩
        have hmem : c ∈ v := (List.rdropWhile_prefix _ v).subset (dropEnd_eq (· == '\n') v ▸ hc)
        simp [hv.2 c hmem]
      have hopen : "contains(concat(' ', normalize-space(@".toList =
          "contains(concat(' ', normalize-space(".toList ++ ['@'] := rfl
      change (if v.isEmpty || (dropEnd (· == '\n') v).any isCssSpace then ['0'] else
          '@' :: a ++ " and ".toList ++ "contains(concat(' ', normalize-space(".toList ++ '@' :: a ++
            "), ' '), ".toList ++ Query.literal (' ' :: v ++ [' ']) ++ [')']) =
        '@' :: a ++ " and ".toList ++ ("contains(concat(' ', normalize-space(@".toList ++ a ++
          "), ' '), ".toList ++ Query.literal (' ' :: v ++ [' ']) ++ [')'])
      rw [hwords, hopen]
      simp only [Bool.false_eq_true, if_false, List.append_assoc, List.cons_append, List.nil_append]
  | startsWith =>
      have hopen : "starts-with(@".toList = "starts-with(".toList ++ ['@'] := rfl
      refine (hne hv).trans ?_
      change '@' :: a ++ " and ".toList ++ "starts-with(".toList ++ '@' :: a ++ ", ".toList ++
          Query.literal v ++ [')'] =
        '@' :: a ++ " and ".toList ++ ("starts-with(@".toList ++ a ++ ", ".toList ++
          Query.literal v ++ [')'])
      rw [hopen]
      simp only [List.append_assoc, List.cons_append, List.nil_append]
  | contains =>
      have hopen : "contains(@".toList = "contains(".toList ++ ['@'] := rfl
      refine (hne hv).trans ?_
      change '@' :: a ++ " and ".toList ++ "contains(".toList ++ '@' :: a ++ ", ".toList ++
          Query.literal v ++ [')'] =
        '@' :: a ++ " and ".toList ++ ("contains(@".toList ++ a ++ ", ".toList ++
          Query.literal v ++ [')'])
      rw [hopen]
      simp only [List.append_assoc, List.cons_append, List.nil_append]
  | endsWith =>
      have hopen : "substring(@".toList = "substring(".toList ++ ['@'] := rfl
      have hlength : ", string-length(".toList = ", ".toList ++ "string-length(".toList := rfl
      have hstart : "string-length(@".toList = "string-length(".toList ++ ['@'] := rfl
      refine (hne hv).trans ?_
      change '@' :: a ++ " and ".toList ++ "substring(".toList ++ '@' :: a ++
          ", string-length(".toList ++ '@' :: a ++ ")-".toList ++ decimal (v.length - 1) ++
            ") = ".toList ++ Query.literal v =
        '@' :: a ++ " and ".toList ++ ("substring(@".toList ++ a ++ ", ".toList ++
          ("string-length(@".toList ++ a ++ ")-".toList ++ decimal (v.length - 1)) ++
            ") = ".toList ++ Query.literal v)
      rw [hopen, hlength, hstart]
      simp only [List.append_assoc, List.cons_append, List.nil_append]

/-- **The condition of a comparison** in a query. -/
theorem attributeCondition_eq (how : Comparison) (hv : v.all isPlainChar = true) (a : Text) :
    Query.attributeCondition ('@' :: a) how.attributeTest v = how.condition a v := by
  have hempty : ∀ {s : Text}, (!v.isEmpty) = false → (if v.isEmpty then ['0'] else s) = ['0'] :=
    fun h => if_pos (by simpa using h)
  rw [Comparison.condition]
  split_ifs with htakes
  · exact attributeCondition_of_takes htakes a
  · rw [Bool.not_eq_true] at htakes
    cases how with
    | equals => cases htakes
    | dash => cases htakes
    | startsWith => exact hempty htakes
    | endsWith => exact hempty htakes
    | contains => exact hempty htakes
    | hasWord =>
        have hbreak : dropEnd (· == '\n') v = v := dropEnd_eq_self fun c hc => by
          rw [beq_eq_false_iff_ne]
          rintro rfl
          exact absurd (List.all_eq_true.mp hv _ (List.mem_of_getLast? hc)) (by decide)
        have hwords : (v.isEmpty || (dropEnd (· == '\n') v).any isCssSpace) = true := by
          rw [hbreak, Bool.or_eq_true, List.isEmpty_iff, List.any_eq_true]
          exact Comparison.exists_of_not_takes htakes
        exact if_pos hwords

/-- The number zero is read. -/
lemma reads_zero : Reads 3 6 ['0'] (.number (.ofDigits ['0'])) :=
  (reads_digits ⟨List.cons_ne_nil _ _, by decide⟩).lift (Nat.zero_le _) (Nat.zero_le _)

/-- The condition of a comparison is read. -/
lemma Comparison.reads_condition (how : Comparison) (ha : IsName a)
    (hv : isQuotable v = true) : Reads 3 6 (how.condition a v) (how.queryExpr a v) := by
  have hread := how.reads isSound_querySpelling ha hv
  have hboth : Reads 3 6 ('@' :: a ++ " and ".toList ++ how.text querySpelling a v)
      (.binary .and (attributeExpr a) (how.expr querySpelling a v)) :=
    ((reads_attribute ha).lift (by omega) (by omega)).binary sign_and hread
  have hasked : Reads 3 6 (how.asked a v) (how.askedExpr a v) := by
    cases how with
    | equals => exact hread.lift (by omega) (by omega)
    | _ => exact hboth
  rw [condition, queryExpr]
  split_ifs
  · exact hasked
  · exact reads_zero

/-- A comparison holds only of an attribute that is there. -/
lemma Comparison.not_isEmpty_of_holds {how : Comparison} (hv : how.takes v) {d : Document}
    {b : Address} (h : how.holds d b a v = true) : (d.valuesAt b a).isEmpty = false := by
  rw [Bool.eq_false_iff]
  intro hnil
  rw [List.isEmpty_iff] at hnil
  have hvalue : d.valueAt b a = [] := by simp [Document.valueAt, hnil]
  cases how with
  | equals => simp [holds, hnil] at h
  | hasWord => simp [holds, hvalue, spaceWords, pieces] at h
  | dash => simp [holds, hnil, hvalue] at h
  | startsWith => cases v <;> simp_all [holds, takes]
  | contains => cases v <;> simp_all [holds, takes, occursIn]
  | endsWith => cases v <;> simp_all [holds, takes]

/-- **The condition of a comparison** holds where the comparison does. -/
lemma Comparison.holds_queryExpr {how : Comparison} (hv : v.all isPlainChar = true) {env : Env}
    {f : Frame} {b : Address} (hf : f.place = .node b) :
    Holds env f (how.queryExpr a v) (how.holds env.document b a v) := by
  rw [queryExpr]
  split_ifs with htakes
  · have hholds : Holds env f (how.expr querySpelling a v) (how.holds env.document b a v) :=
      Comparison.holds_expr isSound_querySpelling htakes hf
    have hthere : Holds env f (attributeExpr a) (!(env.document.valuesAt b a).isEmpty) :=
      holds_attribute a hf
    have hboth : (!(env.document.valuesAt b a).isEmpty && how.holds env.document b a v) =
        how.holds env.document b a v := by
      cases h : how.holds env.document b a v with
      | false => simp
      | true => simp [Comparison.not_isEmpty_of_holds htakes h]
    have hand := hthere.and hholds
    rw [hboth] at hand
    cases how with
    | equals => exact hholds
    | _ => exact hand
  · rw [Comparison.holds_of_not_takes hv (Bool.eq_false_of_not_eq_true htakes)]
    exact holds_zero

/-! ### Tests in queries -/

/-- The condition of a test in a query for the elements of a name. -/
def Test.condition (tag : Text) : Test → Text
  | .id v => Comparison.equals.condition "id".toList v
  | .classToken v => Comparison.hasWord.condition "class".toList v
  | .present a => '@' :: a
  | .compare a how v => how.condition a v
  | .nthOfType digits =>
    Query.siblingCount false tag ++ " = ".toList ++ signed ((ofDecimal digits : ℤ) - 1)

/-- The number of siblings in front of a place; in front of the place zero there are none less
one. -/
def beforeExpr : ℕ → Expr
  | 0 => .numeric true (.number (.ofDigits (decimal 1)))
  | n + 1 => .number (.ofDigits (decimal n))

/-- The number of siblings in front of an element. -/
def siblingsExpr (test : NodeTest) (digits : Text) : Expr :=
  .binary .eq (.call none "count".toList [.step .here .precedingSibling test []])
    (beforeExpr (ofDecimal digits))

/-- What the condition of a test in a query is read as. -/
def Test.queryExpr (test : NodeTest) : Test → Expr
  | .id v => Comparison.equals.queryExpr "id".toList v
  | .classToken v => Comparison.hasWord.queryExpr "class".toList v
  | .present a => attributeExpr a
  | .compare a how v => how.queryExpr a v
  | .nthOfType digits => siblingsExpr test digits

/-- The number in front of a place has no sign, unless the place is zero. -/
lemma signed_succ (n : ℕ) : signed (((n + 1 : ℕ) : ℤ) - 1) = decimal n := by
  have hbefore : ((n + 1 : ℕ) : ℤ) - 1 = Int.ofNat n := by simp
  rw [hbefore, signed]

/-- The siblings of the name of a compound are counted. -/
lemma reads_siblings {c : Compound} (hc : c.isFormed = true) (digits : Text) :
    Reads 1 5 (Query.siblingCount false c.tag ++ " = ".toList ++
      signed ((ofDecimal digits : ℤ) - 1)) (siblingsExpr c.nodeTest digits) := by
  have haxis : Axis.ofName? "preceding-sibling".toList = some .precedingSibling := rfl
  have hstep := (testReads_axis isName_precedingSibling haxis (Compound.bareReads_tag hc)).step 0
  have hpath := reads_axis isName_precedingSibling hstep (.nil _)
  rw [List.append_nil] at hpath
  have hcount := reads_call_one isCallName_count (hpath.lift (k := loosest) le_rfl (Nat.zero_le _))
  have hopen : "preceding-sibling::".toList = "preceding-sibling".toList ++ "::".toList := rfl
  have htext : Query.siblingCount false c.tag = "count".toList ++
      '(' :: ("preceding-sibling".toList ++ "::".toList ++ c.tag ++ [')']) := by
    change "count(".toList ++ "preceding-sibling::".toList ++ c.tag ++ [')'] = _
    rw [hopen]
    rfl
  have hdecimal : ∀ m, Reads 1 0 (decimal m) (.number (.ofDigits (decimal m))) := fun m =>
    (reads_digits ⟨decimal_ne_nil m, fun _ => isDigit_of_mem_decimal⟩).lift (Nat.zero_le _) le_rfl
  rw [htext, siblingsExpr]
  cases ofDecimal digits with
  | zero => exact (hcount.lift le_rfl (by omega)).equals_negative (hdecimal 1)
  | succ n =>
      rw [signed_succ]
      exact (hcount.lift le_rfl (by omega)).binary sign_spaced_equals
        ((hdecimal n).lift le_rfl (by omega))

/-- **The condition of a test** in a query is read. -/
theorem Test.reads_condition {c : Compound} (hc : c.isFormed = true) {t : Test} (ht : t ∈ c.tests) :
    Reads 3 loosest (t.condition c.tag) (t.queryExpr c.nodeTest) := by
  have hformed := Compound.isFormed_tests hc t ht
  cases t with
  | id v =>
      exact (Comparison.equals.reads_condition isName_id (isQuotable_ident (v := v) hformed)).lift
        le_rfl (by decide)
  | classToken v =>
      exact (Comparison.hasWord.reads_condition isName_class
        (isQuotable_ident (v := v) hformed)).lift le_rfl (by decide)
  | present a =>
      exact (reads_attribute (isName_of_isPlainName (s := a) hformed)).lift (Nat.zero_le _)
        (Nat.zero_le _)
  | compare a how v =>
      simp only [isFormed, Bool.and_eq_true] at hformed
      exact (how.reads_condition (isName_of_isPlainName hformed.1.1) hformed.2).lift le_rfl
        (by decide)
  | nthOfType digits => exact (reads_siblings hc digits).lift (by decide) (by decide)

/-- As many siblings stand in front of an element as its place says. -/
lemma holds_siblings {env : Env} {f : Frame} {b : Address} {c : Compound} {digits : Text}
    (hb : passesAt env.document c.nodeTest none b)
    (hf : f.place = .node b) : Holds env f (siblingsExpr c.nodeTest digits)
      (decide (positionAt env.document c.nodeTest none b = ofDecimal digits)) := by
  obtain ⟨i, a, rfl⟩ := List.exists_cons_of_ne_nil (ne_nil_of_passesAt hb)
  have hu := Compound.testUri_nodeTest env c
  rw [siblingsExpr, positionAt]
  cases ofDecimal digits with
  | zero =>
      have hplace : decide (env.document.earlier (·.passes c.nodeTest none) (i :: a) + 1 = 0) =
          false := decide_eq_false (Nat.succ_ne_zero _)
      rw [hplace]
      exact holds_count_negative hu hf
  | succ n =>
      have h := holds_count_siblings hu (s := decimal n) (fun _ => isDigit_of_mem_decimal) hf
      have hplace : decide (env.document.earlier (·.passes c.nodeTest none) (i :: a) + 1 = n + 1) =
          decide (env.document.earlier (·.passes c.nodeTest none) (i :: a) = n) :=
        decide_eq_decide.mpr Nat.succ_inj
      rw [ofDecimal_decimal] at h
      rw [hplace]
      exact h

/-- The values of identifiers hold nothing that needs escapes. -/
lemma isPlainChar_ident (h : isPlainIdent v = true) : v.all isPlainChar = true := by
  have hall : ∀ {c : Char}, isPlainIdentChar c = true → isPlainChar c = true := fun {c} hc =>
    forall_ascii (P := fun c => isPlainIdentChar c = true → isPlainChar c = true)
      (by decide +kernel) (toNat_lt_of_isPlainIdentChar hc) hc
  rw [List.all_eq_true]
  exact fun c hc => hall (all_of_isPlainIdent h c hc)

/-- **The condition of a test** in a query holds where the test does. -/
theorem Test.holds_queryExpr {c : Compound} (hc : c.isFormed = true) {t : Test} (ht : t ∈ c.tests)
    {env : Env} {f : Frame} {b : Address} (hb : passesAt env.document c.nodeTest none b)
    (hf : f.place = .node b) :
    Holds env f (t.queryExpr c.nodeTest) (t.holds env.document c.nodeTest b) := by
  have hformed := Compound.isFormed_tests hc t ht
  cases t with
  | id v => exact Comparison.holds_queryExpr (isPlainChar_ident (v := v) hformed) hf
  | classToken v => exact Comparison.holds_queryExpr (isPlainChar_ident (v := v) hformed) hf
  | present a => exact holds_attribute a hf
  | compare a how v =>
      simp only [isFormed, Bool.and_eq_true] at hformed
      exact Comparison.holds_queryExpr hformed.1.2 hf
  | nthOfType digits => exact holds_siblings hb hf

end Css

end Locator

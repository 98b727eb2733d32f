/-
Bounds of queries

* `condition_eq`: the condition of a compound opens a parenthesis for each further test, and
  `isDeep_hasWord`: the condition for a class nests three levels more;
* `query_of_deep`, `query_of_not_fits`, `query_of_rootless`: **queries that find nothing or
  fail**: those with too many tests behind a class, those with too many digits in a place,
  and those in a document without a root.
-/
import Locator.Proofs.Css.Query
import Locator.Proofs.XPath.Deep

namespace Locator.Css

open Text XPath

variable {c : Compound} {t : Test} {ts : List Test} {gs : List Group} {a s v : Text} {d : Document}

/-! ### Conditions that are nested too deep -/

/-- The condition for a class nests three levels. -/
lemma isDeep_hasWord (ha : IsName a) (v : Text) :
    IsDeep 3 loosest (Comparison.hasWord.asked a v) := by
  have hattribute : Reads 0 0 ('@' :: a) (attributeExpr a) := reads_attribute ha
  have hblank : Reads 0 loosest (inSingle [' ']) (.literal [' ']) :=
    (reads_inSingle (by simp)).lift le_rfl (Nat.zero_le _)
  have hname : IsDeep 0 loosest ('@' :: a) := isDeep_zero hattribute.starts _
  have hwords := (hname.call isCallName_normalizeSpace).lift (k := loosest) (Nat.zero_le _)
  have hpadded := (hwords.call_second isCallName_concat hblank).lift (k := loosest) (Nat.zero_le _)
  have hword := ((hpadded.call isCallName_contains).lift (k := 5) (Nat.zero_le _))
  have hboth := (hword.binary (hattribute.lift le_rfl (Nat.zero_le _)) sign_and).lift (k := loosest)
    (by decide)
  have hdeep := hboth.append ("), ' '), ".toList ++ querySpelling.padded v ++ [')'])
  have htext : Comparison.hasWord.asked a v = '@' :: a ++ " and ".toList ++
      ("contains(concat(' ', normalize-space(@".toList ++ a ++ "), ' '), ".toList ++
        querySpelling.padded v ++ [')']) := rfl
  have hopen : "contains(concat(' ', normalize-space(@".toList = "contains".toList ++
      '(' :: ("concat".toList ++ '(' :: (inSingle [' '] ++ ", ".toList ++
        ("normalize-space".toList ++ ['(', '@']))) := rfl
  rw [htext, hopen]
  simp only [List.append_assoc, List.cons_append, List.nil_append] at hdeep ⊢
  exact hdeep

/-- Each further test opens one more parenthesis in front. -/
lemma exists_foldl_bothOf (ha : a ≠ []) {us : List Text} (hus : ∀ u ∈ us, u ≠ []) :
    ∃ r, us.foldl (fun a u => bothOf a u) a = List.replicate us.length '(' ++ (a ++ r) := by
  induction us generalizing a with
  | nil => exact ⟨[], (List.append_nil a).symm⟩
  | cons u us ih =>
      rw [List.forall_mem_cons] at hus
      have hboth := bothOf_eq ha hus.1
      obtain ⟨r, hr⟩ := ih (a := bothOf a u) (by rw [hboth]; simp) hus.2
      refine ⟨[')'] ++ " and ".toList ++ ('(' :: u ++ [')']) ++ r, ?_⟩
      rw [List.foldl_cons, hr, hboth, List.length_cons, List.replicate_succ']
      simp only [List.append_assoc, List.cons_append, List.nil_append]

/-- The condition of a compound with many tests behind a class is nested too deep. -/
lemma isDeep_condition (hc : c.isFormed = true) (ht : c.tests = .classToken v :: ts) :
    IsDeep (3 + ts.length) loosest c.condition := by
  have hclass : IsName "class".toList := isPathName_iff.mp rfl
  have hident : isPlainIdent v = true :=
    Compound.isFormed_tests hc (.classToken v) (ht ▸ List.mem_cons_self)
  have hasked : Comparison.hasWord.condition "class".toList v =
      Comparison.hasWord.asked "class".toList v := if_pos (takes_of_isPlainIdent hident)
  have hdeep := isDeep_hasWord hclass v
  rw [← hasked] at hdeep
  have hne : ∀ t ∈ ts, t.condition c.tag ≠ [] := fun t hts =>
    (Test.reads_condition hc (ht ▸ List.mem_cons_of_mem _ hts)).starts.ne_nil
  obtain ⟨r, hr⟩ := exists_foldl_bothOf hdeep.starts.ne_nil
    (List.forall_mem_map.mpr hne)
  have hfirst : bothOf [] (Comparison.hasWord.condition "class".toList v) =
      Comparison.hasWord.condition "class".toList v := rfl
  have htext : c.condition = ts.foldl (fun a t => bothOf a (t.condition c.tag))
      (Comparison.hasWord.condition "class".toList v) := by
    rw [Compound.condition, ht, List.foldl_cons, Test.condition, hfirst]
  rw [List.foldl_map, List.length_map] at hr
  rw [htext, hr]
  exact (hdeep.append r).parens ts.length

/-! ### Queries that fail or find nothing -/

/-- **A query with too many tests** behind a class is no expression. -/
theorem query_of_deep (h : IsSelector [⟨c, []⟩] s) (hfit : ∀ t ∈ c.tests, t.Fits)
    (ht : c.tests = .classToken v :: ts) (hmany : maxTests < c.tests.length) (hw : d.IsWhole) :
    Lookup.query (.document d) s = .error (.path .malformed) := by
  obtain ⟨r, hr, -, -⟩ := hw.exists_root
  have hroot : d.root? = some ⟨d, [r]⟩ := by simp [Document.root?, Document.rootAddress?, hr]
  have hstart : StartsAt (.node ⟨d, [r]⟩) ⟨d, [r]⟩ [] := ⟨rfl, rfl⟩
  have hplain : c.isPlain = true := h.plain _ (List.mem_singleton_self _) c List.mem_cons_self
  have hc := Compound.isFormed_of_isPlain hplain
  have hcount := Compound.isCountable_of_isPlain hplain
  have hpath : queryPath s = .ok (Group.queryText ⟨c, []⟩) := by
    have hpath := queryPath_of_fits h.isFormed (by simpa [Group.compounds] using hcount)
      (by simpa [Group.compounds] using hfit)
    rwa [List.map_singleton, join_singleton] at hpath
  have hxml : isXmlText (Group.queryText ⟨c, []⟩) = true :=
    Group.isXmlText_query (by simpa [Group.compounds] using hc)
  have hdeep := isDeep_condition hc ht
  have hlength : maxDepth ≤ 3 + ts.length + 1 := by
    rw [ht, List.length_cons] at hmany
    simp only [maxTests, maxDepth] at hmany ⊢
    omega
  have hread : Expr.read? (Group.queryText ⟨c, []⟩) = none := by
    have htest := testReads_axis isName_descendantOrSelf rfl
      (Compound.bareReads_tag hc)
    have hnone := read?_axis_deep (r := [']']) isName_descendantOrSelf htest hdeep hlength
    have hpredicate : predicate c.condition = '[' :: c.condition ++ [']'] :=
      if_neg (by simpa using hdeep.starts.ne_nil)
    have haxis : Group.queryText ⟨c, []⟩ = "descendant-or-self".toList ++ "::".toList ++
        (c.tag ++ predicate c.condition ++ []) := rfl
    have htext : Group.queryText ⟨c, []⟩ = "descendant-or-self".toList ++ "::".toList ++ c.tag ++
        '[' :: c.condition ++ [']'] := by
      rw [haxis, hpredicate]
      generalize "descendant-or-self".toList ++ "::".toList = axis
      simp only [List.append_nil, List.append_assoc]
    rwa [htext]
  have heval := evaluate_malformed hstart hxml hread
  rw [Lookup.query, hroot]
  simp only [querySelector, hpath, Except.mapError, ok_bind, evaluateElements, heval]
  rfl

/-- **A query with too many digits** in a place fails. -/
theorem query_of_not_fits (h : IsSelector gs s)
    (hfit : ∃ g ∈ gs, ∃ c ∈ g.compounds, ∃ t ∈ c.tests, ¬ t.Fits) (hw : d.IsWhole) :
    ∃ e, Lookup.query (.document d) s = .error e := by
  obtain ⟨r, hr, -, -⟩ := hw.exists_root
  have hroot : d.root? = some ⟨d, [r]⟩ := by simp [Document.root?, Document.rootAddress?, hr]
  obtain ⟨e, he⟩ := queryPath_of_not_fits h.isFormed
    (fun g hg c hc => Compound.isCountable_of_isPlain (h.plain g hg c hc)) hfit
  refine ⟨.selector e, ?_⟩
  rw [Lookup.query, hroot]
  simp only [querySelector, he, Except.mapError]
  rfl

/-- **Without a root** a query finds nothing, whatever its text is, and no expression can be
evaluated. -/
theorem query_of_rootless (hd : d.root? = none) (s p : Text) (namespaces : List (Text × Text)) :
    Lookup.query (.document d) s = .ok [] ∧
      evaluate p (.document d) namespaces = .error .emptyDocument := by
  constructor
  · rw [Lookup.query, hd]
  · simp only [evaluate, startNode, hd]
    rfl

end Locator.Css

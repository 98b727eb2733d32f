/-
Steps as the converter reads them

* `conditionScans`: what the converter looks for in the conditions of a path, and
  `Test.passes_toXPath`: it is not found there;
* `cutStep_passes`, `cutPredicate_passes`: a step is cut off at the slash behind it, and a
  predicate at its closing bracket;
* `Compound.IsStated`, `compoundOf_toXPath`: **a compound is read from its step**, if
  conditions can state its tests.
-/
import Locator.Proofs.Convert.Stated

namespace Locator

open Text

variable {u r s : Text} {n n' : Nesting} {c : Char}

namespace XPath

/-! ### What the converter looks for -/

/-- The scanner for the slash behind a step. -/
def stepScan : Scan := ⟨['['], [']'], '/', 0⟩

/-- The scanner for the bracket that closes a predicate. -/
def predicateScan : Scan := ⟨['['], [']'], ']', 1⟩

/-- A text without a slash outside of everything stands in front of the first one. -/
lemma cutStep_passes (h : stepScan.Passes n u n') (r : Text) :
    cutStep n (u ++ r) = (u ++ (cutStep n' r).1, (cutStep n' r).2) := by
  induction h with
  | nil => rfl
  | @cons n n' c u hc _ ih =>
      have hstop : (n.quote.isNone && n.depth == 0 && c == '/') = false := by
        rw [Bool.eq_false_iff]
        intro hstop
        simp only [Bool.and_eq_true, Option.isNone_iff_eq_none, beq_iff_eq] at hstop
        exact hc hstop.2 hstop.1.1 hstop.1.2
      rw [List.cons_append, cutStep, if_neg (by rw [hstop]; exact Bool.false_ne_true)]
      exact congrArg (fun x : Text × Text => (c :: x.1, x.2)) ih

/-- A text without a bracket that closes the predicate stands in front of the first one. -/
lemma cutPredicate_passes (h : predicateScan.Passes n u n') (r : Text) :
    cutPredicate n (u ++ r) = (cutPredicate n' r).map fun x => (u ++ x.1, x.2) := by
  induction h with
  | nil => simp
  | @cons n n' c u hc _ ih =>
      have hstop : (n.quote.isNone && n.depth == 1 && c == ']') = false := by
        rw [Bool.eq_false_iff]
        intro hstop
        simp only [Bool.and_eq_true, Option.isNone_iff_eq_none, beq_iff_eq] at hstop
        exact hc hstop.2 hstop.1.1 hstop.1.2
      have hnext : cutPredicate (nextInStep n c) (u ++ r) =
          (cutPredicate n' r).map fun x => (u ++ x.1, x.2) := ih
      rw [List.cons_append, cutPredicate, if_neg (by rw [hstop]; exact Bool.false_ne_true), hnext]
      cases cutPredicate n' r <;> rfl

/-- The scanners that meet the conditions of a path, each with its depth there. -/
def conditionScans : List (Scan × ℕ) :=
  [(separators '|', 1), (stepScan, 1), (predicateScan, 1), (separators ' ', 0)]

end XPath

open XPath

namespace Css

variable {t : Test} {ts : List Test} {c : Compound} {w : Scan} {k : ℕ}

lemma isMarked_of_mem (hw : (w, k) ∈ conditionScans) : w.isMarked = true := by
  have hall : ∀ x ∈ conditionScans, x.1.isMarked = true := by decide
  exact hall (w, k) hw

/-- Closed texts pass all scanners if each of them passes. -/
lemma passes_of_all {u : Text} (h : (conditionScans.all fun x =>
    x.1.after ⟨x.2, none⟩ u == some ⟨x.2, none⟩) = true) (hw : (w, k) ∈ conditionScans) :
    w.Passes ⟨k, none⟩ u ⟨k, none⟩ := by
  have := List.all_eq_true.mp h _ hw
  exact .of_after (beq_iff_eq.mp this)

lemma passes_quotes {v : Text} {q : Char} (hq : isQuote q = true) (hv : q ∉ v)
    (hw : (w, k) ∈ conditionScans) (j : ℕ) :
    w.Passes ⟨j, none⟩ (q :: v ++ [q]) ⟨j, none⟩ := by
  have hstop : ∀ x ∈ conditionScans, isQuote x.1.stop = false := by decide
  refine .literal hq hv ?_
  rintro rfl
  simp [hstop _ hw] at hq

lemma passes_equalsText {a v : Text} (ha : isWordName a = true) (hv : '"' ∉ v)
    (hw : (w, k) ∈ conditionScans) : w.Passes ⟨k, none⟩ (equalsText a v) ⟨k, none⟩ := by
  have hat : w.Passes ⟨k, none⟩ ['@'] ⟨k, none⟩ := passes_of_all (by decide) hw
  have hsign : w.Passes ⟨k, none⟩ ['='] ⟨k, none⟩ := passes_of_all (by decide) hw
  have hname := Scan.Passes.inert (k := k) (isMarked_of_mem hw) (isInert_name ha)
  exact hat.append (hname.append (hsign.append (passes_quotes (q := '"') rfl hv hw k)))

lemma passes_classText {v : Text} (hv : '\'' ∉ v) (hw : (w, k) ∈ conditionScans) :
    w.Passes ⟨k, none⟩ (classText v) ⟨k, none⟩ := by
  have hall : (conditionScans.all fun x => (x.1.after ⟨x.2, none⟩ classStart).any fun n =>
      n.quote == none && x.1.after n [')'] == some ⟨x.2, none⟩) = true := by decide
  have hends := List.all_eq_true.mp hall _ hw
  simp only [Option.any_eq_true, Bool.and_eq_true, beq_iff_eq] at hends
  obtain ⟨⟨j, quote⟩, hstart, rfl, hclose⟩ := hends
  have hvalue : '\'' ∉ ' ' :: v ++ [' '] := by simpa using hv
  exact ((Scan.Passes.of_after hstart).append (passes_quotes rfl hvalue hw j)).append
    (.of_after hclose)

/-- **Nothing is found in a condition** that the converter looks for in a path. -/
theorem Test.passes_toXPath (h : t.isStated = true) (hv : '"' ∉ t.value)
    (hw : (w, k) ∈ conditionScans) : w.Passes ⟨k, none⟩ t.toXPath ⟨k, none⟩ := by
  obtain ⟨a, v, ha, hmark, -, -, htext⟩ | ⟨v, hv', -, -, htext⟩ | ⟨digits, -, hd, -, htext⟩ :=
    Test.toXPath_cases h hv
  · rw [htext]
    exact passes_equalsText ha hmark hw
  · rw [htext]
    exact passes_classText (mark_not_mem_wordText hv') hw
  · have hstart : w.Passes ⟨k, none⟩ "position()=".toList ⟨k, none⟩ := passes_of_all (by decide) hw
    have hdigits := Scan.Passes.inert (k := k) (isMarked_of_mem hw) (isInert_digits hd)
    rw [htext]
    exact hstart.append hdigits

/-! ### Steps of compounds -/

/-- A compound whose tests conditions can state, with values that hold no double quotation
mark: its step is read as the compound. -/
structure Compound.IsStated (c : Compound) : Prop where
  tag : c.tag = ['*'] ∨ isWordName c.tag = true
  stated : ∀ t ∈ c.tests, t.isStated = true
  raw : ∀ t ∈ c.tests, '"' ∉ t.value

/-- The ends of a condition: neither a blank nor a slash. -/
structure IsEnclosed (s : Text) : Prop extends IsTrim s where
  noSlash : ∀ c ∈ s.getLast?, c ≠ '/'

lemma IsEnclosed.of_ends {d x : Char} (u : Text) (hd : isBlank d = false) (hx : isBlank x = false)
    (hne : x ≠ '/') : IsEnclosed (d :: u ++ [x]) where
  ne_nil := List.cons_ne_nil _ _
  head := by
    rintro _ ⟨rfl⟩
    exact hd
  last c hc := by
    rw [List.getLast?_concat] at hc
    obtain rfl := Option.some.inj hc
    exact hx
  noSlash c hc := by
    rw [List.getLast?_concat] at hc
    obtain rfl := Option.some.inj hc
    exact hne

/-- Neither a blank nor a slash stands at the ends of a condition. -/
lemma Test.isEnclosed_toXPath (h : t.isStated = true) (hv : '"' ∉ t.value) :
    IsEnclosed t.toXPath := by
  obtain ⟨a, v, -, -, -, -, htext⟩ | ⟨v, -, -, -, htext⟩ | ⟨digits, hne, hd, -, htext⟩ :=
    Test.toXPath_cases h hv
  · have hends : equalsText a v = '@' :: (a ++ '=' :: '"' :: v) ++ ['"'] := by simp [equalsText]
    rw [htext, hends]
    exact .of_ends _ rfl rfl (by decide)
  · rw [htext]
    exact .of_ends _ rfl rfl (by decide)
  · obtain ⟨u, d, rfl⟩ := List.eq_nil_or_concat digits |>.resolve_left hne
    have hinert := isInert_digits hd d (by simp)
    rw [htext, List.concat_eq_append, ← List.append_assoc]
    exact .of_ends _ rfl (isBlank_of_isInert hinert) (ne_of_isInert hinert rfl)

/-- The conditions of a compound in one predicate. -/
def Compound.body (c : Compound) : Text := join " and ".toList (c.tests.map Test.toXPath)

lemma Compound.toXPath_eq (c : Compound) :
    c.toXPath = if c.tests = [] then c.tag else c.tag ++ '[' :: c.body ++ [']'] := by
  rw [toXPath]
  simp only [List.isEmpty_iff]
  rfl

/-- Nothing is found in the predicate of a compound. -/
lemma Compound.passes_body (h : c.IsStated) (hw : (w, 1) ∈ conditionScans) :
    w.Passes ⟨1, none⟩ c.body ⟨1, none⟩ := by
  have hall : (conditionScans.all fun x => x.2 != 1 ||
      x.1.after ⟨1, none⟩ " and ".toList == some ⟨1, none⟩) = true := by decide
  have hand : w.Passes ⟨1, none⟩ " and ".toList ⟨1, none⟩ := by
    have := List.all_eq_true.mp hall _ hw
    exact .of_after (by simpa using this)
  have htests : ∀ ts : List Test, (∀ t ∈ ts, w.Passes ⟨1, none⟩ t.toXPath ⟨1, none⟩) →
      w.Passes ⟨1, none⟩ (join " and ".toList (ts.map Test.toXPath)) ⟨1, none⟩ := by
    intro ts
    induction ts with
    | nil => exact fun _ => .nil _
    | cons t ts ih =>
        intro ht
        rw [List.forall_mem_cons] at ht
        cases ts with
        | nil =>
            rw [List.map_singleton, join_singleton]
            exact ht.1
        | cons t' ts =>
            rw [List.map_cons, List.map_cons, join_cons_cons, List.append_assoc]
            exact ht.1.append (hand.append (ih ht.2))
  exact htests c.tests fun t ht => Test.passes_toXPath (h.stated t ht) (h.raw t ht) hw

/-- Nothing is found in the step of a compound that is looked for outside of predicates. -/
lemma Compound.passes_toXPath (h : c.IsStated) (hw : w = separators '|' ∨ w = stepScan) :
    w.Passes ⟨0, none⟩ c.toXPath ⟨0, none⟩ := by
  have hmem : (w, 1) ∈ conditionScans := by rcases hw with rfl | rfl <;> decide
  have htag : w.Passes ⟨0, none⟩ c.tag ⟨0, none⟩ := by
    rcases h.tag with hstar | hname
    · rw [hstar]
      rcases hw with rfl | rfl <;> exact .of_after (by decide)
    · exact Scan.Passes.inert (k := 0) (isMarked_of_mem hmem) (isInert_name hname)
  have hopen : w.Passes ⟨0, none⟩ ['['] ⟨1, none⟩ := by
    rcases hw with rfl | rfl <;> exact .of_after (by decide)
  have hclose : w.Passes ⟨1, none⟩ [']'] ⟨0, none⟩ := by
    rcases hw with rfl | rfl <;> exact .of_after (by decide)
  rw [Compound.toXPath_eq]
  split_ifs
  · exact htag
  · exact (htag.append (hopen.append (Compound.passes_body h hmem))).append hclose

end Css

namespace XPath

open Css

variable {c : Compound} {ts : List Test}

/-- The conditions of a predicate are parted. -/
lemma conditions_join {us : List Text} (hne : us ≠ [])
    (h : ∀ x ∈ us, (separators ' ').Passes .outside x .outside ∧ IsTrim x) :
    conditions (join " and ".toList us) = us := by
  obtain ⟨u, us, rfl⟩ := List.exists_cons_of_ne_nil hne
  have hsplit : splitTop " and ".toList (join " and ".toList (u :: us)) = u :: us :=
    splitTop_join (c := ' ') rfl fun x hx => (h x hx).1
  rw [conditions, hsplit]
  exact (List.map_congr_left fun x hx => strip_eq_self (h x hx).2).trans (List.map_id _)

/-- A predicate alone is read. -/
lemma predicates_one {body : Text} (h : predicateScan.Passes ⟨1, none⟩ body ⟨1, none⟩)
    (ht : IsTrim body) : predicates ('[' :: body ++ [']']) = some [body] := by
  have hclose : cutPredicate ⟨1, none⟩ [']'] = some ([], []) := rfl
  have hcut : cutPredicate ⟨1, none⟩ (body ++ [']']) = some (body, []) := by
    rw [cutPredicate_passes h, hclose, Option.map_some, List.append_nil]
  have hne : body.isEmpty = false := by simpa using ht.ne_nil
  rw [predicates, List.cons_append, List.length_cons, predicatesFrom, hcut]
  simp only [Option.bind_eq_bind, Option.bind_some, strip_eq_self ht, hne, Bool.false_eq_true,
    if_false, predicatesFrom, Option.pure_def]

/-! ### Compounds are read from their steps -/

lemma isTrim_tag (h : c.IsStated) : IsTrim c.tag := by
  rcases h.tag with hstar | hname
  · rw [hstar]
    exact ⟨List.cons_ne_nil _ _, by decide, by decide⟩
  · exact isTrim_name hname

/-- Neither a blank nor a slash stands at the ends of a step. -/
lemma isEnclosed_step (h : c.IsStated) : IsEnclosed c.toXPath := by
  have hclose : IsTrim [']'] := ⟨List.cons_ne_nil _ _, by decide, by decide⟩
  rw [Compound.toXPath_eq]
  split_ifs
  · refine ⟨isTrim_tag h, fun d hd => ?_⟩
    rcases h.tag with hstar | hname
    · rw [hstar] at hd
      obtain rfl : '*' = d := by simpa using hd
      decide
    · exact ne_of_isInert (isInert_name hname d (List.mem_of_getLast? hd)) rfl
  · refine ⟨(isTrim_tag h).append ('[' :: c.body) hclose, fun d hd => ?_⟩
    rw [List.getLast?_concat] at hd
    obtain rfl := Option.some.inj hd
    decide

/-- The name of a step is read in front of a predicate. -/
lemma readName_append {r : Text} (h : c.tag = ['*'] ∨ isWordName c.tag = true)
    (hr : ∀ d ∈ r.head?, isIdentChar d = false) : readName (c.tag ++ r) = some (c.tag, r) := by
  rcases h with hstar | hname
  · rw [hstar]
    rfl
  · have hne : ∀ w, c.tag ++ r ≠ '*' :: w := fun w heq => by
      obtain ⟨d, u, hdu⟩ := List.exists_cons_of_ne_nil (isWordName_ne_nil hname)
      rw [hdu] at heq
      have hd := isInert_name hname d (by simp [hdu])
      obtain rfl := (List.cons.inj heq).1
      exact absurd hd (by decide)
    rw [readName, ident?_append hname hr]
    exact hne

/-- The predicates of a compound hold its conditions. -/
lemma conditions_body (h : c.IsStated) (hne : c.tests ≠ []) :
    conditions c.body = c.tests.map Test.toXPath := by
  refine conditions_join (by simpa using hne) fun x hx => ?_
  obtain ⟨t, ht, rfl⟩ := List.mem_map.mp hx
  have hmem : (separators ' ', 0) ∈ conditionScans := by decide
  exact ⟨Test.passes_toXPath (h.stated t ht) (h.raw t ht) hmem,
    (Test.isEnclosed_toXPath (h.stated t ht) (h.raw t ht)).toIsTrim⟩

lemma isTrim_body (h : c.IsStated) (hne : c.tests ≠ []) : IsTrim c.body := by
  have htests : ∀ ts : List Test, ts ≠ [] → (∀ t ∈ ts, IsTrim t.toXPath) →
      IsTrim (join " and ".toList (ts.map Test.toXPath)) := by
    intro ts
    induction ts with
    | nil => exact fun hnil => absurd rfl hnil
    | cons t ts ih =>
        intro _ ht
        rw [List.forall_mem_cons] at ht
        cases ts with
        | nil =>
            rw [List.map_singleton, join_singleton]
            exact ht.1
        | cons t' ts =>
            rw [List.map_cons, List.map_cons, join_cons_cons]
            exact ht.1.append _ (ih (List.cons_ne_nil _ _) ht.2)
  exact htests c.tests hne fun t ht => (Test.isEnclosed_toXPath (h.stated t ht) (h.raw t ht)).toIsTrim

/-- **A compound is read from its step.** -/
theorem compoundOf_toXPath (h : c.IsStated) : compoundOf c.toXPath = some c := by
  have htests : ∀ ts : List Test, (∀ t ∈ ts, t.isStated = true ∧ '"' ∉ t.value) →
      (ts.map Test.toXPath).mapM testOf = some ts := by
    intro ts
    induction ts with
    | nil => exact fun _ => rfl
    | cons t ts ih =>
        intro ht
        rw [List.forall_mem_cons] at ht
        have hread := testOf_iff.mpr (states_toXPath ht.1.1 ht.1.2)
        rw [List.map_cons, List.mapM_cons, hread, ih ht.2]
        rfl
  have hall := htests c.tests fun t ht => ⟨h.stated t ht, h.raw t ht⟩
  rw [compoundOf, strip_eq_self (isEnclosed_step h).toIsTrim, Compound.toXPath_eq]
  by_cases hnil : c.tests = []
  · have hname := readName_append (r := []) h.tag (by simp)
    rw [List.append_nil] at hname
    rw [if_pos hnil, hname]
    rw [hnil] at hall
    simp only [Option.bind_eq_bind, Option.bind_some, predicates, predicatesFrom, List.flatMap_nil,
      List.mapM_nil, Option.pure_def]
    rw [← hnil]
  · have hname := readName_append (r := '[' :: c.body ++ [']']) h.tag (by rintro _ ⟨rfl⟩; rfl)
    have hmem : (predicateScan, 1) ∈ conditionScans := by decide
    have hpredicates := predicates_one (Compound.passes_body h hmem) (isTrim_body h hnil)
    rw [if_neg hnil, List.append_assoc, hname]
    simp only [Option.bind_eq_bind, Option.bind_some, hpredicates, List.flatMap_singleton,
      conditions_body h hnil, hall, Option.pure_def]

end XPath

end Locator

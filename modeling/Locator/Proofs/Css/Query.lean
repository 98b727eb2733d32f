/-
What queries select

* `reads_condition`, `stepReads_query`: the condition of a compound is read, however its
  tests are bracketed, and so are compounds as steps, up to `maxTests` tests each;
* `Group.reads_query`, `Group.selects_query`: the query of a group is read and selects what
  the group chooses;
* `query_eq_of_isFormed`, `query_eq`: **the query of a selector** finds the elements that the
  selector chooses.
-/
import Locator.Lookup
import Locator.Proofs.Convert.Path
import Locator.Proofs.Css.Condition
import Locator.Proofs.Css.Draft

namespace Locator.Css

open Text XPath

variable {c : Compound} {t : Test} {ts : List Test} {g : Group} {gs : List Group} {s a : Text}
  {e : Expr} {axis : Axis} {d : Document}

/-! ### Conditions -/

/-- Each further test takes one more pair of parentheses. -/
def maxTests : ℕ := maxDepth - 4

lemma bothOf_eq {a b : Text} (ha : a ≠ []) (hb : b ≠ []) :
    bothOf a b = '(' :: a ++ [')'] ++ " and ".toList ++ ('(' :: b ++ [')']) := by
  rw [bothOf, if_neg (by simpa using ha), if_neg (by simpa using hb)]
  have h1 : ") ".toList ++ "and".toList = [')'] ++ [' ', 'a', 'n', 'd'] := rfl
  have h2 : " (".toList = [' ', '('] := rfl
  have h3 : " and ".toList = [' ', 'a', 'n', 'd'] ++ [' '] := rfl
  rw [List.append_assoc ('(' :: a), h1, h2, h3]
  simp only [List.append_assoc, List.cons_append, List.nil_append]

/-- A condition with one more test. -/
lemma reads_bothOf {n : ℕ} {a b : Text} {e f : Expr} (ha : Reads n loosest a e)
    (hb : Reads n loosest b f) : Reads (n + 1) loosest (bothOf a b) (.binary .and e f) := by
  rw [bothOf_eq ha.starts.ne_nil hb.starts.ne_nil]
  exact ((reads_paren ha).lift (k := 5) (by omega) (by omega)).binary sign_and ((reads_paren hb).lift (by omega) (by omega)) |>.lift le_rfl
    (by decide)

/-- Conditions are read one inside the other. -/
lemma reads_conditions (hc : c.isFormed = true) (hts : ∀ t ∈ ts, t ∈ c.tests) {n : ℕ} (hn : 3 ≤ n)
    (ha : Reads n loosest a e) :
    Reads (n + ts.length) loosest (ts.foldl (fun a t => bothOf a (t.condition c.tag)) a)
      ((ts.map (Test.queryExpr c.nodeTest)).foldl (.binary .and) e) := by
  induction ts generalizing n a e with
  | nil => exact ha
  | cons t ts ih =>
      rw [List.forall_mem_cons] at hts
      have hboth := reads_bothOf ha ((Test.reads_condition hc hts.1).lift hn le_rfl)
      have h := ih hts.2 (Nat.le_succ_of_le hn) hboth
      rwa [Nat.succ_add_eq_add_succ] at h

/-- **A compound is read as a step**, whose name stands behind the axis. -/
theorem stepReads_query (hc : c.isFormed = true) (hfew : c.tests.length ≤ maxTests)
    (h : TestReads s axis c.nodeTest) :
    StepReads (maxDepth - 1) (s ++ predicate c.condition) axis c.nodeTest
      (conditions (Test.queryExpr c.nodeTest) c.tests) := by
  have hnone : predicate [] = [] := rfl
  rw [Compound.condition]
  cases hts : c.tests with
  | nil =>
      rw [List.foldl_nil, hnone, List.append_nil]
      exact h.step _
  | cons t ts =>
      have hmem : ∀ t' ∈ t :: ts, t' ∈ c.tests := fun t' ht' => hts ▸ ht'
      rw [List.forall_mem_cons] at hmem
      have hread := reads_conditions hc hmem.2 le_rfl (Test.reads_condition hc hmem.1)
      have hlen : 3 + ts.length ≤ maxDepth - 2 := by
        rw [hts, List.length_cons] at hfew
        simp only [maxTests, maxDepth] at hfew ⊢
        omega
      have hfirst : bothOf [] (t.condition c.tag) = t.condition c.tag := rfl
      rw [List.foldl_cons, hfirst, predicate, if_neg (by simpa using hread.starts.ne_nil)]
      have hstep := h.step_predicate (hread.lift hlen le_rfl)
      rwa [List.append_assoc] at hstep

/-! ### Groups -/

/-- What the first compound of a group is read as. -/
def Compound.queryStart (c : Compound) : Expr :=
  .step .here .descendantOrSelf c.nodeTest (conditions (Test.queryExpr c.nodeTest) c.tests)

/-- What the query of a group is read as. -/
def Group.queryExpr (g : Group) : Expr :=
  chainExpr (fun c => conditions (Test.queryExpr c.nodeTest) c.tests) g.first.queryStart g.rest

/-- The query of a group is read. -/
lemma Group.reads_query (hp : ∀ c ∈ g.compounds, c.isFormed = true)
    (hfew : ∀ c ∈ g.compounds, c.tests.length ≤ maxTests) :
    Reads (maxDepth - 1) 0 g.queryText g.queryExpr := by
  rw [Group.compounds, List.forall_mem_cons, List.forall_mem_map] at hp hfew
  have haxis : Axis.ofName? "descendant-or-self".toList = some .descendantOrSelf := rfl
  have hfirst := stepReads_query hp.1 hfew.1
    (testReads_axis isName_descendantOrSelf haxis (Compound.bareReads_tag hp.1))
  have hsteps := fun s hs =>
    stepReads_query (hp.2 s hs) (hfew.2 s hs) (Compound.testReads_tag (hp.2 s hs))
  have hrest : StepsRead (maxDepth - 1) (chainText Compound.queryText g.rest) g.first.queryStart
      g.queryExpr := stepsRead_chain hsteps _
  rw [List.append_assoc] at hfirst
  have htext : g.queryText = "descendant-or-self".toList ++ "::".toList ++
      (g.first.tag ++ predicate g.first.condition) ++ chainText Compound.queryText g.rest :=
    (List.append_assoc _ _ _).symm
  rw [htext]
  exact reads_axis isName_descendantOrSelf hfirst hrest

/-- The conditions of the tests of a compound hold where it does. -/
lemma Compound.holds_queryExpr (hc : c.isFormed = true) {env : Env} {f : Frame} {b : Address}
    (hb : passesAt env.document c.nodeTest none b) (hf : f.place = .node b) :
    ∀ t ∈ c.tests, Holds env f (t.queryExpr c.nodeTest) (t.holds env.document c.nodeTest b) :=
  fun _ ht => Test.holds_queryExpr hc ht hb hf

/-- The first compound of a group selects what it matches below the root. -/
lemma Compound.selects_query (hc : c.isFormed = true) {env : Env} {f : Frame} {r : ℕ}
    (hr : ∀ j, env.document.isElementAt [j] → j = r) (hf : f.place = .node [r]) :
    Selects env c.queryStart f fun b => c.matchesAt env.document b := by
  have hhere : Selects env .here f (· = [r]) := selects_here f hf
  have hu := Compound.testUri_nodeTest env c
  have hd : c.nodeTest.accepts .descendantOrSelf none .document = false := by
    rw [nodeTest]
    split_ifs <;> rfl
  have hbelow : ∀ b, passesAt env.document c.nodeTest none b → ∃ way, b = way ++ [r] := fun b hb =>
    Document.exists_way_of_isElementAt hr (isElementAt_of_passesAt hb)
  rw [queryStart]
  cases hts : c.tests with
  | nil =>
      have hholds : ∀ b, c.matchesAt env.document b = passesAt env.document c.nodeTest none b :=
        fun b => by rw [matchesAt, holds, hts, List.all_nil, Bool.and_true]
      refine (hhere.within hu hd).congr fun b => ?_
      rw [hholds]
      constructor
      · rintro ⟨_, rfl, way, -, hb⟩
        exact hb
      · intro hb
        obtain ⟨way, rfl⟩ := hbelow b hb
        exact ⟨_, rfl, way, rfl, hb⟩
  | cons t ts =>
      have hholds := hhere.within_where hu hd (H := c.holds env.document) fun b hb k size => by
        have hall := Compound.holds_queryExpr hc (f := ⟨.node b, some (k + 1), some size⟩) hb rfl
        rw [hts] at hall
        have h := (holds_conditions hall).holdsAt k
        rwa [← hts] at h
      refine hholds.congr fun b => ?_
      rw [matchesAt, Bool.and_eq_true]
      constructor
      · rintro ⟨_, rfl, way, -, hb⟩
        exact hb
      · rintro hb
        obtain ⟨way, rfl⟩ := hbelow b hb.1
        exact ⟨_, rfl, way, rfl, hb⟩

/-- The query of a group selects what it chooses. -/
lemma Group.selects_query (hp : ∀ c ∈ g.compounds, c.isFormed = true) {env : Env} {f : Frame}
    {r : ℕ} (hr : ∀ j, env.document.isElementAt [j] → j = r) (hf : f.place = .node [r]) :
    Selects env g.queryExpr f fun b => g.chosen env.document b := by
  rw [Group.compounds, List.forall_mem_cons, List.forall_mem_map] at hp
  exact Selects.chain (M := fun c => c.matchesAt env.document) (Compound.selects_query hp.1 hr hf)
    fun s hs => keeps_conditions
      (H := fun t b => t.holds env.document s.compound.nodeTest b)
      fun t ht b hb size => Compound.holds_queryExpr (hp.2 s hs) hb rfl t ht

/-! ### XML texts -/

lemma isXmlText_bothOf {a b : Text} (ha : isXmlText a = true) (hb : isXmlText b = true) :
    isXmlText (bothOf a b) = true := by
  by_cases hna : a = []
  · rwa [hna]
  by_cases hnb : b = []
  · have hleft : bothOf a [] = a := by rw [bothOf, if_neg (by simpa using hna), if_pos List.isEmpty_nil]
    rwa [hnb, hleft]
  have hand : isXmlText " and ".toList = true := rfl
  have hparen : ∀ {s : Text}, isXmlText s = true → isXmlText ('(' :: s ++ [')']) = true := by
    intro s hs
    rw [isXmlText_append, ← List.singleton_append, isXmlText_append, hs]
    rfl
  rw [bothOf_eq hna hnb, isXmlText_append, isXmlText_append, hparen ha, hparen hb, hand]
  rfl

lemma Comparison.isXmlText_condition (how : Comparison) {a v : Text} (ha : isXmlText a = true)
    (hv : isXmlText v = true) : isXmlText (how.condition a v) = true := by
  have htext := how.isXmlText_text isSound_querySpelling ha hv
  have hboth : isXmlText (['@'] ++ a ++ " and ".toList ++ how.text querySpelling a v) = true := by
    rw [isXmlText_append, isXmlText_append, isXmlText_append, ha, htext]
    rfl
  rw [condition]
  split_ifs
  · cases how with
    | equals => exact htext
    | _ => exact hboth
  · rfl

lemma Test.isXmlText_condition (hc : c.isFormed = true) (ht : t.isFormed = true) :
    isXmlText (t.condition c.tag) = true := by
  cases t with
  | id v => exact Comparison.equals.isXmlText_condition rfl (isXmlText_ident (s := v) ht)
  | classToken v => exact Comparison.hasWord.isXmlText_condition rfl (isXmlText_ident (s := v) ht)
  | present a =>
      rw [condition, ← List.singleton_append, isXmlText_append,
        isXmlText_of_isName (isName_of_isPlainName (s := a) ht)]
      rfl
  | compare a how v =>
      simp only [isFormed, Bool.and_eq_true] at ht
      exact how.isXmlText_condition (isXmlText_of_isName (isName_of_isPlainName ht.1.1))
        (isXmlText_value ht.1.2)
  | nthOfType digits =>
      have hdigits : isXmlText (signed ((ofDecimal digits : ℤ) - 1)) = true := by
        cases ofDecimal digits with
        | zero => rfl
        | succ n =>
            rw [signed_succ]
            exact isXmlText_digits (List.all_eq_true.mpr fun c hc => isDigit_of_mem_decimal hc)
      change isXmlText ("count(".toList ++ "preceding-sibling::".toList ++ c.tag ++ [')'] ++
        " = ".toList ++ signed ((ofDecimal digits : ℤ) - 1)) = true
      simp only [isXmlText_append, isXmlText_tag hc, hdigits]
      rfl

/-- A compound as a step is an XML text. -/
lemma Compound.isXmlText_queryText (hc : c.isFormed = true) : isXmlText c.queryText = true := by
  have hfold : ∀ ts : List Test, (∀ t ∈ ts, t.isFormed = true) → ∀ a, isXmlText a = true →
      isXmlText (ts.foldl (fun a t => bothOf a (t.condition c.tag)) a) = true := by
    intro ts hts
    induction ts with
    | nil => exact fun a ha => ha
    | cons t ts ih =>
        intro a ha
        rw [List.forall_mem_cons] at hts
        exact ih hts.2 _ (isXmlText_bothOf ha (Test.isXmlText_condition hc hts.1))
  have hcondition := hfold c.tests (Compound.isFormed_tests hc) [] rfl
  rw [queryText, isXmlText_append, isXmlText_tag hc, Bool.true_and, predicate]
  split_ifs
  · rfl
  · rw [isXmlText_append, ← List.singleton_append, isXmlText_append, condition, hcondition]
    rfl

lemma Group.isXmlText_query (hp : ∀ c ∈ g.compounds, c.isFormed = true) :
    isXmlText g.queryText = true := by
  have haxis : isXmlText "descendant-or-self::".toList = true := rfl
  rw [Group.compounds, List.forall_mem_cons, List.forall_mem_map] at hp
  have hrest : isXmlText (chainText Compound.queryText g.rest) = true :=
    isXmlText_chain fun s hs => Compound.isXmlText_queryText (hp.2 s hs)
  have hsteps : isXmlText (g.first.queryText ++ chainText Compound.queryText g.rest) = true := by
    rw [isXmlText_append, Compound.isXmlText_queryText hp.1, hrest]
    rfl
  exact isXmlText_append.trans (Bool.and_eq_true_iff.mpr ⟨haxis, hsteps⟩)

/-! ### Selectors -/

/-- A query can read a selector: no place has too many digits, and no compound too many
tests. -/
structure IsAskable (gs : List Group) : Prop where
  fits : ∀ g ∈ gs, ∀ c ∈ g.compounds, ∀ t ∈ c.tests, t.Fits
  few : ∀ g ∈ gs, ∀ c ∈ g.compounds, c.tests.length ≤ maxTests

/-- **The query of a selector** finds the elements that the selector chooses, whether it asks for
anything or not, if it counts elements of one name only where there is a name. -/
theorem query_eq_of_isFormed (h : IsFormed gs s)
    (hcount : ∀ g ∈ gs, ∀ c ∈ g.compounds, c.isCountable = true) (hread : IsAskable gs)
    (hw : d.IsWhole) : Lookup.query (.document d) s = .ok (d.chosen gs) := by
  obtain ⟨r, hr, he, hu⟩ := hw.exists_root
  have hroot : d.root? = some ⟨d, [r]⟩ := by simp [Document.root?, Document.rootAddress?, hr]
  obtain ⟨g, gs, rfl⟩ : ∃ g gs', gs = g :: gs' := by
    obtain ⟨bs, t, -, ht, -⟩ := h.written
    cases ht <;> exact ⟨_, _, rfl⟩
  have hstart : StartsAt (.node ⟨d, [r]⟩) ⟨d, [r]⟩ [] := ⟨rfl, rfl⟩
  have hreads := reads_unions
    fun g' hg' => Group.reads_query (h.formed g' hg') (hread.few g' hg')
  have hplaces := evaluate_unions (n := ⟨d, [r]⟩) (C := fun g b => g.chosen d b) hw hstart
    (fun g' hg' => Group.isXmlText_query (h.formed g' hg'))
    ((hreads.lift le_rfl (by decide)).read? (by decide))
    (fun g' hg' => Group.selects_query (h.formed g' hg') hu rfl)
    fun _ _ _ => Group.isElementAt_of_chosen
  have hchosen : ∀ m ∈ d.chosen (g :: gs), m.document = d ∧ m.isElement := fun m hm => by
    obtain ⟨rfl, hm⟩ := (Document.mem_elements hw).mp (List.mem_of_mem_filter hm)
    exact ⟨rfl, Document.isElement_iff.mpr hm⟩
  rw [Lookup.query, hroot]
  simp only [querySelector, queryPath_of_fits h hcount hread.fits, Except.mapError, ok_bind]
  exact evaluateElements_of_evaluate hplaces hchosen

/-- The query of a selector that asks for something finds the elements that it chooses. -/
theorem query_eq (h : IsSelector gs s) (hread : IsAskable gs) (hw : d.IsWhole) :
    Lookup.query (.document d) s = .ok (d.chosen gs) :=
  query_eq_of_isFormed h.isFormed
    (fun g hg c hc => Compound.isCountable_of_isPlain (h.plain g hg c hc)) hread hw

end Locator.Css

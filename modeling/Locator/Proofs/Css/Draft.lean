/-
Queries for selectors

* `Compound.condition`, `Group.queryText`: the condition of a compound and the expression of
  a group in a query;
* `draft_hash` and its companions: one more test or compound makes a further condition or step;
* `draft_narrows`, `draft_combines`: what a selector is read as makes the expression of its
  compounds, test by test and compound by compound;
* `queryPath_of_fits`, `queryPath_of_not_fits`: **the query of a selector** is the union of
  the expressions of its groups, unless a place has too many digits to be read.
-/
import Locator.Proofs.Css.Chosen
import Locator.Proofs.Css.Series
import Locator.Proofs.Outcome

namespace Locator.Css

open Text

variable {s y : Selector} {x : Draft} {t : Test} {ts : List Test} {c : Compound} {g : Group}

/-! ### The texts of queries -/

/-- The condition of a compound in a query. -/
def Compound.condition (c : Compound) : Text :=
  c.tests.foldl (fun a t => bothOf a (t.condition c.tag)) []

/-- A compound as a step of a query. -/
def Compound.queryText (c : Compound) : Text := c.tag ++ predicate c.condition

/-- A group as a query. -/
def Group.queryText (g : Group) : Text :=
  "descendant-or-self::".toList ++ (g.first.queryText ++ chainText Compound.queryText g.rest)

/-! ### Selectors with one more test -/

section Tests

variable (s y : Selector) (v : Text)

lemma draft_element (space : Space) (name : Option Text) :
    (Selector.element space name).draft = .ok (Query.elementDraft space name) := rfl

lemma draft_hash : (Selector.hash s v).draft = s.draft >>= fun x =>
    .ok (x.withCondition (Query.attributeCondition "@id".toList .equals v)) := rfl

lemma draft_className : (Selector.className s v).draft = s.draft >>= fun x =>
    .ok (x.withCondition (Query.attributeCondition "@class".toList .includes v)) := rfl

lemma draft_attribute (name : Text) (test : AttributeTest) :
    (Selector.attribute s .unsaid name test v false).draft = s.draft >>= fun x =>
      .ok (x.withCondition
        (Query.attributeCondition (Query.attributeName .unsaid name) test v)) := rfl

/-- Counting among the elements of one name is known. -/
lemma draft_function (arguments : List Token) : (Selector.function s nthName arguments).draft =
    s.draft >>= fun x => Query.applyFunction x nthName arguments := by
  have hknown : Query.checkFunction nthName = .ok () := by decide
  change (Query.checkFunction nthName >>= fun _ => s.draft >>= fun x =>
    Query.applyFunction x nthName arguments) = _
  rw [hknown, ok_bind]

lemma draft_combined (how : Relation) : (Selector.combined s how y).draft =
    s.draft >>= fun x => y.draft >>= fun z => .ok (x.combine how z) := rfl

end Tests

/-! ### Compounds -/

/-- A plain name may stand in a query as it is. -/
lemma isSafeName_of_isPlainName {n : Text} (h : isPlainName n = true) :
    Query.isSafeName n = true := by
  cases n with
  | nil => simp [isPlainName] at h
  | cons c r =>
      simp only [isPlainName, Bool.and_eq_true, List.all_eq_true] at h
      have hstart : (c.isAlpha || c == '_') = true := h.1
      have hfeed : ∀ front, r.reverse ≠ '\n' :: front := fun front hr => by
        have hmem : '\n' ∈ r := by rw [← List.mem_reverse, hr]; simp
        exact absurd (h.2 _ hmem) (by decide)
      have hall : (r.reverse.all fun d => d.isAlphanum || d == '_' || d == '.' || d == '-') =
          true := by
        rw [List.all_reverse, List.all_eq_true]
        intro d hd
        have := h.2 d hd
        simp only [isPlainIdentChar, Bool.or_eq_true] at this
        rcases this with (hd | hd) | hd <;> simp [hd]
      rw [Query.isSafeName, hstart, Bool.true_and]
      split
      · next front heq => exact absurd heq (hfeed front)
      · exact hall

/-- The name of a compound alone. -/
lemma draft_tag (hc : c.isFormed = true) :
    (tagSelector c.tag).draft = .ok { element := c.tag } := by
  by_cases hstar : c.tag = ['*']
  · simp [tagSelector, hstar, draft_element, Query.elementDraft]
  · have hsafe := isSafeName_of_isPlainName (Compound.isFormed_tag hc hstar)
    simp [tagSelector, hstar, draft_element, Query.elementDraft, hsafe]

lemma attributeName_of_isPlainName {n : Text} (h : isPlainName n = true) :
    Query.attributeName .unsaid n = '@' :: n :=
  if_pos (isSafeName_of_isPlainName h)

/-- A plain name is no asterisk. -/
lemma anyName?_of_isPlainName {n : Text} (h : isPlainName n = true) (hx : x.element = n) :
    x.anyName? = none := by
  have hstar : ∀ r, n.reverse ≠ '*' :: r := fun r hr => by
    have hmem : '*' ∈ n := by rw [← List.mem_reverse, hr]; simp
    exact absurd (all_of_isPlainName h _ hmem) (by decide)
  rw [Draft.anyName?, hx]
  split
  · next heq => exact absurd heq (hstar _)
  · next heq => exact absurd heq (hstar _)
  · rfl

/-- The compounds that make queries: only where there is a name elements of one name are
counted. -/
structure Compound.IsPosed (c : Compound) : Prop where
  formed : c.isFormed = true
  countable : c.isCountable = true

/-- Only where there is a name elements of one name are counted. -/
lemma Compound.IsPosed.isPlainName (hc : c.IsPosed) (ht : t ∈ c.tests)
    (hcount : t.counts = true) : isPlainName c.tag = true := by
  refine Compound.isFormed_tag hc.formed fun hstar => ?_
  have hcountable := hc.countable
  simp only [isCountable, hstar, bne_self_eq_false, Bool.false_or, List.all_eq_true,
    Bool.not_eq_true'] at hcountable
  simp [hcountable t ht] at hcount

/-- The pseudo-class that counts elements of one name. -/
lemma applyFunction_nth (hx : isPlainName x.element = true) (arguments : List Token) :
    Query.applyFunction x nthName arguments = Query.series x arguments false true := by
  have hyphens : Query.withHyphens nthName = nthName := by decide
  have hnot : ∀ n : Text, nthName ≠ n → (nthName == n) = false := fun n hn => by simpa using hn
  have hneed : Query.needName x "nth-of-type()".toList = .ok () := by
    rw [Query.needName, anyName?_of_isPlainName hx rfl]
  simp only [Query.applyFunction, hyphens, hnot "nth-child".toList (by decide),
    hnot "nth-last-child".toList (by decide), Bool.false_eq_true, if_false]
  exact if_pos (by decide) |>.trans (by rw [hneed]; rfl)

/-- **A test narrows a query** by its condition. -/
theorem draft_narrows (hc : c.IsPosed) (ht : t ∈ c.tests) (hfit : t.Fits)
    (hs : s.draft = .ok x) (hx : x.element = c.tag) (h : t.Narrows s y) :
    y.draft = .ok (x.withCondition (t.condition c.tag)) := by
  have hformed := Compound.isFormed_tests hc.formed t ht
  have hcondition : ∀ {u u' : Text}, u = u' → (Except.ok (x.withCondition u) :
      Except SelectorError Draft) = .ok (x.withCondition u') := fun h => by rw [h]
  cases t with
  | id v =>
      obtain rfl := h
      rw [draft_hash, hs, ok_bind]
      exact hcondition (attributeCondition_eq .equals
        (isPlainChar_ident (v := v) hformed) "id".toList)
  | classToken v =>
      obtain rfl := h
      rw [draft_className, hs, ok_bind]
      exact hcondition (attributeCondition_eq .hasWord
        (isPlainChar_ident (v := v) hformed) "class".toList)
  | present a =>
      obtain rfl := h
      rw [draft_attribute, hs, ok_bind, attributeName_of_isPlainName (n := a) hformed]
      rfl
  | compare a how v =>
      obtain rfl := h
      simp only [Test.isFormed, Bool.and_eq_true] at hformed
      rw [draft_attribute, hs, ok_bind, attributeName_of_isPlainName hformed.1.1]
      exact hcondition (attributeCondition_eq how hformed.1.2 a)
  | nthOfType digits =>
      simp only [Test.isFormed, Bool.and_eq_true, Bool.not_eq_true', List.isEmpty_eq_false_iff,
        List.all_eq_true] at hformed
      obtain ⟨p, rfl⟩ := Test.exists_number h hformed.1 hformed.2
      have hname := hc.isPlainName ht rfl
      rw [draft_function, hs, ok_bind, applyFunction_nth (by rwa [hx]),
        series_digits hformed.1 hformed.2 hfit, hx]
      rfl

/-- Tests narrow a query one after the other. -/
lemma draft_narrowsAll (hc : c.IsPosed) (h : Test.NarrowsAll s ts y)
    (hts : ∀ t ∈ ts, t ∈ c.tests ∧ t.Fits) (hs : s.draft = .ok x) (hx : x.element = c.tag) :
    y.draft = .ok { x with
      condition := ts.foldl (fun a t => bothOf a (t.condition c.tag)) x.condition } := by
  induction h generalizing x with
  | nil => exact hs
  | @cons s z y t ts ht _ ih =>
      rw [List.forall_mem_cons] at hts
      have hz := draft_narrows hc hts.1.1 hts.1.2 hs hx ht
      exact (ih hts.2 hz hx).trans rfl

/-- A compound makes its step. -/
lemma draft_compound (hc : c.IsPosed) (hfit : ∀ t ∈ c.tests, t.Fits)
    (h : Test.NarrowsAll (tagSelector c.tag) c.tests y) :
    y.draft = .ok { element := c.tag, condition := c.condition } :=
  draft_narrowsAll hc h (fun t ht => ⟨ht, hfit t ht⟩) (draft_tag hc.formed) rfl

/-! ### Groups -/

/-- Further compounds make further steps. -/
lemma draft_combines {ss : List Step} (h : Combines s ss y)
    (hp : ∀ st ∈ ss, st.compound.IsPosed ∧ ∀ t ∈ st.compound.tests, t.Fits)
    (hs : s.draft = .ok x) :
    ∃ z, y.draft = .ok z ∧ z.text = x.text ++ chainText Compound.queryText ss ∧
      z.isScope = x.isScope := by
  induction h generalizing x with
  | nil => exact ⟨x, hs, by simp [chainText], rfl⟩
  | @cons s w y st ss hw _ ih =>
      rw [List.forall_mem_cons] at hp
      have hcompound := draft_compound hp.1.1 hp.1.2 hw
      set d : Draft := { element := st.compound.tag, condition := st.compound.condition }
      have hcombined : (Selector.combined s st.combinator.relation w).draft =
          .ok (x.combine st.combinator.relation d) := by
        rw [draft_combined, hs, ok_bind, hcompound, ok_bind]
      have htext : (x.combine st.combinator.relation d).text =
          x.text ++ (Chain.axis st.combinator ++ st.compound.queryText) := by
        cases st.combinator <;> exact List.append_assoc _ _ _
      obtain ⟨z, hz, hztext, hscope⟩ := ih hp.2 hcombined
      refine ⟨z, hz, ?_, hscope⟩
      rw [hztext, htext, chainText, chainText, List.flatMap_cons, List.append_assoc]

/-- The path of steps that start at any node. -/
lemma Draft.path_of_isScope (h : x.isScope = false) :
    x.path = "descendant-or-self::".toList ++ x.text := by
  rw [Draft.path, h, if_neg Bool.false_ne_true]

/-- The text of one compound is its step. -/
lemma Compound.draft_text (c : Compound) :
    Draft.text { element := c.tag, condition := c.condition } = c.queryText := by
  rw [Draft.text, if_neg Bool.false_ne_true]
  rfl

/-- **A group makes its expression.** -/
lemma draft_group (hp : ∀ c ∈ g.compounds, c.IsPosed)
    (hfit : ∀ c ∈ g.compounds, ∀ t ∈ c.tests, t.Fits) (h : g.Combines y) :
    ∃ z, y.draft = .ok z ∧ z.path = g.queryText := by
  obtain ⟨w, hw, hy⟩ := h
  rw [Group.compounds, List.forall_mem_cons, List.forall_mem_map] at hp hfit
  have hfirst := draft_compound hp.1 hfit.1 hw
  obtain ⟨z, hz, htext, hscope⟩ :=
    draft_combines hy (fun st hst => ⟨hp.2 st hst, hfit.2 st hst⟩) hfirst
  have hself : z.isScope = false := hscope.trans rfl
  have hpath := Draft.path_of_isScope hself
  rw [htext, Compound.draft_text] at hpath
  exact ⟨z, hz, hpath⟩

/-! ### Selectors -/

/-- The groups of a selector are drafted one after the other. -/
lemma drafts_groups {gs : List Group} {xs : List Selector} (h : List.Forall₂ Group.Combines gs xs)
    (hp : ∀ g ∈ gs, ∀ c ∈ g.compounds, c.IsPosed)
    (hfit : ∀ g ∈ gs, ∀ c ∈ g.compounds, ∀ t ∈ c.tests, t.Fits) :
    ∃ zs, (xs.map fun x => (x, (none : Option Text))).mapM draftWithout = .ok zs ∧
      zs.map Draft.path = gs.map Group.queryText := by
  induction h with
  | nil => exact ⟨[], rfl, rfl⟩
  | @cons g x gs xs hx _ ih =>
      rw [List.forall_mem_cons] at hp hfit
      obtain ⟨z, hz, hpath⟩ := draft_group hp.1 hfit.1 hx
      obtain ⟨zs, hzs, hpaths⟩ := ih hp.2 hfit.2
      have hone : draftWithout (x, none) = .ok z := by
        rw [draftWithout, hz]
        rfl
      refine ⟨z :: zs, ?_, by rw [List.map_cons, List.map_cons, hpath, hpaths]⟩
      rw [List.map_cons, List.mapM_cons, hone, hzs]
      rfl

/-- **The query of a selector** is the union of the expressions of its groups. -/
theorem queryPath_of_fits {gs : List Group} {s : Text} (h : IsFormed gs s)
    (hcount : ∀ g ∈ gs, ∀ c ∈ g.compounds, c.isCountable = true)
    (hfit : ∀ g ∈ gs, ∀ c ∈ g.compounds, ∀ t ∈ c.tests, t.Fits) :
    queryPath s = .ok (join " | ".toList (gs.map Group.queryText)) := by
  obtain ⟨xs, hxs, hread⟩ := readAll_of_isFormed h
  have hposed : ∀ g ∈ gs, ∀ c ∈ g.compounds, c.IsPosed := fun g hg c hc =>
    ⟨h.formed g hg c hc, hcount g hg c hc⟩
  obtain ⟨zs, hzs, hpaths⟩ := drafts_groups hxs hposed hfit
  simp only [queryPath, hread, ok_bind, hzs, hpaths, pure_eq_ok]

/-! ### Places with too many digits -/

/-- A test does not mend a query that fails. -/
lemma draft_narrows_error (h : t.Narrows s y) (hs : ∃ e, s.draft = .error e) :
    ∃ e, y.draft = .error e := by
  obtain ⟨e, hs⟩ := hs
  cases t with
  | nthOfType digits =>
      obtain ⟨us, -, rfl⟩ := h
      exact ⟨e, by rw [draft_function, hs, error_bind]⟩
  | id v =>
      obtain rfl := h
      exact ⟨e, by rw [draft_hash, hs, error_bind]⟩
  | classToken v =>
      obtain rfl := h
      exact ⟨e, by rw [draft_className, hs, error_bind]⟩
  | _ =>
      obtain rfl := h
      exact ⟨e, by rw [draft_attribute, hs, error_bind]⟩

/-- A place with too many digits makes no query. -/
lemma draft_narrows_of_not_fits (hc : c.IsPosed) (ht : t ∈ c.tests) (hfit : ¬ t.Fits)
    (hs : s.draft = .ok x) (hx : x.element = c.tag) (h : t.Narrows s y) :
    ∃ e, y.draft = .error e := by
  have hformed := Compound.isFormed_tests hc.formed t ht
  cases t with
  | nthOfType digits =>
      simp only [Test.isFormed, Bool.and_eq_true, Bool.not_eq_true', List.isEmpty_eq_false_iff,
        List.all_eq_true] at hformed
      obtain ⟨p, rfl⟩ := Test.exists_number h hformed.1 hformed.2
      have hname := hc.isPlainName ht rfl
      have hlong : maxDigits < digits.length := by simpa [Test.Fits] using hfit
      obtain ⟨e, he⟩ := series_error (x := x) hformed.1 hformed.2 hlong p
      refine ⟨e, ?_⟩
      rw [draft_function, hs, ok_bind, applyFunction_nth (by rwa [hx]), he]
  | _ => exact absurd trivial hfit

lemma draft_narrowsAll_error (h : Test.NarrowsAll s ts y) (hs : ∃ e, s.draft = .error e) :
    ∃ e, y.draft = .error e := by
  induction h with
  | nil => exact hs
  | cons ht _ ih => exact ih (draft_narrows_error ht hs)

lemma draft_narrowsAll_of_not_fits (hc : c.IsPosed) (h : Test.NarrowsAll s ts y)
    (hts : ∀ t ∈ ts, t ∈ c.tests) (hfit : ∃ t ∈ ts, ¬ t.Fits) (hs : s.draft = .ok x)
    (hx : x.element = c.tag) : ∃ e, y.draft = .error e := by
  induction h generalizing x with
  | nil => simp at hfit
  | @cons s z y t ts ht hall ih =>
      rw [List.forall_mem_cons] at hts
      by_cases ht' : t.Fits
      · have hrest : ∃ t ∈ ts, ¬ t.Fits := by simpa [ht'] using hfit
        exact ih hts.2 hrest (draft_narrows hc hts.1 ht' hs hx ht) hx
      · exact draft_narrowsAll_error hall (draft_narrows_of_not_fits hc hts.1 ht' hs hx ht)

lemma draft_combines_error {ss : List Step} (h : Combines s ss y) (hs : ∃ e, s.draft = .error e) :
    ∃ e, y.draft = .error e := by
  induction h with
  | nil => exact hs
  | cons _ _ ih =>
      obtain ⟨e, he⟩ := hs
      exact ih ⟨e, by rw [draft_combined, he, error_bind]⟩

lemma draft_combines_of_not_fits {ss : List Step} (h : Combines s ss y)
    (hp : ∀ st ∈ ss, st.compound.IsPosed)
    (hfit : ∃ st ∈ ss, ∃ t ∈ st.compound.tests, ¬ t.Fits) (hs : s.draft = .ok x) :
    ∃ e, y.draft = .error e := by
  induction h generalizing x with
  | nil => simp at hfit
  | @cons s w y st ss hw hss ih =>
      rw [List.forall_mem_cons] at hp
      by_cases hst : ∃ t ∈ st.compound.tests, ¬ t.Fits
      · obtain ⟨e, he⟩ :=
          draft_narrowsAll_of_not_fits hp.1 hw (fun _ ht => ht) hst (draft_tag hp.1.formed) rfl
        exact draft_combines_error hss ⟨e, by rw [draft_combined, hs, ok_bind, he, error_bind]⟩
      · have hrest : ∃ st ∈ ss, ∃ t ∈ st.compound.tests, ¬ t.Fits := by simpa [hst] using hfit
        have hcompound := draft_compound hp.1 (by simpa using hst) hw
        refine ih hp.2 hrest (x := x.combine st.combinator.relation
          { element := st.compound.tag, condition := st.compound.condition }) ?_
        rw [draft_combined, hs, ok_bind, hcompound, ok_bind]

lemma draft_group_of_not_fits (hp : ∀ c ∈ g.compounds, c.IsPosed)
    (hfit : ∃ c ∈ g.compounds, ∃ t ∈ c.tests, ¬ t.Fits) (h : g.Combines y) :
    ∃ e, y.draft = .error e := by
  obtain ⟨w, hw, hy⟩ := h
  rw [Group.compounds, List.forall_mem_cons, List.forall_mem_map] at hp
  by_cases hfirst : ∃ t ∈ g.first.tests, ¬ t.Fits
  · exact draft_combines_error hy
      (draft_narrowsAll_of_not_fits hp.1 hw (fun _ ht => ht) hfirst (draft_tag hp.1.formed) rfl)
  · have hrest : ∃ st ∈ g.rest, ∃ t ∈ st.compound.tests, ¬ t.Fits := by
      simpa [Group.compounds, hfirst] using hfit
    exact draft_combines_of_not_fits hy hp.2 hrest (draft_compound hp.1 (by simpa using hfirst) hw)

/-- A group with too many digits in a place stops the drafts. -/
lemma drafts_groups_of_not_fits {gs : List Group} {xs : List Selector}
    (h : List.Forall₂ Group.Combines gs xs) (hp : ∀ g ∈ gs, ∀ c ∈ g.compounds, c.IsPosed)
    (hfit : ∃ g ∈ gs, ∃ c ∈ g.compounds, ∃ t ∈ c.tests, ¬ t.Fits) :
    ∃ e, (xs.map fun x => (x, (none : Option Text))).mapM draftWithout = .error e := by
  induction h with
  | nil => simp at hfit
  | @cons g x gs xs hx _ ih =>
      rw [List.forall_mem_cons] at hp
      by_cases hg : ∃ c ∈ g.compounds, ∃ t ∈ c.tests, ¬ t.Fits
      · obtain ⟨e, he⟩ := draft_group_of_not_fits hp.1 hg hx
        have hone : draftWithout (x, none) = .error e := by
          rw [draftWithout, he]
          rfl
        exact ⟨e, by rw [List.map_cons, List.mapM_cons, hone]; rfl⟩
      · have hrest : ∃ g ∈ gs, ∃ c ∈ g.compounds, ∃ t ∈ c.tests, ¬ t.Fits := by
          simpa [hg] using hfit
        obtain ⟨z, hz, -⟩ := draft_group hp.1 (by simpa using hg) hx
        obtain ⟨e, he⟩ := ih hp.2 hrest
        have hone : draftWithout (x, none) = .ok z := by
          rw [draftWithout, hz]
          rfl
        exact ⟨e, by rw [List.map_cons, List.mapM_cons, hone, he]; rfl⟩

/-- **A selector with too many digits** in a place makes no query. -/
theorem queryPath_of_not_fits {gs : List Group} {s : Text} (h : IsFormed gs s)
    (hcount : ∀ g ∈ gs, ∀ c ∈ g.compounds, c.isCountable = true)
    (hfit : ∃ g ∈ gs, ∃ c ∈ g.compounds, ∃ t ∈ c.tests, ¬ t.Fits) :
    ∃ e, queryPath s = .error e := by
  obtain ⟨xs, hxs, hread⟩ := readAll_of_isFormed h
  have hposed : ∀ g ∈ gs, ∀ c ∈ g.compounds, c.IsPosed := fun g hg c hc =>
    ⟨h.formed g hg c hc, hcount g hg c hc⟩
  obtain ⟨e, he⟩ := drafts_groups_of_not_fits hxs hposed hfit
  exact ⟨e, by simp only [queryPath, hread, ok_bind, he]; rfl⟩

end Locator.Css

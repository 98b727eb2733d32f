/-
The meaning of converted expressions

* `IsOrdinaryStep.isPlain`, `forall_compounds`: steps that count nothing have plain compounds;
* `evaluate_eq_query_toCss`: **converting back keeps the meaning** of an expression: a query for
  its selector finds what the expression selects;
* `evaluate_ne_query_toCss`: not so with too many conditions at a step, and without a root.
-/
import Locator.Proofs.Convert.Meaning
import Locator.Proofs.Convert.Union
import Locator.Proofs.Convert.Words

namespace Locator.XPath

open Text Css

variable {x : Text} {gs : List Group} {d : Document}
  {namespaces : List (Text × Text)}

/-! ### Expressions without positions -/

/-- What asks for something and counts nothing is plain. -/
lemma IsOrdinaryTest.isPlain {t : Test} (h : IsOrdinaryTest false t) :
    t.isPlain = true ∧ t.counts = false := by
  have hcounts : t.counts = false := Bool.eq_false_iff.mpr fun ht =>
    absurd (h.placed ht) Bool.false_ne_true
  refine ⟨?_, hcounts⟩
  have hformed := h.formed
  cases t with
  | compare a how v => exact Bool.and_eq_true_iff.mpr ⟨hformed, h.takes⟩
  | nthOfType digits => cases hcounts
  | _ => exact hformed

/-- A step that counts nothing has a plain compound. -/
lemma IsOrdinaryStep.isPlain {y : BracketStep} (h : IsOrdinaryStep false y) :
    y.step.compound.isPlain = true := by
  have htag := h.formed
  rw [Compound.isFormed, Bool.and_eq_true] at htag
  simp only [Compound.isPlain, Bool.and_eq_true, Bool.or_eq_true, List.all_eq_true,
    Bool.not_eq_true']
  exact ⟨⟨by simpa using htag.1, fun t ht => (h.tests t ht).isPlain.1⟩,
    .inr fun t ht => (h.tests t ht).isPlain.2⟩

/-- The compounds of the groups of paths are those of their steps. -/
lemma forall_compounds {placed : Bool} {yss : List (List BracketStep)} {P : Compound → Prop}
    (hyss : ∀ ys ∈ yss, IsOrdinaryPath placed ys)
    (h : ∀ y, IsOrdinaryStep placed y → P y.step.compound) :
    ∀ g ∈ yss.map groupOfPath, ∀ c ∈ g.compounds, P c := by
  rw [List.forall_mem_map]
  intro ys hys c hc
  obtain ⟨hsteps, y, ys', rfl, -⟩ := hyss ys hys
  have hc : c ∈ ((y :: ys').map BracketStep.step).map Step.compound := hc
  rw [List.map_map] at hc
  obtain ⟨z, hz, rfl⟩ := List.mem_map.mp hc
  exact h z (hsteps z hz)

/-- **Converting back keeps the meaning** of an expression whose paths start with two slashes: a
query for its selector finds in a document what the expression selects. -/
theorem evaluate_eq_query_toCss {c : Text} (hx : isExpression x = .ok true)
    (hp : HasPlainWords x) (hb : ∀ b ∈ branches x, ['/', '/'] <+: b) (hc : toCss x = some c)
    (hfew : ∀ gs ∈ groupsOf x, ∀ g ∈ gs, ∀ c ∈ g.compounds, c.tests.length ≤ maxTests)
    (hw : d.IsWhole) (hn : checkNamespaces namespaces = .ok ()) :
    ∃ ns, evaluate x (.document d) namespaces = .ok (ns.map Node.place) ∧
      Lookup.query (.document d) c = .ok ns := by
  obtain ⟨gs, hg, rfl⟩ := Option.map_eq_some_iff.mp ((toCss_eq_canonical x).symm.trans hc)
  obtain ⟨yss, hpaths, rfl⟩ := Option.map_eq_some_iff.mp ((groupsOf_eq x).symm.trans hg)
  obtain ⟨-, e, he⟩ := isExpression_iff.mp hx
  obtain ⟨hyss, heval⟩ := evaluate_of_pathsOf hpaths (hp.isOrdinary hx) hb he hw hn
  have hselector := isSelector_canonical (isRead_of_groupsOf hg).1
    (forall_compounds hyss fun y hy => hy.isPlain)
  have hcounts : ∀ g ∈ yss.map groupOfPath, ∀ c ∈ g.compounds, ∀ t ∈ c.tests, t.counts = false :=
    forall_compounds hyss fun y hy t ht => (hy.tests t ht).isPlain.2
  have hask : IsAskable (yss.map groupOfPath) := by
    refine ⟨fun g hg c hc t ht => ?_, hfew _ hg⟩
    have hcount := hcounts g hg c hc t ht
    cases t with
    | nthOfType digits => cases hcount
    | _ => trivial
  refine ⟨_, heval, ?_⟩
  rw [query_eq hselector hask hw, kept_eq_chosen hyss]
  intro ys hys y hy ts hts t ht
  have hmem : t ∈ y.step.compound.tests :=
    List.mem_flatten.mpr ⟨ts, List.mem_of_mem_tail hts, ht⟩
  exact (((hyss ys hys).steps y hy).tests t hmem).isPlain.2

/-- Two paths that have blanks in them, with several conditions at a step. -/
def twoPaths : Text :=
  " //a[ contains(concat(' ', normalize-space(@class), ' '), ' x ') ][ @class = 'y x' ]/b | //r ".toList

/-- A query for the selector of two paths finds what they select. -/
theorem evaluate_twoPaths :
    (isExpression twoPaths = .ok true ∧ HasPlainWords twoPaths ∧
      (∀ b ∈ branches twoPaths, ['/', '/'] <+: b) ∧
      toCss twoPaths = some "a.x[class=\x22y x\x22] > b, r".toList ∧
      (∀ gs ∈ groupsOf twoPaths, ∀ g ∈ gs, ∀ c ∈ g.compounds, c.tests.length ≤ maxTests) ∧
      nestedTwins.IsWhole ∧ checkNamespaces [] = .ok ()) ∧
    ∃ ns, evaluate twoPaths (.document nestedTwins) [] = .ok (ns.map Node.place) ∧
      Lookup.query (.document nestedTwins) "a.x[class=\x22y x\x22] > b, r".toList = .ok ns := by
  have hx : isExpression twoPaths = .ok true := isExpression_iff.mpr
    ⟨by decide +kernel, Option.isSome_iff_exists.mp (by decide +kernel)⟩
  have hp : HasPlainWords twoPaths := hasPlainWords_iff.mpr (by decide +kernel)
  have hb : ∀ b ∈ branches twoPaths, ['/', '/'] <+: b := by decide +kernel
  have hc : toCss twoPaths = some "a.x[class=\x22y x\x22] > b, r".toList := by decide +kernel
  have hfew : ∀ gs ∈ groupsOf twoPaths, ∀ g ∈ gs, ∀ c ∈ g.compounds, c.tests.length ≤ maxTests := by
    decide +kernel
  have hw : nestedTwins.IsWhole := by decide
  exact ⟨⟨hx, hp, hb, hc, hfew, hw, rfl⟩, evaluate_eq_query_toCss hx hp hb hc hfew hw rfl⟩

/-- The path of a group starts with two slashes. -/
lemma slashes_path (g : Group) : ['/', '/'] <+: g.chain.toXPath := ⟨_, rfl⟩

/-- The paths of groups are the paths of their union. -/
lemma branches_paths (hne : gs ≠ []) (h : ∀ g ∈ gs, ∀ c ∈ g.compounds, c.IsStated) :
    branches (join " | ".toList (gs.map fun g => g.chain.toXPath)) =
      gs.map fun g => g.chain.toXPath := by
  have hpaths : ∀ p ∈ gs.map fun g => g.chain.toXPath,
      (separators '|').Passes .outside p .outside ∧ IsEnclosed p := by
    rw [List.forall_mem_map]
    exact fun g hg => ⟨passes_chain (h g hg), isEnclosed_path (h g hg)⟩
  have hne' : (gs.map fun g => g.chain.toXPath) ≠ [] := by simpa using hne
  generalize (gs.map fun g => g.chain.toXPath) = ps at hpaths hne'
  have hends := isEnclosed_join (w := " | ".toList) hne' fun p hp => (hpaths p hp).2
  have hstrip := strip_of_isTrim (u := []) (v := []) hends.toIsTrim (by simp) (by simp)
  rw [List.nil_append, List.append_nil] at hstrip
  have hlast : dropEnd isSlashOrBlank (join " | ".toList ps) = join " | ".toList ps := by
    refine dropEnd_eq_self fun c hc => ?_
    rw [isSlashOrBlank, hends.last c hc, Bool.or_false, beq_eq_false_iff_ne]
    exact hends.noSlash c hc
  obtain ⟨p, ps, rfl⟩ := List.exists_cons_of_ne_nil hne'
  rw [branches, hstrip, hlast,
    splitTop_paths fun p hp => ⟨(hpaths p hp).1, (hpaths p hp).2.toIsTrim⟩]

/-- A compound with one test more than queries can read. -/
def manyConditions : Group :=
  ⟨⟨['a'], .classToken ['x'] :: List.replicate maxTests (.compare ['b'] .equals ['c'])⟩, []⟩

/-- A step with one condition more than queries can read. -/
def manyPath : Text := manyConditions.chain.toXPath

/-- **The expression selects and the query fails**, if a step has too many conditions; without a
root the expression cannot be evaluated and the query finds nothing. -/
theorem evaluate_ne_query_toCss :
    (isExpression manyPath = .ok true ∧ HasPlainWords manyPath ∧
      (∀ b ∈ branches manyPath, ['/', '/'] <+: b) ∧
      toCss manyPath = some (canonical [manyConditions]) ∧
      (∃ ps, evaluate manyPath (.document nestedTwins) [] = .ok ps) ∧
      ∃ e, Lookup.query (.document nestedTwins) (canonical [manyConditions]) = .error e) ∧
    isExpression "//a".toList = .ok true ∧ HasPlainWords "//a".toList ∧
      (∀ b ∈ branches "//a".toList, ['/', '/'] <+: b) ∧ toCss "//a".toList = some ['a'] ∧
      (∃ e, evaluate "//a".toList (.document rootless) [] = .error e) ∧
      Lookup.query (.document rootless) ['a'] = .ok [] := by
  have hwhole : nestedTwins.IsWhole := by decide
  have hstart : StartsAt (.document nestedTwins) ⟨nestedTwins, [0]⟩ [] := ⟨rfl, rfl⟩
  have hrootless : rootless.root? = none := rfl
  have hcommon : IsCommon [manyConditions] (canonical [manyConditions]) :=
    { isSelector_canonical (List.cons_ne_nil _ _) (by decide +kernel) with raw := by decide +kernel }
  have hstated : ∀ g ∈ [manyConditions], ∀ c ∈ g.compounds, c.IsStated := fun g hg c hc =>
    Compound.isStated_of_isCanonical ((by decide +kernel :
      ∀ g ∈ [manyConditions], ∀ c ∈ g.compounds, c.isCanonical = true) g hg c hc)
  have hplain := hcommon.isShared.formed _ (List.mem_singleton_self _)
  have hread : Reads 4 loosest manyPath manyConditions.pathExpr :=
    (Group.reads_path hplain).lift le_rfl (Nat.zero_le _)
  have hone : join " | ".toList ([manyConditions].map fun g => g.chain.toXPath) = manyPath := by
    rw [List.map_singleton, join_singleton, manyPath]
  have hbranches := branches_paths (List.cons_ne_nil _ _) hstated
  have hcss := toCss_paths (List.cons_ne_nil _ _) hstated (by decide +kernel)
  obtain ⟨p, hp, hps⟩ := evaluate_toXPath hwhole hstart hcommon
  rw [toXPath_of_isCommon hcommon, Except.ok.injEq] at hp
  rw [← hp, hone] at hps
  rw [hone] at hbranches hcss
  refine ⟨⟨isExpression_iff.mpr ⟨Group.isXmlText_path hplain, _, hread.read? (by decide)⟩,
    hasPlainWords_iff.mpr (by decide +kernel), fun b hb => ?_, hcss, ⟨_, hps⟩, _,
    query_of_deep hcommon.toIsSelector (by decide +kernel) rfl (by decide +kernel) hwhole⟩,
    isExpression_iff.mpr ⟨rfl, Option.isSome_iff_exists.mp (by decide +kernel)⟩,
    by decide +kernel, by decide +kernel, by decide +kernel,
    ⟨_, (query_of_rootless hrootless [] _ []).2⟩, (query_of_rootless hrootless _ [] []).1⟩
  rw [hbranches, List.mem_map] at hb
  obtain ⟨g, -, rfl⟩ := hb
  exact slashes_path g

end Locator.XPath

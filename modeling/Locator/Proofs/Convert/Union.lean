/-
Unions of ordinary paths

* `Leg.readsAs`, `IsBranch.branchReads`: the steps and paths of an ordinary expression that has a
  selector are read;
* `exists_union`: an expression that has a selector is a union of such paths;
* `selects_of_pathsOf`, `evaluate_of_pathsOf`: **what an ordinary expression selects** is what the
  brackets of its paths keep;
* `kept_eq_chosen`: **what its groups choose**, if places stand in the first bracket of
  each step alone.
-/
import Locator.Proofs.Convert.Selection
import Locator.Proofs.XPath.Evaluate

namespace Locator.XPath

open Text Css

variable {s t w w' x p : Text} {m : Option Char} {e : Expr} {b lead : Text} {leg : Leg}
  {legs : List Leg} {k : ℕ} {y : BracketStep} {ys : List BracketStep}
  {yss : List (List BracketStep)} {ps : List Text} {placed : Bool} {d : Document}
  {namespaces : List (Text × Text)}

/-! ### Closed texts -/

/-- Slashes neither open nor close a literal. -/
lemma openMark_squeezeFrom (hm : m ≠ some '/') (k : ℕ) (s : Text) :
    openMark m (squeezeFrom k s) = openMark m s := by
  induction s generalizing m k with
  | nil => rfl
  | cons c s ih =>
      by_cases hc : c = '/'
      · subst hc
        have hslash := nextMark_slash hm
        rw [openMark_cons, hslash, squeezeFrom, if_pos (beq_self_eq_true _)]
        split_ifs
        · rw [openMark_cons, hslash, ih hm]
        · exact ih hm _
      · rw [squeezeFrom, if_neg (by simpa using hc), openMark_cons, openMark_cons,
          ih (nextMark_ne_slash hm hc)]

lemma isClosed_squeeze : IsClosed (squeeze s) ↔ IsClosed s := by
  rw [IsClosed, squeeze, openMark_squeezeFrom (by simp), IsClosed]

lemma isClosed_slashes (k : ℕ) : IsClosed (List.replicate k '/') :=
  isClosed_of_no_quote fun c hc => by
    rw [List.eq_of_mem_replicate hc]
    rfl

/-- Slashes and blanks hold no quotation marks. -/
lemma not_isQuote_of_isSlashOrBlank {c : Char} (h : isSlashOrBlank c = true) :
    isQuote c = false := by
  rw [Bool.eq_false_iff]
  intro hq
  rw [isSlashOrBlank, isBlank_of_isQuote hq, Bool.or_false, beq_iff_eq] at h
  rw [h] at hq
  exact absurd hq (by decide)

/-! ### Steps -/

lemma Leg.isClosed_written (h : BracketStep.IsAt y leg.segment) : IsClosed leg.written :=
  (isClosed_slashes _).append (isClosed_squeeze.mp h.text.isTidy.closed)

/-- **A step of an ordinary expression** that has a selector is read. -/
lemma Leg.readsAs (hleg : leg.IsProper) (hat : BracketStep.IsAt y leg.segment)
    (ho : IsOrdinary placed leg.text) : IsOrdinaryStep placed y ∧ leg.ReadsAs 4 (readingOf y) := by
  have hsame : squeeze leg.text = leg.text := squeeze_eq_self_of_isTidy hat.text.isTidy ho.short
  have htext : StepText y.tag y.brackets (squeeze leg.text) := hat.text
  rw [hsame] at htext
  obtain ⟨hformed, htests, bs, u, hb, hread, htext⟩ := htext.exists_reads ho
  exact ⟨⟨hformed, htests⟩, hleg.pos, hat.combinator, bs, u, hb, hread, htext⟩

/-- Steps of an ordinary expression are read one after the other. -/
lemma legsReadAs (h : List.Forall₂ (fun y (leg : Leg) => BracketStep.IsAt y leg.segment) ys legs)
    (hlegs : ∀ leg ∈ legs, leg.IsProper) (ho : IsOrdinary placed (legs.flatMap Leg.written)) :
    (∀ y ∈ ys, IsOrdinaryStep placed y) ∧
      List.Forall₂ (Leg.ReadsAs 4) legs (ys.map readingOf) := by
  induction h with
  | nil => exact ⟨by simp, .nil⟩
  | @cons y leg ys legs hat _ ih =>
      rw [List.flatMap_cons] at ho
      rw [List.forall_mem_cons] at hlegs
      obtain ⟨hys, hreads⟩ := ih hlegs.2 (ho.right (Leg.isClosed_written hat))
      obtain ⟨hy, hread⟩ := Leg.readsAs hlegs.1 hat (ho.left.right (isClosed_slashes _))
      exact ⟨List.forall_mem_cons.mpr ⟨hy, hys⟩, .cons hread hreads⟩

/-! ### Paths -/

/-- A path that starts with two slashes has no step in front of them. -/
lemma HoldsSteps.lead_eq_nil (h : HoldsSteps ys b lead legs k) (hb : ['/', '/'] <+: b) :
    lead = [] := by
  obtain ⟨r, rfl⟩ := hb
  cases lead with
  | nil => rfl
  | cons c lead => exact absurd (List.cons.inj h.text).1.symm (h.front c rfl)

lemma HoldsSteps.forall₂_isAt (h : HoldsSteps ys b [] legs k) :
    List.Forall₂ (fun y (leg : Leg) => BracketStep.IsAt y leg.segment) ys legs := by
  have hparts := h.parts
  rwa [partsOf, if_pos rfl, List.nil_append, List.forall₂_map_right_iff] at hparts

lemma isClosed_flatMap_written
    (h : List.Forall₂ (fun y (leg : Leg) => BracketStep.IsAt y leg.segment) ys legs) :
    IsClosed (legs.flatMap Leg.written) := by
  have hall : ∀ leg ∈ legs, Outside (fun _ => True) leg.written := fun leg hleg => by
    obtain ⟨y, -, hat⟩ := exists_mem_of_forall₂ h hleg
    exact .of_closed (Leg.isClosed_written hat)
  exact (Outside.flatMap hall).closed

/-- A path of a union, with blanks in front of it, and slashes and blanks behind. -/
structure IsBranch (ys : List BracketStep) (p : Text) : Prop where
  text : ∃ w b w' lead legs k, IsBlanks w ∧ (∀ c ∈ w', isSlashOrBlank c = true) ∧
    ['/', '/'] <+: b ∧ HoldsSteps ys b lead legs k ∧ p = w ++ (b ++ w')

namespace IsBranch

lemma front (h : IsBranch ys p) (hw : IsBlanks w) : IsBranch ys (w ++ p) := by
  obtain ⟨v, b, v', lead, legs, k, hv, hv', hb, hsteps, rfl⟩ := h
  refine ⟨w ++ v, b, v', lead, legs, k, ?_, hv', hb, hsteps, (List.append_assoc _ _ _).symm⟩
  exact List.forall_mem_append.mpr ⟨hw, hv⟩

lemma back (h : IsBranch ys p) (hw : ∀ c ∈ w, isSlashOrBlank c = true) :
    IsBranch ys (p ++ w) := by
  obtain ⟨v, b, v', lead, legs, k, hv, hv', hb, hsteps, rfl⟩ := h
  refine ⟨v, b, v' ++ w, lead, legs, k, hv, ?_, hb, hsteps, by simp only [List.append_assoc]⟩
  exact List.forall_mem_append.mpr ⟨hv', hw⟩

lemma isClosed (h : IsBranch ys p) : IsClosed p := by
  obtain ⟨v, b, v', lead, legs, k, hv, hv', hb, hsteps, rfl⟩ := h
  obtain rfl := hsteps.lead_eq_nil hb
  have hlegs := isClosed_flatMap_written hsteps.forall₂_isAt
  rw [hsteps.text, List.nil_append]
  exact (isTidy_blanks hv).closed.append ((hlegs.append (isClosed_slashes k)).append
    (isClosed_of_no_quote fun c hc => not_isQuote_of_isSlashOrBlank (hv' c hc)))

/-- **A path of an ordinary union** that has a selector is read. -/
lemma branchReads (h : IsBranch ys p) (ho : IsOrdinary placed p) :
    (∀ y ∈ ys, IsOrdinaryStep placed y) ∧ BranchReads 4 p (ys.map readingOf) := by
  obtain ⟨v, b, v', lead, legs, k, hv, hv', hb, hsteps, rfl⟩ := h
  obtain rfl := hsteps.lead_eq_nil hb
  have hat := hsteps.forall₂_isAt
  have htext : v ++ (b ++ v') =
      v ++ (legs.flatMap Leg.written ++ (List.replicate k '/' ++ v')) := by
    rw [hsteps.text, List.nil_append, List.append_assoc]
  have hwhole := (htext ▸ ho).right (isTidy_blanks hv).closed
  obtain ⟨hys, hreads⟩ := legsReadAs hat hsteps.proper hwhole.left
  have hend := hwhole.right (isClosed_flatMap_written hat)
  have hloose : ∀ c ∈ List.replicate k '/' ++ v', isSlashOrBlank c = true :=
    List.forall_mem_append.mpr ⟨fun c hc => by rw [List.eq_of_mem_replicate hc]; rfl, hv'⟩
  have hquote := fun c hc => not_isQuote_of_isSlashOrBlank (hloose c hc)
  have hspaces : ∀ c ∈ List.replicate k '/' ++ v', c = '/' ∨ Text.isSpace c = true := fun c hc => by
    have hc' := hloose c hc
    rw [isSlashOrBlank, Bool.or_eq_true, beq_iff_eq] at hc'
    exact hc'.imp_right (hend.isSpace_of_isBlank hquote hc)
  obtain ⟨leg, legs, rfl⟩ : ∃ leg legs', legs = leg :: legs' := by
    cases legs with
    | nil => exact absurd (List.forall₂_nil_right_iff.mp hat) hsteps.ne_nil
    | cons leg legs => exact ⟨leg, legs, rfl⟩
  refine ⟨hys, v, leg, legs, _, (htext ▸ ho).left.isSpaces hv, ?_, hreads, hspaces, htext⟩
  -- The path starts with two slashes, and no step starts with one.
  obtain ⟨hpos, hne, hhead⟩ := hsteps.proper leg List.mem_cons_self
  obtain ⟨r, rfl⟩ := hb
  have hstart := hsteps.text
  rw [List.nil_append, List.flatMap_cons, Leg.written] at hstart
  by_contra hlt
  obtain hone : leg.slashes = 1 := by omega
  obtain ⟨c, u, hu⟩ := List.exists_cons_of_ne_nil hne
  rw [hone, hu] at hstart
  rw [hu] at hhead
  exact hhead c rfl (List.cons.inj (List.cons.inj hstart).2).1.symm

end IsBranch

/-! ### Unions -/

/-- A text in front of parts stands in front of the first one. -/
lemma exists_join_front (sep : Text) (h : List.Forall₂ IsBranch yss ps) (hne : ps ≠ [])
    (hw : IsBlanks w) : ∃ ps', join sep ps' = w ++ join sep ps ∧ List.Forall₂ IsBranch yss ps' := by
  cases h with
  | nil => exact absurd rfl hne
  | @cons ys p yss ps hp hps =>
      exact ⟨(w ++ p) :: ps, by rw [join_cons, join_cons, List.append_assoc],
        .cons (hp.front hw) hps⟩

/-- A text behind parts stands behind the last one. -/
lemma exists_join_back (sep : Text) (h : List.Forall₂ IsBranch yss ps) (hne : ps ≠ [])
    (hw : ∀ c ∈ w, isSlashOrBlank c = true) :
    ∃ ps', join sep ps' = join sep ps ++ w ∧ List.Forall₂ IsBranch yss ps' := by
  induction h with
  | nil => exact absurd rfl hne
  | @cons ys p yss ps hp hps ih =>
      cases hps with
      | nil => exact ⟨[p ++ w], by simp, .cons (hp.back hw) .nil⟩
      | @cons ys' p' yss ps hp' hps =>
          obtain ⟨ps', hjoin, hall⟩ := ih (List.cons_ne_nil _ _)
          obtain ⟨q, qs, rfl⟩ : ∃ q qs, ps' = q :: qs := by cases hall; exact ⟨_, _, rfl⟩
          refine ⟨p :: q :: qs, ?_, .cons hp hall⟩
          rw [join_cons_cons, hjoin, join_cons_cons]
          simp only [List.append_assoc]

/-- **An expression that has a selector** is a union of paths. -/
lemma exists_union (h : pathsOf x = some yss) (hb : ∀ b ∈ branches x, ['/', '/'] <+: b) :
    ∃ ps, x = join ['|'] ps ∧ List.Forall₂ IsBranch yss ps := by
  obtain ⟨w, w', hw, hw', hx⟩ := exists_strip x
  set core := dropEnd isSlashOrBlank (strip x) with hcore
  have hend : strip x = core ++ (strip x).rtakeWhile isSlashOrBlank := by
    rw [hcore, dropEnd_eq, List.rdropWhile_append_rtakeWhile]
  have hloose : ∀ c ∈ (strip x).rtakeWhile isSlashOrBlank ++ w', isSlashOrBlank c = true :=
    List.forall_mem_append.mpr ⟨fun c hc => List.mem_rtakeWhile_imp hc,
      fun c hc => isSlashOrBlank_of_isBlank (hw' c hc)⟩
  have hparts := forall₂_pathsOf h
  rw [branches, List.forall_mem_map] at hb
  rw [branches, List.forall₂_map_left_iff] at hparts
  have hall : List.Forall₂ IsBranch yss (splitTop ['|'] core) := by
    refine .flip (List.Forall₂.imp ?_ ((List.forall₂_and_left _ _).mpr ⟨hb, hparts⟩))
    rintro p ys ⟨hp, lead, legs, k, hsteps⟩
    obtain ⟨v, v', hv, hv', heq⟩ := exists_strip p
    exact ⟨v, strip p, v', lead, legs, k, hv, fun c hc => isSlashOrBlank_of_isBlank (hv' c hc), hp,
      hsteps, heq⟩
  have hne : splitTop ['|'] core ≠ [] := splitTopFrom_ne_nil _ _ _ _
  obtain ⟨qs, hfront, hqs⟩ := exists_join_front ['|'] hall hne hw
  have hne' : qs ≠ [] := by
    rintro rfl
    rw [List.forall₂_nil_right_iff] at hqs
    rw [hqs, List.forall₂_nil_left_iff] at hall
    exact hne hall
  obtain ⟨rs, hback, hrs⟩ := exists_join_back ['|'] hqs hne' hloose
  refine ⟨rs, ?_, hrs⟩
  have hjoin : join ['|'] (splitTop ['|'] core) = core := join_splitTopFrom (by simp) _ _
  rw [hback, hfront, hjoin, List.append_assoc, ← List.append_assoc core, ← hend, ← hx]

/-- The paths of an ordinary union are read. -/
lemma branchesRead (h : List.Forall₂ IsBranch yss ps) (ho : ∀ p ∈ ps, IsOrdinary placed p) :
    (∀ ys ∈ yss, ∀ y ∈ ys, IsOrdinaryStep placed y) ∧
      List.Forall₂ (BranchReads 4) ps (yss.map (List.map readingOf)) := by
  induction h with
  | nil => exact ⟨by simp, .nil⟩
  | @cons ys p yss ps hp _ ih =>
      rw [List.forall_mem_cons] at ho
      obtain ⟨hyss, hreads⟩ := ih ho.2
      obtain ⟨hys, hread⟩ := hp.branchReads ho.1
      exact ⟨List.forall_mem_cons.mpr ⟨hys, hyss⟩, .cons hread hreads⟩

/-- The paths of an ordinary union: two slashes stand in front of each of them. -/
structure IsOrdinaryPath (placed : Bool) (ys : List BracketStep) : Prop where
  steps : ∀ y ∈ ys, IsOrdinaryStep placed y
  start : ∃ y ys', ys = y :: ys' ∧ y.combinator = .descendant

/-- **An ordinary expression** that has a selector selects what its paths choose. -/
theorem selects_of_pathsOf (h : pathsOf x = some yss) (ho : IsOrdinary placed x)
    (hb : ∀ b ∈ branches x, ['/', '/'] <+: b) (hread : Expr.read? x = some e) :
    (∀ ys ∈ yss, IsOrdinaryPath placed ys) ∧ ∀ env f, Selects env e f fun b => yss.any fun ys =>
      chosenBy BracketStep.combinator (fun y => y.keptAt env.document) (fun a => a == []) ys b := by
  obtain ⟨ps, rfl, hps⟩ := exists_union h hb
  have hbar : IsClosed ['|'] := rfl
  have hclosed : ∀ p ∈ ps, IsClosed p := fun p hp =>
    let ⟨_, _, hbranch⟩ := exists_mem_of_forall₂ hps hp
    hbranch.isClosed
  obtain ⟨hyss, hreads⟩ := branchesRead hps (ho.join hbar hclosed)
  refine ⟨fun ys hys => ⟨hyss ys hys, ?_⟩, fun env f => ?_⟩
  · obtain ⟨p, -, hp⟩ := exists_mem_of_forall₂ hreads (List.mem_map_of_mem hys)
    obtain ⟨x, xs, hx, hcombinator⟩ := hp.exists_first
    obtain ⟨y, ys', rfl, rfl, -⟩ := List.map_eq_cons_iff.mp hx
    exact ⟨y, ys', rfl, hcombinator⟩
  · cases hps with
    | nil =>
        have hnone : Expr.read? (join ['|'] []) = none := by decide
        rw [hnone] at hread
        cases hread
    | @cons ys p yss ps hp hmore =>
        obtain ⟨e', es, he', hes, rfl⟩ := exists_of_read? hreads (by decide) hread
        exact selects_leadsTo he' hes hyss env f

/-- **An ordinary expression** that has a selector selects from a document what the brackets of its
paths keep. -/
theorem evaluate_of_pathsOf (h : pathsOf x = some yss) (ho : IsOrdinary placed x)
    (hb : ∀ b ∈ branches x, ['/', '/'] <+: b) (hread : Expr.read? x = some e)
    (hw : d.IsWhole) (hn : checkNamespaces namespaces = .ok ()) :
    (∀ ys ∈ yss, IsOrdinaryPath placed ys) ∧
      evaluate x (.document d) namespaces = .ok ((d.kept yss).map Node.place) := by
  obtain ⟨hyss, hselects⟩ := selects_of_pathsOf h ho hb hread
  obtain ⟨r, hstart⟩ := exists_startsAt hw hn
  refine ⟨hyss, evaluate_eq hw hstart ho.xml hread (hselects _ _) (fun b hb => ?_)
    fun b _ => Iff.rfl⟩
  obtain ⟨ys, hys, hkept⟩ := List.any_eq_true.mp hb
  obtain ⟨y, ys', rfl, -⟩ := (hyss ys hys).start
  exact isElementAt_of_keptBy (List.cons_ne_nil _ _) hkept

/-- **Where places stand in the first bracket of each step alone**, the brackets keep what the
groups choose. -/
theorem kept_eq_chosen (hyss : ∀ ys ∈ yss, IsOrdinaryPath placed ys)
    (h : ∀ ys ∈ yss, ∀ y ∈ ys, ∀ ts ∈ y.brackets.tail, ∀ t ∈ ts, t.counts = false) :
    d.kept yss = d.chosen (yss.map groupOfPath) := by
  refine List.filter_congr fun n _ => ?_
  rw [List.any_map, Bool.eq_iff_iff, List.any_eq_true, List.any_eq_true]
  refine exists_congr fun ys => and_congr_right fun hys => ?_
  obtain ⟨y, ys', rfl, hy⟩ := (hyss ys hys).start
  rw [chosenBy_keptAt hy (h _ hys)]
  rfl

end Locator.XPath

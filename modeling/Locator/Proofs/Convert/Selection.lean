/-
What the paths of a union select

* `keeps_predicatesOf`, `IsOrdinaryStep.keeps`: **the predicates of a step** keep what its brackets
  do, one behind the other;
* `LeadsTo.selects`: a path selects what its steps choose;
* `selects_leadsTo`: **a union of paths** selects what one of them chooses.
-/
import Locator.Proofs.Convert.Branch
import Locator.Proofs.Convert.Spaced
import Locator.Proofs.Css.Bracket
import Locator.Proofs.Css.Loose

namespace Locator.XPath

open Text Css

variable {env : Env} {f : Frame} {e : Expr} {M : Address → Bool} {es : List Expr}
  {tss : List (List Test)} {t : Test} {b : Address} {y : BracketStep} {ys : List BracketStep}
  {placed : Bool} {test : NodeTest}

/-! ### Predicates of a step -/

/-- The condition of a test holds where the test does among the siblings that are left. -/
lemma holds_among (ht : IsOrdinaryTest placed t)
    (hM : ∀ b, M b → passesAt env.document test none b) (hb : M b) (size : ℕ) :
    Holds env ⟨.node b, some (placeAmong M b), some size⟩ t.pathExpr
      (t.holdsAmong env.document M b) := by
  cases hcounts : t.counts with
  | false =>
      have h : Holds env ⟨.node b, some (placeAmong M b), some size⟩ t.pathExpr
          (t.admits env.document test b) := Test.admits_pathExpr_of_counts ht.formed hcounts rfl
      rwa [Test.admits_of_takes ht.takes, ← Test.holdsAmong_of_counts hcounts] at h
  | true =>
      cases t with
      | nthOfType digits =>
          have hformed := ht.formed
          simp only [Test.isFormed, Bool.and_eq_true, List.all_eq_true] at hformed
          have hle := placeAmong_mono hM b
          rw [placeAmong_passesAt] at hle
          exact holds_position hformed.2 (hle.trans_lt (positionAt_lt (hM b hb))) rfl
      | _ => cases hcounts

/-- The predicates of brackets behind further predicates keep what the brackets do. -/
lemma keeps_predicatesOf (htests : ∀ t ∈ tss.flatten, IsOrdinaryTest placed t)
    (h : Keeps env test none es M) :
    Keeps env test none (es ++ predicatesOf tss) (keptBy env.document M tss) := by
  induction tss generalizing es M with
  | nil =>
      rw [predicatesOf, List.flatMap_nil, List.append_nil]
      exact h
  | cons ts tss ih =>
      rw [List.flatten_cons, List.forall_mem_append] at htests
      have hfirst : Keeps env test none (es ++ Css.conditions Test.pathExpr ts)
          (keptByOne env.document M ts) :=
        Css.Keeps.conditions (H := fun t b => t.holdsAmong env.document M b) h
          fun t ht _ hb size => holds_among (htests.1 t ht) h.passes hb size
      have hmore := ih htests.2 hfirst
      rw [List.append_assoc] at hmore
      exact hmore

/-- **A step of an ordinary expression**: queries read its tests as they are meant, and each of
them asks for something. It counts only where positions are allowed. -/
structure IsOrdinaryStep (placed : Bool) (y : BracketStep) : Prop where
  formed : y.step.compound.isFormed = true
  tests : ∀ t ∈ y.step.compound.tests, IsOrdinaryTest placed t

/-- The step with one predicate for each bracket. -/
def readingOf (y : BracketStep) : Step × List Expr := (y.step, predicatesOf y.brackets)

/-- **The predicates of a step** keep what its brackets do. -/
theorem IsOrdinaryStep.keeps (h : IsOrdinaryStep placed y) (env : Env) :
    Keeps env y.step.compound.nodeTest none (predicatesOf y.brackets) (y.keptAt env.document) :=
  keeps_predicatesOf h.tests (keeps_nil env _ none)

/-! ### Paths -/

/-- The first step of a path leads to everything that its brackets keep. -/
lemma selects_first {start : Expr} (hs : start = Expr.root.inside ∨ start = Expr.root.inside.inside)
    (hy : IsOrdinaryStep placed y) :
    Selects env (.step start .child y.step.compound.nodeTest (predicatesOf y.brackets)) f
      fun b => y.keptAt env.document b := by
  have hu := Compound.testUri_nodeTest env y.step.compound
  have hk := hy.keeps env
  have hne : ∀ {b}, y.keptAt env.document b → b ≠ [] := fun hb =>
    ne_nil_of_passesAt (BracketStep.passesAt_of_keptAt hb)
  rcases hs with rfl | rfl
  · refine ((selects_root f).below_keeps hu hk).congr fun b => ?_
    constructor
    · rintro ⟨_, rfl, way, -, -, hb⟩
      exact hb
    · intro hb
      exact ⟨[], rfl, b, hne hb, (List.append_nil b).symm, hb⟩
  · -- What is below anything inside the document is below the document.
    refine ((selects_root f).inside.below_keeps hu hk).congr fun b => ?_
    constructor
    · rintro ⟨_, -, way, -, -, hb⟩
      exact hb
    · intro hb
      exact ⟨[], ⟨[], rfl, [], rfl, rfl⟩, b, hne hb, (List.append_nil b).symm, hb⟩

/-- **A path** selects what its steps choose. -/
lemma LeadsTo.selects (h : LeadsTo (ys.map readingOf) e)
    (hy : ∀ y ∈ ys, IsOrdinaryStep placed y) (env : Env) (f : Frame) :
    Selects env e f fun b =>
      chosenBy BracketStep.combinator (fun y => y.keptAt env.document) (fun a => a == []) ys b := by
  obtain ⟨y, ys, rfl⟩ : ∃ y ys', ys = y :: ys' := by
    cases ys with
    | nil => cases h
    | cons y ys => exact ⟨y, ys, rfl⟩
  rw [List.forall_mem_cons] at hy
  cases h with
  | @steps _ _ start hfirst hstart =>
      have hinside : y.combinator = .descendant := hfirst
      rw [chosenBy_root hinside fun b hb =>
        ne_nil_of_passesAt (BracketStep.passesAt_of_keptAt hb), List.foldl_map]
      exact Selects.steps (M := fun y => y.keptAt env.document) (selects_first hstart hy.1)
        fun y hy' => ⟨Compound.testUri_nodeTest env y.step.compound, (hy.2 y hy').keeps env⟩

/-- **A union of paths** selects what one of its paths chooses. -/
theorem selects_leadsTo {yss : List (List BracketStep)} {es : List Expr}
    (he : LeadsTo (ys.map readingOf) e)
    (hes : List.Forall₂ LeadsTo (yss.map (List.map readingOf)) es)
    (hy : ∀ zs ∈ ys :: yss, ∀ z ∈ zs, IsOrdinaryStep placed z) (env : Env) (f : Frame) :
    Selects env (es.foldl (.binary .union) e) f fun b => (ys :: yss).any fun ys =>
      chosenBy BracketStep.combinator (fun y => y.keptAt env.document) (fun a => a == []) ys b := by
  rw [List.forall_mem_cons] at hy
  rw [List.forall₂_map_left_iff] at hes
  have hmore := List.Forall₂.imp (fun ys e' ⟨hys, hleads⟩ => LeadsTo.selects hleads hys env f)
    ((List.forall₂_and_left _ _).mpr ⟨hy.2, hes⟩)
  exact (Selects.unions (he.selects hy.1 env f) hmore).congr fun b => by simp

end Locator.XPath

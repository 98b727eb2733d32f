/-
Paths from the root element and paths from a point

* `IsKept`: relations between expressions that steps and signs behind them keep;
* `Alike`: two readings that leave the same rest and give related expressions, with one
  lemma for each reader that goes on behind an expression;
* `stepsFrom_ends`: behind steps no slash is left;
* `rel_read?`: **behind the test for the root element** a text is read as it is behind a
  point, the step to the root element taking the place of the context node.
-/
import Locator.Proofs.XPath.Path
import Locator.Proofs.XPath.Token
import Locator.XPath.Eval

namespace Locator.XPath

variable {R : Expr → Expr → Prop} {sub : Reader Expr} {e e' : Expr} {s r tag : Text}
  {x y : Option (Expr × Text)} {test : NodeTest}

/-! ### Readings that go on behind an expression -/

/-- A relation between expressions that is kept by steps from them and by signs behind them. -/
structure IsKept (R : Expr → Expr → Prop) : Prop where
  step : ∀ {e e'}, R e e' → ∀ axis test ps, R (.step e axis test ps) (.step e' axis test ps)
  binary : ∀ {e e'}, R e e' → ∀ op f, R (.binary op e f) (.binary op e' f)

/-- Two readings fail both, or give related expressions and leave the same rest. -/
def Alike (R : Expr → Expr → Prop) : Option (Expr × Text) → Option (Expr × Text) → Prop :=
  Option.Rel fun p q => R p.1 q.1 ∧ p.2 = q.2

namespace Alike

lemma some (h : R e e') (r : Text) : Alike R (.some (e, r)) (.some (e', r)) :=
  Option.Rel.some ⟨h, rfl⟩

lemma bind {f g : Expr × Text → Option (Expr × Text)} (h : Alike R x y)
    (hfg : ∀ e e' r, R e e' → Alike R (f (e, r)) (g (e', r))) :
    Alike R (x.bind f) (y.bind g) := by
  cases h with
  | none => exact Option.Rel.none
  | @some p q hpq =>
      obtain ⟨e, r⟩ := p
      obtain ⟨e', r'⟩ := q
      obtain ⟨hR, rfl⟩ := hpq
      exact hfg e e' r hR

end Alike

variable (hR : IsKept R)
include hR

lemma alike_step (h : R e e') (s : Text) : Alike R (step? sub e s) (step? sub e' s) := by
  unfold step?
  split
  · exact .some (hR.step h _ _ _) _
  · exact .some h _
  · simp only [Option.bind_eq_bind]
    cases axisAndTest? (blanks s) with
    | none => exact Option.Rel.none
    | some p =>
        simp only [Option.bind_some]
        cases predicates? sub ((blanks p.2).length + 1) (blanks p.2) with
        | none => exact Option.Rel.none
        | some q => exact .some (hR.step h _ _ _) _

lemma alike_stepsFrom (h : R e e') (fuel : ℕ) (s : Text) :
    Alike R (stepsFrom sub fuel e s) (stepsFrom sub fuel e' s) := by
  induction fuel generalizing e e' s with
  | zero => exact .some h s
  | succ fuel ih =>
      unfold stepsFrom
      split
      · exact (alike_step hR (hR.step h _ _ _) _).bind fun _ _ _ h => ih h _
      · exact (alike_step hR h _).bind fun _ _ _ h => ih h _
      · exact .some h _

omit hR

/-! ### Steps from the root element -/

lemma Leaves.length_le (h : Leaves s r) : r.length ≤ s.length := by
  obtain ⟨u, rfl, -⟩ := h
  simp

/-- What is left behind steps starts with no slash. -/
lemma stepsFrom_ends (hsub : Takes sub) {fuel : ℕ} (hf : s.length < fuel)
    (h : stepsFrom sub fuel e s = some (e', r)) : ∀ c ∈ r.head?, c ≠ '/' := by
  induction fuel generalizing e s with
  | zero => omega
  | succ fuel ih =>
      have hshort : ∀ {e₁ e₂ : Expr} {w r₁ : Text}, w.length < (blanks s).length →
          step? sub e₁ (blanks w) = some (e₂, r₁) → r₁.length < fuel := by
        intro e₁ e₂ w r₁ hw hstep
        have h1 := (takes_step hsub _ hstep).length_le
        have h2 := length_blanks_le w
        have h3 := length_blanks_le s
        omega
      unfold stepsFrom at h
      split at h
      · next w hw =>
          obtain ⟨⟨e₁, r₁⟩, hstep, h⟩ := Option.bind_eq_some_iff.mp h
          exact ih (hshort (by simp [hw]) hstep) h
      · next w _ hw =>
          obtain ⟨⟨e₁, r₁⟩, hstep, h⟩ := Option.bind_eq_some_iff.mp h
          exact ih (hshort (by simp [hw]) hstep) h
      · next hno =>
          obtain ⟨-, rfl⟩ := Prod.mk.inj (Option.some.inj h)
          rintro c hc rfl
          obtain ⟨w, hw⟩ : ∃ w, blanks s = '/' :: w := by
            cases hb : blanks s with
            | nil => simp [hb] at hc
            | cons d w => exact ⟨w, by simp [hb] at hc; rw [hc]⟩
          exact hno w hw

/-- No more slashes are read where none stands. -/
lemma absolutePath?_of_head (hr : ∀ c ∈ r.head?, c ≠ '/') (fuel : ℕ) :
    absolutePath? sub fuel e r = some (e, r) := by
  cases fuel with
  | zero => rfl
  | succ fuel =>
      unfold absolutePath?
      split
      · exact absurd rfl (hr '/' rfl)
      · exact absurd rfl (hr '/' rfl)
      · rfl

/-- The step from the document to the root element, if it passes a test. -/
def toRoot (test : NodeTest) : Expr := .step .root .child test []

/-- Behind the test for the root element steps go on from it. -/
lemma locationPath?_tag (ht : TestReads tag .child test) (d : ℕ) (s : Text) :
    locationPath? (exprAt? d) ('/' :: (tag ++ '/' :: s)) =
      stepsFrom (exprAt? d) (s.length + 2) (toRoot test) ('/' :: s) := by
  have hname := ht.step 0
  have hstep : step? (exprAt? d) .root (tag ++ '/' :: s) = some (toRoot test, '/' :: s) := by
    rw [hname.reads d (Nat.zero_le d) .root _ (endsStep_slash s), blanks_cons rfl]
    rfl
  have hb := startsTest_blanks hname.starts ('/' :: s)
  have hpath : relativePath? (exprAt? d) .root (tag ++ '/' :: s) =
      stepsFrom (exprAt? d) (s.length + 2) (toRoot test) ('/' :: s) := by
    have hno := ne_slash_of_startsTest hname.starts ('/' :: s)
    unfold relativePath?
    rw [hb]
    split
    · next heq => exact absurd heq (hno _)
    · next heq => exact absurd heq (hno _)
    · simp [hstep]
  obtain ⟨c, t, rfl, hc⟩ := hname.starts
  have hslash : c ≠ '/' := hc.ne rfl
  rw [List.cons_append] at hb hpath
  have hdo : locationPath? (exprAt? d) ('/' :: (c :: (t ++ '/' :: s))) =
      (relativePath? (exprAt? d) .root (c :: (t ++ '/' :: s))).bind fun p =>
        absolutePath? (exprAt? d) (t ++ '/' :: s).length.succ p.1 p.2 := by
    simp only [locationPath?, blanks_cons (c := '/') rfl]
    rw [absolutePath?.eq_def]
    simp [hslash, hb, hc.step]
  rw [List.cons_append, hdo, hpath]
  cases h : stepsFrom (exprAt? d) (s.length + 2) (toRoot test) ('/' :: s) with
  | none => rfl
  | some p =>
      obtain ⟨e, r⟩ := p
      exact absolutePath?_of_head (stepsFrom_ends (takes_exprAt d) (by simp) h) _

/-- Behind the point steps go on from the context node. -/
lemma locationPath?_point (sub : Reader Expr) (s : Text) :
    locationPath? sub ('.' :: '/' :: s) = stepsFrom sub (s.length + 2) .here ('/' :: s) := by
  have hstep : step? sub .here ('.' :: '/' :: s) = some (.here, '/' :: s) := by
    simp [step?, blanks_cons (c := '.') rfl, blanks_cons (c := '/') rfl]
  simp [locationPath?, relativePath?, blanks_cons (c := '.') rfl, hstep]

/-! ### Levels -/

section Levels

variable {a b : Text} {operand : Reader Expr}

lemma alike_chain (hR : IsKept R) (k : ℕ) (h : Alike R (operand a) (operand b)) :
    Alike R (chain (signsAt k) operand a) (chain (signsAt k) operand b) := by
  have hmore : ∀ (fuel : ℕ) (e e' : Expr) (r : Text), R e e' →
      Alike R (chainFrom (signsAt k) operand fuel e r) (chainFrom (signsAt k) operand fuel e' r) := by
    intro fuel
    induction fuel with
    | zero => exact fun e e' r h => .some h r
    | succ fuel ih =>
        intro e e' r h
        unfold chainFrom
        split
        · exact .some h _
        · next op w _ =>
            simp only [Option.bind_eq_bind]
            cases operand (blanks w) with
            | none => exact Option.Rel.none
            | some p => exact ih _ _ _ (hR.binary h op p.1)
  exact h.bind fun e e' r h => hmore _ e e' r h

/-- What is alike at the level of paths is alike at every level. -/
lemma alike_readerAt (hR : IsKept R) (ha : Starts a) (hb : Starts b)
    (h : Alike R (pathExpr? sub a) (pathExpr? sub b)) (k : ℕ) :
    Alike R (readerAt sub k a) (readerAt sub k b) := by
  induction k with
  | zero => exact h
  | succ k ih =>
      refine alike_chain hR (k + 1) ?_
      rwa [atOperands_of_starts k _ ha, atOperands_of_starts k _ hb]

end Levels

/-- **Behind the test for the root element** a text is read as it is behind a point. -/
theorem rel_read? (hR : IsKept R) (ht : TestReads tag .child test) (h : R (toRoot test) .here)
    (s : Text) :
    Option.Rel R (Expr.read? ('/' :: (tag ++ '/' :: s))) (Expr.read? ('.' :: '/' :: s)) := by
  have hpath : ∀ d, Alike R (pathExpr? (exprAt? d) ('/' :: (tag ++ '/' :: s)))
      (pathExpr? (exprAt? d) ('.' :: '/' :: s)) := by
    intro d
    have hsteps : Alike R (stepsFrom (exprAt? d) (s.length + 2) (toRoot test) ('/' :: s))
        (stepsFrom (exprAt? d) (s.length + 2) .here ('/' :: s)) := alike_stepsFrom hR h _ _
    rw [← locationPath?_tag ht, ← locationPath?_point] at hsteps
    have htag : startsPrimary? ('/' :: (tag ++ '/' :: s)) = some false := rfl
    have hpoint : startsPrimary? ('.' :: '/' :: s) = some false := rfl
    simp only [pathExpr?, blanks_cons (c := '/') rfl, blanks_cons (c := '.') rfl, htag, hpoint]
    exact hsteps.bind fun e e' r h => .some h _
  have hread : Alike R (exprAt? maxDepth ('/' :: (tag ++ '/' :: s)))
      (exprAt? maxDepth ('.' :: '/' :: s)) :=
    alike_readerAt hR ⟨'/', _, rfl, rfl, by simp, by simp⟩ ⟨'.', _, rfl, rfl, by simp, by simp⟩
      (hpath 499) loosest
  rw [Expr.read?, Expr.read?]
  generalize exprAt? maxDepth ('/' :: (tag ++ '/' :: s)) = x at hread ⊢
  generalize exprAt? maxDepth ('.' :: '/' :: s) = y at hread ⊢
  cases hread with
  | none => exact Option.Rel.none
  | @some p q hpq =>
      obtain ⟨e, r⟩ := p
      obtain ⟨e', r'⟩ := q
      obtain ⟨he, rfl⟩ := hpq
      cases r with
      | nil => exact Option.Rel.some he
      | cons => exact Option.Rel.none

/-! ### Results -/

/-- Steps and signs behind two expressions of one result have one result. -/
lemma isKept_eval (env : Env) (f : Frame) : IsKept fun e e' => eval env e f = eval env e' f where
  step h axis test ps := by rw [eval, eval, h]
  binary h op g := by rw [eval, eval, h]

end Locator.XPath

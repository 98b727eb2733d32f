/-
Reading tidy texts

* `tidied_relativePath_inside`: behind two slashes all further ones are left out of a tidy text,
  and those that are read in the text itself mean nothing;
* `tidied_absolutePath`, `tidied_pathExpr`: **paths**, and paths behind other expressions;
* `tidies_chain`, `tidies_readerAt`: operands with signs between them, and the levels;
* `read?_tidy`: **the tidy text of an expression** is one with the same results, its texts
  shortened.
-/
import Locator.Proofs.XPath.Tidied

namespace Locator.XPath

open Text

variable {s r : Text} {sub : Reader Expr} {e e' : Expr} (hsub : Tidies sub) (htakes : Takes sub)

/-! ### Paths -/

/-- Steps, none of which has a slash in front of the first one. -/
def steps? (sub : Reader Expr) (start : Expr) : Reader Expr := fun s => do
  let (e, r) ← step? sub start s
  stepsFrom sub (r.length + 1) e r

lemma relativePath?_slashes (start : Expr) {w : Text} (hs : blanks s = '/' :: '/' :: w) :
    relativePath? sub start s = steps? sub start.inside (blanks w) := by
  simp [relativePath?, hs, steps?]

lemma relativePath?_slash (start : Expr) {w : Text} (hs : blanks s = '/' :: w)
    (hw : ∀ v, w ≠ '/' :: v) : relativePath? sub start s = steps? sub start (blanks w) := by
  simp [relativePath?, hs, steps?]

lemma relativePath?_of_head (start : Expr) (hs : ∀ w, blanks s ≠ '/' :: w) :
    relativePath? sub start s = steps? sub start (blanks s) := by
  have hslashes : ∀ w, blanks s ≠ '/' :: '/' :: w := fun w => hs _
  simp [relativePath?, steps?]

/-- Blanks in front of a path do not count. -/
lemma relativePath?_blanks (start : Expr) (s : Text) :
    relativePath? sub start (blanks s) = relativePath? sub start s := by
  simp only [relativePath?, blanks_blanks]

/-- No steps start with a slash. -/
lemma steps?_slash (start : Expr) (hs : blanks s = '/' :: r) : steps? sub start s = none := by
  simp [steps?, step?_slash start hs]

section Paths
include hsub htakes

lemma tidied_stepsFrom {n m : ℕ} (he : Restates squeeze e e') (hn : s.length < n)
    (hm : (tidy s).length < m) :
    Tidied (Restates squeeze) (stepsFrom sub n e s) (stepsFrom sub m e' (tidy s)) := by
  induction n generalizing e e' s m with
  | zero => omega
  | succ n ih =>
      obtain ⟨m, rfl⟩ : ∃ m', m = m' + 1 := ⟨m - 1, by omega⟩
      have hlen := length_blanks_le s
      have hlen' := length_blanks_le (tidy s)
      -- each step takes a slash in both texts, so that the fuel of both readings lasts
      have hstep : ∀ {f f' : Expr} {w : Text}, Restates squeeze f f' → w.length < s.length →
          (tidy w).length < (tidy s).length →
          Tidied (Restates squeeze)
            ((step? sub f (blanks w)).bind fun x => stepsFrom sub n x.1 x.2)
            ((step? sub f' (tidy (blanks w))).bind fun x => stepsFrom sub m x.1 x.2) := by
        intro f f' w hf hw hw'
        refine (tidied_step hsub htakes hf (blanks w)).bind fun e e' r hr hr' he => ?_
        have h1 := (takes_step htakes f hr).length_le
        have h2 := length_blanks_le w
        have h3 := (takes_step htakes f' hr').length_le
        have h4 := length_blanks_le (tidy w)
        rw [blanks_tidy] at h4
        have hn' : r.length < n := by omega
        have hm' : (tidy r).length < m := by omega
        exact ih he hn' hm'
      simp only [stepsFrom, blanks_tidy] at hlen' ⊢
      by_cases hslashes : ∃ w, blanks s = '/' :: '/' :: w
      · obtain ⟨w, hw⟩ := hslashes
        rw [hw] at hlen hlen' ⊢
        by_cases hhead : ∃ v, w = '/' :: v
        · -- no step is read from three slashes, and nothing is claimed of the tidy text
          obtain ⟨v, rfl⟩ := hhead
          have hnone : step? sub e.inside (blanks ('/' :: v)) = none :=
            step?_slash _ (blanks_blanks _)
          simp only [hnone]
          exact .none
        · rw [not_exists] at hhead
          rw [tidy_slashes_of_head hhead] at hlen' ⊢
          simp only [List.length_cons, blanks_tidy] at hlen hlen' ⊢
          exact hstep he.inside (by omega) (by omega)
      · rw [not_exists] at hslashes
        have hslashes' := tidy_ne_slashes hslashes
        by_cases hslash : ∃ w, blanks s = '/' :: w
        · obtain ⟨w, hw⟩ := hslash
          have hhead : ∀ v, w ≠ '/' :: v := fun v hv => hslashes v (by rw [hw, hv])
          have hhead' := tidy_ne hhead
          rw [hw] at hlen hlen' ⊢
          rw [tidy_slash_of_head hhead] at hlen' ⊢
          simp only [List.length_cons, blanks_tidy] at hlen hlen' ⊢
          exact hstep he (by omega) (by omega)
        · rw [not_exists] at hslash
          have hslash' := tidy_ne hslash
          simp only
          exact .some he _

lemma tidied_steps (he : Restates squeeze e e') (s : Text) :
    Tidied (Restates squeeze) (steps? sub e s) (steps? sub e' (tidy s)) :=
  (tidied_step hsub htakes he s).bind fun _ _ _ _ _ he =>
    tidied_stepsFrom hsub htakes he (Nat.lt_succ_self _) (Nat.lt_succ_self _)

/-- Steps behind slashes that have been read. -/
lemma tidied_steps_blanks (he : Restates squeeze e e') (s : Text) :
    Tidied (Restates squeeze) (steps? sub e (blanks s)) (relativePath? sub e' (tidy s)) := by
  by_cases hslash : ∃ w, blanks s = '/' :: w
  · obtain ⟨w, hw⟩ := hslash
    rw [hw, steps?_slash e (blanks_cons rfl w)]
    exact .none
  · rw [not_exists] at hslash
    have hslash' : ∀ w, blanks (tidy s) ≠ '/' :: w := by
      rw [blanks_tidy]
      exact tidy_ne hslash
    rw [relativePath?_of_head e' hslash', blanks_tidy]
    exact tidied_steps hsub htakes he (blanks s)

lemma tidied_relativePath (he : Restates squeeze e e') (s : Text) :
    Tidied (Restates squeeze) (relativePath? sub e s) (relativePath? sub e' (tidy s)) := by
  by_cases hslashes : ∃ w, blanks s = '/' :: '/' :: w
  · obtain ⟨w, hw⟩ := hslashes
    rw [relativePath?_slashes e hw]
    by_cases hhead : ∃ v, w = '/' :: v
    · obtain ⟨v, rfl⟩ := hhead
      rw [blanks_cons rfl, steps?_slash e.inside (blanks_cons rfl v)]
      exact .none
    · rw [not_exists] at hhead
      have hw' : blanks (tidy s) = '/' :: '/' :: tidy w := by
        rw [blanks_tidy, hw, tidy_slashes_of_head hhead]
      rw [relativePath?_slashes e' hw', blanks_tidy]
      exact tidied_steps hsub htakes he.inside (blanks w)
  rw [not_exists] at hslashes
  by_cases hslash : ∃ w, blanks s = '/' :: w
  · obtain ⟨w, hw⟩ := hslash
    have hhead : ∀ v, w ≠ '/' :: v := fun v hv => hslashes v (by rw [hw, hv])
    have hw' : blanks (tidy s) = '/' :: tidy w := by
      rw [blanks_tidy, hw, tidy_slash_of_head hhead]
    rw [relativePath?_slash e hw hhead, relativePath?_slash e' hw' (tidy_ne hhead), blanks_tidy]
    exact tidied_steps hsub htakes he (blanks w)
  · rw [relativePath?_of_head e (not_exists.mp hslash)]
    exact tidied_steps_blanks hsub htakes he s

/-- **Behind two slashes** all further ones are left out of a tidy text. In the text itself up to
two of them are read, which leads inside once more and so nowhere else. -/
lemma tidied_relativePath_inside (he : Restates squeeze e e') (r : Text) :
    Tidied (Restates squeeze) (relativePath? sub e.inside r)
      (relativePath? sub e'.inside (tidyFrom 2 r)) := by
  by_cases hslash : ∃ w, r = '/' :: w
  · obtain ⟨w, rfl⟩ := hslash
    rw [tidyFrom_two_slash]
    by_cases hslashes : ∃ v, w = '/' :: v
    · obtain ⟨v, rfl⟩ := hslashes
      rw [tidyFrom_two_slash, relativePath?_slashes e.inside (blanks_cons rfl _)]
      by_cases hhead : ∃ u, v = '/' :: u
      · obtain ⟨u, rfl⟩ := hhead
        rw [blanks_cons rfl, steps?_slash e.inside.inside (blanks_cons rfl u)]
        exact .none
      · rw [tidyFrom_of_head (not_exists.mp hhead)]
        exact tidied_steps_blanks hsub htakes he.inside_inside v
    · rw [not_exists] at hslashes
      rw [tidyFrom_of_head hslashes, relativePath?_slash e.inside (blanks_cons rfl _) hslashes]
      exact tidied_steps_blanks hsub htakes he.inside w
  · rw [tidyFrom_of_head (not_exists.mp hslash)]
    exact tidied_relativePath hsub htakes he.inside r

omit hsub htakes in
/-- Behind an absolute path only a slash goes on with it. -/
lemma tidied_absolutePath_of_head {n m : ℕ} (he : Restates squeeze e e')
    (hs : ∀ w, s ≠ '/' :: w) :
    Tidied (Restates squeeze) (absolutePath? sub n e s) (absolutePath? sub m e' (tidy s)) := by
  have hhead : ∀ {t : Text}, (∀ w, t ≠ '/' :: w) → ∀ c ∈ t.head?, c ≠ '/' := by
    rintro t ht c hc rfl
    obtain ⟨w, hw⟩ := List.head?_eq_some_iff.mp hc
    exact ht w hw
  rw [absolutePath?_of_head (hhead hs), absolutePath?_of_head (hhead (tidy_ne hs))]
  exact .some he s

lemma tidied_absolutePath {n m : ℕ} (he : Restates squeeze e e') (hn : s.length ≤ n)
    (hm : (tidy s).length ≤ m) :
    Tidied (Restates squeeze) (absolutePath? sub n e s) (absolutePath? sub m e' (tidy s)) := by
  induction n generalizing e e' s m with
  | zero =>
      obtain rfl := List.eq_nil_of_length_eq_zero (Nat.le_zero.mp hn)
      exact tidied_absolutePath_of_head he (by simp)
  | succ n ih =>
      by_cases hslash : ∃ w, s = '/' :: w
      swap
      · exact tidied_absolutePath_of_head he (not_exists.mp hslash)
      obtain ⟨w, rfl⟩ := hslash
      rw [tidy_slash] at hm ⊢
      obtain ⟨m, rfl⟩ : ∃ m', m = m' + 1 := ⟨m - 1, by simp only [List.length_cons] at hm; omega⟩
      by_cases hslashes : ∃ v, w = '/' :: v
      · obtain ⟨v, rfl⟩ := hslashes
        rw [tidyFrom_one_slash] at hm ⊢
        simp only [List.length_cons] at hn hm
        simp only [absolutePath?, relativePath?_blanks]
        refine (tidied_relativePath_inside hsub htakes he v).bind fun e e' r hr hr' he => ?_
        have h1 := (takes_relativePath htakes _ hr).length_le
        have h3 := (takes_relativePath htakes _ hr').length_le
        have hn' : r.length ≤ n := by omega
        have hm' : (tidy r).length ≤ m := by omega
        exact ih he hn' hm'
      · rw [not_exists] at hslashes
        rw [tidyFrom_of_head hslashes] at hm ⊢
        have hslashes' := tidy_ne hslashes
        have h2 := length_blanks_le w
        have h4 := length_blanks_le (tidy w)
        simp only [List.length_cons, blanks_tidy] at hn hm h4
        simp only [absolutePath?, blanks_tidy]
        cases hb : blanks w with
        | nil => exact .some he []
        | cons c t =>
            obtain ⟨t', ht'⟩ := exists_tidy_cons (isSpace_of_blanks hb) t
            rw [hb] at h2 h4
            rw [ht'] at h4 ⊢
            simp only
            split_ifs
            -- a step follows the slash, or the slash stands for the document itself
            · have hpath := tidied_relativePath hsub htakes he (c :: t)
              rw [ht'] at hpath
              refine hpath.bind fun e e' r hr hr' he => ?_
              have h1 := (takes_relativePath htakes _ hr).length_le
              have h3 := (takes_relativePath htakes _ hr').length_le
              have hn' : r.length ≤ n := by omega
              have hm' : (tidy r).length ≤ m := by omega
              exact ih he hn' hm'
            · have hmore := ih (s := c :: t) (m := m) he (by omega) (by rw [ht']; omega)
              rwa [ht'] at hmore

lemma tidied_locationPath (s : Text) :
    Tidied (Restates squeeze) (locationPath? sub s) (locationPath? sub (tidy s)) := by
  simp only [locationPath?, blanks_tidy]
  by_cases hslash : ∃ w, blanks s = '/' :: w
  · obtain ⟨w, hw⟩ := hslash
    rw [hw, tidy_slash]
    have hpath := tidied_absolutePath hsub htakes (n := w.length + 1)
      (m := (tidyFrom 1 w).length + 1) (s := '/' :: w) .root le_rfl
      (by rw [tidy_slash]; exact le_rfl)
    rwa [tidy_slash] at hpath
  · rw [not_exists] at hslash
    have hslash' := tidy_ne hslash
    simp only
    exact tidied_relativePath hsub htakes .here (blanks s)

end Paths

/-! ### Calls and operands -/

section Operands
include hsub htakes

lemma tidied_arguments {n m : ℕ} (hs : blanks s = s) (hn : s.length < n)
    (hm : (tidy s).length < m) :
    Tidied (List.Forall₂ (Restates squeeze)) (arguments? sub n s) (arguments? sub m (tidy s)) := by
  induction n generalizing s m with
  | zero => omega
  | succ n ih =>
      obtain ⟨m, rfl⟩ : ∃ m', m = m' + 1 := ⟨m - 1, by omega⟩
      cases s with
      | nil => exact .some .nil []
      | cons c t =>
          have harguments := hsub (c :: t)
          obtain ⟨t', ht'⟩ := exists_tidy_cons (isSpace_of_blanks hs) t
          rw [ht'] at harguments hm ⊢
          simp only [arguments?]
          refine harguments.bind fun e e' r hr hr' he => ?_
          have h1 := (htakes hr).length_le
          have h3 := (htakes hr').length_le
          by_cases hclose : ∃ v, r = ')' :: v
          · obtain ⟨v, rfl⟩ := hclose
            rw [tidy_cons rfl]
            exact .some (.cons he .nil) v
          rw [not_exists] at hclose
          have hclose' := tidy_ne hclose
          by_cases hcomma : ∃ v, r = ',' :: v
          · obtain ⟨v, rfl⟩ := hcomma
            rw [tidy_cons rfl] at h3 ⊢
            have h2 := length_blanks_le v
            have h4 := length_blanks_le (tidy v)
            rw [blanks_tidy] at h4
            simp only [List.length_cons] at h1 h3 hn hm
            simp only [blanks_tidy]
            exact (ih (blanks_blanks v) (by omega) (by omega)).bind fun es es' r _ _ hes =>
              .some (.cons he hes) r
          · rw [not_exists] at hcomma
            have hcomma' := tidy_ne hcomma
            simp only
            exact .none

lemma tidied_call (s : Text) :
    Tidied (Restates squeeze) (call? sub s) (call? sub (tidy s)) := by
  unfold call?
  refine (tidied_qualifiedName s).bind fun name _ r _ _ heq => ?_
  subst heq
  obtain ⟨pfx, name⟩ := name
  simp only [blanks_tidy]
  by_cases hopen : ∃ w, blanks r = '(' :: w
  · obtain ⟨w, hw⟩ := hopen
    rw [hw, tidy_cons rfl]
    simp only [blanks_tidy]
    by_cases hclose : ∃ v, blanks w = ')' :: v
    · obtain ⟨v, hv⟩ := hclose
      rw [hv, tidy_cons rfl]
      simp only [blanks_tidy]
      exact .some (.call pfx name .nil) _
    · rw [not_exists] at hclose
      have hclose' := tidy_ne hclose
      simp only
      refine (tidied_arguments hsub htakes (blanks_blanks w) (Nat.lt_succ_self _)
        (Nat.lt_succ_self _)).bind fun es es' r _ _ hes => ?_
      simp only [blanks_tidy]
      exact .some (.call pfx name hes) _
  · rw [not_exists] at hopen
    have hopen' := tidy_ne hopen
    simp only
    exact .none

omit hsub htakes in
/-- A literal of an expression has its text shortened. -/
lemma tidied_literalExpr (s : Text) :
    Tidied (Restates squeeze) ((literal? s).map fun x => (Expr.literal x.1, blanks x.2))
      ((literal? (tidy s)).map fun x => (Expr.literal x.1, blanks x.2)) := by
  rw [Option.map_eq_bind, Option.map_eq_bind]
  refine (tidied_literal s).bind fun v v' r _ _ hv => ?_
  subst hv
  simp only [Function.comp_apply, blanks_tidy]
  exact .some (.literal v) _

lemma tidied_primary (s : Text) :
    Tidied (Restates squeeze) (primary? sub s) (primary? sub (tidy s)) := by
  simp only [primary?, startsHere_tidy, read_tidy, blanks_tidy]
  split_ifs
  · exact .some (.number _) _
  by_cases hdollar : ∃ w, s = '$' :: w
  · obtain ⟨w, rfl⟩ := hdollar
    rw [tidy_cons rfl]
    refine (tidied_qualifiedName w).bind fun name _ r _ _ heq => ?_
    subst heq
    simp only [blanks_tidy]
    exact .some (.ofVariable _ _) _
  by_cases hopen : ∃ w, s = '(' :: w
  · obtain ⟨w, rfl⟩ := hopen
    rw [tidy_cons rfl]
    simp only [blanks_tidy]
    refine (hsub (blanks w)).bind fun e e' r _ _ he => ?_
    by_cases hclose : ∃ v, r = ')' :: v
    · obtain ⟨v, rfl⟩ := hclose
      rw [tidy_cons rfl]
      simp only [blanks_tidy]
      exact .some he _
    · rw [not_exists] at hclose
      intro x w h
      split at h
      · next heq => exact absurd (Prod.mk.inj heq).2 (hclose _)
      · cases h
  by_cases hdouble : ∃ w, s = '"' :: w
  · obtain ⟨w, rfl⟩ := hdouble
    have h := tidied_literalExpr ('"' :: w)
    rw [tidy_cons rfl] at h ⊢
    exact h
  by_cases hsingle : ∃ w, s = '\'' :: w
  · obtain ⟨w, rfl⟩ := hsingle
    have h := tidied_literalExpr ('\'' :: w)
    rw [tidy_cons rfl] at h ⊢
    exact h
  rw [not_exists] at hdollar hopen hdouble hsingle
  have hdollar' := tidy_ne hdollar
  have hopen' := tidy_ne hopen
  have hdouble' := tidy_ne hdouble
  have hsingle' := tidy_ne hsingle
  simp only
  exact tidied_call hsub htakes s

lemma tidied_pathExpr (s : Text) :
    Tidied (Restates squeeze) (pathExpr? sub s) (pathExpr? sub (tidy s)) := by
  simp only [pathExpr?, blanks_tidy, startsPrimary?_tidy (blanks_blanks s), Option.bind_eq_bind]
  cases startsPrimary? (blanks s) with
  | none => exact .none
  | some b =>
      simp only [Option.bind_some]
      cases b with
      | false =>
          refine (tidied_locationPath hsub htakes (blanks s)).bind fun e e' r _ _ he => ?_
          simp only [blanks_tidy]
          exact .some he _
      | true =>
          refine (tidied_primary hsub htakes (blanks s)).bind fun e e' r _ _ he => ?_
          refine (tidied_predicates hsub htakes (Nat.lt_succ_self _) (Nat.lt_succ_self _)).bind
            fun es es' r _ _ hes => ?_
          have hall := he.filterAll hes
          by_cases hslashes : ∃ w, r = '/' :: '/' :: w
          · obtain ⟨w, rfl⟩ := hslashes
            rw [tidy_slash, tidyFrom_one_slash]
            simp only [relativePath?_blanks]
            refine (tidied_relativePath_inside hsub htakes hall w).bind fun e e' r _ _ he => ?_
            simp only [blanks_tidy]
            exact .some he _
          rw [not_exists] at hslashes
          have hslashes' := tidy_ne_slashes hslashes
          by_cases hslash : ∃ w, r = '/' :: w
          · obtain ⟨w, rfl⟩ := hslash
            have hpath := tidied_relativePath hsub htakes hall ('/' :: w)
            have hhead : ∀ v, w ≠ '/' :: v := fun v hv => hslashes v (by rw [hv])
            have hhead' := tidy_ne hhead
            rw [tidy_slash_of_head hhead] at hpath ⊢
            simp only
            refine hpath.bind fun e e' r _ _ he => ?_
            simp only [blanks_tidy]
            exact .some he _
          · rw [not_exists] at hslash
            have hslash' := tidy_ne hslash
            simp only
            exact .some hall r

end Operands

/-! ### Levels -/

section Levels

/-- The signs of a level have neither slashes nor blanks, and no sign is empty. -/
lemma isSolid_of_signsAt (k : ℕ) : ∀ p ∈ signsAt k, p.1 ≠ [] ∧ ∀ c ∈ p.1, isSolid c = true := by
  match k with
  | 1 | 2 | 3 | 4 | 5 | 6 => decide
  | 0 | _ + 7 =>
      have h : ∀ p ∈ [("or".toList, Operator.or)], p.1 ≠ [] ∧ ∀ c ∈ p.1, isSolid c = true := by
        decide
      exact h

/-- A sign takes a character at least. -/
lemma length_sign {k : ℕ} {op : Operator} (h : sign? (signsAt k) s = some (op, r)) :
    r.length < s.length := by
  obtain ⟨p, hp, hsome⟩ := List.exists_of_findSome?_eq_some h
  obtain ⟨w, hw, heq⟩ := Option.map_eq_some_iff.mp hsome
  obtain ⟨-, rfl⟩ := Prod.mk.inj heq
  have hne := List.length_pos_iff.mpr (isSolid_of_signsAt k p hp).1
  rw [behind?_eq_some.mp hw, List.length_append]
  omega

variable {operand : Reader Expr} (hoperand : Tidies operand) (hleaves : Takes operand)
include hoperand

include hleaves in
lemma tidied_chainFrom (k : ℕ) {n m : ℕ} (he : Restates squeeze e e') (hn : s.length < n)
    (hm : (tidy s).length < m) :
    Tidied (Restates squeeze) (chainFrom (signsAt k) operand n e s)
      (chainFrom (signsAt k) operand m e' (tidy s)) := by
  induction n generalizing e e' s m with
  | zero => omega
  | succ n ih =>
      obtain ⟨m, rfl⟩ : ∃ m', m = m' + 1 := ⟨m - 1, by omega⟩
      have hsigns := sign?_tidy (fun p hp => (isSolid_of_signsAt k p hp).2) (blanks s)
      simp only [chainFrom, blanks_tidy]
      cases hsign : sign? (signsAt k) (blanks s) with
      | none =>
          rw [hsign] at hsigns
          rw [hsigns]
          exact .some he _
      | some x =>
          obtain ⟨op, w⟩ := x
          rw [hsign] at hsigns
          rw [hsigns]
          simp only [Option.map_some, blanks_tidy]
          refine (hoperand (blanks w)).bind fun f f' r hr hr' hf => ?_
          have h1 := (hleaves hr).length_le
          have h2 := length_blanks_le w
          have h3 := length_sign hsign
          have h4 := length_blanks_le s
          have h1' := (hleaves hr').length_le
          have h2' := length_blanks_le (tidy w)
          have h3' : (tidy w).length < (tidy (blanks s)).length := length_sign hsigns
          have h4' := length_blanks_le (tidy s)
          rw [blanks_tidy] at h2' h4'
          have hn' : r.length < n := by omega
          have hm' : (tidy r).length < m := by omega
          exact ih (he.binary op hf) hn' hm'

include hleaves in
lemma tidies_chain (k : ℕ) : Tidies (chain (signsAt k) operand) := fun s =>
  (hoperand s).bind fun _ _ _ _ _ he =>
    tidied_chainFrom hoperand hleaves k he (Nat.lt_succ_self _) (Nat.lt_succ_self _)

lemma tidies_unary : Tidies (unary operand) := by
  intro s
  simp only [unary, blanks_tidy, minusSigns_tidy]
  refine (hoperand _).bind fun e e' r _ _ he => ?_
  dsimp only
  split_ifs
  · exact .some (he.numeric _) r
  · exact .some he r

end Levels

/-! ### Expressions -/

include hsub htakes in
lemma tidies_readerAt (k : ℕ) : Tidies (readerAt sub k) := by
  induction k with
  | zero => exact tidied_pathExpr hsub htakes
  | succ k ih =>
      rw [readerAt]
      refine tidies_chain ?_ ?_ (k + 1)
      · rw [atOperands]
        split_ifs
        · exact tidies_unary ih
        · exact ih
      · rw [atOperands]
        split_ifs
        · exact takes_unary (takes_readerAt htakes k)
        · exact takes_readerAt htakes k

lemma tidies_exprAt (d : ℕ) : Tidies (exprAt? d) := by
  induction d with
  | zero => exact fun _ => .none
  | succ d ih =>
      rw [exprAt?_succ]
      exact tidies_readerAt ih (takes_exprAt d) loosest

/-- **A tidy text** of an expression is one with the same results, the texts in it shortened. -/
theorem read?_tidy (h : Expr.read? s = some e) :
    ∃ e', Expr.read? (tidy s) = some e' ∧ Restates squeeze e e' := by
  obtain ⟨⟨e, r⟩, hread, h⟩ := Option.bind_eq_some_iff.mp h
  obtain ⟨e', hread', he⟩ := tidies_exprAt maxDepth s hread
  split at h
  · next heq =>
      obtain ⟨rfl, rfl⟩ := Prod.mk.inj heq
      obtain rfl := Option.some.inj h
      exact ⟨e', by simp [Expr.read?, hread'], he⟩
  · cases h

end Locator.XPath

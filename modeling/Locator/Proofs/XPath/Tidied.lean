/-
Reading the parts of tidy texts

* `Tidied`: of a tidy text something is read that is related to what is read of the text itself,
  and the rest is left tidy, with `Tidied.bind` for readings one behind the other;
* `tidied_literal`: the text of a literal is shortened, and `tidied_axisAndTest`: so is the
  target of a test;
* `Tidies`: what is read of a tidy text has the results of what is read of the text itself, with
  its texts shortened;
* `tidied_step`: **steps** with their predicates.
-/
import Locator.Proofs.XPath.Primary
import Locator.Proofs.XPath.Start
import Locator.Proofs.XPath.Texts
import Locator.Proofs.XPath.Tidy

namespace Locator.XPath

open Text

variable {α β α' β' : Type} {R : α → β → Prop} {R' : α' → β' → Prop} {x : α} {y : β}
  {a : Option (α × Text)} {b : Option (β × Text)} {s r : Text} {sub : Reader Expr} {e e' : Expr}

/-! ### Two readings -/

/-- Wherever the first reading succeeds the second one gives something related, and leaves the
rest as a tidy text. -/
def Tidied (R : α → β → Prop) (a : Option (α × Text)) (b : Option (β × Text)) : Prop :=
  ∀ ⦃x r⦄, a = some (x, r) → ∃ y, b = some (y, tidy r) ∧ R x y

namespace Tidied

lemma some (h : R x y) (r : Text) : Tidied R (.some (x, r)) (.some (y, tidy r)) := by
  rintro _ _ ⟨⟩
  exact ⟨y, rfl, h⟩

lemma none : Tidied R .none b := by
  rintro _ _ ⟨⟩

lemma bind {f : α × Text → Option (α' × Text)} {g : β × Text → Option (β' × Text)}
    (h : Tidied R a b)
    (hfg : ∀ x y r, a = .some (x, r) → b = .some (y, tidy r) → R x y →
      Tidied R' (f (x, r)) (g (y, tidy r))) : Tidied R' (a.bind f) (b.bind g) := by
  intro z w hz
  obtain ⟨⟨x, r⟩, ha, hf⟩ := Option.bind_eq_some_iff.mp hz
  obtain ⟨y, hb, hxy⟩ := h ha
  rw [hb]
  exact hfg x y r ha hb hxy hf

end Tidied

/-! ### Names and literals -/

lemma tidied_plainName (s : Text) : Tidied Eq (plainName? s) (plainName? (tidy s)) := by
  intro x r h
  rw [plainName?_tidy, h]
  exact ⟨x, rfl, rfl⟩

lemma tidied_qualifiedName (s : Text) :
    Tidied Eq (qualifiedName? s) (qualifiedName? (tidy s)) := by
  unfold qualifiedName?
  refine (tidied_plainName s).bind fun name _ r _ _ heq => ?_
  subst heq
  by_cases hcolon : ∃ w, r = ':' :: w
  · obtain ⟨w, rfl⟩ := hcolon
    rw [tidy_cons rfl]
    refine (tidied_plainName w).bind fun base _ r _ _ heq => ?_
    subst heq
    exact .some rfl r
  · rw [not_exists] at hcolon
    have hcolon' := tidy_ne hcolon
    simp only
    exact .some rfl r

/-- The text of a literal is shortened by itself. -/
lemma tidied_literal (s : Text) :
    Tidied (fun v v' => v' = squeeze v) (literal? s) (literal? (tidy s)) := by
  cases s with
  | nil => exact .none
  | cons q s =>
      intro v r h
      rw [literal?] at h
      split_ifs at h with hq
      have hsolid : isSolid q = true := by
        simp only [isQuote, Bool.or_eq_true, beq_iff_eq] at hq
        rcases hq with rfl | rfl <;> rfl
      obtain ⟨rfl, hv⟩ := eq_of_cutAt? h
      have hv' : q ∉ squeeze v :=
        fun hm => hv ((mem_squeezeFrom (isSolid_iff.mp hsolid).1 0).mp hm)
      rw [tidy_cons hsolid, tidy_append_cons hsolid, literal?, if_pos hq, cutAt?_append hv']
      exact ⟨_, rfl, rfl⟩

/-! ### Tests -/

/-- The second test has the target of the first one with its slashes shortened. -/
def TestShortened (t t' : NodeTest) : Prop := t' = t.mapTexts squeeze

lemma testShortened (t : NodeTest) : TestShortened t (t.mapTexts squeeze) := rfl

/-- The parenthesis behind a test stays. -/
lemma tidied_closedBehind {a b : Option (NodeTest × Text)} (h : Tidied TestShortened a b) :
    Tidied TestShortened (a.bind closedBehind) (b.bind closedBehind) := by
  refine h.bind fun t t' r _ _ ht => ?_
  by_cases hclose : ∃ w, r = ')' :: w
  · obtain ⟨w, rfl⟩ := hclose
    rw [tidy_cons rfl]
    exact .some ht w
  · rw [not_exists] at hclose
    simp only [closedBehind]
    exact .none

lemma tidied_kindTest (kind s : Text) :
    Tidied TestShortened (kindTest? kind s) (kindTest? kind (tidy s)) := by
  simp only [kindTest?, Option.bind_eq_bind, Option.pure_def, blanks_tidy]
  split_ifs
  · exact tidied_closedBehind (.some (testShortened .node) _)
  · exact tidied_closedBehind (.some (testShortened .text) _)
  · exact tidied_closedBehind (.some (testShortened .comment) _)
  · by_cases hclose : ∃ w, blanks s = ')' :: w
    · obtain ⟨w, hw⟩ := hclose
      have h := Tidied.some (testShortened (.instruction none)) (')' :: w)
      rw [tidy_cons rfl] at h
      rw [hw, tidy_cons rfl]
      exact tidied_closedBehind h
    · rw [not_exists] at hclose
      have hclose' := tidy_ne hclose
      simp only [Option.map_eq_bind]
      refine tidied_closedBehind ((tidied_literal _).bind fun v v' r _ _ hv => ?_)
      subst hv
      simp only [Function.comp_apply, blanks_tidy]
      exact .some (testShortened (.instruction (some v))) _
  · exact .none

lemma tidied_nameTest (name s : Text) :
    Tidied TestShortened (nameTest? name s) (nameTest? name (tidy s)) := by
  simp only [nameTest?, blanks_tidy]
  by_cases hparen : ∃ w, blanks s = '(' :: w
  · obtain ⟨w, hw⟩ := hparen
    rw [hw, tidy_cons rfl]
    exact tidied_kindTest name w
  rw [not_exists] at hparen
  have hparen' := tidy_ne hparen
  simp only
  by_cases hcolon : ∃ w, s = ':' :: w
  · obtain ⟨w, rfl⟩ := hcolon
    rw [tidy_cons rfl]
    by_cases hstar : ∃ v, w = '*' :: v
    · obtain ⟨v, rfl⟩ := hstar
      rw [tidy_cons rfl]
      exact .some (testShortened (.any (some name))) v
    · rw [not_exists] at hstar
      have hstar' := tidy_ne hstar
      simp only
      refine (tidied_plainName w).bind fun base _ r _ _ heq => ?_
      subst heq
      exact .some (testShortened (.name (some name) base)) r
  · rw [not_exists] at hcolon
    have hcolon' := tidy_ne hcolon
    have hstar : ∀ v, s ≠ ':' :: '*' :: v := fun v => hcolon _
    have hstar' : ∀ v, tidy s ≠ ':' :: '*' :: v := fun v => hcolon' _
    simp only
    exact .some (testShortened (.name none name)) s

lemma tidied_nodeTest (s : Text) : Tidied TestShortened (nodeTest? s) (nodeTest? (tidy s)) := by
  simp only [nodeTest?, blanks_tidy]
  by_cases hstar : ∃ w, blanks s = '*' :: w
  · obtain ⟨w, hw⟩ := hstar
    rw [hw, tidy_cons rfl]
    exact .some (testShortened (.any none)) w
  · rw [not_exists] at hstar
    have hstar' := tidy_ne hstar
    simp only
    refine (tidied_plainName _).bind fun name _ r _ _ heq => ?_
    subst heq
    exact tidied_nameTest name r

/-- The axis is the same, and the target of the test has its slashes shortened. -/
def StepShortened (x x' : Axis × NodeTest) : Prop := x'.1 = x.1 ∧ TestShortened x.2 x'.2

/-- A test behind what tells the axis. -/
lemma Tidied.onAxis {a b : Option (NodeTest × Text)} (h : Tidied TestShortened a b) (axis : Axis) :
    Tidied StepShortened (a.map fun x => ((axis, x.1), x.2))
      (b.map fun x => ((axis, x.1), x.2)) := by
  rw [Option.map_eq_bind, Option.map_eq_bind]
  exact h.bind fun t t' r _ _ ht => .some ⟨rfl, ht⟩ r

lemma tidied_axisAndTest (s : Text) :
    Tidied StepShortened (axisAndTest? s) (axisAndTest? (tidy s)) := by
  by_cases hat : ∃ w, s = '@' :: w
  · obtain ⟨w, rfl⟩ := hat
    rw [tidy_cons rfl]
    exact (tidied_nodeTest w).onAxis .attribute
  rw [not_exists] at hat
  have hat' := tidy_ne hat
  simp only [axisAndTest?, plainName?_tidy]
  cases plainName? s with
  | none => exact (tidied_nodeTest s).onAxis .child
  | some x =>
      obtain ⟨name, r⟩ := x
      simp only [Option.map_some, blanks_tidy]
      cases Axis.ofName? name with
      | none => exact (tidied_nameTest name r).onAxis .child
      | some axis =>
          by_cases hcolons : ∃ w, blanks r = ':' :: ':' :: w
          · obtain ⟨w, hw⟩ := hcolons
            rw [hw, tidy_cons rfl, tidy_cons rfl]
            exact (tidied_nodeTest w).onAxis axis
          · rw [not_exists] at hcolons
            have hcolons' := tidy_ne_cons rfl hcolons
            simp only
            exact (tidied_nameTest name (blanks r)).onAxis .child

/-! ### Steps -/

/-- Of every text a reader reads the same as of the tidy text. -/
def Tidies (f : Reader Expr) : Prop := ∀ s, Tidied (Restates squeeze) (f s) (f (tidy s))

variable (hsub : Tidies sub) (htakes : Takes sub)

section Steps
include hsub

lemma tidied_predicate (s : Text) :
    Tidied (Restates squeeze) (predicate? sub s) (predicate? sub (tidy s)) := by
  by_cases hopen : ∃ w, s = '[' :: w
  · obtain ⟨w, rfl⟩ := hopen
    rw [tidy_cons rfl]
    simp only [predicate?, blanks_tidy]
    refine (hsub (blanks w)).bind fun e e' r _ _ he => ?_
    by_cases hclose : ∃ v, r = ']' :: v
    · obtain ⟨v, rfl⟩ := hclose
      rw [tidy_cons rfl]
      simp only [blanks_tidy]
      exact .some he _
    · rw [not_exists] at hclose
      intro x w h
      split at h
      · next heq => exact absurd (Prod.mk.inj heq).2 (hclose _)
      · cases h
  · rw [not_exists] at hopen
    simp only [predicate?]
    exact .none

include htakes

omit hsub in
/-- A predicate takes a character at least. -/
lemma length_predicate (h : predicate? sub s = some (e, r)) : r.length < s.length := by
  unfold predicate? at h
  split at h
  · next w =>
      obtain ⟨⟨e, v⟩, he, h⟩ := Option.bind_eq_some_iff.mp h
      have hle := (htakes he).length_le
      have hblanks := length_blanks_le w
      split at h
      · next v' heq =>
          obtain ⟨-, rfl⟩ := Prod.mk.inj heq
          obtain ⟨-, rfl⟩ := Prod.mk.inj (Option.some.inj h)
          have hrest := length_blanks_le v'
          simp only [List.length_cons] at hle ⊢
          omega
      · cases h
  · cases h

lemma tidied_predicates {n m : ℕ} (hn : s.length < n) (hm : (tidy s).length < m) :
    Tidied (List.Forall₂ (Restates squeeze)) (predicates? sub n s)
      (predicates? sub m (tidy s)) := by
  induction n generalizing s m with
  | zero => omega
  | succ n ih =>
      obtain ⟨m, rfl⟩ : ∃ m', m = m' + 1 := ⟨m - 1, by omega⟩
      by_cases hopen : ∃ w, s = '[' :: w
      · obtain ⟨w, rfl⟩ := hopen
        have hpredicate := tidied_predicate hsub ('[' :: w)
        rw [tidy_cons rfl] at hpredicate hm ⊢
        refine hpredicate.bind fun e e' r hr hr' he => ?_
        have hlt := length_predicate htakes hr
        have hlt' := length_predicate htakes hr'
        exact (ih (by omega) (by omega)).bind fun es es' r _ _ hes => .some (.cons he hes) r
      · rw [not_exists] at hopen
        have hopen' := tidy_ne hopen
        simp only [predicates?]
        exact .some .nil s

omit hsub htakes in
/-- No step starts with a slash. -/
lemma step?_slash (start : Expr) (hs : blanks s = '/' :: r) : step? sub start s = none := by
  have hno : axisAndTest? ('/' :: r) = none := rfl
  simp [step?, hs, hno]

lemma tidied_step (he : Restates squeeze e e') (s : Text) :
    Tidied (Restates squeeze) (step? sub e s) (step? sub e' (tidy s)) := by
  simp only [step?, blanks_tidy]
  by_cases hdots : ∃ w, blanks s = '.' :: '.' :: w
  · obtain ⟨w, hw⟩ := hdots
    rw [hw, tidy_cons rfl, tidy_cons rfl]
    simp only [blanks_tidy]
    exact .some (he.step .parent .node .nil) _
  rw [not_exists] at hdots
  have hdots' := tidy_ne_cons rfl hdots
  by_cases hdot : ∃ w, blanks s = '.' :: w
  · obtain ⟨w, hw⟩ := hdot
    have hno : ∀ v, w ≠ '.' :: v := fun v hv => hdots v (by rw [hw, hv])
    have hno' := tidy_ne hno
    rw [hw, tidy_cons rfl]
    simp only [blanks_tidy]
    exact .some he _
  rw [not_exists] at hdot
  have hdot' := tidy_ne hdot
  simp only
  refine (tidied_axisAndTest _).bind fun x x' r _ _ hx => ?_
  obtain ⟨axis, test⟩ := x
  obtain ⟨axis', test'⟩ := x'
  obtain ⟨rfl, rfl⟩ : axis' = axis ∧ test' = test.mapTexts squeeze := hx
  simp only [blanks_tidy]
  exact (tidied_predicates hsub htakes (Nat.lt_succ_self _) (Nat.lt_succ_self _)).bind
    fun es es' r _ _ hes => .some (he.step _ test hes) r

end Steps

end Locator.XPath

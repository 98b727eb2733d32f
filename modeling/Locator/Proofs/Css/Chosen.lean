/-
Steps from compound to compound

* `Keeps.conditions`: the conditions of tests keep what the tests hold of;
* `Selects.steps`: **steps one behind the other** choose what their predicates keep;
* `chainText`, `chainExpr`: compounds with combinators between them as steps, with
  `stepsRead_chain`, `Selects.chain`: they are read and choose what the compounds match;
* `reads_unions`, `selects_unions`: the union of the paths of groups.
-/
import Locator.Proofs.Css.Language
import Locator.Proofs.Document.Xml
import Locator.Proofs.XPath.Path

namespace Locator

open Text

namespace XPath

variable {env : Env} {f : Frame} {e e' : Expr} {op : Operator}

/-- A sign between two results, the first of which does not decide. -/
lemma eval_binary {r r' : Result} (hop : isDecided op r = false) (h : eval env e f = .ok r)
    (h' : eval env e' f = .ok r') :
    eval env (.binary op e e') f = applyOperator env.document op r r' := by
  simp [eval, h, h', hop]

/-- The union of two selections. -/
lemma Selects.union {P Q : Address → Prop} (h : Selects env e f P) (h' : Selects env e' f Q) :
    Selects env (.binary .union e e') f fun a => P a ∨ Q a := by
  obtain ⟨ps, he, -, hm⟩ := h
  obtain ⟨qs, he', -, hm'⟩ := h'
  refine ⟨Place.inOrder (ps ++ qs), eval_binary rfl he he', Place.sorted_inOrder _, fun p => ?_⟩
  simp only [Place.mem_inOrder, List.mem_append, hm, hm']
  constructor
  · rintro (⟨a, ha, rfl⟩ | ⟨a, ha, rfl⟩)
    · exact ⟨a, .inl ha, rfl⟩
    · exact ⟨a, .inr ha, rfl⟩
  · rintro ⟨a, ha | ha, rfl⟩
    · exact .inl ⟨a, ha, rfl⟩
    · exact .inr ⟨a, ha, rfl⟩

end XPath

namespace Css

open XPath

variable {env : Env} {f : Frame} {e : Expr} {P : Address → Bool} {c : Compound} {ps : List Expr}
  {b : Address}

/-! ### Predicates of compounds -/

/-- The conditions of tests in one predicate; no predicate for no tests. -/
def conditions (expr : Test → Expr) : List Test → List Expr
  | [] => []
  | t :: ts => [(ts.map expr).foldl (.binary .and) (expr t)]

/-- The conditions of tests hold together. -/
lemma holds_conditions {expr : Test → Expr} {H : Test → Bool} {t : Test} {ts : List Test}
    (h : ∀ t' ∈ t :: ts, Holds env f (expr t') (H t')) :
    Holds env f ((ts.map expr).foldl (.binary .and) (expr t)) ((t :: ts).all H) := by
  rw [List.forall_mem_cons] at h
  have hall : List.Forall₂ (Holds env f) (ts.map expr) (ts.map H) := by
    rw [List.forall₂_map_left_iff, List.forall₂_map_right_iff, List.forall₂_same]
    exact h.2
  simpa [Function.comp_def] using h.1.all hall

/-- The conditions of tests behind further predicates keep the children of which the tests hold,
each tested at its place among those that are left. -/
lemma Keeps.conditions {expr : Test → Expr} {H : Test → Address → Bool} {test : NodeTest}
    {uri : Option Text} {es : List Expr} {M : Address → Bool} {ts : List Test}
    (hk : Keeps env test uri es M) (h : ∀ t ∈ ts, ∀ b, M b → ∀ size,
      Holds env ⟨.node b, some (placeAmong M b), some size⟩ (expr t) (H t b)) :
    Keeps env test uri (es ++ Css.conditions expr ts) fun b => M b && ts.all fun t => H t b := by
  cases ts with
  | nil =>
      have hall : M = fun b => M b && ([] : List Test).all fun t => H t b := by
        funext b
        simp
      rw [Css.conditions, List.append_nil, ← hall]
      exact hk
  | cons t ts =>
      exact hk.append fun b hb size =>
        (holds_conditions (H := fun t => H t b) fun t' ht' => h t' ht' b hb size).holdsAt _

/-- The conditions of tests keep the children of which the tests hold, each tested at its place
among those that pass. -/
lemma keeps_conditions {expr : Test → Expr} {H : Test → Address → Bool} {test : NodeTest}
    {ts : List Test}
    (h : ∀ t ∈ ts, ∀ b, passesAt env.document test none b → ∀ size,
      Holds env ⟨.node b, some (positionAt env.document test none b), some size⟩ (expr t) (H t b)) :
    Keeps env test none (conditions expr ts) fun b =>
      passesAt env.document test none b && ts.all fun t => H t b :=
  Keeps.conditions (keeps_nil env test none) fun t ht b hb size => by
    rw [placeAmong_passesAt]
    exact h t ht b hb size

/-- The name of a compound is read as its test. -/
lemma Compound.testReads_tag (hc : c.isFormed = true) : TestReads c.tag .child c.nodeTest := by
  rw [nodeTest]
  split_ifs with hstar
  · rw [hstar]
    exact testReads_star
  · exact testReads_name (isName_of_isPlainName (Compound.isFormed_tag hc hstar))

lemma Compound.bareReads_tag (hc : c.isFormed = true) : BareReads c.tag c.nodeTest := by
  rw [nodeTest]
  split_ifs with hstar
  · rw [hstar]
    exact bareReads_star
  · exact bareReads_name (isName_of_isPlainName (Compound.isFormed_tag hc hstar))

/-! ### Compounds with combinators between them -/

/-- The step to the next compound. -/
def Combinator.stepExpr (how : Combinator) (e : Expr) (test : NodeTest) (ps : List Expr) : Expr :=
  match how with
  | .child => .step e .child test ps
  | .descendant => .step e.inside .child test ps

/-- Compounds as steps, each written by `text`. -/
def chainText (text : Compound → Text) (ss : List Step) : Text :=
  ss.flatMap fun s => Chain.axis s.combinator ++ text s.compound

/-- Compounds as steps, each with the predicates `predicates`. -/
def chainExpr (predicates : Compound → List Expr) (e : Expr) (ss : List Step) : Expr :=
  ss.foldl (fun e s => s.combinator.stepExpr e s.compound.nodeTest (predicates s.compound)) e

variable {text : Compound → Text} {predicates : Compound → List Expr} {ss : List Step} {n : ℕ}

/-- Compounds are read as steps. -/
lemma stepsRead_chain (h : ∀ s ∈ ss, StepReads n (text s.compound) .child s.compound.nodeTest
    (predicates s.compound)) (e : Expr) :
    StepsRead n (chainText text ss) e (chainExpr predicates e ss) := by
  induction ss generalizing e with
  | nil => exact .nil e
  | cons s ss ih =>
      rw [List.forall_mem_cons] at h
      obtain ⟨how, c⟩ := s
      have hothers := ih h.2
      cases how with
      | child => exact .child h.1 (hothers _)
      | descendant => exact .inside h.1 (hothers _)

/-- A further step chooses what its predicates keep. -/
lemma Selects.stepExpr {test : NodeTest} {M : Address → Bool} (h : Selects env e f fun b => P b)
    (hu : env.testUri test = .ok none) (hk : Keeps env test none ps M) (how : Combinator) :
    Selects env (how.stepExpr e test ps) f fun b => how.binds P b && M b := by
  have hne : ∀ {b}, M b → b ≠ [] := fun hb => ne_nil_of_passesAt (hk.passes _ hb)
  cases how with
  | child =>
      refine (h.child_keeps hu hk).congr fun b => ?_
      rw [Bool.and_eq_true]
      constructor
      · rintro ⟨a, ha, i, rfl, hb⟩
        exact ⟨(binds_child_iff (hne hb)).mpr ⟨a, ha, i, rfl⟩, hb⟩
      · rintro ⟨hP, hb⟩
        obtain ⟨a, ha, i, rfl⟩ := (binds_child_iff (hne hb)).mp hP
        exact ⟨a, ha, i, rfl, hb⟩
  | descendant =>
      refine (h.below_keeps hu hk).congr fun b => ?_
      rw [Bool.and_eq_true, binds_descendant_iff]
      constructor
      · rintro ⟨a, ha, way, hw, rfl, hb⟩
        exact ⟨⟨a, ha, way, hw, rfl⟩, hb⟩
      · rintro ⟨⟨a, ha, way, hw, rfl⟩, hb⟩
        exact ⟨a, ha, way, hw, rfl, hb⟩

/-- **Steps one behind the other** choose what their predicates keep. -/
theorem Selects.steps {α : Type*} {how : α → Combinator} {test : α → NodeTest}
    {qs : α → List Expr} {M : α → Address → Bool} {ss : List α} (h : Selects env e f fun b => P b)
    (hk : ∀ s ∈ ss, env.testUri (test s) = .ok none ∧ Keeps env (test s) none (qs s) (M s)) :
    Selects env (ss.foldl (fun e s => (how s).stepExpr e (test s) (qs s)) e) f
      fun b => chosenBy how M P ss b := by
  induction ss generalizing e P with
  | nil => exact h
  | cons s ss ih =>
      rw [List.forall_mem_cons] at hk
      exact ih (Selects.stepExpr h hk.1.1 hk.1.2 (how s)) hk.2

/-- Compounds with combinators between them choose, as steps, what they match. -/
lemma Selects.chain {M : Compound → Address → Bool} (h : Selects env e f fun b => P b)
    (hk : ∀ s ∈ ss, Keeps env s.compound.nodeTest none (predicates s.compound) (M s.compound)) :
    Selects env (chainExpr predicates e ss) f
      fun b => chosenBy Step.combinator (fun s => M s.compound) P ss b :=
  Selects.steps h fun s hs => ⟨Compound.testUri_nodeTest env s.compound, hk s hs⟩

/-! ### XML texts -/

lemma isXmlText_ident {s : Text} (h : isPlainIdent s = true) : isXmlText s = true := by
  rcases isPlainIdent_cases h with h | ⟨r, rfl, h⟩
  · exact isXmlText_of_isName (isName_of_isPlainName h)
  · have hr : isXmlText r = true := isXmlText_of_isName (isName_of_isPlainName h)
    rw [← List.singleton_append, isXmlText_append, hr]
    rfl

lemma isXmlText_value {v : Text} (h : v.all isPlainChar = true) : isXmlText v = true := by
  rw [isXmlText, List.all_eq_true]
  intro c hc
  have := List.all_eq_true.mp h c hc
  simp only [isPlainChar, Bool.and_eq_true] at this
  exact this.1.1

lemma isXmlText_digits {s : Text} (h : s.all Char.isDigit = true) : isXmlText s = true := by
  rw [isXmlText, List.all_eq_true]
  intro c hc
  exact isXmlChar_of_isNameChar (by simp [Text.isNameChar, List.all_eq_true.mp h c hc])

lemma isXmlText_tag (hc : c.isFormed = true) : isXmlText c.tag = true := by
  by_cases hstar : c.tag = ['*']
  · rw [hstar]
    rfl
  · exact isXmlText_of_isName (isName_of_isPlainName (Compound.isFormed_tag hc hstar))

/-- Steps are XML texts if their compounds are. -/
lemma isXmlText_chain (h : ∀ s ∈ ss, isXmlText (text s.compound) = true) :
    isXmlText (chainText text ss) = true := by
  induction ss with
  | nil => rfl
  | cons s ss ih =>
      rw [List.forall_mem_cons] at h
      have haxis : isXmlText (Chain.axis s.combinator) = true := by cases s.combinator <;> rfl
      rw [chainText, List.flatMap_cons, isXmlText_append, isXmlText_append, haxis, h.1]
      exact ih h.2

/-! ### Unions -/

section Unions

variable {β : Type*} {x : β} {xs : List β} {texts : β → Text} {exprs : β → Expr}
  {C : β → Address → Bool}

/-- The union of paths is read. -/
lemma reads_unions (h : ∀ y ∈ x :: xs, Reads n 0 (texts y) (exprs y)) :
    Reads n 1 (join " | ".toList ((x :: xs).map texts))
      ((xs.map exprs).foldl (.binary .union) (exprs x)) := by
  rw [List.forall_mem_cons] at h
  refine Reads.join sign_bar h.1 ?_
  rw [List.forall₂_map_left_iff, List.forall₂_map_right_iff, List.forall₂_same]
  exact h.2

/-- A union of expressions selects what one of them selects. -/
lemma Selects.unions {es : List Expr} {P : Address → Prop} (he : Selects env e f P)
    (h : List.Forall₂ (fun y e' => Selects env e' f fun b => C y b) xs es) :
    Selects env (es.foldl (.binary .union) e) f fun b => P b ∨ xs.any (C · b) := by
  induction h generalizing e P with
  | nil => exact he.congr fun b => by simp
  | cons hg _ ih => exact (ih (he.union hg)).congr fun b => by simp [or_assoc]

/-- The union of paths selects what one of them selects. -/
lemma selects_unions (h : ∀ y ∈ x :: xs, Selects env (exprs y) f fun b => C y b) :
    Selects env ((xs.map exprs).foldl (.binary .union) (exprs x)) f
      fun b => (x :: xs).any (C · b) := by
  rw [List.forall_mem_cons] at h
  have hmore : List.Forall₂ (fun y e' => Selects env e' f fun b => C y b) xs (xs.map exprs) := by
    rw [List.forall₂_map_right_iff, List.forall₂_same]
    exact h.2
  exact (Selects.unions h.1 hmore).congr fun b => by simp

end Unions

end Css

end Locator

/-
Expressions with other texts

* `Expr.mapTexts`: an expression with other texts in its literals and instruction tests;
* `Restates`: an expression has the results of another one with other texts, with one lemma for
  each way to put expressions together;
* `eval_inside_inside`, `Restates.inside_inside`: **what is inside of what is inside** is inside.
-/
import Locator.Proofs.XPath.Select

namespace Locator.XPath

variable {g : Text → Text} {env : Env} {a a' b b' e e' : Expr} {es es' : List Expr}

/-! ### Other texts -/

/-- A test with another target of instructions. -/
def NodeTest.mapTexts (g : Text → Text) : NodeTest → NodeTest
  | .instruction target => .instruction (target.map g)
  | test => test

/-- The target of instructions that a test asks for. -/
def NodeTest.texts : NodeTest → List Text
  | .instruction target => target.toList
  | _ => []

mutual
/-- The texts that an expression quotes: those of its literals, and the targets of instructions
that it tests for. -/
def Expr.texts : Expr → List Text
  | .literal s => [s]
  | .call _ _ arguments => Expr.textsAll arguments
  | .binary _ left right => left.texts ++ right.texts
  | .numeric _ e => e.texts
  | .step start _ test predicates => start.texts ++ test.texts ++ Expr.textsAll predicates
  | .filter set predicate => set.texts ++ predicate.texts
  | .root | .here | .number _ | .variable _ _ => []
/-- The texts that expressions quote. -/
def Expr.textsAll : List Expr → List Text
  | [] => []
  | e :: es => e.texts ++ Expr.textsAll es
end

mutual
/-- An expression with other texts: those of its literals, and the targets of instructions that
it tests for. -/
def Expr.mapTexts (g : Text → Text) : Expr → Expr
  | .root => .root
  | .here => .here
  | .number n => .number n
  | .literal s => .literal (g s)
  | .variable pfx name => .variable pfx name
  | .call pfx name arguments => .call pfx name (Expr.mapTextsAll g arguments)
  | .binary op left right => .binary op (left.mapTexts g) (right.mapTexts g)
  | .numeric minus e => .numeric minus (e.mapTexts g)
  | .step start axis test predicates =>
    .step (start.mapTexts g) axis (test.mapTexts g) (Expr.mapTextsAll g predicates)
  | .filter set predicate => .filter (set.mapTexts g) (predicate.mapTexts g)
/-- Expressions with other texts. -/
def Expr.mapTextsAll (g : Text → Text) : List Expr → List Expr
  | [] => []
  | e :: es => e.mapTexts g :: Expr.mapTextsAll g es
end

/-- A target that stays is the same one. -/
lemma NodeTest.mapTexts_eq_self {test : NodeTest} (h : ∀ t ∈ test.texts, g t = t) :
    test.mapTexts g = test := by
  cases test with
  | instruction target =>
      cases target with
      | none => rfl
      | some t => simp [NodeTest.mapTexts, h t (by simp [NodeTest.texts])]
  | _ => rfl

mutual
/-- An expression whose texts all stay is the same one. -/
lemma Expr.mapTexts_eq_self : ∀ {e : Expr}, (∀ t ∈ e.texts, g t = t) → e.mapTexts g = e
  | .literal s, h => by rw [Expr.mapTexts, h s (by simp [Expr.texts])]
  | .call _ _ arguments, h => by
      rw [Expr.mapTexts, Expr.mapTextsAll_eq_self (by simpa [Expr.texts] using h)]
  | .binary _ left right, h => by
      simp only [Expr.texts, List.forall_mem_append] at h
      rw [Expr.mapTexts, Expr.mapTexts_eq_self h.1, Expr.mapTexts_eq_self h.2]
  | .numeric _ e, h => by rw [Expr.mapTexts, Expr.mapTexts_eq_self (by simpa [Expr.texts] using h)]
  | .step start _ test predicates, h => by
      simp only [Expr.texts, List.forall_mem_append] at h
      rw [Expr.mapTexts, Expr.mapTexts_eq_self h.1.1, NodeTest.mapTexts_eq_self h.1.2,
        Expr.mapTextsAll_eq_self h.2]
  | .filter set predicate, h => by
      simp only [Expr.texts, List.forall_mem_append] at h
      rw [Expr.mapTexts, Expr.mapTexts_eq_self h.1, Expr.mapTexts_eq_self h.2]
  | .root, _ | .here, _ | .number _, _ | .variable _ _, _ => by rw [Expr.mapTexts]
lemma Expr.mapTextsAll_eq_self : ∀ {es : List Expr}, (∀ t ∈ Expr.textsAll es, g t = t) →
    Expr.mapTextsAll g es = es
  | [], _ => rfl
  | e :: es, h => by
      simp only [Expr.textsAll, List.forall_mem_append] at h
      rw [Expr.mapTextsAll, Expr.mapTexts_eq_self h.1, Expr.mapTextsAll_eq_self h.2]
end

/-! ### Results with other texts -/

/-- The second expression has everywhere the result of the first one with other texts. -/
def Restates (g : Text → Text) (e e' : Expr) : Prop :=
  ∀ env : Env, eval env e' = eval env (e.mapTexts g)

/-- Arguments have the results of those with other texts. -/
lemma evalAll_of_restates (h : List.Forall₂ (Restates g) es es') (env : Env) :
    evalAll env es' = evalAll env (Expr.mapTextsAll g es) := by
  induction h with
  | nil => rfl
  | cons he _ ih =>
      funext f
      rw [Expr.mapTextsAll, evalAll, evalAll, he env, ih]

/-- Predicates keep what those with other texts keep. -/
lemma narrow_of_restates (h : List.Forall₂ (Restates g) es es') (env : Env) :
    narrow env es' = narrow env (Expr.mapTextsAll g es) := by
  induction h with
  | nil => rfl
  | cons he _ ih =>
      funext ps
      rw [Expr.mapTextsAll, narrow, narrow, he env, ih]

namespace Restates

lemma root : Restates g .root .root := fun _ => rfl

lemma here : Restates g .here .here := fun _ => rfl

lemma number (n : Number) : Restates g (.number n) (.number n) := fun _ => rfl

lemma literal (s : Text) : Restates g (.literal s) (.literal (g s)) := fun _ => rfl

lemma ofVariable (pfx : Option Text) (name : Text) :
    Restates g (.variable pfx name) (.variable pfx name) := fun _ => rfl

lemma call (pfx : Option Text) (name : Text) (h : List.Forall₂ (Restates g) es es') :
    Restates g (.call pfx name es) (.call pfx name es') := by
  intro env
  funext f
  rw [Expr.mapTexts, eval, eval, evalAll_of_restates h]

lemma binary (op : Operator) (h : Restates g a a') (h' : Restates g b b') :
    Restates g (.binary op a b) (.binary op a' b') := by
  intro env
  funext f
  rw [Expr.mapTexts, eval, eval, h env, h' env]

lemma numeric (minus : Bool) (h : Restates g e e') :
    Restates g (.numeric minus e) (.numeric minus e') := by
  intro env
  funext f
  rw [Expr.mapTexts, eval, eval, h env]

lemma step (axis : Axis) (test : NodeTest) (h : Restates g e e')
    (hes : List.Forall₂ (Restates g) es es') :
    Restates g (.step e axis test es) (.step e' axis (test.mapTexts g) es') := by
  intro env
  funext f
  rw [Expr.mapTexts, eval, eval, h env, narrow_of_restates hes]

lemma filter (h : Restates g a a') (h' : Restates g b b') :
    Restates g (.filter a b) (.filter a' b') := by
  intro env
  funext f
  rw [Expr.mapTexts, eval, eval, h env, h' env]

lemma filterAll (h : Restates g e e') (hes : List.Forall₂ (Restates g) es es') :
    Restates g (filterAll e es) (filterAll e' es') := by
  induction hes generalizing e e' with
  | nil => exact h
  | cons hp _ ih => exact ih (h.filter hp)

lemma inside (h : Restates g e e') : Restates g e.inside e'.inside := h.step _ .node .nil

end Restates

/-! ### What is inside of what is inside -/

/-- The places at a place and inside of it. -/
def insideOf (env : Env) (p : Place) : List Place := env.onAxis .descendantOrSelf .node none p

lemma eval_inside (env : Env) (e : Expr) (f : Frame) : eval env e.inside f =
    (eval env e f >>= Result.toNodes) >>= fun ps =>
      .ok (.nodes (Place.inOrder (ps.flatMap (insideOf env)))) := by
  rw [Expr.inside, eval]
  cases eval env e f with
  | error why => rfl
  | ok r =>
      cases hr : r.toNodes with
      | error why => simp [hr]
      | ok ps =>
          have hmap : ps.mapM (fun p => narrow env [] (env.onAxis .descendantOrSelf .node none p)) =
              .ok (ps.map (insideOf env)) := mapM_eq_ok fun p _ => rfl
          have huri : env.testUri .node = .ok none := rfl
          simp [hr, huri, hmap, List.flatMap]

/-- Nothing but itself is inside of an attribute or a binding. -/
lemma mem_insideOf {p q : Place} (hp : ∀ x, p ≠ .node x) :
    q ∈ insideOf env p ↔ q = p ∧ (env.document.itemAt? p).isSome := by
  have hsites : Axis.sites env.document .descendantOrSelf p = sitesAt env.document [p] := by
    cases p with
    | node x => exact absurd rfl (hp x)
    | _ => rfl
  rw [insideOf, Env.onAxis, hsites, sitesAt]
  cases h : env.document.itemAt? p <;> simp [h, NodeTest.accepts, eq_comm]

lemma mem_insideOf_node {x : Address} {q : Place} : q ∈ insideOf env (.node x) ↔
    ∃ way, q = .node (way ++ x) ∧ (env.document.itemAt? q).isSome := by
  rw [insideOf, mem_onAxis_descendantOrSelf]
  simp [NodeTest.accepts, Option.isSome_iff_exists]

/-- Being inside is transitive, and what is inside is inside of itself. -/
lemma exists_mem_insideOf {p q : Place} :
    (∃ m ∈ insideOf env p, q ∈ insideOf env m) ↔ q ∈ insideOf env p := by
  by_cases hp : ∃ x, p = .node x
  · obtain ⟨x, rfl⟩ := hp
    simp only [mem_insideOf_node]
    constructor
    · rintro ⟨_, ⟨way, rfl, -⟩, hq⟩
      obtain ⟨way', rfl, hitem⟩ := mem_insideOf_node.mp hq
      exact ⟨way' ++ way, by rw [List.append_assoc], hitem⟩
    · rintro ⟨way, rfl, hitem⟩
      exact ⟨_, ⟨way, rfl, hitem⟩, mem_insideOf_node.mpr ⟨[], rfl, hitem⟩⟩
  · rw [not_exists] at hp
    simp only [mem_insideOf hp]
    constructor
    · rintro ⟨_, ⟨rfl, -⟩, hq⟩
      exact (mem_insideOf hp).mp hq
    · rintro ⟨rfl, hitem⟩
      exact ⟨_, ⟨rfl, hitem⟩, (mem_insideOf hp).mpr ⟨rfl, hitem⟩⟩

/-- **What is inside of what is inside** of some places is what is inside of them. -/
theorem eval_inside_inside (env : Env) (e : Expr) :
    eval env e.inside.inside = eval env e.inside := by
  funext f
  have htwice : ∀ ps : List Place,
      Place.inOrder ((Place.inOrder (ps.flatMap (insideOf env))).flatMap (insideOf env)) =
        Place.inOrder (ps.flatMap (insideOf env)) := by
    intro ps
    refine Place.inOrder_congr fun q => ?_
    simp only [List.mem_flatMap, Place.mem_inOrder]
    constructor
    · rintro ⟨m, ⟨p, hp, hm⟩, hq⟩
      exact ⟨p, hp, exists_mem_insideOf.mp ⟨m, hm, hq⟩⟩
    · rintro ⟨p, hp, hq⟩
      obtain ⟨m, hm, hq⟩ := exists_mem_insideOf.mpr hq
      exact ⟨m, ⟨p, hp, hm⟩, hq⟩
  rw [eval_inside, eval_inside]
  cases eval env e f >>= Result.toNodes with
  | error why => rfl
  | ok ps => simp [Result.toNodes, htwice]

lemma Restates.inside_inside (h : Restates g e e') : Restates g e.inside.inside e'.inside := by
  intro env
  rw [h.inside env]
  exact (eval_inside_inside env _).symm

end Locator.XPath

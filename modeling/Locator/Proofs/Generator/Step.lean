/-
Steps of paths

The step that is written for an element is read as a step to the children of
its name, perhaps at its index, and a chain of them leads down to the element.

* `Name.IsBound`: a path can say the namespace of a name;
* `Node.stepText`, `Node.stepExpr`: the step of an element and what it is read as, with
  `stepReads_step` and `Selects.stepExpr`;
* `Node.along`: the elements on a way down, and `Node.chainExpr`, the steps to
  them;
* `stepsRead_chain`, `exists_selects_chain`: **chains of steps** are read, and lead
  to the element at the end of the way.
-/
import Locator.Proofs.Document.Namespaces
import Locator.Proofs.Generator.Sibling
import Locator.Proofs.XPath.Normal
import Locator.Proofs.XPath.Path
import Locator.Generator.Basic

namespace Locator

open XPath

/-! ### Names in paths -/

/-- A name in no namespace, or with a prefix that is bound to its namespace. -/
def Name.IsBound (namespaces : List (Text × Text)) (n : Name) : Prop :=
  ∀ u, n.uri = some u → ∃ p, n.pfx = some p ∧ namespaces.lookup p = some u

variable {env : Env} {strategy : IndexStrategy} {n : Node} {name : Name}

/-- The namespace of a bound name is the one that its test asks for. -/
lemma testUri_test (hk : KeepsXml env.namespaces) (hb : name.IsBound env.namespaces) :
    env.testUri name.test = .ok name.uri := by
  rw [Name.test, Env.testUri]
  cases hu : name.uri with
  | none => simp [NodeTest.pfx?]
  | some u =>
      obtain ⟨p, hp, hl⟩ := hb u hu
      simp only [Option.isSome_some, if_true, NodeTest.pfx?, hp, Env.lookup?]
      split_ifs with hx
      · obtain rfl : p = "xml".toList := by simpa using hx
        simp [hk u hl]
      · simp [hl]

/-- A name as a path writes it: the prefix counts only where there is a
namespace. -/
def Name.inPath (n : Name) : Text := if n.uri.isSome then n.qualified else n.base

/-- The prefix that a path writes in front of a name. -/
def Name.writtenPrefix (n : Name) : Text :=
  match n.uri, n.pfx with
  | some _, some p => p ++ [':']
  | _, _ => []

lemma Name.inPath_eq (n : Name) : n.inPath = n.writtenPrefix ++ n.base := by
  rw [inPath, writtenPrefix, qualified]
  cases n.uri <;> cases n.pfx <;> simp

/-- The name of an element as its path writes it. -/
lemma stepName_eq (hn : n.name? = some name) (hx : name.isXml = true) :
    Heuristic.stepName n = .ok name.inPath := by
  simp only [Name.isXml, Bool.and_eq_true] at hx
  rw [Heuristic.stepName, Node.pathName?, hn, Name.inPath]
  cases hu : name.uri <;> simp [hx.1, hu]

/-- A name as a path writes it is read as its test. -/
lemma testReads_inPath (hx : name.isXml = true) : TestReads name.inPath .child name.test := by
  simp only [Name.isXml, Bool.and_eq_true] at hx
  have hbase := Text.isPathName_iff.mp hx.1
  rw [Name.inPath, Name.test]
  split_ifs
  · cases hp : name.pfx with
    | none =>
        rw [Name.qualified, hp]
        exact testReads_name hbase
    | some p =>
        rw [hp, Bool.and_eq_true] at hx
        rw [Name.qualified, hp]
        exact testReads_prefixed (Text.isPathName_iff.mp hx.2.1) hbase
  · exact testReads_name hbase

/-! ### The step of an element -/

namespace Node

/-- The position in the step of an element. -/
def indexText (strategy : IndexStrategy) (n : Node) : Text :=
  if Generator.needsIndex n strategy then '[' :: Text.decimal n.index ++ [']'] else []

/-- The step of an element. -/
def stepText (strategy : IndexStrategy) (n : Node) : Text :=
  (n.name?.map Name.inPath).getD [] ++ n.indexText strategy

/-- What the position in the step of an element is read as. -/
def indexExpr (strategy : IndexStrategy) (n : Node) : List Expr :=
  if Generator.needsIndex n strategy then [.number (.ofDigits (Text.decimal n.index))] else []

/-- What the step of an element is read as. -/
def stepExpr (strategy : IndexStrategy) (n : Node) (e : Expr) : Expr :=
  .step e .child ((n.name?.map Name.test).getD .node) (n.indexExpr strategy)

end Node

/-- The step that is made for an element. -/
lemma step_eq (hn : n.name? = some name) (hx : name.isXml = true) :
    Generator.step n strategy = .ok (n.stepText strategy) := by
  rw [Generator.step, stepName_eq hn hx, ok_bind, Node.stepText, Node.indexText, hn]
  split_ifs <;> simp

lemma isDigits_decimal (k : ℕ) : IsDigits (Text.decimal k) :=
  ⟨Text.decimal_ne_nil k, fun _ => Text.isDigit_of_mem_decimal⟩

/-- The position in the step of an element is read behind its test. -/
lemma stepReads_index {s : Text} {test : NodeTest} (h : TestReads s .child test) (n : Node) :
    StepReads 1 (s ++ n.indexText strategy) .child test (n.indexExpr strategy) := by
  rw [Node.indexText, Node.indexExpr]
  split_ifs
  · simpa using h.step_predicate ((reads_digits (isDigits_decimal n.index)).lift (by omega) (by omega))
  · simpa using h.step 1

/-- The step of an element is read as a step to the children of its name. -/
theorem stepReads_step (hn : n.name? = some name) (hx : name.isXml = true) :
    StepReads 1 (n.stepText strategy) .child name.test (n.indexExpr strategy) := by
  rw [Node.stepText, hn]
  exact stepReads_index (testReads_inPath hx) n

/-- Is an address that of a child which the step of an element leads to? -/
def Node.leadsTo (strategy : IndexStrategy) (n : Node) (name : Name) (b : Address) : Bool :=
  passesAt n.document name.test name.uri b &&
    (!Generator.needsIndex n strategy || positionAt n.document name.test name.uri b == n.index)

/-- What the step of an element selects, if its name is taken for one in the namespace
`uri`. -/
theorem Selects.stepExpr_of_testUri {f : Frame} {e : Expr} {P : Address → Prop}
    (h : Selects env e f P) (hn : n.name? = some name) {uri : Option Text}
    (hu : env.testUri name.test = .ok uri) (hi : n.index ≤ Number.exactLimit) :
    Selects env (n.stepExpr strategy e) f fun b =>
      ∃ c, P c ∧ ∃ j, b = j :: c ∧ (passesAt env.document name.test uri b &&
        (!Generator.needsIndex n strategy ||
          positionAt env.document name.test uri b == n.index)) := by
  rw [Node.stepExpr, hn, Option.map_some, Option.getD_some, Node.indexExpr]
  split_ifs with hx
  · have hc : ∀ b, passesAt env.document name.test uri b → ∀ size, ∃ r,
        eval env (.number (.ofDigits (Text.decimal n.index)))
          ⟨.node b, some (positionAt env.document name.test uri b), some size⟩ = .ok r ∧
        holdsAt (positionAt env.document name.test uri b) r =
          (positionAt env.document name.test uri b == n.index) := by
      intro b hb size
      refine ⟨.number (.ofDigits (Text.decimal n.index)), by rw [eval], ?_⟩
      have hlt := positionAt_lt hb
      rw [Number.ofDigits_decimal hi, holdsAt, Number.ofNat_eq hi, Number.ofNat_eq hlt.le,
        Number.finite_eq, Bool.eq_iff_iff, decide_eq_true_eq, beq_iff_eq]
      exact eq_comm
    refine (h.child_where hu hc).congr fun b => ?_
    simp [hx]
  · refine (h.child hu).congr fun b => ?_
    simp [hx]

/-- What the step of an element selects. -/
theorem Selects.stepExpr {f : Frame} {e : Expr} {P : Address → Prop} (h : Selects env e f P)
    (hd : n.document = env.document) (hn : n.name? = some name)
    (hu : env.testUri name.test = .ok name.uri) (hi : n.index ≤ Number.exactLimit) :
    Selects env (n.stepExpr strategy e) f fun b =>
      ∃ c, P c ∧ ∃ j, b = j :: c ∧ n.leadsTo strategy name b := by
  refine (Selects.stepExpr_of_testUri h hn hu hi).congr fun b => ?_
  rw [Node.leadsTo, hd]

/-! ### Chains of steps -/

namespace Node

/-- The elements on a way down from an address, the innermost first. -/
def along (d : Document) (a : Address) : List ℕ → List Node
  | [] => []
  | i :: way => ⟨d, i :: (way ++ a)⟩ :: along d a way

/-- The steps to elements, the innermost first, from an expression. -/
def chainExpr (strategy : IndexStrategy) (e : Expr) : List Node → Expr
  | [] => e
  | n :: ns => n.stepExpr strategy (chainExpr strategy e ns)

end Node

/-- An element whose name XML allows and a path can say. -/
def Node.IsNamed (namespaces : List (Text × Text)) (n : Node) : Prop :=
  ∃ name, n.name? = some name ∧ name.isXml = true ∧ name.IsBound namespaces

/-- An element whose name XML allows. -/
def Node.HasXmlName (n : Node) : Prop := ∃ name, n.name? = some name ∧ name.isXml = true

lemma Node.IsNamed.hasXmlName {namespaces : List (Text × Text)} {n : Node}
    (h : n.IsNamed namespaces) : n.HasXmlName := by
  obtain ⟨name, hn, hx, -⟩ := h
  exact ⟨name, hn, hx⟩

lemma hasXmlName_of_isNamed {namespaces : List (Text × Text)} {ns : List Node}
    (h : ∀ n ∈ ns, n.IsNamed namespaces) : ∀ n ∈ ns, n.HasXmlName :=
  fun n hn => (h n hn).hasXmlName

/-- The steps of elements are read one after the other. -/
theorem stepsRead_chain {ns : List Node} (hns : ∀ n ∈ ns, n.HasXmlName) (e : Expr) :
    StepsRead 1 (slashed (ns.map (Node.stepText strategy))) e
      (Node.chainExpr strategy e ns) := by
  induction ns with
  | nil => exact .nil e
  | cons n ns ih =>
      obtain ⟨name, hn, hx⟩ := hns n (by simp)
      have hlast : StepsRead 1 ('/' :: n.stepText strategy ++ []) (Node.chainExpr strategy e ns)
          (Node.chainExpr strategy e (n :: ns)) := by
        refine .child (stepReads_step hn hx) ?_
        rw [Node.chainExpr, Node.stepExpr, hn]
        exact .nil _
      rw [List.map_cons, slashed_cons]
      simpa using (ih fun n hn => hns n (by simp [hn])).append hlast

variable {d : Document} {a : Address} {i : ℕ}

lemma exists_markup {n : Node} (hn : n.name? = some name) :
    ∃ m, n.document.get? n.address = some m ∧ m.name? = some name :=
  Option.bind_eq_some_iff.mp hn

/-- An element is among the children of its name. -/
lemma passesAt_self (hd : d.HasClearTags) (hn : (⟨d, i :: a⟩ : Node).name? = some name) :
    passesAt d name.test name.uri (i :: a) := by
  obtain ⟨m, hm, hname⟩ := exists_markup hn
  refine passesAt_iff.mpr ⟨m, hm, ?_⟩
  rw [Markup.passes_test hd hm hname hm]
  simp [Markup.isElement, hname]

/-- The index of an element is its position among the children of its name. -/
lemma index_eq_positionAt (hd : d.HasClearTags) (hn : (⟨d, i :: a⟩ : Node).name? = some name) :
    (⟨d, i :: a⟩ : Node).index = positionAt d name.test name.uri (i :: a) := by
  obtain ⟨m, hm, hname⟩ := exists_markup hn
  exact Node.index_eq hd hm hname

/-- The index of an element is a number that paths can write. -/
lemma index_le (hd : d.HasClearTags) (hn : (⟨d, i :: a⟩ : Node).name? = some name) :
    (⟨d, i :: a⟩ : Node).index ≤ Number.exactLimit := by
  rw [index_eq_positionAt hd hn]
  exact (positionAt_lt (passesAt_self hd hn)).le

/-- The step of an element leads to it. -/
lemma leadsTo_self (hd : d.HasClearTags) (hn : (⟨d, i :: a⟩ : Node).name? = some name) :
    (⟨d, i :: a⟩ : Node).leadsTo strategy name (i :: a) := by
  simp [Node.leadsTo, passesAt_self hd hn, index_eq_positionAt hd hn]

/-- The step of an element leads to no other child, unless positions are never
written. -/
lemma eq_of_leadsTo (hd : d.HasClearTags) (hn : (⟨d, i :: a⟩ : Node).name? = some name)
    (hs : strategy ≠ .never) {j : ℕ}
    (h : (⟨d, i :: a⟩ : Node).leadsTo strategy name (j :: a)) : j = i := by
  obtain ⟨m, hm, hname⟩ := exists_markup hn
  simp only [Node.leadsTo, Bool.and_eq_true, Bool.or_eq_true, Bool.not_eq_true',
    beq_iff_eq] at h
  obtain ⟨hp, hx | hx⟩ := h
  · cases strategy with
    | always => simp [Generator.needsIndex] at hx
    | never => exact absurd rfl hs
    | auto => exact Node.eq_of_not_hasTwin hd hm hname hx hp
  · rw [index_eq_positionAt hd hn] at hx
    exact Node.positionAt_inj hp (passesAt_self hd hn) hx

/-- What passes the test for a name is an element. -/
lemma isElementAt_of_passesAt {pfx : Option Text} {base : Text} {uri : Option Text} {b : Address}
    (h : passesAt d (.name pfx base) uri b) : d.isElementAt b := by
  obtain ⟨m, hm, hp⟩ := passesAt_iff.mp h
  refine Document.isElementAt_iff.mpr ⟨m, hm, ?_⟩
  rw [Markup.passes_name] at hp
  cases hk : m.name? with
  | none => simp [hk] at hp
  | some k => simp [Markup.isElement, hk]

/-- **Chains of steps** along a way lead to elements as many levels down, and from
the start of the way to its end; unless positions are never written, nowhere
else. -/
theorem exists_selects_chain (strategy : IndexStrategy) (hd : d.HasClearTags) {namespaces : List (Text × Text)}
    (hk : KeepsXml namespaces) {f : Frame} {e : Expr} {P : Address → Prop}
    (h : Selects ⟨d, namespaces⟩ e f P) {way : List ℕ}
    (hns : ∀ n ∈ Node.along d a way, n.IsNamed namespaces) :
    ∃ Q, Selects ⟨d, namespaces⟩ (Node.chainExpr strategy e (Node.along d a way)) f Q ∧
      (∀ b, Q b → ∃ c v, P c ∧ b = v ++ c ∧ v.length = way.length) ∧
      (way ≠ [] → ∀ b, Q b → d.isElementAt b) ∧
      (P a → Q (way ++ a)) ∧
      (strategy ≠ .never → (∀ c, P c → c = a) → ∀ b, Q b → b = way ++ a) := by
  induction way with
  | nil => exact ⟨P, h, fun b hb => ⟨b, [], hb, rfl, rfl⟩, by simp, id, fun _ hP => hP⟩
  | cons i way ih =>
      obtain ⟨Q, hQ, hlen, -, hto, honly⟩ := ih fun n hn => hns n (by simp [Node.along, hn])
      obtain ⟨name, hn, hx, hb⟩ := hns ⟨d, i :: (way ++ a)⟩ (by simp [Node.along])
      refine ⟨_, Selects.stepExpr hQ rfl hn (testUri_test hk hb) (index_le hd hn), ?_, fun _ b => ?_,
        fun ha => ?_, fun hs hP b => ?_⟩
      · rintro b ⟨c, hc, j, rfl, -⟩
        obtain ⟨c', v, hc', rfl, hv⟩ := hlen c hc
        exact ⟨c', j :: v, hc', rfl, by simp [hv]⟩
      · rintro ⟨c, hc, j, rfl, hj⟩
        simp only [Node.leadsTo, Bool.and_eq_true] at hj
        exact isElementAt_of_passesAt hj.1
      · exact ⟨way ++ a, hto ha, i, rfl, leadsTo_self hd hn⟩
      · rintro ⟨c, hc, j, rfl, hj⟩
        obtain rfl := honly hs hP c hc
        rw [eq_of_leadsTo hd hn hs hj]
        rfl

end Locator

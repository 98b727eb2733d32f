/-
Paths of selectors

* `IsShared`, `IsCommon`: a text is a selector of the language that queries and the converter
  have in common, and one that asks for something in each comparison; `toXPath_of_isShared`: its
  path;
* `Group.pathExpr`, `Group.reads_path`, `Group.selects_path`: the path of a group is read
  and selects what the group chooses in the looser reading;
* `evaluate_toXPath_admitted`: **the path of a selector** selects what it chooses in the looser
  reading, and `evaluate_toXPath`: what it chooses, if it asks for something.
-/
import Locator.Proofs.Convert.Condition
import Locator.Proofs.Convert.List
import Locator.Proofs.Css.Loose
import Locator.Proofs.XPath.Evaluate

namespace Locator.Css

open Text XPath

variable {g : Group} {gs : List Group} {s : Text} {c : Context} {n : Node}
  {namespaces : List (Text × Text)}

/-! ### The common language -/

/-- **A selector of the common language**: no value holds a double quotation mark or a
square bracket. -/
structure IsCommon (gs : List Group) (s : Text) : Prop extends IsSelector gs s where
  raw : ∀ g ∈ gs, ∀ c ∈ g.compounds, ∀ t ∈ c.tests,
    '"' ∉ t.value ∧ '[' ∉ t.value ∧ ']' ∉ t.value

/-- A selector of the common language that need not ask for anything. -/
structure IsShared (gs : List Group) (s : Text) : Prop extends IsFormed gs s where
  raw : ∀ g ∈ gs, ∀ c ∈ g.compounds, ∀ t ∈ c.tests,
    '"' ∉ t.value ∧ '[' ∉ t.value ∧ ']' ∉ t.value

lemma IsCommon.isShared (h : IsCommon gs s) : IsShared gs s := ⟨h.toIsSelector.isFormed, h.raw⟩

/-- No value of a formed test holds a backslash. -/
lemma Test.backslash_not_mem {t : Test} (h : t.isFormed = true) : '\\' ∉ t.value := by
  cases t with
  | compare a how v =>
      simp only [isFormed, Bool.and_eq_true] at h
      exact backslash_not_mem_of_isPlainChar h.1.2
  | _ => simp [value]

/-- **The path of a selector of the common language** is the union of the paths of its
groups. -/
theorem toXPath_of_isShared (h : IsShared gs s) :
    toXPath (.text s) = .ok (join " | ".toList (gs.map fun g => g.chain.toXPath)) := by
  obtain ⟨bs, t, hb, ht, rfl⟩ := h.written
  have hquotes : ListWrites Test.Quotes gs t := ht.mono fun g hg c hc t ht u hu =>
    hu.quotes (h.raw g hg c hc t ht).1 (Test.backslash_not_mem
      (Compound.isFormed_tests (h.formed g hg c hc) t ht))
  refine toXPath_eq hquotes (fun g hg c hc => Compound.isLegible_of_isFormed (h.formed g hg c hc))
    (fun g hg => ⟨fun c hc t ht => (h.raw g hg c hc t ht).2.2, fun c hc t ht => ?_⟩) hb
  exact (h.raw g hg c (List.mem_of_mem_dropLast hc) t ht).2.1

lemma toXPath_of_isCommon (h : IsCommon gs s) :
    toXPath (.text s) = .ok (join " | ".toList (gs.map fun g => g.chain.toXPath)) :=
  toXPath_of_isShared h.isShared

/-! ### Paths of groups -/

/-- A group admits what its chain leads to from the document. -/
lemma Group.admits_eq_chosenBy (g : Group) (d : Document) : g.admits d =
    chosenBy Step.combinator (fun s => s.compound.admitsAt d) (fun a => a == []) g.chain := by
  have hne : ∀ b, g.first.admitsAt d b → b ≠ [] := fun b h =>
    ne_nil_of_passesAt (Bool.and_eq_true_iff.mp h).1
  exact (chosenBy_root (s := (⟨.descendant, g.first⟩ : Step))
    (M := fun s : Step => s.compound.admitsAt d) rfl hne).symm

/-- What the path of a group is read as. -/
def Group.pathExpr (g : Group) : Expr := chainExpr Compound.predicates .root g.chain

lemma Group.isFormed_chain (hp : ∀ c ∈ g.compounds, c.isFormed = true) :
    ∀ s ∈ g.chain, s.compound.isFormed = true := by
  rw [Group.compounds, List.forall_mem_cons, List.forall_mem_map] at hp
  exact List.forall_mem_cons.mpr hp

/-- The path of a group is read. -/
lemma Group.reads_path (hp : ∀ c ∈ g.compounds, c.isFormed = true) :
    Reads 4 0 g.chain.toXPath g.pathExpr := by
  have hsteps := stepsRead_chain
    (fun s hs => Compound.stepReads (Group.isFormed_chain hp s hs)) .root
  exact reads_absolute hsteps (List.cons_ne_nil '/' _)

/-- The path of a group selects what it chooses in the looser reading. -/
lemma Group.selects_path (hp : ∀ c ∈ g.compounds, c.isFormed = true) (env : Env) (f : Frame) :
    Selects env g.pathExpr f fun b => g.admits env.document b := by
  have hroot : Selects env .root f fun a => (a == ([] : Address)) = true :=
    (selects_root f).congr fun a => by simp
  have h := Selects.chain (M := fun c => c.admitsAt env.document) hroot fun s hs =>
    Compound.keeps_predicates (Group.isFormed_chain hp s hs) env
  rw [← Group.admits_eq_chosenBy] at h
  exact h

lemma Group.isXmlText_path (hp : ∀ c ∈ g.compounds, c.isFormed = true) :
    isXmlText g.chain.toXPath = true :=
  isXmlText_chain fun s hs =>
    Compound.isXmlText_toXPath (Group.isFormed_chain hp s hs)

/-- What a union of paths selects, if each path selects its own elements. -/
lemma evaluate_unions {β : Type*} {x : β} {xs : List β} {texts : β → Text} {exprs : β → Expr}
    {C : β → Address → Bool} (hw : n.document.IsWhole) (hc : StartsAt c n namespaces)
    (hx : ∀ y ∈ x :: xs, isXmlText (texts y) = true)
    (hr : Expr.read? (join " | ".toList ((x :: xs).map texts)) =
      some ((xs.map exprs).foldl (.binary .union) (exprs x)))
    (hs : ∀ y ∈ x :: xs, Selects ⟨n.document, namespaces⟩ (exprs y)
      { place := .node n.address } fun b => C y b)
    (he : ∀ y ∈ x :: xs, ∀ b, C y b → n.document.isElementAt b) :
    evaluate (join " | ".toList ((x :: xs).map texts)) c namespaces =
      .ok ((n.document.elements.filter fun m => (x :: xs).any (C · m.address)).map Node.place) := by
  have hbar : isXmlText " | ".toList = true := rfl
  have hxml : isXmlText (join " | ".toList ((x :: xs).map texts)) = true := by
    rw [isXmlText_join hbar, List.all_map, List.all_eq_true]
    exact hx
  refine evaluate_eq hw hc hxml hr (selects_unions hs) (fun b hb => ?_) fun b _ => Iff.rfl
  obtain ⟨y, hy, hC⟩ := List.any_eq_true.mp hb
  exact he y hy b hC

/-- **The path of a selector** selects what it chooses in the looser reading. -/
theorem evaluate_toXPath_admitted (hw : n.document.IsWhole) (hc : StartsAt c n namespaces)
    (h : IsShared gs s) : ∃ p, toXPath (.text s) = .ok p ∧
      evaluate p c namespaces = .ok ((n.document.admitted gs).map Node.place) := by
  refine ⟨_, toXPath_of_isShared h, ?_⟩
  obtain ⟨⟨⟨bs, t, -, ht, -⟩, hp⟩, -⟩ := h
  obtain ⟨g, gs, rfl⟩ : ∃ g gs', gs = g :: gs' := by cases ht <;> exact ⟨_, _, rfl⟩
  have hread := reads_unions
    fun g' hg' => Group.reads_path (hp g' hg')
  exact evaluate_unions hw hc
    (fun g' hg' => Group.isXmlText_path (hp g' hg'))
    ((hread.lift le_rfl (by decide)).read? (by decide))
    (fun g' hg' => Group.selects_path (hp g' hg') _ _) fun _ _ _ => Group.isElementAt_of_admits

/-- **The path of a selector** selects what it chooses. -/
theorem evaluate_toXPath (hw : n.document.IsWhole) (hc : StartsAt c n namespaces)
    (h : IsCommon gs s) : ∃ p, toXPath (.text s) = .ok p ∧
      evaluate p c namespaces = .ok ((n.document.chosen gs).map Node.place) := by
  have htakes : ∀ g ∈ gs, ∀ c ∈ g.compounds, ∀ t ∈ c.tests, t.takes = true := fun g hg c hc t ht =>
    Test.takes_of_isPlain (Compound.isPlain_tests (h.plain g hg c hc) t ht)
  rw [← Document.admitted_eq_chosen htakes]
  exact evaluate_toXPath_admitted hw hc h.isShared

end Locator.Css

/-
Paths below chosen roots

A path that is made below a root is looked for from this root. If it starts at the
name of the root alone it goes on from there; otherwise it starts at the document.

* `Scope.resolve_eq_of_keeps`, `Scope.resolve_ne`
-/
import Locator.Proofs.Generator.Path

namespace Locator

open XPath Generator

variable {r n : Node} {i j : ℕ} {a : Address}
  {strategy : IndexStrategy} {way : List ℕ} {g : Generator} {o : Option Options}

/-! ### The steps of paths below roots -/

lemma slashed_append (ss ts : List Text) : slashed (ss ++ ts) = slashed ts ++ slashed ss := by
  simp [slashed]

/-- The steps below an element and its own step are steps from the document. -/
lemma pathSteps_cons (hr : r.address = j :: a) :
    r.pathSteps strategy (i :: way) = Node.steps strategy r.document a (i :: way ++ [j]) := by
  have hnode : (⟨r.document, j :: a⟩ : Node) = r := by rw [← hr]
  rw [Node.pathSteps, Node.steps, Node.steps, along_append, hr, hnode, List.map_append]
  rfl

/-- The step of an element with a position. -/
lemma stepText_of_needsIndex (h : needsIndex r strategy) :
    r.stepText strategy = r.stepText .never ++ '[' :: (Text.decimal r.index ++ [']']) := by
  rw [stepText_never, Node.stepText, Node.indexText, if_pos h]
  rfl

/-- The step of an element without a position. -/
lemma stepText_of_not_needsIndex (h : needsIndex r strategy = false) :
    r.stepText strategy = r.stepText .never := by
  rw [stepText_never, Node.stepText, Node.indexText, if_neg (by simp [h]), List.append_nil]

/-! ### Looking for paths from an element -/

/-- Expressions are looked for from an element, and paths can name what is on a way
down from there. -/
structure LooksFrom (g : Generator) (o : Option Options) (r : Node) (way : List ℕ) : Prop where
  tags : r.document.HasClearTags
  element : r.isElement
  root : (g.settings o).root = .node r
  named : ∀ k ∈ Node.along r.document r.address way ++ [r],
    k.IsNamed (prefixes (g.settings o) (.node r))
  bound : checkNamespaces (prefixes (g.settings o) (.node r)) = .ok ()
  keeps : KeepsXml (prefixes (g.settings o) (.node r))

namespace LooksFrom

lemma exists_address (h : LooksFrom g o r way) : ∃ j a, r.address = j :: a := by
  have hel := Document.isElement_iff.mp h.element
  cases ha : r.address with
  | nil => simp [ha, Document.isElementAt] at hel
  | cons j a => exact ⟨j, a, rfl⟩

lemma here (h : LooksFrom g o r way) : LooksFrom g o r [] where
  __ := h
  named := fun k hk => h.named k (List.mem_append_right _ (by simpa [Node.along] using hk))

lemma startsAt (h : LooksFrom g o r way) :
    StartsAt (.node r) r (prefixes (g.settings o) (.node r)) := ⟨rfl, h.bound⟩

lemma stepName_eq (h : LooksFrom g o r way) : Heuristic.stepName r = .ok (r.stepText .never) := by
  obtain ⟨name, hname, hx, -⟩ := h.named r (by simp)
  rw [stepText_never, hname, Locator.stepName_eq hname hx]
  rfl

/-- The path is looked for according to its plan from the element. -/
lemma resolve_eq (h : LooksFrom g o r way) (strategy : IndexStrategy)
    (hne : keptSteps (r.pathSteps strategy way) ≠ [])
    (context : Thing) :
    g.resolve (slashed (keptSteps (r.pathSteps strategy way))) context o =
      (Plan.of (slashed (keptSteps (r.pathSteps strategy way))) (.node r) >>= fun p =>
        match p with
        | .node n => .ok (some n)
        | .expression s => firstElement s (.node r) (prefixes (g.settings o) (.node r))) := by
  refine Generator.resolve_eq (normalize_pathSteps (hasXmlName_of_isNamed h.named)) (slashed_ne_nil hne) ?_ rfl
  rw [h.root]
  rfl

/-! ### The element itself -/

lemma keptSteps_self (h : LooksFrom g o r way) (hend : r.endsBlank .never = false) :
    keptSteps [r.stepText .never] = [r.stepText .never] := by
  obtain ⟨name, hname, hx, -⟩ := h.named r (by simp)
  exact keptSteps_eq_self (stepText_ne_nil hname hx) (dropEnd_stepText hname hx hend) []

/-- The name of the element finds the element. -/
lemma resolve_self (h : LooksFrom g o r way) (hend : r.endsBlank .never = false)
    (context : Thing) :
    g.resolve (slashed (keptSteps [r.stepText .never])) context o = .ok (some r) := by
  have hkept := h.keptSteps_self hend
  have hres := h.here.resolve_eq .never (by simp [Node.pathSteps, hkept]) context
  have htext : slashed [r.stepText .never] = '/' :: r.stepText .never := by simp [slashed]
  rw [Node.pathSteps, hkept, htext, Plan.of_tag h.element h.stepName_eq] at hres
  rw [hkept, htext, hres]
  rfl

/-- What stays of the name of the element, if it ends in a blank, finds neither the
element nor what is farther away from the document than one level. -/
lemma resolve_self_ne (h : LooksFrom g o r way) (hend : r.endsBlank .never)
    (hn : n.address = r.address ∨ 1 < n.address.length) (context : Thing) :
    g.resolve (slashed (keptSteps [r.stepText .never])) context o ≠ .ok (some n) := by
  obtain ⟨j, a, hr⟩ := h.exists_address
  obtain ⟨name, hname, hx, hb⟩ := h.named r (by simp)
  have hnode : (⟨r.document, j :: a⟩ : Node) = r := by rw [← hr]
  by_cases hkept : keptSteps [r.stepText .never] = []
  · rw [hkept]
    exact fun hnone => absurd hnone (by simp [slashed, resolve_nil])
  have hres := h.here.resolve_eq .never (by simpa [Node.pathSteps] using hkept)
    context
  -- The text in front of the blanks is a single other step.
  obtain ⟨q, hq, hqne, hslash⟩ : ∃ q, keptSteps [r.stepText .never] = [q] ∧
      q ≠ r.stepText .never ∧ '/' ∉ q := by
    have hdrop := dropEnd_stepText_of_endsBlank hname hx hend
    have hne := dropEnd_ne_base hname hend
    refine ⟨Text.dropEnd Text.isBlank (r.stepText .never), ?_, ?_, fun hm => ?_⟩
    · rw [keptSteps] at hkept ⊢
      split_ifs at hkept ⊢
      · exact absurd rfl hkept
      · rfl
    · rw [hdrop, stepText_never, hname, Option.map_some, Option.getD_some, Name.inPath_eq]
      simpa using hne
    · exact slash_not_mem_stepText hname hx
        ((List.rdropWhile_prefix Text.isBlank (r.stepText .never)).subset hm)
  have htext : slashed [q] = '/' :: q := by simp [slashed]
  have hnamed : ∀ k ∈ Node.along r.document a [j],
      k.IsNamed (prefixes (g.settings o) (.node r)) := by
    intro k hk
    have hkr : k = r := by simpa [Node.along, hnode] using hk
    exact hkr ▸ h.named r (by simp)
  have hend' : (⟨r.document, j :: ([] ++ a)⟩ : Node).endsBlank .never := by
    simpa [hnode] using hend
  have hfar : n.address = j :: ([] ++ a) ∨ ([] : List ℕ).length + 1 < n.address.length :=
    hn.imp (fun hn => hn.trans hr) id
  have hmiss := misses_cut_absolute h.tags h.keeps h.startsAt rfl hnamed hend' hfar
  have hsteps : Node.steps .never r.document a [j] = [r.stepText .never] := by
    simp [Node.steps, Node.along, hnode]
  rw [hsteps, hq, htext] at hmiss
  rw [Node.pathSteps, hq, htext, Plan.of_short h.element h.stepName_eq hqne hslash] at hres
  rw [hq, htext, hres]
  exact hmiss.first

/-! ### Elements below -/

/-- If the step of the root has no position, what stays of the steps below it is
looked for from there. -/
lemma resolve_below (h : LooksFrom g o r (i :: way)) (hi : needsIndex r strategy = false)
    (hkept : keptSteps (Node.steps strategy r.document r.address (i :: way)) ≠ [])
    (context : Thing) :
    g.resolve (slashed (keptSteps (r.pathSteps strategy (i :: way)))) context o =
      firstElement ('.' :: slashed (keptSteps
        (Node.steps strategy r.document r.address (i :: way)))) (.node r)
        (prefixes (g.settings o) (.node r)) := by
  have hsteps : keptSteps (r.pathSteps strategy (i :: way)) =
      keptSteps (Node.steps strategy r.document r.address (i :: way)) ++ [r.stepText .never] := by
    rw [Node.pathSteps, keptSteps_append, if_neg hkept, stepText_of_not_needsIndex hi]
  obtain ⟨s, hs⟩ : ∃ s, slashed (keptSteps
      (Node.steps strategy r.document r.address (i :: way))) = '/' :: s := by
    obtain ⟨t, ts, ht⟩ := List.exists_cons_of_ne_nil (List.reverse_ne_nil_iff.mpr hkept)
    exact ⟨t ++ ts.flatMap ('/' :: ·), by simp [slashed, ht]⟩
  have htext : slashed (keptSteps (r.pathSteps strategy (i :: way))) =
      '/' :: (r.stepText .never ++ '/' :: s) := by
    rw [hsteps, slashed_append, hs]
    simp [slashed]
  rw [h.resolve_eq strategy (by simp [hsteps]), htext, Plan.of_inside h.element h.stepName_eq, hs]
  rfl

/-- If the step of the root has a position, what stays of the steps is looked for
from the document. -/
lemma resolve_indexed (h : LooksFrom g o r (i :: way)) (hi : needsIndex r strategy)
    (hr : r.address = j :: a) (context : Thing) :
    g.resolve (slashed (keptSteps (r.pathSteps strategy (i :: way)))) context o =
      firstElement (slashed (keptSteps (Node.steps strategy r.document a (i :: way ++ [j]))))
        (.node r) (prefixes (g.settings o) (.node r)) := by
  obtain ⟨name, hname, hx, -⟩ := h.named r (by simp)
  have hend : r.endsBlank strategy = false := by simp [Node.endsBlank, hi]
  obtain ⟨ss, hss⟩ : ∃ ss, keptSteps (r.pathSteps strategy (i :: way)) =
      ss ++ [r.stepText strategy] := by
    rw [Node.pathSteps, keptSteps_append]
    split_ifs
    · exact ⟨[], keptSteps_eq_self (stepText_ne_nil hname hx) (dropEnd_stepText hname hx hend) []⟩
    · exact ⟨_, rfl⟩
  have htext : slashed (keptSteps (r.pathSteps strategy (i :: way))) =
      '/' :: (r.stepText .never ++ '[' :: (Text.decimal r.index ++ [']'] ++ slashed ss)) := by
    rw [hss, slashed_append, stepText_of_needsIndex hi]
    simp [slashed]
  rw [h.resolve_eq strategy (by simp [hss]), ← pathSteps_cons hr, htext,
    Plan.of_indexed h.element h.stepName_eq]
  rfl

/-- With a position in the step of the root, paths below it find their element only
below the root of the document. -/
lemma resolve_indexed_iff (h : LooksFrom g o r (i :: way)) (hi : needsIndex r strategy)
    (hs : strategy ≠ .never) (hel : r.document.isElementAt (i :: (way ++ r.address)))
    (context : Thing) :
    g.resolve (slashed (keptSteps (r.pathSteps strategy (i :: way)))) context o =
        .ok (some ⟨r.document, i :: (way ++ r.address)⟩) ↔
      r.address.length = 1 ∧
        (⟨r.document, i :: (way ++ r.address)⟩ : Node).endsBlank strategy = false := by
  obtain ⟨j, a, hr⟩ := h.exists_address
  have hnode : (⟨r.document, j :: a⟩ : Node) = r := by rw [← hr]
  have happ : way ++ j :: a = (way ++ [j]) ++ a := by simp
  have hnamed : ∀ k ∈ Node.along r.document a (i :: (way ++ [j])),
      k.IsNamed (prefixes (g.settings o) (.node r)) := by
    intro k hk
    rw [← List.cons_append, along_append, hnode, ← hr] at hk
    exact h.named k hk
  rw [h.resolve_indexed hi hr, hr, happ]
  rw [hr, happ] at hel
  cases hend : (⟨r.document, i :: (way ++ [j] ++ a)⟩ : Node).endsBlank strategy with
  | true =>
      have hmiss := misses_cut_absolute (n := ⟨r.document, i :: (way ++ [j] ++ a)⟩) h.tags h.keeps
        h.startsAt rfl hnamed hend (.inl rfl)
      exact iff_of_false hmiss.first (by simp)
  | false =>
      rw [List.cons_append, keptSteps_steps (hnamed _ (by simp [Node.along])).hasXmlName hend]
      cases a with
      | nil =>
          have hfind := finds_absolute h.tags h.keeps h.startsAt rfl hs
            (by simp) (by simpa using hel) hnamed
          rw [List.append_nil]
          exact iff_of_true hfind.first ⟨rfl, rfl⟩
      | cons k a =>
          have hmiss := misses_absolute strategy
            (n := ⟨r.document, i :: (way ++ [j] ++ k :: a)⟩) h.tags h.keeps h.startsAt rfl
            (by simp) hnamed (by simp)
          exact iff_of_false hmiss.first (by simp)

/-- Without one they find it wherever the root is. -/
lemma resolve_below_iff (h : LooksFrom g o r (i :: way)) (hi : needsIndex r strategy = false)
    (hs : strategy ≠ .never) (hel : r.document.isElementAt (i :: (way ++ r.address)))
    (context : Thing) :
    g.resolve (slashed (keptSteps (r.pathSteps strategy (i :: way)))) context o =
        .ok (some ⟨r.document, i :: (way ++ r.address)⟩) ↔
      (⟨r.document, i :: (way ++ r.address)⟩ : Node).endsBlank strategy = false := by
  have hnamed : ∀ k ∈ Node.along r.document r.address (i :: way),
      k.IsNamed (prefixes (g.settings o) (.node r)) :=
    fun k hk => h.named k (List.mem_append_left _ hk)
  cases hend : (⟨r.document, i :: (way ++ r.address)⟩ : Node).endsBlank strategy with
  | false =>
      have hkept := keptSteps_steps (hnamed _ (by simp [Node.along])).hasXmlName hend
      have hfind := finds_here h.tags h.keeps h.bound hs (by simp) hel hnamed
      rw [h.resolve_below hi (by rw [hkept]; exact steps_ne_nil (by simp)), hkept]
      exact iff_of_true hfind.first rfl
  | true =>
      refine iff_of_false ?_ (by simp)
      by_cases hkept : keptSteps (Node.steps strategy r.document r.address (i :: way)) = []
      · -- The blanks reach up to the root.
        have hroot : keptSteps (r.pathSteps strategy (i :: way)) = keptSteps [r.stepText .never] := by
          rw [Node.pathSteps, keptSteps_append, if_pos hkept, stepText_of_not_needsIndex hi]
        obtain ⟨j, a, hr⟩ := h.exists_address
        rw [hroot]
        by_cases hself : r.endsBlank .never
        · exact h.resolve_self_ne hself (.inr (by simp [hr])) context
        · rw [h.resolve_self (by simpa using hself)]
          intro heq
          have hl := congrArg (fun k : Node => k.address.length)
            (Option.some.inj (Except.ok.inj heq))
          simp at hl
          omega
      · rw [h.resolve_below hi hkept]
        exact (misses_cut_here h.tags h.keeps h.bound hnamed hend hkept).first

/-- **Paths below a root** find the element they are made for if the step of the root
has no position, or if the root is that of the document; and only if the last step
ends in no blank. -/
theorem resolve_iff (h : LooksFrom g o r way) (hs : strategy ≠ .never)
    (hel : r.document.isElementAt (way ++ r.address)) (context : Thing) :
    g.resolve (slashed (keptSteps (r.pathSteps strategy way))) context o =
        .ok (some ⟨r.document, way ++ r.address⟩) ↔
      (r.address.length = 1 ∨ way = [] ∨ needsIndex r strategy = false) ∧
        (⟨r.document, way ++ r.address⟩ : Node).endsBlank
          (if way = [] then .never else strategy) = false := by
  cases way with
  | nil =>
      have hnode : (⟨r.document, [] ++ r.address⟩ : Node) = r := rfl
      rw [hnode, Node.pathSteps, if_pos rfl]
      cases hend : r.endsBlank .never with
      | true => exact iff_of_false (h.resolve_self_ne hend (.inl rfl) context) (by simp)
      | false => exact iff_of_true (h.resolve_self hend context) (by simp)
  | cons i way =>
      rw [List.cons_append, if_neg (by simp)]
      by_cases hi : needsIndex r strategy
      · rw [h.resolve_indexed_iff hi hs hel]
        simp [hi]
      · rw [h.resolve_below_iff (by simpa using hi) hs hel]
        simp [hi]

end LooksFrom

end Locator

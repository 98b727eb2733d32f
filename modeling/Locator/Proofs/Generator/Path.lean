/-
Paths made of steps, and plans to find elements by them

* `Node.pathSteps`: the steps of the path of an element below a root;
  `Generator.pathOf_eq`: **what stays of them** is its path;
* `Making.endsBlank`: the last step ends in a blank;
* `Plan.of_tag`, `Plan.of_inside`, `Plan.of_indexed`, `Plan.of_short`: the plans
  for paths in the context of an element;
* `Generator.resolve_eq`: an expression is looked for according to its plan.
-/
import Locator.Proofs.Generator.Finding

namespace Locator

open XPath

variable {d : Document} {strategy : IndexStrategy} {r n : Node}
  {way : List ℕ} {g : Generator} {o : Option Options} {m : Making}

/-! ### The steps of a path -/

/-- The steps of the path of the element at the end of a way from a root, the
innermost first. The path of the root itself has no position. -/
def Node.pathSteps (strategy : IndexStrategy) (r : Node) : List ℕ → List Text
  | [] => [r.stepText .never]
  | i :: way => Node.steps strategy r.document r.address (i :: way) ++ [r.stepText strategy]

/-- The strategy of the last step of a path. -/
def Making.lastStrategy (m : Making) : IndexStrategy :=
  if m.node.same m.root then .never else m.settings.strategy

/-- Does the last of the steps that a path is made of end in a blank? -/
def Making.endsBlank (m : Making) : Bool := m.node.endsBlank m.lastStrategy

/-- The last step is that of the root without a position, or of an element below it. -/
lemma Making.endsBlank_eq (r : Node) (way : List ℕ) (s : Settings) (ns : List Node) :
    (⟨⟨r.document, way ++ r.address⟩, r, s, ns⟩ : Making).endsBlank =
      (⟨r.document, way ++ r.address⟩ : Node).endsBlank (if way = [] then .never else s.strategy) := by
  simp [Making.endsBlank, Making.lastStrategy, Node.same]

lemma stepText_never (r : Node) : r.stepText .never = (r.name?.map Name.inPath).getD [] := by
  simp [Node.stepText, Node.indexText, Generator.needsIndex]

/-- The steps of paths are neither empty nor hold slashes. -/
lemma ne_nil_of_mem_pathSteps
    (hns : ∀ k ∈ Node.along r.document r.address way ++ [r], k.HasXmlName) :
    ∀ s ∈ r.pathSteps strategy way, s ≠ [] ∧ '/' ∉ s := by
  have hstep : ∀ strategy, ∀ k ∈ Node.along r.document r.address way ++ [r],
      k.stepText strategy ≠ [] ∧ '/' ∉ k.stepText strategy := by
    intro strategy k hk
    obtain ⟨name, hname, hx⟩ := hns k hk
    exact ⟨stepText_ne_nil hname hx, slash_not_mem_stepText hname hx⟩
  cases way with
  | nil =>
      intro s hs
      obtain rfl := List.mem_singleton.mp hs
      exact hstep .never r (by simp)
  | cons i way =>
      intro s hs
      rw [Node.pathSteps, Node.steps, ← List.map_singleton (f := Node.stepText _),
        ← List.map_append] at hs
      obtain ⟨k, hk, rfl⟩ := List.mem_map.mp hs
      exact hstep strategy k hk

/-- What stays of them is in normal form. -/
lemma normalize_pathSteps
    (hns : ∀ k ∈ Node.along r.document r.address way ++ [r], k.HasXmlName) :
    normalize (slashed (keptSteps (r.pathSteps strategy way))) =
      slashed (keptSteps (r.pathSteps strategy way)) := by
  rw [← normalize_slashed (ne_nil_of_mem_pathSteps hns), normalize_normalize]

/-- What is known when the path of an element below a root is made. -/
lemma Generator.making?_eq (hr : r.address ≠ []) (hn : n = ⟨r.document, way ++ r.address⟩)
    (hel : n.isElement) (hroot : rootElement? (g.settings o) (some n.document) n = some r) :
    g.making? n o = some ⟨n, r, g.settings o, Node.along r.document r.address way ++ [r]⟩ := by
  subst hn
  have hc := chainTo_eq hr (Document.isElement_iff.mp hel : r.document.isElementAt (way ++ r.address))
  simp only [making?, hroot, Option.bind_eq_bind, Option.bind_some, hc]
  rfl

/-- **The path of an element** below a root, if it is made of steps. -/
theorem Generator.pathOf_eq (hg : g.registry = .new none) (hr : r.address ≠ [])
    (hn : n = ⟨r.document, way ++ r.address⟩) (hel : n.isElement)
    (hroot : rootElement? (g.settings o) (some n.document) n = some r)
    (hm : g.making? n o = some m) (hs : m.HasNoShortcut)
    (hns : ∀ k ∈ Node.along r.document r.address way ++ [r], k.HasXmlName) :
    (g.pathOf (.node n) o).outcome =
      .ok (slashed (keptSteps (r.pathSteps (g.settings o).strategy way))) := by
  have hmk := making?_eq hr hn hel hroot
  obtain rfl := Option.some.inj (hm.symm.trans hmk)
  obtain ⟨name, hname, hx⟩ := hns r (by simp)
  rw [← normalize_slashed (ne_nil_of_mem_pathSteps hns)]
  cases way with
  | nil =>
      obtain rfl : n = r := hn
      rw [pathOf_root hg hel hm hs (by simp [Node.same]) (stepName_eq hname hx),
        Node.pathSteps, stepText_never, hname]
      rfl
  | cons i way =>
      have hsame : n.same r = false := by
        have : i :: (way ++ r.address) ≠ r.address := fun h => by
          have := congrArg List.length h
          simp at this
          omega
        simp [Node.same, hn, this]
      rw [pathOf_steps hg hel hm hs hsame (by simp) hns, Node.pathSteps, Node.steps,
        List.map_append]
      rfl

/-! ### Plans -/

namespace Plan

lemma of_document (s : Text) (d : Document) : Plan.of s (.document d) = .ok (.expression s) := rfl

variable {tag : Text}

/-- The plan for an expression in the context of an element. -/
lemma of_node (hr : r.isElement) (ht : Heuristic.stepName r = .ok tag) (s : Text) :
    Plan.of s (.node r) =
      .ok (if s = '/' :: tag then .node r
        else match Text.behind? ('/' :: tag ++ ['/']) s with
          | some rest => .expression ('.' :: '/' :: rest)
          | none => .expression s) := by
  simp only [Plan.of, Thing.element?, hr, if_true, ht, ok_bind]
  split_ifs with h1 h2 h2
  · rfl
  · exact absurd (by simpa using h1) h2
  · exact absurd (by simpa using h2) h1
  · cases Text.behind? ('/' :: tag ++ ['/']) s <;> rfl

/-- The name of the element alone stands for the element. -/
lemma of_tag (hr : r.isElement) (ht : Heuristic.stepName r = .ok tag) :
    Plan.of ('/' :: tag) (.node r) = .ok (.node r) := by
  rw [of_node hr ht, if_pos rfl]

/-- Behind the name of the element the path goes on from there. -/
lemma of_inside (hr : r.isElement) (ht : Heuristic.stepName r = .ok tag) (s : Text) :
    Plan.of ('/' :: (tag ++ '/' :: s)) (.node r) = .ok (.expression ('.' :: '/' :: s)) := by
  have hne : '/' :: (tag ++ '/' :: s) ≠ '/' :: tag := by simp
  have hb : Text.behind? ('/' :: tag ++ ['/']) ('/' :: (tag ++ '/' :: s)) = some s := by
    have happ : '/' :: (tag ++ '/' :: s) = ('/' :: tag ++ ['/']) ++ s := by simp
    have hpre : ('/' :: tag ++ ['/']).isPrefixOf (('/' :: tag ++ ['/']) ++ s) = true :=
      List.isPrefixOf_iff_prefix.mpr (List.prefix_append _ _)
    rw [happ, Text.behind?, hpre, if_pos rfl, List.drop_left]
  rw [of_node hr ht, if_neg hne, hb]

lemma of_other (hr : r.isElement) (ht : Heuristic.stepName r = .ok tag) {s : Text}
    (hne : s ≠ '/' :: tag) (hpre : ¬ '/' :: tag ++ ['/'] <+: s) :
    Plan.of s (.node r) = .ok (.expression s) := by
  have hb : Text.behind? ('/' :: tag ++ ['/']) s = none := by
    rw [Text.behind?, if_neg]
    rwa [List.isPrefixOf_iff_prefix]
  rw [of_node hr ht, if_neg hne, hb]

/-- With a position behind the name of the element the path stays as it is. -/
lemma of_indexed (hr : r.isElement) (ht : Heuristic.stepName r = .ok tag) (s : Text) :
    Plan.of ('/' :: (tag ++ '[' :: s)) (.node r) =
      .ok (.expression ('/' :: (tag ++ '[' :: s))) := by
  refine of_other hr ht (by simp) ?_
  rw [List.cons_append, List.prefix_cons_inj, List.prefix_append_right_inj]
  simp

/-- A single other step stays as it is. -/
lemma of_short (hr : r.isElement) (ht : Heuristic.stepName r = .ok tag) {s : Text} (hs : s ≠ tag)
    (hslash : '/' ∉ s) : Plan.of ('/' :: s) (.node r) = .ok (.expression ('/' :: s)) := by
  refine of_other hr ht (by simpa using hs) ?_
  rw [List.cons_append, List.prefix_cons_inj]
  exact fun h => hslash (h.subset (by simp))

end Plan

namespace Generator

/-- **An expression** is looked for according to the plan for its normal form. -/
theorem resolve_eq {x path : Text} {context start : Thing} {site : Context}
    (hp : normalize x = path) (hne : path ≠ [])
    (hstart : firstPresent [(g.settings o).root, context, g.document] = start)
    (hsite : start.context? = some site) :
    g.resolve x context o = (Plan.of path start >>= fun p =>
      match p with
      | .node n => .ok (some n)
      | .expression s => firstElement s site (prefixes (g.settings o) start)) := by
  rw [resolve, hp]
  obtain ⟨c, rest, rfl⟩ := List.exists_cons_of_ne_nil hne
  simp only [hstart, hsite]
  rfl

/-- Nothing finds nothing. -/
lemma resolve_nil (g : Generator) (context : Thing) (o : Option Options) :
    g.resolve [] context o = .ok none := rfl

end Generator

end Locator

/-
Why the shortest spelling of a path cannot be found, or an element cannot be found again

* `XPath.isXmlText_of_mem_candidates`: the candidates hold no other characters than the
  steps;
* `Settings.IsWithin`: the settings name no other root than an element of a document, and
  no prefixes;
* `Generator.shortest_eq_error`: **the search** for the shortest spelling has no obstacles
  but those of the path;
* `Generator.resolve_eq_error`: an element **is looked for again** unless the path holds a
  character that XML forbids, or paths cannot say the name of the chosen root;
* `Generator.commonPath_eq_error`, `Generator.describe_eq_error`: the paths around several
  elements, and those of a selection.
-/
import Locator.Proofs.Generator.Below
import Locator.Proofs.Generator.Obstacle
import Locator.Proofs.Generator.Search
import Locator.Proofs.Range.Find
import Locator.Range.Selection

namespace Locator

open XPath

variable {d : Document} {n r root : Node} {s c p : Text} {cs steps : List Text} {e : Failure}
  {context : Thing} {namespaces : List (Text × Text)}

/-! ### Characters of paths -/

namespace XPath

lemma isXmlText_path {start : Text} (hstart : Text.isXmlText start)
    (h : ∀ s ∈ steps, Text.isXmlText s) : Text.isXmlText (path start steps) = true := by
  have hsep : Text.isXmlText ['/'] := rfl
  rw [path, Text.isXmlText_append, hstart, isXmlText_join hsep, Bool.true_and]
  exact List.all_eq_true.mpr h

/-- **The candidates** hold no other characters than the steps. -/
theorem isXmlText_of_mem_candidates (h : ∀ s ∈ steps, Text.isXmlText s)
    (hc : c ∈ candidates steps) : Text.isXmlText c = true := by
  obtain ⟨-, -, s, hs, rfl⟩ := mem_candidates.mp hc
  have hbare : ∀ s ∈ steps.map dropIndex, Text.isXmlText s := by
    intro s hs
    obtain ⟨t, ht, rfl⟩ := List.mem_map.mp hs
    exact Text.isXmlText_of_sublist (dropIndex_sublist t) (h t ht)
  refine Text.isXmlText_of_sublist (normalize_sublist s) ?_
  rw [spellings, List.mem_cons, List.mem_cons, List.mem_flatMap] at hs
  rcases hs with rfl | rfl | ⟨x, hx, hs⟩
  · exact isXmlText_path rfl h
  · exact isXmlText_path rfl hbare
  · obtain ⟨hfull, hshort⟩ := List.of_mem_zip hx
    have hslashes : Text.isXmlText ['/', '/'] := rfl
    rcases List.mem_cons.mp hs with rfl | hs
    · exact isXmlText_path hslashes fun s hs => h s ((mem_suffixes hfull).subset hs)
    · rw [List.mem_singleton.mp hs]
      exact isXmlText_path hslashes fun s hs => hbare s ((mem_suffixes hshort).subset hs)

end XPath

/-! ### Plans -/

namespace Plan

/-- There is no plan where the name of an element cannot stand in a path. -/
lemma eq_error (h : Plan.of s context = .error e) :
    ∃ r, context.element? = some r ∧ r.pathName? = none ∧ e = .unnameable := by
  rw [Plan.of] at h
  split at h
  · simp at h
  · next r hr =>
    rcases bind_eq_error.mp h with h | ⟨tag, -, h⟩
    · exact ⟨r, hr, Generator.stepName_eq_error h⟩
    · split_ifs at h
      · simp at h
      · split at h <;> simp at h

/-- What is evaluated for a text holds no other characters than the text and a point. -/
lemma isXmlText_of_expression (hs : Text.isXmlText s)
    (h : Plan.of s context = .ok (.expression p)) : Text.isXmlText p = true := by
  rw [Plan.of] at h
  split at h
  · obtain rfl : s = p := by simpa using h
    exact hs
  · obtain ⟨tag, -, h⟩ := bind_eq_ok.mp h
    split_ifs at h
    · simp at h
    · split at h
      · next rest hrest =>
        obtain rfl : '.' :: '/' :: rest = p := by simpa using h
        rw [Text.behind?_eq_some.mp hrest, Text.isXmlText_append, Bool.and_eq_true] at hs
        exact hs.2
      · obtain rfl : s = p := by simpa using h
        exact hs

end Plan

/-! ### The search -/

/-- The settings name no other root than an element of a document, and no prefixes. -/
structure Settings.IsWithin (s : Settings) (d : Document) : Prop where
  root : s.root = .nothing ∨ ∃ r, s.root = .node r ∧ r.IsElementOf d
  namespaces : s.namespaces = none

/-- The prefixes in force at an element can be used. -/
lemma Node.IsElementOf.startsAt (h : n.IsElementOf d) (hd : d.HasBareNames) :
    StartsAt (.node n) n n.namespaces :=
  ⟨rfl, (h.document_eq.symm ▸ hd).bindsXml.checkNamespaces⟩

namespace Generator

variable {g : Generator} {o : Option Options} {m : Making}

/-- A candidate is tested unless the name of the element where it starts cannot stand in a
path. -/
lemma findsOnly_eq_error (hr : r.IsElementOf d) (hstart : StartsAt (.node r) r namespaces)
    (hc : Text.isXmlText c) (h : findsOnly c (.node r) namespaces n = .error e) :
    r.pathName? = none ∧ e = .unnameable := by
  rcases bind_eq_error.mp h with h | ⟨plan, hplan, h⟩
  · obtain ⟨k, hk, hnone⟩ := Plan.eq_error h
    obtain rfl : r = k := by simpa [Thing.element?, hr.isElement] using hk
    exact hnone
  · cases plan with
    | node found => simp at h
    | expression s =>
        have hs := Plan.isXmlText_of_expression hc hplan
        have h := (bind_eq_error.mp h).resolve_right (by simp)
        rw [check] at h
        split at h
        · simp at h
        · split at h
          · simp at h
          · next why hwhy =>
            have hxml := Text.isXmlText_of_sublist (Text.strip_sublist s) hs
            split_ifs at h with hpath
            rcases evaluateElements_eq_error hstart hwhy with hp | ⟨hx, -⟩
            · exact absurd hp hpath
            · exact absurd hxml (by simp [hx])

lemma firstThatFinds_eq_error (h : firstThatFinds context namespaces n cs = .error e) :
    ∃ c ∈ cs, findsOnly c context namespaces n = .error e := by
  induction cs with
  | nil => simp [firstThatFinds] at h
  | cons c cs ih =>
      rcases bind_eq_error.mp h with h | ⟨b, -, h⟩
      · exact ⟨c, by simp, h⟩
      · split_ifs at h
        · simp at h
        · obtain ⟨x, hx, h⟩ := ih h
          exact ⟨x, List.mem_cons_of_mem c hx, h⟩

/-- The steps of elements whose names paths can say hold XML characters alone. -/
lemma isXmlText_of_stepsOf (hd : d.HasBareNames) {ns : List Node} (hns : ∀ k ∈ ns, k.IsElementOf d)
    (h : (stepsOf m Heuristic.builtIn ns).outcome = .ok steps) :
    ∀ s ∈ steps, Text.isXmlText s := by
  have hnames : ∀ k ∈ ns, k.HasXmlName := by
    intro k hk
    obtain ⟨tag, ht⟩ := Option.isSome_iff_exists.mp (pathName?_of_stepsOf h k hk)
    have hbare : k.document.HasBareNames := (hns k hk).document_eq.symm ▸ hd
    exact ((hbare.isName_of_pathName? ht).2 []).hasXmlName
  rw [stepsOf_eq m hnames] at h
  obtain rfl := Except.ok.inj h
  intro s hs
  obtain ⟨k, hk, rfl⟩ := List.mem_map.mp (List.mem_reverse.mp hs)
  obtain ⟨name, hname, hx⟩ := hnames k hk
  exact isXmlText_stepText hname hx

/-- What is made starts at an element of the document, from where the search goes on. -/
lemma isElementOf_root (hs : (g.settings o).IsWithin d) (hn : n.IsElementOf d)
    (hm : g.making? n o = some m) :
    m.root.IsElementOf d ∧ firstPresent [m.settings.root, .node m.root] = .node m.root := by
  obtain ⟨root, hroot, hm⟩ := Option.bind_eq_some_iff.mp hm
  obtain ⟨ancestors, -, hm⟩ := Option.bind_eq_some_iff.mp hm
  obtain rfl := Option.some.inj hm
  rcases hs.root with hnone | ⟨r, hr, hrd⟩
  · rw [rootElement?, hnone, hn.document_eq] at hroot
    refine ⟨Document.isElementOf_root (by simpa using hroot), ?_⟩
    rw [hnone]
    rfl
  · rw [rootElement?, hr] at hroot
    obtain rfl : r = root := by simpa [hrd.isElement] using hroot
    refine ⟨hrd, ?_⟩
    rw [hr]
    rfl

/-- **The search for the shortest spelling** has no obstacles but those of the path. -/
theorem shortest_eq_error (hg : g.registry = .new none) (hd : d.HasBareNames)
    (hs : (g.settings o).IsWithin d) (hn : n.IsElementOf d)
    (h : (g.shortest (.node n) o).outcome = .error e) :
    e = .noRoot ∨ e = .outsideRoot ∨ Obstacle d (g.settings o).attributes e := by
  rw [shortest, Traced.outcome_bind] at h
  rcases bind_eq_error.mp h with h | ⟨made, hmade, h⟩
  · exact make_eq_error hg hn h
  cases hm : g.making? n o with
  | none =>
      rcases make_of_making?_eq_none hn.isElement hm with hnone | hout
      · simp [hnone] at hmade
      · simp [hout] at hmade
  | some m =>
      have hb : (Registry.new none).heuristics = Heuristic.builtIn := rfl
      rw [make_eq hn.isElement hm, hg, hb, outcome_makeInside] at hmade
      obtain ⟨x, -, hmade⟩ := bind_eq_ok.mp hmade
      cases x with
      | some answer =>
          obtain rfl := Except.ok.inj hmade
          simp at h
      | none =>
          obtain ⟨steps, hsteps, hmade⟩ := bind_eq_ok.mp hmade
          obtain rfl := Except.ok.inj hmade
          obtain ⟨hroot, hfirst⟩ := isElementOf_root hs hn hm
          have hnone : m.settings.namespaces = none := (of_making? hm).2 ▸ hs.namespaces
          have hprefixes := prefixes_node (s := m.settings) (by rw [hnone]; rfl) hroot.isElement
          simp only [Traced.outcome_bind, Traced.outcome_lift, hfirst, hprefixes] at h
          obtain ⟨c, hc, h⟩ :=
            firstThatFinds_eq_error ((bind_eq_error.mp h).resolve_right (by simp))
          have hxml := isXmlText_of_mem_candidates
            (isXmlText_of_stepsOf hd (fun k => isElementOf_of_mem_ancestors hn hm) hsteps) hc
          obtain ⟨hname, rfl⟩ := findsOnly_eq_error hroot (hroot.startsAt hd) hxml h
          exact .inr (.inr (.name hroot hname))

/-! ### Looking again -/

/-- The thing where a path is looked for in a document, if no context but the document is
given, and what can be evaluated there. -/
lemma exists_site (hd : d.HasBareNames) (hroot : d.root? = some root)
    (hs : (g.settings o).IsWithin d) :
    ∃ site x, (firstPresent [(g.settings o).root, .document d, g.document]).context? = some site ∧
      StartsAt site x (prefixes (g.settings o)
        (firstPresent [(g.settings o).root, .document d, g.document])) := by
  have hnone : (g.settings o).namespaces.getD [] = [] := by rw [hs.namespaces]; rfl
  rcases hs.root with hempty | ⟨r, hr, hrd⟩
  · have hfirst : firstPresent [(g.settings o).root, .document d, g.document] = .document d := by
      rw [hempty]
      rfl
    rw [hfirst, prefixes_document hnone hroot]
    exact ⟨.document d, root, rfl, by rw [startNode, hroot],
      ((Document.isElementOf_root hroot).startsAt hd).bound⟩
  · have hfirst : firstPresent [(g.settings o).root, .document d, g.document] = .node r := by
      rw [hr]
      rfl
    rw [hfirst, prefixes_node hnone hrd.isElement]
    exact ⟨.node r, r, rfl, hrd.startsAt hd⟩

/-- **An element is looked for** unless the path holds a character that XML forbids, or
paths cannot say the name of the chosen root. -/
theorem resolve_eq_error (hd : d.HasBareNames) (hroot : d.root? = some root)
    (hs : (g.settings o).IsWithin d) (h : g.resolve p (.document d) o = .error e) :
    Text.isXmlText p = false ∧ e = .forbiddenText ∨
      ∃ r, (g.settings o).root = .node r ∧ r.pathName? = none ∧ e = .unnameable := by
  obtain ⟨site, x, hsite, hstart⟩ := exists_site (g := g) (o := o) hd hroot hs
  rw [resolve] at h
  split at h
  · simp at h
  · next a b hp =>
    simp only [hsite] at h
    rcases bind_eq_error.mp h with h | ⟨plan, hplan, h⟩
    · obtain ⟨r, hr, hname, rfl⟩ := Plan.eq_error h
      right
      rcases hs.root with hempty | ⟨k, hk, hkd⟩
      · rw [hempty] at hr
        simp [firstPresent, Thing.isNothing, Thing.element?] at hr
      · rw [hk] at hr
        obtain rfl : k = r := by
          simpa [firstPresent, Thing.isNothing, Thing.element?, hkd.isElement] using hr
        exact ⟨k, hk, hname, rfl⟩
    · left
      cases plan with
      | node found => simp at h
      | expression s =>
          simp only [firstElement] at h
          split at h
          · simp at h
          · simp at h
          · next why hwhy =>
            split_ifs at h with hpath
            obtain rfl := Except.error.inj h
            obtain ⟨hx, he⟩ := (evaluate_eq_error hstart hwhy).resolve_left hpath
            refine ⟨?_, he⟩
            by_contra hxml
            have hnormal := Text.isXmlText_of_sublist (normalize_sublist p) (by simpa using hxml)
            rw [hp] at hnormal
            simp [Plan.isXmlText_of_expression hnormal hplan] at hx

/-! ### Several elements -/

/-- The nearest element around elements of a document is one of it. -/
lemma isElementOf_commonAncestor {ns : List Node} (hns : ∀ k ∈ ns, k.IsElementOf d)
    (h : Node.commonAncestor ns = some n) : n.IsElementOf d := by
  cases ns with
  | nil => simp [Node.commonAncestor] at h
  | cons k ns =>
      rw [Node.commonAncestor] at h
      exact (hns k (by simp)).of_mem_ancestors (List.mem_of_find?_eq_some h)

/-- **The path around several elements** has no other obstacles. -/
theorem commonPath_eq_error (hg : g.registry = .new none) {things : List Thing}
    (ht : ∀ t ∈ things, ∀ k, t.element? = some k → k.IsElementOf d)
    (h : (g.commonPath things o).outcome = .error e) :
    e = .noRoot ∨ e = .outsideRoot ∨ Obstacle d (g.settings o).attributes e := by
  rw [commonPath] at h
  split at h
  · simp at h
  · next k hk =>
    have hns : ∀ j ∈ things.filterMap Thing.element?, j.IsElementOf d := by
      intro j hj
      obtain ⟨t, htm, hj⟩ := List.mem_filterMap.mp hj
      exact ht t htm j hj
    rw [Traced.outcome_bind] at h
    exact pathOf_eq_error hg (isElementOf_commonAncestor hns hk)
      ((bind_eq_error.mp h).resolve_right (by simp))

/-- The path of an element that there may be. -/
lemma pathOf?_eq_error (hg : g.registry = .new none) {x : Option Node}
    (hx : ∀ k, x = some k → k.IsElementOf d) (h : (g.pathOf? x o).outcome = .error e) :
    e = .noRoot ∨ e = .outsideRoot ∨ Obstacle d (g.settings o).attributes e := by
  cases x with
  | none => simp [pathOf?] at h
  | some k =>
      rw [pathOf?, Traced.outcome_bind] at h
      exact pathOf_eq_error hg (hx k rfl) ((bind_eq_error.mp h).resolve_right (by simp))

/-- **The paths of a selection** have no other obstacles, if its boundaries lie in the
document. -/
theorem describe_eq_error (hg : g.registry = .new none) {range : Range}
    (hrange : ∀ b ∈ [range.clone.start, range.clone.stop], ∀ k,
      b.container.containing? = some k → k.IsElementOf d)
    (h : (g.describe (some ⟨[range]⟩) o).outcome = .error e) :
    e = .noRoot ∨ e = .outsideRoot ∨ Obstacle d (g.settings o).attributes e := by
  simp only [describe, Option.map_some, Option.getD_some, Traced.outcome_bind] at h
  rcases bind_eq_error.mp h with h | ⟨start, -, h⟩
  · exact pathOf?_eq_error hg (hrange _ (by simp)) h
  rcases bind_eq_error.mp h with h | ⟨stop, -, h⟩
  · exact pathOf?_eq_error hg (hrange _ (by simp)) h
  · have h := (bind_eq_error.mp h).resolve_right (by simp)
    refine commonPath_eq_error hg (fun t ht k hk => ?_) h
    obtain ⟨j, hj, rfl⟩ := List.mem_map.mp ht
    obtain ⟨c, hc, hcj⟩ := List.mem_filterMap.mp hj
    have hjd : j.IsElementOf d := by
      rcases List.mem_cons.mp hc with rfl | hc
      · exact hrange _ (by simp) j hcj
      · exact hrange _ (by simp) j (List.mem_singleton.mp hc ▸ hcj)
    obtain rfl : j = k := by simpa [Thing.element?, hjd.isElement] using hk
    exact hjd

end Generator

end Locator

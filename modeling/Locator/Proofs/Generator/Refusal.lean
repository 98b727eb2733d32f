/-
What is refused

* `Generator.chosenRoot`, `Generator.effectiveRoot?`: the root that is asked for, that of the
  defaults below it, and the element that it stands for;
* `Generator.IsRootless`, `Generator.IsOutside`: the root is a document without a root element,
  and an element is neither the root nor inside it;
* `Generator.make_cases`: a path is refused without a call or made inside the root;
* `Generator.IsChecked`: a result behind the three checks in front of a path;
* `Generator.IsUnbound`: the search for the shortest spelling comes to an expression, and a
  prefix that is in force cannot be bound;
* `Generator.refusals`: **what is refused**: what is no element, an element under a document
  without a root element, and an element outside the root, each before any hook is called.
-/
import Locator.Proofs.Generator.Unbound

namespace Locator

/-! ### The root -/

/-- An element is below an element at the top of its document. -/
lemma Node.exists_root? {n : Node} (hn : n.isElement) : ∃ r, n.document.root? = some r := by
  have htop : ∀ a : Address, n.document.isElementAt a → ∃ j, n.document.isElementAt [j] := by
    intro a
    induction a with
    | nil => simp [Document.isElementAt]
    | cons i a ih =>
        intro h
        rcases eq_or_ne a [] with rfl | ha
        · exact ⟨i, h⟩
        · exact ih (isElementAt_of_cons ha h)
  obtain ⟨j, hj⟩ := htop n.address (Document.isElement_iff.mp hn)
  obtain ⟨m, hm, hel⟩ := Document.isElementAt_iff.mp hj
  have hsome : n.document.rootPosition?.isSome := by
    rw [Document.rootPosition?, List.findIdx?_isSome, List.any_eq_true]
    exact ⟨m, List.mem_of_getElem? (show n.document.content[j]? = some m from hm), hel⟩
  obtain ⟨r, hr⟩ := Option.isSome_iff_exists.mp hsome
  exact ⟨⟨n.document, [r]⟩, by simp [Document.root?, Document.rootAddress?, hr]⟩

/-- What is taken for an element is one. -/
lemma Thing.element?_eq_some_iff {t : Thing} {n : Node} :
    t.element? = some n ↔ t = .node n ∧ n.isElement := by
  cases t with
  | node k => cases hk : k.isElement <;> simp [element?, hk] <;> rintro rfl <;> simp [hk]
  | _ => simp [element?]

namespace Generator

open XPath

variable {hs : List Heuristic} {n : Node} {g : Generator} {o : Option Options}
  {e : Failure} {thing : Thing}

/-- The root that is asked for: that of the call, or that of the defaults if it is nothing. -/
def chosenRoot (g : Generator) (o : Option Options) : Thing :=
  let asked := (o.map Options.root).getD .nothing
  if asked.isNothing then (g.defaults.map Options.root).getD .nothing else asked

/-- The element that a root stands for: itself, the root element of a document, and that of
the document of the wanted element for anything else. -/
def effectiveRoot? (root : Thing) (n : Node) : Option Node :=
  match root with
  | .document d => d.root?
  | t => t.element?.or n.document.root?

lemma root_settings (g : Generator) (o : Option Options) :
    (g.settings o).root = g.chosenRoot o := by
  have hnothing : ∀ t : Thing, t.isNothing → .nothing = t := by
    intro t
    cases t <;> simp [Thing.isNothing]
  rw [settings, chosenRoot]
  cases g.defaults with
  | none =>
      cases o with
      | none => rfl
      | some o =>
          simp only [Option.map_some, Option.getD_some, Option.map_none, Option.getD_none]
          split_ifs with h
          · exact (hnothing _ h).symm
          · rfl
  | some below =>
      cases o with
      | none => rfl
      | some o => rfl

lemma rootElement?_eq (g : Generator) (o : Option Options) (n : Node) :
    rootElement? (g.settings o) (some n.document) n = effectiveRoot? (g.chosenRoot o) n := by
  rw [rootElement?, root_settings]
  cases g.chosenRoot o with
  | node r => cases hr : r.isElement <;> simp [effectiveRoot?, Thing.element?, hr]
  | document d => rfl
  | _ => simp [effectiveRoot?, Thing.element?]

/-- Only a document without a root element stands for no element. -/
lemma effectiveRoot?_eq_none_iff (hn : n.isElement) {root : Thing} :
    effectiveRoot? root n = none ↔ ∃ d, root = .document d ∧ d.root? = none := by
  obtain ⟨r, hr⟩ := n.exists_root? hn
  cases root with
  | document d => simp [effectiveRoot?]
  | _ => simp [effectiveRoot?, hr]

lemma chainTo_eq_none_iff {root : Node} :
    chainTo n root = none ↔ ∀ k ∈ n.ancestors, k.same root = false := by
  have hdrop : n.ancestors.dropWhile (fun k => !k.same root) = [] ↔
      ∀ k ∈ n.ancestors, k.same root = false := by
    simp [List.dropWhile_eq_nil_iff]
  rw [← hdrop, chainTo, List.span_eq_takeWhile_dropWhile]
  cases n.ancestors.dropWhile fun k => !k.same root <;> simp

/-- Is the wanted element neither the root nor inside it? -/
def IsOutside (g : Generator) (o : Option Options) (n : Node) : Prop :=
  ∃ root, effectiveRoot? (g.chosenRoot o) n = some root ∧ ∀ k ∈ n.ancestors, k.same root = false

/-- Is the root that is asked for a document without a root element? -/
def IsRootless (g : Generator) (o : Option Options) : Prop :=
  ∃ d, g.chosenRoot o = .document d ∧ d.root? = none

/-- **What comes of making a path**: it is refused without a call, or made inside the root. -/
lemma make_cases (g : Generator) (thing : Thing) (o : Option Options) :
    thing.element? = none ∧ g.make thing o = .lift (.error .notElement) ∨
      ∃ n, thing.element? = some n ∧
        (g.IsRootless o ∧ g.make thing o = .lift (.error .noRoot) ∨
          g.IsOutside o n ∧ g.make thing o = .lift (.error .outsideRoot) ∨
          ¬ g.IsRootless o ∧ ¬ g.IsOutside o n ∧
            ∃ m, g.make thing o = makeInside g.registry.heuristics m) := by
  cases ht : thing.element? with
  | none => exact .inl ⟨rfl, by rw [make, ht]⟩
  | some n =>
      refine .inr ⟨n, rfl, ?_⟩
      have hn : n.isElement := (Thing.element?_eq_some_iff.mp ht).2
      have hroot := rootElement?_eq g o n
      cases hr : effectiveRoot? (g.chosenRoot o) n with
      | none =>
          refine .inl ⟨(effectiveRoot?_eq_none_iff hn).mp hr, ?_⟩
          rw [hr] at hroot
          simp [make, ht, hroot]
      | some root =>
          have hrootless : ¬ g.IsRootless o := fun h => by
            rw [(effectiveRoot?_eq_none_iff hn).mpr h] at hr
            simp at hr
          rw [hr] at hroot
          cases hc : chainTo n root with
          | none =>
              refine .inr (.inl ⟨⟨root, hr, chainTo_eq_none_iff.mp hc⟩, ?_⟩)
              simp [make, ht, hroot, hc]
          | some ancestors =>
              refine .inr (.inr ⟨hrootless, ?_, _, by simp only [make, ht, hroot, hc]; rfl⟩)
              rintro ⟨k, hk, hout⟩
              obtain rfl : root = k := Option.some.inj (hr.symm.trans hk)
              simp [chainTo_eq_none_iff.mpr hout] at hc

/-! ### Refusals -/

/-- What is refused fails without any call, and nothing else fails by itself in this way. -/
lemma failsItself_iff_of_isRefusal {f : Made → Traced Text}
    (hf : ∀ made why, (f made).outcome = .error why → why.isRefusal = false)
    (he : e.isRefusal) :
    (g.make thing o >>= f).FailsItself g.registry.heuristics e ↔
      g.make thing o = .lift (.error e) := by
  constructor
  · intro h
    rcases h.of_bind with hmake | ⟨made, -, hmade⟩
    · have hlift : ∀ why, g.make thing o = .lift (.error why) →
          g.make thing o = .lift (.error e) := by
        intro why hwhy
        have hout := hmake.outcome
        rw [hwhy] at hout
        rwa [Except.error.inj hout] at hwhy
      rcases make_cases g thing o with ⟨-, h⟩ | ⟨n, -, ⟨-, h⟩ | ⟨-, h⟩ | ⟨-, -, m, h⟩⟩
      · exact hlift _ h
      · exact hlift _ h
      · exact hlift _ h
      · -- inside the root only hooks and names fail
        rw [h] at hmake
        rcases makeInside_eq_error hmake.outcome with rfl | ⟨c, hc, hfails⟩
        · simp [Failure.isRefusal] at he
        · exact absurd hfails (hmake.own c hc)
    · rw [hf made e hmade] at he
      simp at he
  · intro h
    rw [h]
    exact (Traced.FailsItself.of_lift _ e).bind

/-- What is refused is refused by the first of three checks that it does not pass. -/
lemma make_eq_lift_iff (g : Generator) (thing : Thing) (o : Option Options) :
    (g.make thing o = .lift (.error .notElement) ↔ thing.element? = none) ∧
      (g.make thing o = .lift (.error .noRoot) ↔ thing.element? ≠ none ∧ g.IsRootless o) ∧
      (g.make thing o = .lift (.error .outsideRoot) ↔
        ∃ n, thing.element? = some n ∧ g.IsOutside o n) := by
  have hinj : ∀ {a b : Failure}, (Traced.lift (.error a) : Traced Made) = .lift (.error b) ↔
      a = b := by
    intro a b
    refine ⟨fun h => Except.error.inj (congrArg Traced.outcome h), fun h => h ▸ rfl⟩
  rcases make_cases g thing o with ⟨ht, h⟩ | ⟨n, ht, ⟨hc, h⟩ | ⟨hc, h⟩ | ⟨hr, hout, m, h⟩⟩
  · rw [h, hinj, hinj, hinj, ht]
    simp
  · have hout : ¬ g.IsOutside o n := by
      rintro ⟨root, hroot, -⟩
      obtain ⟨d, hd, hnone⟩ := hc
      simp [effectiveRoot?, hd, hnone] at hroot
    rw [h, hinj, hinj, hinj, ht]
    simp [hc, hout]
  · have hr : ¬ g.IsRootless o := by
      obtain ⟨root, hroot, -⟩ := hc
      rintro ⟨d, hd, hnone⟩
      simp [effectiveRoot?, hd, hnone] at hroot
    rw [h, hinj, hinj, hinj, ht]
    simp [hc, hr]
  · have hnot : ∀ why : Failure, why.isRefusal → makeInside g.registry.heuristics m ≠
        .lift (.error why) := by
      intro why hwhy heq
      rcases makeInside_eq_error (congrArg Traced.outcome heq) with rfl | ⟨c, hlast, -⟩
      · simp [Failure.isRefusal] at hwhy
      · simp [heq, Traced.lift] at hlast
    rw [h, ht]
    simp [hr, hout, hnot .notElement rfl, hnot .noRoot rfl, hnot .outsideRoot rfl]

/-- **A result behind three checks**, for an element, a root and a place inside it: it fails by
itself in one of these ways exactly where the check does not pass, and then without any call. -/
structure IsChecked (g : Generator) (thing : Thing) (o : Option Options) (t : Traced Text) :
    Prop where
  notElement : t.FailsItself g.registry.heuristics .notElement ↔ thing.element? = none
  noRoot : t.FailsItself g.registry.heuristics .noRoot ↔
    thing.element? ≠ none ∧ g.IsRootless o
  outsideRoot : t.FailsItself g.registry.heuristics .outsideRoot ↔
    ∃ n, thing.element? = some n ∧ g.IsOutside o n
  silent : ∀ e, e.isRefusal → t.FailsItself g.registry.heuristics e → t.calls = []

/-- What is made from a path is behind its checks, if nothing else is refused. -/
lemma isChecked_bind {f : Made → Traced Text}
    (hf : ∀ made why, (f made).outcome = .error why → why.isRefusal = false) :
    g.IsChecked thing o (g.make thing o >>= f) := by
  obtain ⟨hnotElement, hnoRoot, houtside⟩ := make_eq_lift_iff g thing o
  refine ⟨(failsItself_iff_of_isRefusal hf rfl).trans hnotElement,
    (failsItself_iff_of_isRefusal hf rfl).trans hnoRoot,
    (failsItself_iff_of_isRefusal hf rfl).trans houtside, fun e he h => ?_⟩
  rw [(failsItself_iff_of_isRefusal hf he).mp h]
  rfl

lemma isChecked_pathOf : g.IsChecked thing o (g.pathOf thing o) := isChecked_bind (by simp)

lemma isChecked_shortest : g.IsChecked thing o (g.shortest thing o) :=
  isChecked_bind fun _ _ => isRefusal_of_finish

/-- Making a path is misused only by what is no element. -/
lemma eq_notElement_of_isMisuse (h : (g.make thing o).FailsItself g.registry.heuristics e)
    (he : e.isMisuse) : e = .notElement := by
  rcases make_cases g thing o with ⟨-, hm⟩ | ⟨n, -, ⟨-, hm⟩ | ⟨-, hm⟩ | ⟨-, -, m, hm⟩⟩
  all_goals rw [hm] at h
  · exact (Except.error.inj h.outcome).symm
  · rw [← Except.error.inj h.outcome] at he
    simp [Failure.isMisuse] at he
  · rw [← Except.error.inj h.outcome] at he
    simp [Failure.isMisuse] at he
  · rcases makeInside_eq_error h.outcome with rfl | ⟨c, hc, hfails⟩
    · simp [Failure.isMisuse] at he
    · exact absurd hfails (h.own c hc)

end Generator

/-! ### What is refused -/

namespace Generator

open XPath

variable {g : Generator} {o : Option Options} {thing : Thing} {e : Failure}

/-- The search for the shortest spelling of the path of an element comes to an expression,
and of the prefixes in force there one cannot be bound. -/
def IsUnbound (g : Generator) (thing : Thing) (o : Option Options) (e : Failure) : Prop :=
  ∃ n made steps, thing = .node n ∧ (g.make thing o).outcome = .ok made ∧
    made.steps = some steps ∧
    let context := firstPresent [made.settings.root, .node made.root]
    context.CanStart ∧ evaluates context n (candidates steps) ∧
      checkNamespaces (prefixes made.settings context) = .error e

/-- **What is refused.** A path and its shortest spelling are refused for what is no element,
for an element if the root that is asked for is a document without a root element, and for an
element that is neither the root nor inside it, and no hook is called then. Whatever else fails
by itself is no misuse, except that the search for the shortest spelling evaluates expressions,
and fails if a prefix that is in force has no name or no namespace. -/
theorem refusals (g : Generator) (thing : Thing) (o : Option Options) :
    g.IsChecked thing o (g.pathOf thing o) ∧ g.IsChecked thing o (g.shortest thing o) ∧
    (∀ e, e.isMisuse → (g.pathOf thing o).FailsItself g.registry.heuristics e →
      e = .notElement) ∧
    (∀ e, e.isMisuse → (g.shortest thing o).FailsItself g.registry.heuristics e →
      e = .notElement ∨ g.IsUnbound thing o e) ∧
    ∀ e, g.IsUnbound thing o e → (g.shortest thing o).outcome = .error e := by
  refine ⟨isChecked_pathOf, isChecked_shortest, fun e he h => ?_, fun e he h => ?_, fun e h => ?_⟩
  · rcases h.of_bind with h | ⟨made, -, h⟩
    · exact eq_notElement_of_isMisuse h he
    · simp at h
  · rw [shortest_eq_finish] at h
    rcases h.of_bind with h | ⟨made, hmade, h⟩
    · exact .inl (eq_notElement_of_isMisuse h he)
    · obtain ⟨n, steps, hn, hsteps, h⟩ := finish_eq_error.mp h
      rcases firstThatFinds_eq_error_cases (fun c => isTrim_of_mem_candidates) h with
        h | ⟨hs, hev, hb⟩
      · simp [Failure.isOther, he] at h
      · exact .inr ⟨n, made, steps, hn, hmade, hsteps, hs, hev, hb⟩
  · obtain ⟨n, made, steps, hn, hmade, hsteps, hs, hev, hb⟩ := h
    rw [shortest_eq_finish, Traced.outcome_bind, hmade, ok_bind, finish_eq_error]
    exact ⟨n, steps, hn, hsteps, firstThatFinds_of_checkNamespaces
      (fun c => isTrim_of_mem_candidates) hs hb hev⟩

/-- The built-in heuristics keep every step. -/
lemma decorate_builtIn {h : Heuristic} (hh : h ∈ Heuristic.builtIn)
    {hook : StepMade → Outcome Answer} (hhook : h.decorate = some hook) (s : StepMade) :
    hook s = .ok (.text s.segment) := by
  simp only [Heuristic.builtIn, List.mem_cons, List.not_mem_nil, or_false] at hh
  rcases hh with rfl | rfl | rfl | rfl
  · exact absurd (hhook.symm.trans rfl) (Option.some_ne_none hook)
  · exact absurd (hhook.symm.trans rfl) (Option.some_ne_none hook)
  · exact absurd (hhook.symm.trans rfl) (Option.some_ne_none hook)
  · obtain rfl := Option.some.inj hhook
    rfl

/-- Options that bind a prefix without a name. -/
def prefixless : Options := { namespaces := some [([], ['u'])] }

/-- The search for the shortest spelling of the path of an element fails by itself if a prefix
without a name is bound; the path alone can be made. -/
theorem shortest_prefixless :
    (Thing.node ⟨nested, [0, 0]⟩).element? = some ⟨nested, [0, 0]⟩ ∧
      (({} : Generator).pathOf (.node ⟨nested, [0, 0]⟩) (some prefixless)).outcome =
        .ok ['/', 'r', '/', 'a'] ∧
      (({} : Generator).shortest (.node ⟨nested, [0, 0]⟩) (some prefixless)).FailsItself
        ({} : Generator).registry.heuristics .emptyPrefix ∧
      Failure.isMisuse .emptyPrefix := by
  let made : Made := ⟨['/', 'r', '/', 'a'], ({} : Generator).settings (some prefixless),
    ⟨nested, [0]⟩, some [['r'], ['a']]⟩
  have hmade : (({} : Generator).make (.node ⟨nested, [0, 0]⟩) (some prefixless)).outcome =
      .ok made := rfl
  have hcandidates : candidates [['r'], ['a']] =
      [['/', '/', 'a'], ['/', 'r', '/', 'a'], ['/', '/', 'r', '/', 'a']] := by
    have hforms : dedup (((spellings [['r'], ['a']]).map normalize).filter fun s => !s.isEmpty) =
        [['/', 'r', '/', 'a'], ['/', '/', 'r', '/', 'a'], ['/', '/', 'a']] := rfl
    rw [candidates, if_neg (by decide)]
    simp only [hforms]
    simp [List.mergeSort, List.MergeSort.Internal.splitInTwo]
  have hfinish : (finish (.node ⟨nested, [0, 0]⟩) made).outcome = .error .emptyPrefix := by
    refine finish_eq_error.mpr ⟨_, _, rfl, rfl, ?_⟩
    refine firstThatFinds_of_checkNamespaces (fun c => isTrim_of_mem_candidates)
      ⟨_, _, rfl, rfl⟩ rfl ?_
    rw [hcandidates]
    rfl
  refine ⟨rfl, rfl, ⟨?_, fun c hc => ?_⟩, rfl⟩
  · rw [shortest_eq_finish, Traced.outcome_bind, hmade, ok_bind, hfinish]
  · rw [shortest_eq_finish, Traced.calls_bind, hmade] at hc
    simp only [calls_finish, List.append_nil] at hc
    -- the hook called last keeps a step
    obtain rfl : .decorate Heuristic.keepSteps.name ⟨⟨nested, [0]⟩, ['r'], .auto⟩ = c :=
      Option.some.inj hc
    rintro ⟨h, hh, -, hook, hhook, hfails⟩
    rw [decorate_builtIn hh hhook] at hfails
    simp at hfails

end Generator

end Locator

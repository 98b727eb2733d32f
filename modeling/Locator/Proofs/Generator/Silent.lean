/-
Heuristics that change nothing

* `Heuristic.IsSilent`: no hook fails, none answers a whole path, and none changes a step or a
  path;
* `newcomers_filter`: the newcomers among the entries that stay;
* `outcome_make_filter`: silent heuristics do not change what is made of an element, the steps
  included, so that the search for the shortest spelling tries the same ones;
* `Generator.outcomes_of_silent`: **silent plugins cannot be noticed** in the path of an
  element, in its shortest spelling or in the path of the nearest element around several.
-/
import Locator.Generator.Resolve
import Locator.Proofs.Generator.Making
import Locator.Proofs.Generator.Registry

namespace Locator

/-! ### Silent heuristics -/

/-- An answer that leaves a text as it is: nothing, an empty text, another value than a text,
or the text itself. -/
def Answer.Leaves (x : Answer) (s : Text) : Prop :=
  x = .none ∨ x = .text [] ∨ (∃ b, x = .other b) ∨ x = .text s

/-- Where such an answer counts as a text, it is the text itself. -/
lemma Answer.Leaves.eq_of_text? {x : Answer} {s t : Text} (h : x.Leaves s)
    (ht : x.text? = some t) : t = s := by
  rcases h with rfl | rfl | ⟨b, rfl⟩ | rfl
  · cases ht
  · cases ht
  · cases ht
  · cases s with
    | nil => cases ht
    | cons c r => exact (Option.some.inj ht).symm

/-- **A silent heuristic**: its hooks do not fail, answer no path, and leave every step and
every path as it is. -/
structure Heuristic.IsSilent (h : Heuristic) : Prop where
  provide : ∀ hook ∈ h.provide, ∀ m, hook m = .ok .none ∨ hook m = .ok (.text [])
  before : ∀ hook ∈ h.before, ∀ m, hook m = .ok ()
  decorate : ∀ hook ∈ h.decorate, ∀ s, ∃ x, hook s = .ok x ∧ x.Leaves s.segment
  after : ∀ hook ∈ h.after, ∀ m path, ∃ x, hook m path = .ok x ∧ x.Leaves path

section Walks

variable {h : Heuristic} {hs : List Heuristic} {m : Making} {n : Node} {s path : Text}
  {strategy : IndexStrategy} {kept : Bool}

namespace Generator

/-! ### One heuristic in front of others -/

/-- The outcome of asking for a whole path: an answer that counts as given is the last one. -/
lemma outcome_provided (m : Making) (h : Heuristic) (hs : List Heuristic) :
    (provided m (h :: hs)).outcome = ((h.provide.map fun hook => hook m).getD (.ok .none) >>=
      fun x => if x.isTruthy then .ok (some x) else (provided m hs).outcome) := by
  cases hh : h.provide with
  | none => rw [provided, hh]; rfl
  | some hook => rw [outcome_provided_cons hh]; rfl

/-- The outcome of announcing an element. -/
lemma outcome_announce (m : Making) (h : Heuristic) (hs : List Heuristic) :
    (announce m (h :: hs)).outcome = ((h.before.map fun hook => hook m).getD (.ok ()) >>=
      fun _ => (announce m hs).outcome) := by
  cases hh : h.before with
  | none => rw [announce, hh]; rfl
  | some hook => simp only [announce, hh, Traced.outcome_bind, Traced.outcome_call]; rfl

/-- The outcome of decorating a step. -/
lemma outcome_decorated (n : Node) (strategy : IndexStrategy) (s : Text) (h : Heuristic)
    (hs : List Heuristic) : (decorated n strategy s (h :: hs)).outcome =
      ((h.decorate.map fun hook => hook ⟨n, s, strategy⟩).getD (.ok .none) >>=
        fun x => (decorated n strategy (x.text?.getD s) hs).outcome) := by
  cases hh : h.decorate with
  | none => rw [decorated, hh]; rfl
  | some hook => simp only [decorated, hh, Traced.outcome_bind, Traced.outcome_call]; rfl

/-- The outcome of adjusting a path. -/
lemma outcome_adjusted (m : Making) (path : Text) (kept : Bool) (h : Heuristic)
    (hs : List Heuristic) : (adjusted m path kept (h :: hs)).outcome =
      ((h.after.map fun hook => hook m path).getD (.ok .none) >>= fun x =>
        match x.text? with
        | none => (adjusted m path kept hs).outcome
        | some t =>
          (adjusted m (XPath.normalize t) (kept && XPath.normalize t == path) hs).outcome) := by
  cases hh : h.after with
  | none => rw [adjusted, hh]; rfl
  | some hook =>
      simp only [adjusted, hh, Traced.outcome_bind, Traced.outcome_call]
      refine congrArg _ (funext fun x => ?_)
      cases x.text? <;> rfl

end Generator

/-! ### A silent heuristic in front of others -/

namespace Heuristic.IsSilent

open Generator

lemma outcome_provided (hh : h.IsSilent) (m : Making) (hs : List Heuristic) :
    (provided m (h :: hs)).outcome = (provided m hs).outcome := by
  rw [Generator.outcome_provided]
  cases hp : h.provide with
  | none => rfl
  | some hook => rcases hh.provide hook hp m with hx | hx <;> simp [hx, Answer.isTruthy]

lemma outcome_announce (hh : h.IsSilent) (m : Making) (hs : List Heuristic) :
    (announce m (h :: hs)).outcome = (announce m hs).outcome := by
  rw [Generator.outcome_announce]
  cases hb : h.before with
  | none => rfl
  | some hook => simp [hh.before hook hb m]

lemma outcome_decorated (hh : h.IsSilent) (n : Node) (strategy : IndexStrategy) (s : Text)
    (hs : List Heuristic) :
    (decorated n strategy s (h :: hs)).outcome = (decorated n strategy s hs).outcome := by
  rw [Generator.outcome_decorated]
  cases hd : h.decorate with
  | none => rfl
  | some hook =>
      obtain ⟨x, hx, hleaves⟩ := hh.decorate hook hd ⟨n, s, strategy⟩
      have hstays : x.text?.getD s = s := by
        cases ht : x.text? with
        | none => rfl
        | some t => exact hleaves.eq_of_text? ht
      simp [hx, hstays]

/-- A normal form that is answered again is the path itself, and its steps stay known. -/
lemma outcome_adjusted (hh : h.IsSilent) (m : Making) (hpath : XPath.normalize path = path)
    (kept : Bool) (hs : List Heuristic) :
    (adjusted m path kept (h :: hs)).outcome = (adjusted m path kept hs).outcome := by
  rw [Generator.outcome_adjusted]
  cases ha : h.after with
  | none => rfl
  | some hook =>
      obtain ⟨x, hx, hleaves⟩ := hh.after hook ha m path
      cases ht : x.text? with
      | none => simp [hx, ht]
      | some t =>
          obtain rfl := hleaves.eq_of_text? ht
          simp [hx, ht, hpath]

end Heuristic.IsSilent

/-! ### Silent heuristics among others -/

variable {loud : Heuristic → Bool} {back : List Heuristic}

/-- The heuristics that do not stay are silent. -/
def DropsSilent (loud : Heuristic → Bool) (hs : List Heuristic) : Prop :=
  ∀ h ∈ hs, loud h = false → h.IsSilent

namespace DropsSilent

open Generator

lemma of_cons (hq : DropsSilent loud (h :: hs)) : DropsSilent loud hs :=
  fun k hk => hq k (List.mem_cons_of_mem h hk)

lemma isSilent (hq : DropsSilent loud (h :: hs)) (hl : loud h = false) : h.IsSilent :=
  hq h List.mem_cons_self hl

lemma outcome_provided (hq : DropsSilent loud hs) (m : Making) (back : List Heuristic) :
    (provided m (hs ++ back)).outcome = (provided m (hs.filter loud ++ back)).outcome := by
  induction hs with
  | nil => rfl
  | cons h hs ih =>
      have ih := ih hq.of_cons
      cases hl : loud h with
      | true =>
          rw [List.filter_cons_of_pos hl, List.cons_append, List.cons_append,
            Generator.outcome_provided, ih, ← Generator.outcome_provided]
      | false =>
          rw [List.filter_cons_of_neg (by simp [hl]), List.cons_append,
            (hq.isSilent hl).outcome_provided, ih]

lemma outcome_announce (hq : DropsSilent loud hs) (m : Making) (back : List Heuristic) :
    (announce m (hs ++ back)).outcome = (announce m (hs.filter loud ++ back)).outcome := by
  induction hs with
  | nil => rfl
  | cons h hs ih =>
      have ih := ih hq.of_cons
      cases hl : loud h with
      | true =>
          rw [List.filter_cons_of_pos hl, List.cons_append, List.cons_append,
            Generator.outcome_announce, ih, ← Generator.outcome_announce]
      | false =>
          rw [List.filter_cons_of_neg (by simp [hl]), List.cons_append,
            (hq.isSilent hl).outcome_announce, ih]

lemma outcome_decorated (hq : DropsSilent loud hs) (n : Node) (strategy : IndexStrategy)
    (s : Text) (back : List Heuristic) : (decorated n strategy s (hs ++ back)).outcome =
      (decorated n strategy s (hs.filter loud ++ back)).outcome := by
  induction hs generalizing s with
  | nil => rfl
  | cons h hs ih =>
      have ih := ih hq.of_cons
      cases hl : loud h with
      | true =>
          rw [List.filter_cons_of_pos hl, List.cons_append, List.cons_append,
            Generator.outcome_decorated, Generator.outcome_decorated]
          exact congrArg _ (funext fun x => ih _)
      | false =>
          rw [List.filter_cons_of_neg (by simp [hl]), List.cons_append,
            (hq.isSilent hl).outcome_decorated, ih]

/-- What is answered for a path is normalized, so that every hook gets a normal form. -/
lemma outcome_adjusted (hq : DropsSilent loud hs) (m : Making)
    (hpath : XPath.normalize path = path) (kept : Bool) (back : List Heuristic) :
    (adjusted m path kept (hs ++ back)).outcome =
      (adjusted m path kept (hs.filter loud ++ back)).outcome := by
  induction hs generalizing path kept with
  | nil => rfl
  | cons h hs ih =>
      have ih := fun {p} (hp : XPath.normalize p = p) k => ih hq.of_cons hp k
      cases hl : loud h with
      | true =>
          rw [List.filter_cons_of_pos hl, List.cons_append, List.cons_append,
            Generator.outcome_adjusted, Generator.outcome_adjusted]
          refine congrArg _ (funext fun x => ?_)
          cases x.text? with
          | none => exact ih hpath kept
          | some t => exact ih (XPath.normalize_normalize t) _
      | false =>
          rw [List.filter_cons_of_neg (by simp [hl]), List.cons_append,
            (hq.isSilent hl).outcome_adjusted m hpath, ih hpath]

lemma outcome_stepsOf (hq : DropsSilent loud hs) (m : Making) (back : List Heuristic)
    (ns : List Node) :
    (stepsOf m (hs ++ back) ns).outcome = (stepsOf m (hs.filter loud ++ back) ns).outcome := by
  induction ns with
  | nil => rfl
  | cons n ns ih =>
      simp only [stepsOf, Traced.outcome_bind, Traced.outcome_lift, ih, hq.outcome_announce,
        hq.outcome_decorated]

/-- **What is made of an element** stays the same without silent heuristics, its steps
included. -/
lemma outcome_makeInside (hq : DropsSilent loud hs) (m : Making) (back : List Heuristic) :
    (makeInside (hs ++ back) m).outcome = (makeInside (hs.filter loud ++ back) m).outcome := by
  simp only [makeInside, Traced.outcome_bind, hq.outcome_provided]
  refine congrArg _ (funext fun x => ?_)
  cases x with
  | some answer => rfl
  | none =>
      simp only [Traced.outcome_bind, hq.outcome_stepsOf]
      refine congrArg _ (funext fun steps => ?_)
      rw [hq.outcome_adjusted m (XPath.normalize_normalize _)]

end DropsSilent

end Walks

/-! ### Silent plugins -/

/-- The entries that do not stay share no name with those that do. -/
def DropsWholeNames (loud : Heuristic → Bool) (es : List Heuristic) : Prop :=
  ∀ h ∈ es, ∀ k ∈ es, loud h = false → loud k = true → h.name ≠ k.name

/-- **The newcomers that stay** are the newcomers among the entries that stay. -/
lemma newcomers_filter {loud : Heuristic → Bool} {es : List Heuristic}
    (hn : DropsWholeNames loud es) (names : List Text) :
    newcomers names (es.filter loud) = (newcomers names es).filter loud := by
  induction es using List.reverseRecOn with
  | nil => rfl
  | append_singleton es h ih =>
      have hfront : DropsWholeNames loud es := fun k hk l hl =>
        hn k (List.mem_append_left _ hk) l (List.mem_append_left _ hl)
      rw [List.filter_append, newcomers_append_singleton, List.filter_append, ← ih hfront]
      cases hl : loud h with
      | false =>
          rw [List.filter_cons_of_neg (by simp [hl]), List.filter_nil, List.append_nil]
          split_ifs <;> simp [hl]
      | true =>
          have htaken : isTaken names (es.filter loud) h ↔ isTaken names es h := by
            refine or_congr_right ⟨fun hm => ?_, fun hm => ?_⟩
            · exact List.map_subset _ (List.filter_subset_self es) hm
            · obtain ⟨k, hk, hkn⟩ := List.mem_map.mp hm
              refine List.mem_map.mpr ⟨k, List.mem_filter.mpr ⟨hk, ?_⟩, hkn⟩
              by_contra hq
              exact hn k (List.mem_append_left _ hk) h (by simp) (by simpa using hq) hl hkn
          rw [List.filter_cons_of_pos hl, List.filter_nil, newcomers_append_singleton]
          split_ifs with h1 h2 h2
          · simp
          · exact absurd (htaken.mp h1) h2
          · exact absurd (htaken.mpr h2) h1
          · simp [hl]

/-- A newcomer is one of the entries. -/
lemma mem_of_mem_newcomers {names : List Text} {es : List Heuristic} {h : Heuristic}
    (hm : h ∈ newcomers names es) : h ∈ es := by
  obtain ⟨⟨k, i⟩, hx, hk⟩ := List.mem_filterMap.mp hm
  split_ifs at hk
  obtain rfl := Option.some.inj hk
  exact List.fst_mem_of_mem_zipIdx hx

/-- **Generators that answer alike**: with the same path or failure for every element, the
same shortest spelling, and the same path of the nearest element around several. -/
structure Generator.AnswersLike (g f : Generator) : Prop where
  pathOf : ∀ thing o, (g.pathOf thing o).outcome = (f.pathOf thing o).outcome
  shortest : ∀ thing o, (g.shortest thing o).outcome = (f.shortest thing o).outcome
  commonPath : ∀ things o, (g.commonPath things o).outcome = (f.commonPath things o).outcome

namespace Generator

variable {loud : Heuristic → Bool} {es : List Heuristic}

/-- Generators that make the same of every element answer alike. -/
lemma answersLike_of_make {f g : Generator}
    (h : ∀ thing o, (g.make thing o).outcome = (f.make thing o).outcome) :
    g.AnswersLike f := by
  have hpath : ∀ thing o, (g.pathOf thing o).outcome = (f.pathOf thing o).outcome :=
    fun thing o => by rw [pathOf, pathOf, Traced.outcome_bind, Traced.outcome_bind, h]
  refine ⟨hpath, fun thing o => ?_, fun things o => ?_⟩
  · rw [shortest, shortest, Traced.outcome_bind, Traced.outcome_bind, h]
  · rw [commonPath, commonPath]
    cases Node.commonAncestor (things.filterMap Thing.element?) with
    | none => rfl
    | some n => simp only [Traced.outcome_bind, hpath]

/-- Calls one after the other are one call with all entries. -/
lemma foldl_register (g : Generator) (calls : List (List Heuristic)) :
    calls.foldl register g = g.register calls.flatten := by
  induction calls generalizing g with
  | nil => rfl
  | cons es calls ih =>
      rw [List.foldl_cons, ih, List.flatten_cons, register, register, register,
        Registry.register, Registry.register, Registry.register, List.foldl_append]

/-- The plugins of a new generator are the ones that a plain one gets first. -/
lemma create_eq_register (config : GeneratorConfig) (defaults : Option Options)
    (plugins : List Heuristic) (document : Thing) :
    create config defaults plugins document =
      (create { config with plugins := [] } defaults [] document).register
        (if plugins.isEmpty then config.plugins else plugins) := rfl

/-- **What is made of an element** stays the same without silent plugins. -/
lemma outcome_make_register (g : Generator) (hq : DropsSilent loud es)
    (hn : DropsWholeNames loud es) (thing : Thing) (o : Option Options) :
    ((g.register es).make thing o).outcome =
      ((g.register (es.filter loud)).make thing o).outcome := by
  have hfront : DropsSilent loud (newcomers g.registry.names es).reverse :=
    fun h hm => hq h (mem_of_mem_newcomers (List.mem_reverse.mp hm))
  rw [make, make]
  cases thing.element? with
  | none => rfl
  | some n =>
      simp only [register, Registry.heuristics_register, newcomers_filter hn,
        ← List.filter_reverse, settings]
      cases rootElement? (Settings.of (Options.merge g.defaults o)) (some n.document) n with
      | none => rfl
      | some root =>
          cases hc : chainTo n root with
          | none => simp only [hc]
          | some ancestors => simp only [hc, hfront.outcome_makeInside _ g.registry.heuristics]

/-- **Silent plugins cannot be noticed.** A generator gets plugins when it is made and in any
later calls, in any order and number, and `loud` says which of them stay. If those that do not
are silent and share no name with those that do, the generator answers like the one that never
got them. If all plugins are silent, `loud` can be false throughout, and the generator answers
like the plain one. -/
theorem answersLike_of_silent (config : GeneratorConfig) (defaults : Option Options)
    (plugins : List Heuristic) (document : Thing) (calls : List (List Heuristic))
    (loud : Heuristic → Bool) :
    let start := if plugins.isEmpty then config.plugins else plugins
    let plain := create { config with plugins := [] } defaults [] document
    DropsSilent loud (start ++ calls.flatten) → DropsWholeNames loud (start ++ calls.flatten) →
      (calls.foldl register (create config defaults plugins document)).AnswersLike
        ((calls.map (·.filter loud)).foldl register (plain.register (start.filter loud))) := by
  intro start plain hq hn
  have hall : ∀ (start : List Heuristic) (calls : List (List Heuristic)),
      calls.foldl register (plain.register start) = plain.register (start ++ calls.flatten) :=
    fun start calls => foldl_register plain (start :: calls)
  have hflat : (calls.map (·.filter loud)).flatten = calls.flatten.filter loud :=
    List.filter_flatten.symm
  rw [create_eq_register, hall, hall, hflat, ← List.filter_append]
  exact answersLike_of_make (outcome_make_register plain hq hn)

/-- A plugin that has every hook and changes nothing. -/
def echo : Heuristic where
  name := ['e']
  provide := some fun _ => .ok (.text [])
  before := some fun _ => .ok ()
  decorate := some fun s => .ok (if s.node.isElement then .text s.segment else .other true)
  after := some fun _ path => .ok (.text path)

lemma isSilent_echo : echo.IsSilent where
  provide hook h m := by obtain rfl := Option.some.inj h; exact .inr rfl
  before hook h m := by obtain rfl := Option.some.inj h; rfl
  decorate hook h s := by
    obtain rfl := Option.some.inj h
    by_cases hn : s.node.isElement
    · exact ⟨.text s.segment, by simp [hn], .inr (.inr (.inr rfl))⟩
    · exact ⟨.other true, by simp [hn], .inr (.inr (.inl ⟨true, rfl⟩))⟩
  after hook h m path := by
    obtain rfl := Option.some.inj h
    exact ⟨.text path, rfl, .inr (.inr (.inr rfl))⟩

/-- A plugin that puts a test behind every step. -/
def testing : Heuristic where
  name := ['m']
  decorate := some fun s => .ok (.text (s.segment ++ "[true()]".toList))

/-- A silent plugin, given first and twice more beside another one, is not noticed. -/
theorem answersLike_echo :
    DropsSilent (·.name == ['m']) [echo, echo, testing, echo] ∧
      DropsWholeNames (·.name == ['m']) [echo, echo, testing, echo] ∧
      ([[echo], [testing, echo]].foldl register (create {} none [echo] .nothing)).AnswersLike
        ((create {} none [] .nothing).register [testing]) := by
  have hq : DropsSilent (·.name == ['m']) [echo, echo, testing, echo] := fun h hm hl => by
    simp only [List.mem_cons, List.not_mem_nil, or_false] at hm
    rcases hm with rfl | rfl | rfl | rfl
    · exact isSilent_echo
    · exact isSilent_echo
    · cases hl
    · exact isSilent_echo
  have hn : DropsWholeNames (·.name == ['m']) [echo, echo, testing, echo] :=
    fun h _ k _ hl hk he => by simp [he, hk] at hl
  exact ⟨hq, hn, answersLike_of_silent {} none [echo] .nothing [[echo], [testing, echo]] _ hq hn⟩

end Generator

end Locator

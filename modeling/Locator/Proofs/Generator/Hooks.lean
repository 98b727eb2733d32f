/-
The order in which hooks are called

* `upTo`: the items of a list up to and including the first one that ends it;
* `Turn`, `turnsOf`: the turns of the hooks of one kind, in the order of the registry, each
  with what the hooks in front of it have left;
* `Making.askTurns`, `Making.pathTurns`: the turns of hooks that may answer a whole path, and
  those behind them: for every element from the wanted one up to the root its announcements,
  its step and its decorations, and at last the adjustments of the path;
* `Traced.Plays`: a result with the calls of turns up to the first one that fails, and
  `Traced.Plays.bind`: turns behind turns;
* `Generator.calls_pathOf`: **the calls that the path of an element is made with**.
-/
import Locator.Proofs.Generator.Making

namespace Locator

/-! ### Lists up to an end -/

section UpTo

variable {α : Type} {p : α → Bool} {a : α} {l r : List α}

/-- The items up to and including the first one that passes. -/
def upTo (p : α → Bool) (l : List α) : List α :=
  l.takeWhile (fun a => !p a) ++ (l.find? p).toList

@[simp]
lemma upTo_nil : upTo p [] = [] := rfl

lemma upTo_cons_of_pos (h : p a = true) : upTo p (a :: l) = [a] := by simp [upTo, h]

lemma upTo_cons_of_neg (h : p a = false) : upTo p (a :: l) = a :: upTo p l := by simp [upTo, h]

lemma isPrefix_upTo (p : α → Bool) (l : List α) : upTo p l <+: l := by
  induction l with
  | nil => exact List.nil_prefix
  | cons a l ih =>
      cases h : p a with
      | true => exact ⟨l, by rw [upTo_cons_of_pos h, List.singleton_append]⟩
      | false =>
          rw [upTo_cons_of_neg h, List.prefix_cons_inj]
          exact ih

/-- Without an end the list is whole. -/
lemma upTo_of_find?_eq_none (h : l.find? p = none) : upTo p l = l := by
  have hall : ∀ a ∈ l, p a = false := by simpa [List.find?_eq_none] using h
  rw [upTo, h, Option.toList_none, List.append_nil,
    List.takeWhile_eq_self_iff.mpr fun a ha => by rw [hall a ha, Bool.not_false]]

/-- Behind a list with an end nothing counts. -/
lemma upTo_append_of_some (h : l.find? p = some a) : upTo p (l ++ r) = upTo p l := by
  induction l with
  | nil => exact absurd h (Option.some_ne_none a).symm
  | cons b l ih =>
      cases hb : p b with
      | true => rw [List.cons_append, upTo_cons_of_pos hb, upTo_cons_of_pos hb]
      | false =>
          rw [List.cons_append, upTo_cons_of_neg hb, upTo_cons_of_neg hb,
            ih (by simpa [List.find?_cons, hb] using h)]

lemma upTo_append_of_none (h : l.find? p = none) : upTo p (l ++ r) = l ++ upTo p r := by
  induction l with
  | nil => rfl
  | cons b l ih =>
      have hb : p b = false := by
        rw [List.find?_eq_none] at h
        simpa using h b List.mem_cons_self
      rw [List.cons_append, upTo_cons_of_neg hb, ih (by simpa [List.find?_cons, hb] using h),
        List.cons_append]

end UpTo

/-! ### Turns -/

/-- A turn: the call of a hook, or none for what is no hook, and what comes of it. -/
structure Turn (β : Type) where
  call? : Option Call
  outcome : Outcome β

namespace Turn

variable {β : Type}

/-- Does the turn fail? -/
def fails (t : Turn β) : Bool := !t.outcome.isOk

/-- Does the turn fail or answer something that counts as given? -/
def ends (t : Turn Answer) : Bool :=
  match t.outcome with
  | .ok answer => answer.isTruthy
  | .error _ => true

/-- A turn whose answer does not count any more. -/
def done (t : Turn β) : Turn Unit := ⟨t.call?, t.outcome.map fun _ => ()⟩

/-- What comes of turns: the failure of the first one that fails. -/
def outcomeOf (ts : List (Turn Unit)) : Outcome Unit :=
  match ts.find? fails with
  | some t => t.outcome
  | none => .ok ()

/-- The calls of turns up to the first one that fails. -/
def callsOf (ts : List (Turn Unit)) : List Call := (upTo fails ts).filterMap Turn.call?

variable {t : Turn Unit} {ts us : List (Turn Unit)}

lemma outcomeOf_cons : outcomeOf (t :: ts) = t.outcome >>= fun _ => outcomeOf ts := by
  rw [outcomeOf, List.find?_cons]
  cases h : t.outcome with
  | ok x => simp [fails, h, Except.isOk, Except.toBool, outcomeOf]
  | error e => simp [fails, h, Except.isOk, Except.toBool]

lemma outcomeOf_append : outcomeOf (ts ++ us) = outcomeOf ts >>= fun _ => outcomeOf us := by
  induction ts with
  | nil => rfl
  | cons t ts ih =>
      rw [List.cons_append, outcomeOf_cons, ih, outcomeOf_cons]
      cases t.outcome <;> rfl

lemma find?_of_outcomeOf {x : Unit} (h : outcomeOf ts = .ok x) : ts.find? fails = none := by
  cases hf : ts.find? fails with
  | none => rfl
  | some t =>
      have hfails := List.find?_some hf
      simp only [outcomeOf, hf] at h
      simp [fails, h, Except.isOk, Except.toBool] at hfails

lemma exists_find?_of_outcomeOf {e : Failure} (h : outcomeOf ts = .error e) :
    ∃ t, ts.find? fails = some t := by
  cases hf : ts.find? fails with
  | none => simp [outcomeOf, hf] at h
  | some t => exact ⟨t, rfl⟩

/-- Behind turns that do not fail come others. -/
lemma callsOf_append_of_ok {x : Unit} (h : outcomeOf ts = .ok x) :
    callsOf (ts ++ us) = callsOf ts ++ callsOf us := by
  have hnone := find?_of_outcomeOf h
  rw [callsOf, upTo_append_of_none hnone, List.filterMap_append, callsOf, callsOf,
    upTo_of_find?_eq_none hnone]

/-- Behind turns that fail no others come. -/
lemma callsOf_append_of_error {e : Failure} (h : outcomeOf ts = .error e) :
    callsOf (ts ++ us) = callsOf ts := by
  obtain ⟨t, ht⟩ := exists_find?_of_outcomeOf h
  rw [callsOf, upTo_append_of_some ht, callsOf]

lemma outcomeOf_singleton : outcomeOf [t] = t.outcome := by
  rw [outcomeOf_cons]
  cases t.outcome <;> rfl

lemma callsOf_singleton : callsOf [t] = t.call?.toList := by
  have hone : upTo fails [t] = [t] := by
    cases h : fails t with
    | true => exact upTo_cons_of_pos h
    | false => exact upTo_cons_of_neg h
  rw [callsOf, hone]
  cases h : t.call? <;> simp [h]

end Turn

/-- A result with the calls and the failure of turns, and with a value if none of them
fails. -/
structure Traced.Plays {α : Type} (t : Traced α) (ts : List (Turn Unit)) (a : α) : Prop where
  calls : t.calls = Turn.callsOf ts
  outcome : t.outcome = (Turn.outcomeOf ts).map fun _ => a

namespace Traced

variable {α β : Type} {t : Traced α} {f : α → Traced β} {ts us : List (Turn Unit)} {a : α} {b : β}

lemma plays_pure (a : α) : (pure a : Traced α).Plays [] a := ⟨rfl, rfl⟩

/-- What is no hook has a turn without a call. -/
lemma plays_lift {o : Outcome α} (h : ∀ x, o = .ok x → x = a) :
    (lift o).Plays [⟨none, o.map fun _ => ()⟩] a where
  calls := by rw [Turn.callsOf_singleton]; rfl
  outcome := by
    rw [Turn.outcomeOf_singleton]
    cases o with
    | ok x => rw [h x rfl]; rfl
    | error e => rfl

/-- The call of a hook is its turn. -/
lemma plays_call {o : Outcome α} (c : Call) (h : ∀ x, o = .ok x → x = a) :
    (call c o).Plays [⟨some c, o.map fun _ => ()⟩] a where
  calls := by rw [Turn.callsOf_singleton]; rfl
  outcome := by
    rw [Turn.outcomeOf_singleton]
    cases o with
    | ok x => rw [h x rfl]; rfl
    | error e => rfl

/-- The calls of one result after the other. -/
lemma calls_bind (t : Traced α) (f : α → Traced β) : (t >>= f).calls =
    match t.outcome with
    | .ok x => t.calls ++ (f x).calls
    | .error _ => t.calls := by
  rcases t with ⟨calls, _ | _⟩ <;> rfl

/-- **Turns behind turns**: the others are played only if none of the first ones fails. -/
lemma Plays.bind (ht : t.Plays ts a) (hf : t.outcome = .ok a → (f a).Plays us b) :
    (t >>= f).Plays (ts ++ us) b := by
  have hcalls := calls_bind t f
  cases hts : Turn.outcomeOf ts with
  | ok x =>
      have hout : t.outcome = .ok a := by rw [ht.outcome, hts]; rfl
      have hf := hf hout
      simp only [hout] at hcalls
      constructor
      · rw [hcalls, ht.calls, hf.calls, Turn.callsOf_append_of_ok hts]
      · rw [outcome_bind, hout, ok_bind, hf.outcome, Turn.outcomeOf_append, hts, ok_bind]
  | error e =>
      have hout : t.outcome = .error e := by rw [ht.outcome, hts]; rfl
      simp only [hout] at hcalls
      constructor
      · rw [hcalls, ht.calls, Turn.callsOf_append_of_error hts]
      · rw [outcome_bind, hout, error_bind, Turn.outcomeOf_append, hts, error_bind]
        rfl

/-- What follows without turns only changes the value. -/
lemma Plays.map_pure {c : β} (ht : t.Plays ts a) (hf : f a = pure c) : (t >>= f).Plays ts c := by
  have hlast : t.outcome = .ok a → (f a).Plays [] c := fun _ => hf ▸ plays_pure c
  have h := ht.bind hlast
  rwa [List.append_nil] at h

end Traced

section Turns

variable {σ β : Type} (ask : Heuristic → Option (σ → Outcome β)) (next : σ → β → σ)
  (call : Text → σ → Call)

/-- What the hooks of one kind leave: each that does not fail changes what the ones in front
of it have left. -/
def leftBy (a : σ) (hs : List Heuristic) : σ :=
  hs.foldl (fun a h =>
    match ask h with
    | none => a
    | some hook => match hook a with
      | .ok b => next a b
      | .error _ => a) a

/-- **The turns of the hooks of one kind**, one for each, in the order of the registry, with
what the heuristics in front of it have left. -/
def turnsOf (a : σ) (hs : List Heuristic) : List (Turn β) :=
  hs.zipIdx.filterMap fun x => (ask x.1).map fun hook =>
    ⟨some (call x.1.name (leftBy ask next a (hs.take x.2))),
      hook (leftBy ask next a (hs.take x.2))⟩

variable {ask next call} {a : σ} {h : Heuristic} {hs : List Heuristic} {hook : σ → Outcome β}

@[simp]
lemma turnsOf_nil : turnsOf ask next call a [] = [] := rfl

/-- A heuristic changes what the ones behind it get. -/
lemma turnsOf_cons_eq (b : σ) (hb : leftBy ask next a [h] = b) :
    turnsOf ask next call a (h :: hs) =
      ((ask h).map fun hook => (⟨some (call h.name a), hook a⟩ : Turn β)).toList ++
        turnsOf ask next call b hs := by
  have hrest : ∀ i, leftBy ask next a ((h :: hs).take (i + 1)) =
      leftBy ask next b (hs.take i) := fun i => by
    rw [← hb, leftBy, List.take_succ_cons, List.foldl_cons, leftBy, leftBy]
    rfl
  rw [turnsOf, List.zipIdx_cons', List.filterMap_cons, List.filterMap_map, turnsOf]
  simp only [Function.comp_def, Prod.map, id_eq, hrest]
  cases ask h <;> rfl

/-- A heuristic without a hook of the kind has no turn. -/
lemma turnsOf_cons_none (hh : ask h = none) :
    turnsOf ask next call a (h :: hs) = turnsOf ask next call a hs := by
  rw [turnsOf_cons_eq a (by simp [leftBy, hh]), hh]
  rfl

/-- A heuristic with a hook has a turn. -/
lemma turnsOf_cons_some (hh : ask h = some hook) :
    turnsOf ask next call a (h :: hs) = ⟨some (call h.name a), hook a⟩ ::
      turnsOf ask next call (leftBy ask next a [h]) hs := by
  rw [turnsOf_cons_eq _ rfl, hh]
  rfl

lemma leftBy_cons (a : σ) (h : Heuristic) (hs : List Heuristic) :
    leftBy ask next a (h :: hs) = leftBy ask next (leftBy ask next a [h]) hs := rfl

lemma leftBy_singleton_none (hh : ask h = none) : leftBy ask next a [h] = a := by
  simp [leftBy, hh]

lemma leftBy_singleton_ok {x : β} (hh : ask h = some hook) (hx : hook a = .ok x) :
    leftBy ask next a [h] = next a x := by
  simp [leftBy, hh, hx]

/-- A turn is that of the hook of one of the heuristics. -/
lemma hook_of_mem_turnsOf {t : Turn β} (h : t ∈ turnsOf ask next call a hs) :
    ∃ k ∈ hs, ∃ hook b, ask k = some hook ∧ t.call? = some (call k.name b) ∧
      t.outcome = hook b := by
  obtain ⟨x, hx, ht⟩ := List.mem_filterMap.mp h
  obtain ⟨hook, hhook, rfl⟩ := Option.map_eq_some_iff.mp ht
  exact ⟨x.1, List.fst_mem_of_mem_zipIdx hx, hook, _, hhook, rfl, rfl⟩

/-- The call of a turn is of its kind. -/
lemma call?_of_mem_turnsOf {t : Turn β} (h : t ∈ turnsOf ask next call a hs) :
    ∃ name b, t.call? = some (call name b) := by
  obtain ⟨k, -, -, b, -, hc, -⟩ := hook_of_mem_turnsOf h
  exact ⟨k.name, b, hc⟩

end Turns

/-! ### The turns of a generation -/

namespace Making

variable (m : Making) (hs : List Heuristic) (n : Node)

/-- The turns of the hooks that may answer a whole path. -/
def askTurns : List (Turn Answer) :=
  turnsOf Heuristic.provide (fun m _ => m) .provide m hs

/-- The turns of the hooks that are told of an element. -/
def announceTurns : List (Turn Unit) :=
  turnsOf Heuristic.before (fun m _ => m) .before { m with node := n } hs

/-- The step of an element before any hook. -/
def bareStep : StepMade :=
  ⟨n, (Generator.step n m.settings.strategy).toOption.getD [], m.settings.strategy⟩

/-- A step with the text that is answered for it. -/
def answered (s : StepMade) (answer : Answer) : StepMade :=
  { s with segment := answer.text?.getD s.segment }

/-- The turns of the hooks that decorate the step of an element. -/
def decorateTurns : List (Turn Answer) :=
  turnsOf Heuristic.decorate answered .decorate (m.bareStep n) hs

/-- The turns for an element: it is announced, its step is made, and the step is
decorated. -/
def elementTurns : List (Turn Unit) :=
  m.announceTurns hs n ++
    ⟨none, (Generator.step n m.settings.strategy).map fun _ => ()⟩ ::
      (m.decorateTurns hs n).map Turn.done

/-- The step of an element behind all hooks. -/
def finalStep : Text := (leftBy Heuristic.decorate answered (m.bareStep n) hs).segment

/-- The path before it is adjusted. -/
def joinedPath : Text :=
  XPath.normalize (XPath.path ['/'] (m.ancestors.map (m.finalStep hs)).reverse)

/-- The hook of a heuristic that adjusts a path. -/
def adjustHook (h : Heuristic) : Option (Text → Outcome Answer) := h.after.map fun hook => hook m

/-- A path with the normal form of the text that is answered for it. -/
def readjusted (path : Text) (answer : Answer) : Text :=
  (answer.text?.map XPath.normalize).getD path

/-- The turns of the hooks that adjust the path. -/
def adjustTurns : List (Turn Answer) :=
  turnsOf m.adjustHook readjusted (fun name path => .after name m path) (m.joinedPath hs) hs

/-- The path behind all hooks. -/
def finalPath : Text := leftBy m.adjustHook readjusted (m.joinedPath hs) hs

/-- **The turns for a path**: those for every element from the wanted one up to the root, and
those that adjust it. -/
def pathTurns : List (Turn Unit) :=
  m.ancestors.flatMap (m.elementTurns hs) ++ (m.adjustTurns hs).map Turn.done

end Making

/-! ### What plays the turns -/

/-- The answer of a hook, if it does not fail. -/
def Outcome.answer (o : Outcome Answer) : Answer := o.toOption.getD .none

lemma Outcome.eq_answer {o : Outcome Answer} {x : Answer} (h : o = .ok x) :
    x = Outcome.answer o := by
  rw [h]
  rfl

namespace Generator

variable {m : Making} {hs : List Heuristic} {n : Node} {g : Generator} {o : Option Options}

/-- Elements are announced in the order of the registry. -/
lemma plays_announce (m : Making) (hs : List Heuristic) :
    (announce m hs).Plays (turnsOf Heuristic.before (fun m _ => m) .before m hs) () := by
  induction hs with
  | nil => exact Traced.plays_pure ()
  | cons h hs ih =>
      cases hh : h.before with
      | none =>
          rw [turnsOf_cons_none hh, announce, hh]
          exact ih
      | some hook =>
          have hleft : leftBy Heuristic.before (fun m _ => m) m [h] = m := by
            simp only [leftBy, List.foldl_cons, List.foldl_nil, hh]
            split <;> rfl
          have hturn := Traced.plays_call (o := hook m) (.before h.name m) (a := ()) fun _ _ => rfl
          have hdone : (hook m).map (fun _ => ()) = hook m := by cases hook m <;> rfl
          rw [turnsOf_cons_some hh, hleft, announce, hh]
          rw [hdone] at hturn
          exact hturn.bind fun _ => ih

/-- Steps are decorated in the order of the registry. -/
lemma plays_decorated (s : StepMade) (hs : List Heuristic) :
    (decorated s.node s.strategy s.segment hs).Plays
      ((turnsOf Heuristic.decorate Making.answered .decorate s hs).map Turn.done)
      (leftBy Heuristic.decorate Making.answered s hs).segment := by
  induction hs generalizing s with
  | nil => exact Traced.plays_pure _
  | cons h hs ih =>
      cases hh : h.decorate with
      | none =>
          rw [turnsOf_cons_none hh, leftBy_cons s h hs, leftBy_singleton_none hh, decorated, hh]
          exact ih s
      | some hook =>
          have hturn := Traced.plays_call (o := hook s) (.decorate h.name s)
            fun _ => Outcome.eq_answer
          rw [turnsOf_cons_some hh, leftBy_cons s h hs, decorated, hh, List.map_cons]
          refine hturn.bind fun hok => ?_
          rw [leftBy_singleton_ok hh hok]
          exact ih (Making.answered s (Outcome.answer (hook s)))

/-- Paths are adjusted in the order of the registry. -/
lemma plays_adjusted (m : Making) (path : Text) (kept : Bool) (hs : List Heuristic) :
    ∃ kept', (adjusted m path kept hs).Plays
      ((turnsOf m.adjustHook Making.readjusted (fun name path => .after name m path) path
        hs).map Turn.done)
      (leftBy m.adjustHook Making.readjusted path hs, kept') := by
  induction hs generalizing path kept with
  | nil => exact ⟨kept, Traced.plays_pure _⟩
  | cons h hs ih =>
      cases hh : h.after with
      | none =>
          have hask : m.adjustHook h = none := by rw [Making.adjustHook, hh]; rfl
          rw [turnsOf_cons_none hask, leftBy_cons path h hs, leftBy_singleton_none hask, adjusted, hh]
          exact ih path kept
      | some hook =>
          have hask : m.adjustHook h = some (hook m) := by rw [Making.adjustHook, hh]; rfl
          have hturn := Traced.plays_call (o := hook m path) (.after h.name m path)
            fun _ => Outcome.eq_answer
          rw [turnsOf_cons_some hask, leftBy_cons path h hs, adjusted, hh, List.map_cons]
          cases hx : (Outcome.answer (hook m path)).text? with
          | none =>
              obtain ⟨kept', hrest⟩ := ih path kept
              refine ⟨kept', hturn.bind fun hok => ?_⟩
              rw [leftBy_singleton_ok hask hok, Making.readjusted, hx]
              exact hrest
          | some t =>
              obtain ⟨kept', hrest⟩ := ih (XPath.normalize t) (kept && XPath.normalize t == path)
              refine ⟨kept', hturn.bind fun hok => ?_⟩
              rw [leftBy_singleton_ok hask hok, Making.readjusted, hx]
              exact hrest

/-- The elements are walked from the wanted one up to the root. -/
lemma plays_stepsOf (m : Making) (hs : List Heuristic) (ns : List Node) :
    (stepsOf m hs ns).Plays (ns.flatMap (m.elementTurns hs)) (ns.map (m.finalStep hs)).reverse := by
  induction ns with
  | nil => exact Traced.plays_pure []
  | cons n ns ih =>
      have hstep : ∀ x, step n m.settings.strategy = .ok x → x = (m.bareStep n).segment := by
        intro x hx
        rw [Making.bareStep, hx]
        rfl
      have hturns : (n :: ns).flatMap (m.elementTurns hs) = m.announceTurns hs n ++
          ([⟨none, (step n m.settings.strategy).map fun _ => ()⟩] ++
            ((m.decorateTurns hs n).map Turn.done ++ ns.flatMap (m.elementTurns hs))) := by
        rw [List.flatMap_cons, Making.elementTurns, List.append_assoc]
        rfl
      rw [hturns, List.map_cons, List.reverse_cons, stepsOf]
      refine (plays_announce _ hs).bind fun _ => (Traced.plays_lift hstep).bind fun _ => ?_
      exact (plays_decorated (m.bareStep n) hs).bind fun _ => ih.map_pure rfl

/-- Whole paths are asked for in the order of the registry, up to the first answer. -/
lemma provided_eq (m : Making) (hs : List Heuristic) :
    provided m hs = ⟨(upTo Turn.ends (m.askTurns hs)).filterMap Turn.call?,
      match (m.askTurns hs).find? Turn.ends with
      | some t => t.outcome.map some
      | none => .ok none⟩ := by
  induction hs with
  | nil => rfl
  | cons h hs ih =>
      cases hh : h.provide with
      | none =>
          rw [Making.askTurns, turnsOf_cons_none hh, provided, hh]
          exact ih
      | some hook =>
          have hleft : leftBy Heuristic.provide (fun m _ => m) m [h] = m := by
            simp only [leftBy, List.foldl_cons, List.foldl_nil, hh]
            split <;> rfl
          have hturns : m.askTurns (h :: hs) =
              ⟨some (.provide h.name m), hook m⟩ :: m.askTurns hs := by
            rw [Making.askTurns, turnsOf_cons_some hh, hleft, Making.askTurns]
          have hends : Turn.ends ⟨some (.provide h.name m), hook m⟩ =
              match hook m with
              | .ok x => x.isTruthy
              | .error _ => true := rfl
          have hprovided : provided m (h :: hs) = Traced.bind ⟨[.provide h.name m], hook m⟩
              fun x => if x.isTruthy then Traced.pure (some x) else provided m hs := by
            rw [provided, hh]
            rfl
          rw [hprovided, hturns]
          cases hx : hook m with
          | error e =>
              simp only [hx] at hends
              simp [Traced.bind, upTo_cons_of_pos hends, hends, Except.map]
          | ok x =>
              simp only [hx] at hends
              cases ht : x.isTruthy with
              | true =>
                  rw [ht] at hends
                  simp [Traced.bind, Traced.pure, ht, upTo_cons_of_pos hends, hends, Except.map]
              | false =>
                  rw [ht] at hends
                  simp [Traced.bind, ht, upTo_cons_of_neg hends, hends, ih]

/-- Behind the hooks that may answer a whole path the others are called. -/
lemma makeInside_of_none (h : (m.askTurns hs).find? Turn.ends = none) :
    ∃ made, ∃ rest : Traced Made, made.path = m.finalPath hs ∧ rest.Plays (m.pathTurns hs) made ∧
      makeInside hs m = ⟨(m.askTurns hs).filterMap Turn.call? ++ rest.calls, rest.outcome⟩ := by
  obtain ⟨kept, hadjusted⟩ := plays_adjusted m (m.joinedPath hs) true hs
  have hprovided : provided m hs = ⟨(m.askTurns hs).filterMap Turn.call?, .ok none⟩ := by
    rw [provided_eq, h, upTo_of_find?_eq_none h]
  let finish := fun (steps : List Text) (x : Text × Bool) =>
    (pure ⟨x.1, m.settings, m.root, if x.2 then some steps else none⟩ : Traced Made)
  let rest := stepsOf m hs m.ancestors >>= fun steps =>
    adjusted m (XPath.normalize (XPath.path ['/'] steps)) true hs >>= finish steps
  have hrest : rest.Plays (m.pathTurns hs) ⟨m.finalPath hs, m.settings, m.root,
      if kept then some (m.ancestors.map (m.finalStep hs)).reverse else none⟩ :=
    (plays_stepsOf m hs m.ancestors).bind fun _ => hadjusted.map_pure rfl
  refine ⟨_, rest, rfl, hrest, ?_⟩
  rw [makeInside, hprovided]
  rfl

/-- Behind a hook that answers a whole path no others are called. -/
lemma makeInside_of_some {t : Turn Answer} (h : (m.askTurns hs).find? Turn.ends = some t) :
    makeInside hs m = ⟨(upTo Turn.ends (m.askTurns hs)).filterMap Turn.call?,
      t.outcome.map fun x => ⟨x.normal, m.settings, m.root, none⟩⟩ := by
  have hprovided := provided_eq m hs
  simp only [h] at hprovided
  cases hx : t.outcome with
  | ok x =>
      rw [hx] at hprovided
      rw [makeInside, hprovided]
      simp [Bind.bind, Traced.bind, Pure.pure, Traced.pure, Except.map]
  | error e =>
      rw [hx] at hprovided
      rw [makeInside, hprovided]
      rfl

/-- The reserved hook has no turn. -/
lemma call?_ne_veto {t : Turn Unit} (ht : t ∈ m.pathTurns hs) (name : Text) :
    t.call? ≠ some (.veto name) := by
  have hdone : ∀ {ts : List (Turn Answer)}, (∀ t ∈ ts, t.call? ≠ some (.veto name)) →
      t ∈ ts.map Turn.done → t.call? ≠ some (.veto name) := by
    rintro ts hts ht
    obtain ⟨u, hu, rfl⟩ := List.mem_map.mp ht
    exact hts u hu
  rw [Making.pathTurns, List.mem_append, List.mem_flatMap] at ht
  rcases ht with ⟨n, -, ht⟩ | ht
  · rw [Making.elementTurns, List.mem_append, List.mem_cons] at ht
    rcases ht with ht | rfl | ht
    · obtain ⟨_, _, hc⟩ := call?_of_mem_turnsOf ht
      simp [hc]
    · simp
    · refine hdone (fun u hu => ?_) ht
      obtain ⟨_, _, hc⟩ := call?_of_mem_turnsOf hu
      simp [hc]
  · refine hdone (fun u hu => ?_) ht
    obtain ⟨_, _, hc⟩ := call?_of_mem_turnsOf hu
    simp [hc]

/-- The elements from the wanted one up to the root. -/
lemma ancestors_of_making? (hm : g.making? n o = some m) :
    m.ancestors = upTo (fun k => k.same m.root) n.ancestors := by
  obtain ⟨root, -, hm⟩ := Option.bind_eq_some_iff.mp hm
  obtain ⟨ancestors, ha, hm⟩ := Option.bind_eq_some_iff.mp hm
  obtain rfl := Option.some.inj hm
  rw [chainTo, List.span_eq_takeWhile_dropWhile] at ha
  rw [upTo, List.find?_eq_head?_dropWhile_not]
  cases hdrop : n.ancestors.dropWhile fun k => !k.same root with
  | nil => simp [hdrop] at ha
  | cons top above =>
      simp only [hdrop] at ha
      exact (Option.some.inj ha).symm

/-- **The calls that a path is made with.** The hooks that may answer a whole path are called
in the order of the registry up to the first that does, and then no others; if none does, the
hooks for every element from the wanted one up to the root are called, and those for the whole
path, each with what the ones in front of it have left. If one fails, no others are called and
the failure is that of the whole. -/
theorem calls_pathOf (hn : n.isElement) (hm : g.making? n o = some m) :
    m.ancestors = upTo (fun k => k.same m.root) n.ancestors ∧
    (∀ t, (m.askTurns g.registry.heuristics).find? Turn.ends = some t →
      (g.pathOf (.node n) o).calls =
          (upTo Turn.ends (m.askTurns g.registry.heuristics)).filterMap Turn.call? ∧
        (g.pathOf (.node n) o).outcome = t.outcome.map Answer.normal) ∧
    ((m.askTurns g.registry.heuristics).find? Turn.ends = none →
      (g.pathOf (.node n) o).calls =
          (m.askTurns g.registry.heuristics).filterMap Turn.call? ++
            Turn.callsOf (m.pathTurns g.registry.heuristics) ∧
        (g.pathOf (.node n) o).outcome = (Turn.outcomeOf (m.pathTurns g.registry.heuristics)).map
          fun _ => m.finalPath g.registry.heuristics) ∧
    ∀ name, Call.veto name ∉ (g.pathOf (.node n) o).calls := by
  generalize hg : g.registry.heuristics = hs
  have hpath : g.pathOf (.node n) o = makeInside hs m >>= fun made => pure made.path := by
    rw [pathOf, make_eq hn hm, hg]
  have hcalls : ∀ t : Traced Made, (t >>= fun made => pure made.path : Traced Text).calls =
      t.calls := by
    intro t
    rw [Traced.calls_bind]
    cases t.outcome with
    | ok made => exact List.append_nil _
    | error e => rfl
  refine ⟨ancestors_of_making? hm, fun t ht => ?_, fun hnone => ?_, fun name hv => ?_⟩
  · rw [hpath, makeInside_of_some ht, hcalls, Traced.outcome_bind]
    refine ⟨rfl, ?_⟩
    cases t.outcome <;> rfl
  · obtain ⟨made, rest, hmade, hplays, hinside⟩ := makeInside_of_none hnone
    rw [hpath, hinside, hcalls, Traced.outcome_bind, hplays.calls, hplays.outcome, ← hmade]
    refine ⟨rfl, ?_⟩
    cases Turn.outcomeOf (m.pathTurns hs) <;> rfl
  · rw [hpath, hcalls] at hv
    have hask : ∀ {ts : List (Turn Answer)}, ts ⊆ m.askTurns hs →
        Call.veto name ∉ ts.filterMap Turn.call? := by
      intro ts hts hv
      obtain ⟨t, ht, hcall⟩ := List.mem_filterMap.mp hv
      obtain ⟨_, _, hc⟩ := call?_of_mem_turnsOf (hts ht)
      exact absurd (hc.symm.trans hcall) (by simp)
    cases hfind : (m.askTurns hs).find? Turn.ends with
    | some t =>
        rw [makeInside_of_some hfind] at hv
        exact hask (isPrefix_upTo _ _).subset hv
    | none =>
        obtain ⟨made, rest, -, hplays, hinside⟩ := makeInside_of_none hfind
        rw [hinside, hplays.calls, List.mem_append] at hv
        rcases hv with hv | hv
        · exact hask (List.Subset.refl _) hv
        · obtain ⟨t, ht, hcall⟩ := List.mem_filterMap.mp hv
          exact call?_ne_veto ((isPrefix_upTo _ _).subset ht) name hcall

/-- A document with one element inside another. -/
def nested : Document where
  key := 0
  content := [.element { base := ['r'] } [] [] [.element { base := ['a'] } [] [] []]]

/-- A heuristic with hooks of all kinds, of which the one that adjusts paths fails. -/
def failing : Heuristic where
  name := ['x']
  provide := some fun _ => .ok (.text [])
  before := some fun _ => .ok ()
  decorate := some fun s => .ok (.text (s.segment ++ ['!']))
  after := some fun _ _ => .error .notContext

/-- A heuristic that decorates steps and adjusts paths. -/
def marking : Heuristic where
  name := ['y']
  decorate := some fun s => .ok (.text (s.segment ++ ['?']))
  after := some fun _ path => .ok (.text path)

/-- A generator with these heuristics. -/
def marked : Generator where
  registry := ⟨[failing, marking]⟩

/-- What is known when the path of the inner element is made. -/
def nestedMaking : Making where
  node := ⟨nested, [0, 0]⟩
  root := ⟨nested, [0]⟩
  settings := marked.settings none
  ancestors := [⟨nested, [0, 0]⟩, ⟨nested, [0]⟩]

/-- The calls for the path of the inner element end with the hook that fails. -/
theorem calls_pathOf_marked :
    ((⟨nested, [0, 0]⟩ : Node).isElement = true ∧
      marked.making? ⟨nested, [0, 0]⟩ none = some nestedMaking) ∧
    (marked.pathOf (.node ⟨nested, [0, 0]⟩) none).calls =
        (nestedMaking.askTurns marked.registry.heuristics).filterMap Turn.call? ++
          Turn.callsOf (nestedMaking.pathTurns marked.registry.heuristics) ∧
      (marked.pathOf (.node ⟨nested, [0, 0]⟩) none).calls =
        [.provide ['x'] nestedMaking,
          .before ['x'] nestedMaking, .decorate ['x'] ⟨⟨nested, [0, 0]⟩, ['a'], .auto⟩,
          .decorate ['y'] ⟨⟨nested, [0, 0]⟩, ['a', '!'], .auto⟩,
          .before ['x'] { nestedMaking with node := ⟨nested, [0]⟩ },
          .decorate ['x'] ⟨⟨nested, [0]⟩, ['r'], .auto⟩,
          .decorate ['y'] ⟨⟨nested, [0]⟩, ['r', '!'], .auto⟩,
          .after ['x'] nestedMaking "/r!?/a!?".toList] := by
  have hel : (⟨nested, [0, 0]⟩ : Node).isElement = true := rfl
  have hmaking : marked.making? ⟨nested, [0, 0]⟩ none = some nestedMaking := rfl
  obtain ⟨-, -, hnone, -⟩ := calls_pathOf hel hmaking
  exact ⟨⟨hel, hmaking⟩, (hnone rfl).1, rfl⟩

end Generator

end Locator

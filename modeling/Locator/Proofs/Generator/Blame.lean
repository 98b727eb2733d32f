/-
Whose failure it is

* `Failure.isRefusal`, `Failure.isMisuse`: failures that come before a path is made, and those
  of what is given;
* `Call.FailsWith`: a hook that was called has failed;
* `Traced.FailsItself`: a failure that is not that of the hook called last;
* `Generator.makeInside_eq_error`: **inside the root** a path fails by the hook called last or
  by the name of an element.
-/
import Locator.Proofs.Generator.Obstacle

namespace Locator

/-! ### Kinds of failures -/

namespace Failure

/-- Is a path refused before it is made? -/
def isRefusal : Failure → Bool
  | .notElement => true
  | .noRoot => true
  | .outsideRoot => true
  | _ => false

/-- Is something given that is of no use, whatever the document is: what is no element, or a
prefix without a name or without a namespace? -/
def isMisuse : Failure → Bool
  | .notElement => true
  | .emptyPrefix => true
  | .emptyNamespace => true
  | _ => false

/-- Is it neither of these? -/
def isOther (e : Failure) : Bool := !e.isRefusal && !e.isMisuse

end Failure

/-! ### Failures of hooks -/

/-- The hook that was called has failed. -/
def Call.FailsWith (hs : List Heuristic) (e : Failure) : Call → Prop
  | .provide name m => ∃ h ∈ hs, h.name = name ∧ ∃ hook, h.provide = some hook ∧ hook m = .error e
  | .before name m => ∃ h ∈ hs, h.name = name ∧ ∃ hook, h.before = some hook ∧ hook m = .error e
  | .decorate name s => ∃ h ∈ hs, h.name = name ∧ ∃ hook, h.decorate = some hook ∧ hook s = .error e
  | .after name m path =>
    ∃ h ∈ hs, h.name = name ∧ ∃ hook, h.after = some hook ∧ hook m path = .error e
  | .veto _ => False

/-- A failure that is not that of the hook called last. -/
structure Traced.FailsItself {α : Type} (t : Traced α) (hs : List Heuristic) (e : Failure) :
    Prop where
  outcome : t.outcome = .error e
  own : ∀ c, t.calls.getLast? = some c → ¬ c.FailsWith hs e

namespace Turn

variable {β : Type} {t : Turn β} {ts : List (Turn β)}

/-- The turn that ends others has the last call. -/
lemma getLast?_upTo {p : Turn β → Bool} (h : ts.find? p = some t) {c : Call}
    (hc : t.call? = some c) : ((upTo p ts).filterMap Turn.call?).getLast? = some c := by
  rw [upTo, h, Option.toList_some, List.filterMap_append]
  simp [hc]

/-- The failure of turns is that of one of them, whose call is the last one. -/
lemma exists_of_outcomeOf {us : List (Turn Unit)} {e : Failure} (h : outcomeOf us = .error e) :
    ∃ u ∈ us, u.outcome = .error e ∧
      ∀ c, u.call? = some c → (callsOf us).getLast? = some c := by
  obtain ⟨u, hu⟩ := exists_find?_of_outcomeOf h
  rw [outcomeOf, hu] at h
  exact ⟨u, List.mem_of_find?_eq_some hu, h, fun c hc => getLast?_upTo hu hc⟩

lemma outcome_of_done {e : Failure} (h : t.done.outcome = .error e) : t.outcome = .error e := by
  cases hx : t.outcome <;> simp_all [done, Except.map]

end Turn

namespace Generator

open XPath

variable {m : Making} {hs : List Heuristic} {n k : Node} {g : Generator} {o : Option Options}
  {e : Failure} {thing : Thing}

lemma step_eq_error {strategy : IndexStrategy} (h : step n strategy = .error e) :
    e = .unnameable := by
  rcases bind_eq_error.mp h with h | ⟨name, -, h⟩
  · exact (stepName_eq_error h).2
  · split_ifs at h <;> simp at h

/-- A hook that is asked for a whole path fails as what it is called for. -/
lemma failsWith_of_mem_askTurns {t : Turn Answer} (ht : t ∈ m.askTurns hs)
    (h : t.outcome = .error e) : ∃ c, t.call? = some c ∧ c.FailsWith hs e := by
  obtain ⟨k, hk, hook, b, hhook, hc, hout⟩ := hook_of_mem_turnsOf ht
  exact ⟨_, hc, k, hk, rfl, hook, hhook, hout ▸ h⟩

/-- The turns for a path fail by a hook or by a name. -/
lemma failsWith_of_mem_pathTurns {t : Turn Unit} (ht : t ∈ m.pathTurns hs)
    (h : t.outcome = .error e) :
    e = .unnameable ∨ ∃ c, t.call? = some c ∧ c.FailsWith hs e := by
  rw [Making.pathTurns, List.mem_append, List.mem_flatMap] at ht
  rcases ht with ⟨n, -, ht⟩ | ht
  · rw [Making.elementTurns, List.mem_append, List.mem_cons] at ht
    rcases ht with ht | rfl | ht
    · -- the announcement of an element
      obtain ⟨k, hk, hook, b, hhook, hc, hout⟩ := hook_of_mem_turnsOf ht
      exact .inr ⟨_, hc, k, hk, rfl, hook, hhook, hout ▸ h⟩
    · -- its step
      left
      cases hs : step n m.settings.strategy with
      | ok s => simp [hs, Except.map] at h
      | error why =>
          obtain rfl : why = e := by simpa [hs, Except.map] using h
          exact step_eq_error hs
    · -- a decoration of the step
      obtain ⟨u, hu, rfl⟩ := List.mem_map.mp ht
      obtain ⟨k, hk, hook, b, hhook, hc, hout⟩ := hook_of_mem_turnsOf hu
      refine .inr ⟨_, hc, k, hk, rfl, hook, hhook, ?_⟩
      exact hout ▸ Turn.outcome_of_done h
  · -- an adjustment of the path
    obtain ⟨u, hu, rfl⟩ := List.mem_map.mp ht
    obtain ⟨k, hk, hook, b, hhook, hc, hout⟩ := hook_of_mem_turnsOf hu
    obtain ⟨after, hafter, rfl⟩ := Option.map_eq_some_iff.mp hhook
    exact .inr ⟨_, hc, k, hk, rfl, after, hafter, hout ▸ Turn.outcome_of_done h⟩

/-- **Inside the root** a path fails by the hook called last or by a name. -/
lemma makeInside_eq_error (h : (makeInside hs m).outcome = .error e) :
    e = .unnameable ∨ ∃ c, (makeInside hs m).calls.getLast? = some c ∧ c.FailsWith hs e := by
  cases hfind : (m.askTurns hs).find? Turn.ends with
  | some t =>
      have hinside := makeInside_of_some hfind
      rw [hinside] at h ⊢
      have ht : t.outcome = .error e := by
        cases hx : t.outcome <;> simp_all [Except.map]
      obtain ⟨c, hc, hfails⟩ := failsWith_of_mem_askTurns (List.mem_of_find?_eq_some hfind) ht
      exact .inr ⟨c, Turn.getLast?_upTo hfind hc, hfails⟩
  | none =>
      obtain ⟨made, rest, -, hplays, hinside⟩ := makeInside_of_none hfind
      rw [hinside] at h ⊢
      have hturns : Turn.outcomeOf (m.pathTurns hs) = .error e := by
        have hrest : rest.outcome = .error e := h
        rw [hplays.outcome] at hrest
        cases hx : Turn.outcomeOf (m.pathTurns hs) <;> simp_all [Except.map]
      obtain ⟨t, ht, hout, hlast⟩ := Turn.exists_of_outcomeOf hturns
      refine (failsWith_of_mem_pathTurns ht hout).imp_right fun ⟨c, hc, hfails⟩ => ⟨c, ?_, hfails⟩
      rw [hplays.calls, List.getLast?_append, hlast c hc]
      rfl

end Generator

namespace Traced.FailsItself

variable {α β : Type} {t : Traced α} {f : α → Traced β} {hs : List Heuristic} {e : Failure}

/-- A failure behind which nothing follows. -/
lemma bind (h : t.FailsItself hs e) : (t >>= f).FailsItself hs e where
  outcome := by rw [outcome_bind, h.outcome, error_bind]
  own c hc := by
    rw [calls_bind, h.outcome] at hc
    exact h.own c hc

/-- What follows fails, or what comes first does by itself. -/
lemma of_bind (h : (t >>= f).FailsItself hs e) :
    t.FailsItself hs e ∨ ∃ a, t.outcome = .ok a ∧ (f a).outcome = .error e := by
  have hout := h.outcome
  rw [outcome_bind] at hout
  rcases bind_eq_error.mp hout with ht | ha
  · refine .inl ⟨ht, fun c hc => h.own c ?_⟩
    rw [calls_bind, ht]
    exact hc
  · exact .inr ha

/-- A failure without any call. -/
lemma of_lift (hs : List Heuristic) (e : Failure) :
    (lift (.error e) : Traced α).FailsItself hs e where
  outcome := rfl
  own c hc := by simp [lift] at hc

end Traced.FailsItself

end Locator

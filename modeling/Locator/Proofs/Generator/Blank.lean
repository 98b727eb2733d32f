/-
Paths that are blank

* `XPath.normalize_eq_nil_iff`: of a text of slashes and blanks normalizing leaves nothing;
* `Making.lastAdjusted?`, `Making.finalPath_eq`: the last text that a hook answers for the path
  decides what the path is;
* `Making.lastWord`: the text that the path is made of, which a hook may have the last word on;
* `Generator.pathOf_lastWord`: **every path is the normal form of that text**, and so it is
  blank exactly where the text holds nothing but slashes and blanks.
-/
import Locator.Proofs.Generator.Hooks
import Locator.Proofs.XPath.NormalForm

namespace Locator

/-- Nothing is left of slashes and blanks alone. -/
lemma XPath.normalize_eq_nil_iff {s : Text} :
    normalize s = [] ↔ ∀ c ∈ s, isSlashOrBlank c = true := by
  rw [normalize_eq, squeeze_eq_nil_iff, Text.dropEnd_eq, List.rdropWhile_eq_nil_iff]
  constructor
  · intro h c hc
    rw [← List.takeWhile_append_dropWhile (p := Text.isBlank) (l := s), List.mem_append] at hc
    rcases hc with hc | hc
    · exact isSlashOrBlank_of_isBlank (List.mem_takeWhile_imp hc)
    · exact h c hc
  · exact fun h c hc => h c ((List.dropWhile_sublist _).mem hc)

/-- The text that comes of a turn, if one does. -/
def Turn.text? (t : Turn Answer) : Option Text := (Outcome.answer t.outcome).text?

namespace Making

variable {m : Making} {hs : List Heuristic}

/-- The last text that a hook answers for the path when it is adjusted. -/
def lastAdjusted? (m : Making) (hs : List Heuristic) : Option Text :=
  ((m.adjustTurns hs).filterMap Turn.text?).getLast?

/-- **The text that the path is made of**: the first answer for a whole path; or else the last
one for a path that is adjusted; or else the steps, each behind a slash. -/
def lastWord (m : Making) (hs : List Heuristic) : Text :=
  match (m.askTurns hs).find? Turn.ends with
  | some t => t.text?.getD []
  | none =>
    (m.lastAdjusted? hs).getD (XPath.path ['/'] (m.ancestors.map (m.finalStep hs)).reverse)

/-- Of the adjustments of a path the last one stays. -/
lemma leftBy_readjusted (call : Text → Text → Call) (path : Text) :
    leftBy m.adjustHook readjusted path hs =
      (((turnsOf m.adjustHook readjusted call path hs).filterMap Turn.text?).getLast?.map
        XPath.normalize).getD path := by
  induction hs generalizing path with
  | nil => rfl
  | cons h hs ih =>
      cases hh : m.adjustHook h with
      | none => rw [turnsOf_cons_none hh, leftBy_cons, leftBy_singleton_none hh, ih]
      | some hook =>
          have hleft : leftBy m.adjustHook readjusted path [h] =
              ((Outcome.answer (hook path)).text?.map XPath.normalize).getD path := by
            cases hx : hook path with
            | ok x => rw [leftBy_singleton_ok hh hx]; rfl
            | error e =>
                simp only [leftBy, List.foldl_cons, List.foldl_nil, hh, hx]
                rfl
          rw [turnsOf_cons_some hh, leftBy_cons, hleft, ih, List.filterMap_cons, Turn.text?]
          cases (Outcome.answer (hook path)).text? with
          | none => rfl
          | some t =>
              rw [List.getLast?_cons]
              cases ((turnsOf m.adjustHook readjusted call _ hs).filterMap Turn.text?).getLast? <;>
                rfl

/-- The path behind all hooks is the normal form of the last text answered for it, or of the
steps. -/
lemma finalPath_eq (m : Making) (hs : List Heuristic) :
    m.finalPath hs = XPath.normalize ((m.lastAdjusted? hs).getD
      (XPath.path ['/'] (m.ancestors.map (m.finalStep hs)).reverse)) := by
  rw [finalPath, leftBy_readjusted, lastAdjusted?, adjustTurns, joinedPath, Option.getD_map]

end Making

namespace Generator

open XPath

variable {m : Making} {hs : List Heuristic} {n : Node} {g : Generator} {o : Option Options}
  {thing : Thing} {path : Text}

/-- Where an answer for a whole path counts as given, its normal form is that of its text. -/
lemma normal_eq_normalize (x : Answer) : x.normal = normalize (x.text?.getD []) := by
  rcases x with _ | ⟨_ | _⟩ | _ <;> rfl

/-- What is made inside a root has the normal form of the last word for its path. -/
lemma path_of_makeInside {made : Made} (h : (makeInside hs m).outcome = .ok made) :
    made.path = normalize (m.lastWord hs) := by
  rw [Making.lastWord]
  cases hfind : (m.askTurns hs).find? Turn.ends with
  | some t =>
      rw [makeInside_of_some hfind] at h
      cases hx : t.outcome with
      | error e => simp [hx, Except.map] at h
      | ok x =>
          simp only [hx, Except.map] at h
          obtain rfl := Except.ok.inj h
          simp only [Turn.text?, hx]
          exact normal_eq_normalize x
  | none =>
      obtain ⟨kept, rest, hpath, hplays, hinside⟩ := makeInside_of_none hfind
      rw [hinside] at h
      have hmade := hplays.outcome.symm.trans h
      cases hturns : Turn.outcomeOf (m.pathTurns hs) with
      | error e => simp [hturns, Except.map] at hmade
      | ok u =>
          rw [hturns] at hmade
          obtain rfl := Except.ok.inj hmade
          rw [hpath, Making.finalPath_eq]

/-- Only an element inside its root has a path. -/
lemma exists_making?_of_make {made : Made} (h : (g.make thing o).outcome = .ok made) :
    ∃ n m, thing = .node n ∧ n.isElement ∧ g.making? n o = some m := by
  rw [make] at h
  cases thing with
  | node n =>
      by_cases hn : n.isElement
      · simp only [Thing.element?, hn, if_true] at h
        cases hr : rootElement? (g.settings o) (some n.document) n with
        | none => simp [hr] at h
        | some root =>
            cases ha : chainTo n root with
            | none => simp [hr, ha] at h
            | some ancestors =>
                exact ⟨n, ⟨n, root, g.settings o, ancestors⟩, rfl, hn, by simp [making?, hr, ha]⟩
      · simp [Thing.element?, hn] at h
  | _ => simp [Thing.element?] at h

/-- **A path is in normal form, but it may be blank.** Whatever the hooks answer, a path that is
made is the normal form of the text that has the last word, and normalizing leaves it as it is.
It is blank exactly where that text has nothing but slashes and blanks: an answer is asked
whether it is empty before it is normalized, not behind. -/
theorem pathOf_lastWord (h : (g.pathOf thing o).outcome = .ok path) :
    ∃ n m, thing = .node n ∧ g.making? n o = some m ∧
      path = normalize (m.lastWord g.registry.heuristics) ∧ normalize path = path ∧
      (path = [] ↔ ∀ c ∈ m.lastWord g.registry.heuristics, isSlashOrBlank c = true) := by
  rw [pathOf, Traced.outcome_bind] at h
  obtain ⟨made, hmade, hpath⟩ := bind_eq_ok.mp h
  obtain rfl := Except.ok.inj hpath
  obtain ⟨n, m, rfl, hn, hm⟩ := exists_making?_of_make hmade
  rw [make_eq hn hm] at hmade
  have hword := path_of_makeInside hmade
  refine ⟨n, m, rfl, hm, hword, ?_, ?_⟩
  · rw [hword, normalize_normalize]
  · rw [hword, normalize_eq_nil_iff]

/-- A generator with one heuristic. -/
def alone (h : Heuristic) : Generator where
  registry := ⟨[h]⟩

/-- The marked path is what the heuristic has answered last. -/
theorem pathOf_lastWord_marking :
    ((alone marking).pathOf (.node ⟨nested, [0, 0]⟩) none).outcome = .ok "/r?/a?".toList ∧
    ∃ n m, Thing.node ⟨nested, [0, 0]⟩ = .node n ∧ (alone marking).making? n none = some m ∧
      "/r?/a?".toList = normalize (m.lastWord [marking]) ∧
      normalize "/r?/a?".toList = "/r?/a?".toList ∧
      ("/r?/a?".toList = [] ↔ ∀ c ∈ m.lastWord [marking], isSlashOrBlank c = true) := by
  have h : ((alone marking).pathOf (.node ⟨nested, [0, 0]⟩) none).outcome =
      .ok "/r?/a?".toList := eq_ok_of_toOption (by decide +kernel)
  exact ⟨h, pathOf_lastWord h⟩

/-- A heuristic that answers blanks for the path of every element. -/
def blankProvider : Heuristic where
  name := ['p']
  provide := some fun _ => .ok (.text "  ".toList)

/-- A heuristic that answers a blank for every step. -/
def blankDecorator : Heuristic where
  name := ['d']
  decorate := some fun _ => .ok (.text " ".toList)

/-- A heuristic that answers slashes for every path that is adjusted. -/
def blankAdjuster : Heuristic where
  name := ['a']
  after := some fun _ _ => .ok (.text "// /".toList)

/-- Each of the three points at which a hook may answer lets a blank path through. -/
theorem pathOf_blankAnswers :
    ((alone blankProvider).pathOf (.node ⟨nested, [0, 0]⟩) none).outcome = .ok [] ∧
      ((alone blankDecorator).pathOf (.node ⟨nested, [0, 0]⟩) none).outcome = .ok [] ∧
      ((alone blankAdjuster).pathOf (.node ⟨nested, [0, 0]⟩) none).outcome = .ok [] := by
  refine ⟨?_, ?_, ?_⟩
  · exact eq_ok_of_toOption (by decide +kernel)
  · exact eq_ok_of_toOption (by decide +kernel)
  · exact eq_ok_of_toOption (by decide +kernel)

end Generator

end Locator

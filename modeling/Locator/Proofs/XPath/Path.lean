/-
Paths of steps

* `TestReads`: a text that is read as the axis and the test of a step, and the
  names, asterisks and axes that are;
* `StepReads`: a text that is read as a step with its predicates;
* `StepsRead`: steps behind one or two slashes each, with the expressions in
  front of them and behind them;
* `reads_absolute`, `reads_here`, `reads_relative`: **paths** from the
  document, from the point that stands for the context node, and from the
  context node are read as their steps say.
-/
import Locator.Proofs.XPath.Primary

namespace Locator.XPath

/-! ### Axes and tests -/

/-- A character that a step with an axis or a test starts with. -/
structure StartsTest (c : Char) : Prop where
  step : startsStep c = true
  point : c ≠ '.'

namespace StartsTest

lemma of_isNameStart {c : Char} (h : Text.isNameStart c = true) : StartsTest c where
  step := by
    simp only [Text.isNameStart, Bool.or_eq_true, Bool.and_eq_true, decide_eq_true_eq,
      beq_iff_eq] at h
    simp only [startsStep, Bool.or_eq_true, decide_eq_true_eq, beq_iff_eq]
    by_cases ha : c.isAlpha = true
    · simp [ha]
    · by_cases hu : c = '_'
      · simp [hu]
      · simp only [ha, hu, Bool.false_eq_true, false_or] at h
        right
        omega
  point := Text.ne_of_isNameStart h rfl

lemma at_sign : StartsTest '@' := ⟨rfl, by simp⟩

lemma star : StartsTest '*' := ⟨rfl, by simp⟩

lemma ne {c x : Char} (h : StartsTest c) (hx : startsStep x = false) : c ≠ x := by
  rintro rfl
  simp [h.step] at hx

lemma isSpace {c : Char} (h : StartsTest c) : Text.isSpace c = false := by
  have h1 : c ≠ ' ' := h.ne rfl
  have h2 : c ≠ '\t' := h.ne rfl
  have h3 : c ≠ '\n' := h.ne rfl
  have h4 : c ≠ '\r' := h.ne rfl
  simp [Text.isSpace, h1, h2, h3, h4]

end StartsTest

/-- What can belong neither to a name nor to the test in front of it. -/
structure EndsTest (rest : Text) : Prop where
  word : ∀ c ∈ rest.head?, goesOn c = false
  test : ∀ c ∈ (blanks rest).head?, c ≠ '(' ∧ c ≠ ':'

lemma EndsStep.endsTest {rest : Text} (h : EndsStep rest) : EndsTest rest where
  word := h.word
  test c hc := by
    have := h.step c hc
    simp only [bindsStep, Bool.or_eq_false_iff, beq_eq_false_iff_ne] at this
    exact ⟨this.1.2, this.2⟩

lemma EndsStep.noPredicate {rest : Text} (h : EndsStep rest) :
    ∀ c ∈ (blanks rest).head?, (c == '[') = false := by
  intro c hc
  have := h.step c hc
  simp only [bindsStep, Bool.or_eq_false_iff] at this
  exact this.1.1

/-- A predicate ends the test in front of it. -/
lemma endsTest_bracket (r : Text) : EndsTest ('[' :: r) where
  word := by simp; rfl
  test := by rw [blanks_cons rfl]; simp

/-- A text that is read as the axis and the test of a step. -/
structure TestReads (s : Text) (axis : Axis) (test : NodeTest) : Prop where
  starts : ∃ c r, s = c :: r ∧ StartsTest c
  reads : ∀ rest, EndsTest rest →
    ∃ r, axisAndTest? (s ++ rest) = some ((axis, test), r) ∧ blanks r = blanks rest

/-- A name with neither a colon nor a parenthesis behind it. -/
lemma nameTest?_of_head {rest : Text} (hc : ∀ c ∈ rest.head?, c ≠ ':')
    (hp : ∀ c ∈ (blanks rest).head?, c ≠ '(') (name : Text) :
    nameTest? name rest = some (.name none name, rest) := by
  unfold nameTest?
  split
  · next r hr => exact absurd rfl (hp '(' (by simp [hr]))
  · split
    · exact absurd rfl (hc ':' (by simp))
    · exact absurd rfl (hc ':' (by simp))
    · rfl

namespace EndsTest

variable {rest : Text}

lemma colon (h : EndsTest rest) : ∀ c ∈ rest.head?, c ≠ ':' := by
  rintro c hc rfl
  simpa [goesOn] using h.word ':' hc

lemma noNameChar (h : EndsTest rest) : ∀ c ∈ rest.head?, Text.isNameChar c = false := by
  intro c hc
  have hword := h.word c hc
  simp only [goesOn, Bool.or_eq_false_iff] at hword
  exact hword.1

lemma nameTest? (h : EndsTest rest) (name : Text) :
    nameTest? name rest = some (.name none name, rest) :=
  nameTest?_of_head h.colon (fun c hc => (h.test c hc).1) name

lemma nameTest?_blanks (h : EndsTest rest) (name : Text) :
    XPath.nameTest? name (blanks rest) = some (.name none name, blanks rest) :=
  nameTest?_of_head (fun c hc => (h.test c hc).2)
    (by simpa using fun c hc => (h.test c hc).1) name

end EndsTest

lemma plainName?_of_ends {name rest : Text} (hn : Text.IsName name) (h : EndsTest rest) :
    Text.plainName? (name ++ rest) = some (name, rest) :=
  Text.plainName?_append hn h.noNameChar

/-- A name. -/
lemma testReads_name {name : Text} (hn : Text.IsName name) :
    TestReads name .child (.name none name) where
  starts := by
    obtain ⟨c, r, rfl, hc, -⟩ := hn
    exact ⟨c, r, rfl, .of_isNameStart hc⟩
  reads rest hr := by
    have hp := plainName?_of_ends hn hr
    have hat : ∀ r, name ++ rest ≠ '@' :: r := by
      obtain ⟨c, s, rfl, hc, -⟩ := hn
      have : c ≠ '@' := Text.ne_of_isNameStart hc rfl
      simp [this]
    unfold axisAndTest?
    split
    · next heq => exact absurd heq (hat _)
    · simp only [hp]
      split
      · next heq => exact absurd rfl (hr.test ':' (by simp [heq])).2
      · exact ⟨_, by rw [hr.nameTest?_blanks]; rfl, blanks_blanks rest⟩
      · exact ⟨_, by rw [hr.nameTest?]; rfl, rfl⟩

/-- What follows a prefix is a name, up to what can be no part of it. -/
lemma nameTest?_prefixed {name rest : Text} (hn : Text.IsName name)
    (hr : ∀ c ∈ rest.head?, Text.isNameChar c = false) (pfx : Text) :
    nameTest? pfx (':' :: (name ++ rest)) = some (.name (some pfx) name, rest) := by
  have hbase := Text.plainName?_append hn hr
  have hb : blanks (':' :: (name ++ rest)) = ':' :: (name ++ rest) := blanks_cons rfl _
  obtain ⟨c, s, rfl, hc, -⟩ := hn
  have hstar : c ≠ '*' := Text.ne_of_isNameStart hc rfl
  unfold nameTest?
  rw [hb]
  rw [List.cons_append] at hbase
  simp [hstar, hbase]

/-- A name behind a prefix. -/
lemma testReads_prefixed {pfx name : Text} (hp : Text.IsName pfx) (hn : Text.IsName name) :
    TestReads (pfx ++ ':' :: name) .child (.name (some pfx) name) where
  starts := by
    obtain ⟨c, r, rfl, hc, -⟩ := hp
    exact ⟨c, r ++ ':' :: name, rfl, .of_isNameStart hc⟩
  reads rest hr := by
    have hcut := Text.plainName?_append hp (t := ':' :: (name ++ rest))
      (by simp only [List.head?_cons, Option.mem_some_iff, forall_eq']; rfl)
    have hat : ∀ r, pfx ++ ':' :: (name ++ rest) ≠ '@' :: r := by
      obtain ⟨c, s, rfl, hc, -⟩ := hp
      have : c ≠ '@' := Text.ne_of_isNameStart hc rfl
      simp [this]
    have ht := nameTest?_prefixed hn hr.noNameChar pfx
    obtain ⟨c, s, hcs, hc, -⟩ := hn
    have hcolon : c ≠ ':' := Text.ne_of_isNameStart hc rfl
    refine ⟨rest, ?_, rfl⟩
    rw [List.append_assoc, List.cons_append]
    unfold axisAndTest?
    split
    · next heq => exact absurd heq (hat _)
    · simp only [hcut, blanks_cons (c := ':') rfl]
      split
      · next heq => simp [hcs, hcolon] at heq
      · rw [ht]
        rfl
      · rw [ht]
        rfl

/-- The asterisk. -/
lemma testReads_star : TestReads ['*'] .child (.any none) where
  starts := ⟨'*', [], rfl, .star⟩
  reads rest _ := by
    refine ⟨rest, ?_, rfl⟩
    have hb : blanks ('*' :: rest) = '*' :: rest := blanks_cons rfl rest
    have hp : Text.plainName? ('*' :: rest) = none := rfl
    simp [axisAndTest?, nodeTest?, hb, hp]

/-- A test alone, without an axis in front. -/
structure BareReads (s : Text) (test : NodeTest) : Prop where
  starts : ∃ c r, s = c :: r ∧ c ≠ ':'
  reads : ∀ rest, EndsTest rest → nodeTest? (s ++ rest) = some (test, rest)

/-- A test that starts with a name goes on behind it. -/
lemma nodeTest?_append {name rest : Text} (hn : Text.IsName name)
    (hr : ∀ c ∈ rest.head?, Text.isNameChar c = false) :
    nodeTest? (name ++ rest) = nameTest? name rest := by
  have hp := Text.plainName?_append hn hr
  have hb : blanks (name ++ rest) = name ++ rest := ((starts_of_isName hn).append rest).blanks_eq
  have hs : ∀ r, name ++ rest ≠ '*' :: r := by
    obtain ⟨c, s, rfl, hc, -⟩ := hn
    have : c ≠ '*' := Text.ne_of_isNameStart hc rfl
    simp [this]
  unfold nodeTest?
  rw [hb]
  split
  · next heq => exact absurd heq (hs _)
  · simp [hp]

lemma bareReads_name {name : Text} (hn : Text.IsName name) :
    BareReads name (.name none name) where
  starts := by
    obtain ⟨c, r, rfl, hc, -⟩ := hn
    exact ⟨c, r, rfl, Text.ne_of_isNameStart hc rfl⟩
  reads rest hr := by rw [nodeTest?_append hn hr.noNameChar, hr.nameTest?]

lemma bareReads_prefixed {pfx name : Text} (hp : Text.IsName pfx) (hn : Text.IsName name) :
    BareReads (pfx ++ ':' :: name) (.name (some pfx) name) where
  starts := by
    obtain ⟨c, r, rfl, hc, -⟩ := hp
    exact ⟨c, r ++ ':' :: name, rfl, Text.ne_of_isNameStart hc rfl⟩
  reads rest hr := by
    have hcolon : ∀ c ∈ (':' :: (name ++ rest)).head?, Text.isNameChar c = false := by
      rintro c ⟨rfl⟩
      rfl
    rw [List.append_assoc, List.cons_append, nodeTest?_append hp hcolon,
      nameTest?_prefixed hn hr.noNameChar]

lemma bareReads_star : BareReads ['*'] (.any none) where
  starts := ⟨'*', [], rfl, by simp⟩
  reads rest _ := by
    have hb : blanks ('*' :: rest) = '*' :: rest := blanks_cons rfl rest
    simp [nodeTest?, hb]

/-- An attribute. -/
lemma testReads_attribute {s : Text} {test : NodeTest} (h : BareReads s test) :
    TestReads ('@' :: s) .attribute test where
  starts := ⟨'@', s, rfl, .at_sign⟩
  reads rest hr := ⟨rest, by simp [axisAndTest?, h.reads rest hr], rfl⟩

lemma isName_descendantOrSelf : Text.IsName "descendant-or-self".toList :=
  Text.isPathName_iff.mp rfl

/-- A test behind the name of an axis. -/
lemma testReads_axis {a : Text} {axis : Axis} (ha : Text.IsName a)
    (hax : Axis.ofName? a = some axis) {s : Text} {test : NodeTest} (h : BareReads s test) :
    TestReads (a ++ "::".toList ++ s) axis test where
  starts := by
    obtain ⟨c, r, rfl, hc, -⟩ := ha
    exact ⟨c, r ++ "::".toList ++ s, rfl, .of_isNameStart hc⟩
  reads rest hr := by
    have hcut := Text.plainName?_append ha (t := ':' :: ':' :: (s ++ rest))
      (by simp only [List.head?_cons, Option.mem_some_iff, forall_eq']; rfl)
    have hat : ∀ r, a ++ ':' :: ':' :: (s ++ rest) ≠ '@' :: r := by
      obtain ⟨c, s, rfl, hc, -⟩ := ha
      have : c ≠ '@' := Text.ne_of_isNameStart hc rfl
      simp [this]
    refine ⟨rest, ?_, rfl⟩
    have hcc : a ++ "::".toList ++ s ++ rest = a ++ ':' :: ':' :: (s ++ rest) := by simp
    rw [hcc]
    unfold axisAndTest?
    split
    · next heq => exact absurd heq (hat _)
    · simp [hcut, blanks_cons (c := ':') rfl, hax, h.reads rest hr]

/-! ### Steps -/

/-- A text that is read as a step with its predicates, whatever it starts
from. -/
structure StepReads (n : ℕ) (s : Text) (axis : Axis) (test : NodeTest)
    (predicates : List Expr) : Prop where
  starts : ∃ c r, s = c :: r ∧ StartsTest c
  reads : ∀ d, n ≤ d → ∀ start rest, EndsStep rest →
    step? (exprAt? d) start (s ++ rest) = some (.step start axis test predicates, blanks rest)

lemma startsTest_blanks {s : Text} (h : ∃ c r, s = c :: r ∧ StartsTest c) (rest : Text) :
    blanks (s ++ rest) = s ++ rest := by
  obtain ⟨c, r, rfl, hc⟩ := h
  exact blanks_cons hc.isSpace _

lemma ne_slash_of_startsTest {s : Text} (h : ∃ c r, s = c :: r ∧ StartsTest c) (rest : Text) :
    ∀ r, s ++ rest ≠ '/' :: r := by
  obtain ⟨c, r, rfl, hc⟩ := h
  have : c ≠ '/' := hc.ne rfl
  simp [this]

/-- The head of a step that starts neither with a point nor with two. -/
lemma step?_eq {sub : Reader Expr} {start : Expr} {s rest : Text}
    (h : ∃ c r, s = c :: r ∧ StartsTest c) :
    step? sub start (s ++ rest) = (do
      let ((axis, test), r) ← axisAndTest? (s ++ rest)
      let (es, r) ← predicates? sub ((blanks r).length + 1) (blanks r)
      return (.step start axis test es, r)) := by
  have hb := startsTest_blanks h rest
  obtain ⟨c, r, rfl, hc⟩ := h
  unfold step?
  rw [hb]
  split
  · next heq => simp [hc.point] at heq
  · next heq => simp [hc.point] at heq
  · rfl

/-- A step without predicates. -/
lemma TestReads.step {s : Text} {axis : Axis} {test : NodeTest} (h : TestReads s axis test)
    (n : ℕ) : StepReads n s axis test [] where
  starts := h.starts
  reads d _ start rest hr := by
    obtain ⟨r, hread, hb⟩ := h.reads rest hr.endsTest
    have hp := predicates?_of_head (exprAt? d) ((blanks rest).length + 1)
      fun c hc => hr.noPredicate c hc
    rw [step?_eq h.starts, hread]
    simp [hb, hp]

/-- An expression between square brackets, perhaps between blanks. -/
lemma predicate?_append {n d : ℕ} {p : Text} {e : Expr} (hp : ReadsBehind n loosest p e) (hd : n < d)
    (rest : Text) : predicate? (exprAt? d) ('[' :: p ++ ']' :: rest) = some (e, blanks rest) := by
  obtain ⟨u, hu, hblanks⟩ := hp.exists_blanks
  have h := hu.expr hd (ends_closing (.inr (.inl rfl)) rest)
  rw [blanks_cons rfl] at h
  simp [predicate?, hblanks, h]

/-- Predicates one behind the other. -/
lemma predicates?_append {n d : ℕ} {ps : List Text} {es : List Expr}
    (hp : List.Forall₂ (ReadsBehind n loosest) ps es) (hd : n < d) {rest : Text}
    (hr : ∀ c ∈ (blanks rest).head?, (c == '[') = false) {fuel : ℕ} (hf : ps.length < fuel) :
    predicates? (exprAt? d) fuel (blanks (ps.flatMap (fun p => '[' :: p ++ [']']) ++ rest)) =
      some (es, blanks rest) := by
  induction hp generalizing fuel with
  | nil => exact predicates?_of_head _ _ hr
  | @cons p e ps es hp _ ih =>
      obtain ⟨fuel, rfl⟩ : ∃ m, fuel = m + 1 := ⟨fuel - 1, by omega⟩
      have hfuel : ps.length < fuel := by
        rw [List.length_cons] at hf
        omega
      have hread := predicate?_append hp hd (ps.flatMap (fun p => '[' :: p ++ [']']) ++ rest)
      have htext : (p :: ps).flatMap (fun p => '[' :: p ++ [']']) ++ rest =
          '[' :: p ++ ']' :: (ps.flatMap (fun p => '[' :: p ++ [']']) ++ rest) := by simp
      rw [htext]
      rw [List.cons_append] at hread ⊢
      rw [blanks_cons rfl, predicates?, hread]
      simp only [Option.bind_eq_bind, Option.bind_some, ih hfuel, Option.pure_def]

/-- **A step with predicates**, which are read one level further in. -/
lemma TestReads.step_predicates {n : ℕ} {s : Text} {axis : Axis} {test : NodeTest}
    {ps : List Text} {es : List Expr} (h : TestReads s axis test)
    (hp : List.Forall₂ (ReadsBehind n loosest) ps es) :
    StepReads (n + 1) (s ++ ps.flatMap fun p => '[' :: p ++ [']']) axis test es where
  starts := by
    obtain ⟨c, r, rfl, hc⟩ := h.starts
    exact ⟨c, r ++ ps.flatMap fun p => '[' :: p ++ [']'], by simp, hc⟩
  reads d hd start rest hr := by
    have htest : EndsTest (ps.flatMap (fun p => '[' :: p ++ [']']) ++ rest) := by
      cases ps with
      | nil => exact hr.endsTest
      | cons p ps => exact endsTest_bracket _
    obtain ⟨r, hread, hb⟩ := h.reads _ htest
    have hlong : ps.length < (blanks (ps.flatMap (fun p => '[' :: p ++ [']']) ++ rest)).length + 1 := by
      cases ps with
      | nil => exact Nat.succ_pos _
      | cons p ps =>
          have hsum : ps.length ≤ (ps.flatMap fun p => '[' :: p ++ [']']).length := by
            rw [List.length_flatMap, ← List.length_map (f := fun p => ('[' :: p ++ [']']).length)]
            refine List.length_le_sum_of_one_le _ fun i hi => ?_
            obtain ⟨p, -, rfl⟩ := List.mem_map.mp hi
            simp
          have htext : (p :: ps).flatMap (fun p => '[' :: p ++ [']']) ++ rest =
              '[' :: (p ++ ']' :: (ps.flatMap (fun p => '[' :: p ++ [']']) ++ rest)) := by simp
          rw [htext, blanks_cons rfl]
          simp only [List.length_cons, List.length_append]
          omega
    have hall := predicates?_append hp hd (fun c hc => hr.noPredicate c hc) hlong
    rw [List.append_assoc, step?_eq h.starts, hread]
    simp only [Option.bind_eq_bind, Option.bind_some, hb, hall, Option.pure_def]

/-- A step with one predicate, which is read one level further in. -/
lemma TestReads.step_predicate {n : ℕ} {s p : Text} {axis : Axis} {test : NodeTest} {e : Expr}
    (h : TestReads s axis test) (hp : Reads n loosest p e) :
    StepReads (n + 1) (s ++ '[' :: p ++ [']']) axis test [e] := by
  simpa using h.step_predicates (.cons hp.behind .nil)

/-- Blanks behind a step do not count. -/
lemma StepReads.trail {n : ℕ} {s bs : Text} {axis : Axis} {test : NodeTest} {ps : List Expr}
    (h : StepReads n s axis test ps) (hb : IsSpaces bs) : StepReads n (s ++ bs) axis test ps where
  starts := by
    obtain ⟨c, r, rfl, hc⟩ := h.starts
    exact ⟨c, r ++ bs, rfl, hc⟩
  reads d hd start rest hr := by
    rw [List.append_assoc, h.reads d hd start _ (hr.spaces hb), blanks_spaces hb]

/-- Steps behind one or two slashes each: from the expression in front of them
they lead to another one. -/
inductive StepsRead (n : ℕ) : Text → Expr → Expr → Prop
  | nil (e : Expr) : StepsRead n [] e e
  | child {s t : Text} {axis : Axis} {test : NodeTest} {ps : List Expr} {e e' : Expr}
      (hs : StepReads n s axis test ps) (ht : StepsRead n t (.step e axis test ps) e') :
      StepsRead n ('/' :: s ++ t) e e'
  | inside {s t : Text} {axis : Axis} {test : NodeTest} {ps : List Expr} {e e' : Expr}
      (hs : StepReads n s axis test ps) (ht : StepsRead n t (.step e.inside axis test ps) e') :
      StepsRead n ('/' :: '/' :: s ++ t) e e'

lemma endsStep_slash (r : Text) : EndsStep ('/' :: r) where
  word := by simp; rfl
  step := by rw [blanks_cons rfl]; simp; rfl

namespace StepsRead

variable {n : ℕ} {s t rest : Text} {e e' e'' : Expr}

/-- What ends the whole path or goes on with it ends the step in front. -/
lemma endsStep (h : StepsRead n t e e') (hr : EndsStep rest) : EndsStep (t ++ rest) := by
  cases h with
  | nil => exact hr
  | child => exact endsStep_slash _
  | inside => exact endsStep_slash _

lemma append (h : StepsRead n s e e') (ht : StepsRead n t e' e'') :
    StepsRead n (s ++ t) e e'' := by
  induction h with
  | nil => exact ht
  | child hs _ ih => simpa using child hs (ih ht)
  | inside hs _ ih => simpa using inside hs (ih ht)

lemma length_le (h : StepsRead n t e e') (rest : Text) :
    t.length ≤ (blanks (t ++ rest)).length := by
  cases h with
  | nil => simp
  | child => simp [blanks_cons (c := '/') rfl]
  | inside => simp [blanks_cons (c := '/') rfl]

/-- Steps are read one after the other. -/
lemma stepsFrom (h : StepsRead n t e e') {d : ℕ} (hd : n ≤ d) (hr : Ends 0 rest) {fuel : ℕ}
    (hf : t.length < fuel) :
    stepsFrom (exprAt? d) fuel e (blanks (t ++ rest)) = some (e', blanks rest) := by
  induction h generalizing fuel with
  | nil e =>
      obtain ⟨fuel, rfl⟩ := Nat.exists_eq_add_of_lt hf
      unfold XPath.stepsFrom
      simp only [List.nil_append, blanks_blanks]
      split
      · next heq => simpa using hr.slash '/' (by simp [heq])
      · next heq => simpa using hr.slash '/' (by simp [heq])
      · rfl
  | @child s t axis test ps e e' hs ht ih =>
      obtain ⟨fuel, rfl⟩ : ∃ m, fuel = m + 1 := ⟨fuel - 1, by omega⟩
      have hft : t.length < fuel := by
        simp only [List.length_append, List.length_cons] at hf
        omega
      have hread := hs.reads d hd e (t ++ rest) (ht.endsStep hr.toEndsStep)
      have hb := startsTest_blanks hs.starts (t ++ rest)
      have hs' := ne_slash_of_startsTest hs.starts (t ++ rest)
      simp only [List.cons_append, List.append_assoc, blanks_cons (c := '/') rfl]
      unfold XPath.stepsFrom
      rw [blanks_cons rfl]
      split
      · next heq => exact absurd (List.cons.inj heq).2 (hs' _)
      · next heq =>
        obtain rfl := (List.cons.inj heq).2
        simp [hb, hread, ih hft]
      · next h2 => exact absurd rfl (h2 _)
  | @inside s t axis test ps e e' hs ht ih =>
      obtain ⟨fuel, rfl⟩ : ∃ m, fuel = m + 1 := ⟨fuel - 1, by omega⟩
      have hft : t.length < fuel := by
        simp only [List.length_append, List.length_cons] at hf
        omega
      have hread := hs.reads d hd e.inside (t ++ rest) (ht.endsStep hr.toEndsStep)
      have hb := startsTest_blanks hs.starts (t ++ rest)
      simp only [List.cons_append, List.append_assoc, blanks_cons (c := '/') rfl]
      simp [XPath.stepsFrom, blanks_cons (c := '/') rfl, hb, hread, ih hft]

end StepsRead

/-- A step and further ones from an expression. -/
lemma relativePath?_append {n d : ℕ} (hd : n ≤ d) {s t rest : Text} {start e : Expr} {axis : Axis}
    {test : NodeTest} {ps : List Expr} (hs : StepReads n s axis test ps)
    (ht : StepsRead n t (.step start axis test ps) e) (hr : Ends 0 rest) :
    relativePath? (exprAt? d) start (s ++ (t ++ rest)) = some (e, blanks rest) := by
  have hread := hs.reads d hd start (t ++ rest) (ht.endsStep hr.toEndsStep)
  have hb := startsTest_blanks hs.starts (t ++ rest)
  have hf := Nat.lt_succ_of_le (ht.length_le rest)
  have hs' := ne_slash_of_startsTest hs.starts (t ++ rest)
  unfold relativePath?
  rw [hb]
  split
  · next heq => exact absurd heq (hs' _)
  · next heq => exact absurd heq (hs' _)
  · simp [hread, ht.stepsFrom hd hr hf]

/-- No further slash stands behind a path. -/
lemma absolutePath?_ends {sub : Reader Expr} {rest : Text} (hr : Ends 0 rest) (fuel : ℕ) (e : Expr) :
    absolutePath? sub fuel e (blanks rest) = some (e, blanks rest) := by
  cases fuel with
  | zero => rfl
  | succ fuel =>
      unfold absolutePath?
      split
      · next heq => simpa using hr.slash '/' (by simp [heq])
      · next heq => simpa using hr.slash '/' (by simp [heq])
      · rfl

/-- Steps from the document. -/
lemma locationPath?_absolute {n d : ℕ} (hd : n ≤ d) {t rest : Text} {e : Expr}
    (h : StepsRead n t .root e) (ht : t ≠ []) (hr : Ends 0 rest) :
    locationPath? (exprAt? d) (t ++ rest) = some (e, blanks rest) := by
  cases h with
  | nil => exact absurd rfl ht
  | @child s t axis test ps _ _ hs ht =>
      have hread := relativePath?_append hd hs ht hr
      have hb := startsTest_blanks hs.starts (t ++ rest)
      obtain ⟨c, r, rfl, hc⟩ := hs.starts
      have hslash : c ≠ '/' := hc.ne rfl
      rw [List.cons_append] at hb hread
      simp only [List.cons_append, List.append_assoc, locationPath?, blanks_cons (c := '/') rfl]
      unfold absolutePath?
      simp [hslash, hb, hc.step, hread, absolutePath?_ends hr]
  | @inside s t axis test ps _ _ hs ht =>
      have hread := relativePath?_append hd hs ht hr
      have hb := startsTest_blanks hs.starts (t ++ rest)
      simp only [List.cons_append, List.append_assoc, locationPath?, blanks_cons (c := '/') rfl]
      unfold absolutePath?
      simp [hb, hread, absolutePath?_ends hr]

/-- Steps from the context node. -/
lemma locationPath?_relative {n d : ℕ} (hd : n ≤ d) {s t rest : Text} {e : Expr} {axis : Axis}
    {test : NodeTest} {ps : List Expr} (hs : StepReads n s axis test ps)
    (ht : StepsRead n t (.step .here axis test ps) e) (hr : Ends 0 rest) :
    locationPath? (exprAt? d) (s ++ (t ++ rest)) = some (e, blanks rest) := by
  have hb := startsTest_blanks hs.starts (t ++ rest)
  have hs' := ne_slash_of_startsTest hs.starts (t ++ rest)
  unfold locationPath?
  rw [hb]
  split
  · next heq => exact absurd heq (hs' _)
  · exact relativePath?_append hd hs ht hr

/-- Steps from the context node, which a point stands for. -/
lemma locationPath?_here {n d : ℕ} (hd : n ≤ d) {t rest : Text} {e : Expr}
    (ht : StepsRead n t .here e) (hne : t ≠ []) (hr : Ends 0 rest) :
    locationPath? (exprAt? d) ('.' :: (t ++ rest)) = some (e, blanks rest) := by
  have hpoint : ∀ r, t ++ rest ≠ '.' :: r := by
    cases ht with
    | nil => exact absurd rfl hne
    | child => simp
    | inside => simp
  have hstep : step? (exprAt? d) .here ('.' :: (t ++ rest)) = some (.here, blanks (t ++ rest)) := by
    unfold step?
    rw [blanks_cons rfl]
    split
    · next heq => exact absurd (List.cons.inj heq).2 (hpoint _)
    · next heq =>
      obtain rfl := (List.cons.inj heq).2
      rfl
    · next h2 => exact absurd rfl (h2 _)
  have hf := Nat.lt_succ_of_le (ht.length_le rest)
  simp [locationPath?, relativePath?, blanks_cons (c := '.') rfl, hstep, ht.stepsFrom hd hr hf]

/-! ### Paths -/

/-- A path of steps alone. -/
lemma pathExpr?_of_location {sub : Reader Expr} {s rest : Text} {e : Expr} (hs : blanks s = s)
    (hp : startsPrimary? s = some false) (h : locationPath? sub s = some (e, blanks rest)) :
    pathExpr? sub s = some (e, blanks rest) := by
  simp [pathExpr?, hs, hp, h]

/-- **Paths from the document**: they start with a slash. -/
theorem reads_absolute {n : ℕ} {t : Text} {e : Expr} (h : StepsRead n t .root e) (ht : t ≠ []) :
    Reads n 0 t e where
  starts := by
    cases h with
    | nil => exact absurd rfl ht
    | child => exact ⟨'/', _, rfl, rfl, by simp, by simp⟩
    | inside => exact ⟨'/', _, rfl, rfl, by simp, by simp⟩
  reads d hd rest hr := by
    have hl := locationPath?_absolute hd h ht hr
    obtain ⟨r, hcr⟩ : ∃ r, t ++ rest = '/' :: r := by
      cases h with
      | nil => exact absurd rfl ht
      | child => exact ⟨_, rfl⟩
      | inside => exact ⟨_, rfl⟩
    rw [hcr] at hl ⊢
    exact pathExpr?_of_location (blanks_cons rfl r) rfl hl

/-- **Paths from the point** that stands for the context node. -/
theorem reads_here {n : ℕ} {t : Text} {e : Expr} (h : StepsRead n t .here e) (ht : t ≠ []) :
    Reads n 0 ('.' :: t) e where
  starts := ⟨'.', t, rfl, rfl, by simp, by simp⟩
  reads d hd rest hr := by
    have hl := locationPath?_here hd h ht hr
    obtain ⟨r, hcr⟩ : ∃ r, t ++ rest = '/' :: r := by
      cases h with
      | nil => exact absurd rfl ht
      | child => exact ⟨_, rfl⟩
      | inside => exact ⟨_, rfl⟩
    rw [List.cons_append]
    rw [hcr] at hl ⊢
    exact pathExpr?_of_location (blanks_cons rfl _) rfl hl

/-- **Paths from the context node**, where no other expression can start. -/
theorem reads_relative {n : ℕ} {s t : Text} {axis : Axis} {test : NodeTest} {ps : List Expr}
    {e : Expr} (hs : StepReads n s axis test ps)
    (hp : ∀ rest, EndsStep rest → startsPrimary? (s ++ rest) = some false)
    (ht : StepsRead n t (.step .here axis test ps) e) : Reads n 0 (s ++ t) e where
  starts := by
    obtain ⟨c, r, rfl, hc⟩ := hs.starts
    exact ⟨c, r ++ t, rfl, hc.isSpace, hc.ne rfl, hc.ne rfl⟩
  reads d hd rest hr := by
    have hl := locationPath?_relative hd hs ht hr
    rw [List.append_assoc]
    exact pathExpr?_of_location (startsTest_blanks hs.starts _)
      (hp _ (ht.endsStep hr.toEndsStep)) hl

/-- The attributes of the context node that pass a test. -/
lemma reads_attributeTest {s : Text} {test : NodeTest} (h : BareReads s test) :
    Reads 0 0 ('@' :: s) (.step .here .attribute test []) := by
  have hs := (testReads_attribute h).step 0
  simpa using reads_relative hs (fun _ _ => rfl) (.nil _)

/-- An attribute of the context node. -/
lemma reads_attribute {name : Text} (hn : Text.IsName name) :
    Reads 0 0 ('@' :: name) (.step .here .attribute (.name none name) []) :=
  reads_attributeTest (bareReads_name hn)

/-- A double colon is found behind any text. -/
lemma hasDoubleColon_append (u v : Text) : hasDoubleColon (u ++ ':' :: ':' :: v) = true := by
  induction u with
  | nil => simp [hasDoubleColon, Text.occursIn, List.isPrefixOf]
  | cons c u ih =>
      simp only [hasDoubleColon] at ih
      simp [hasDoubleColon, Text.occursIn, ih]

/-- A text with an axis in front is no call. -/
lemma startsPrimary?_axis {a : Text} (ha : Text.IsName a) (s : Text) :
    startsPrimary? (a ++ "::".toList ++ s) = some false := by
  obtain ⟨c, r, rfl, hc, hr⟩ := ha
  have hcr : c :: r ++ "::".toList ++ s = c :: (r ++ [':', ':'] ++ s) := by simp
  have hall : ∀ d ∈ r ++ [':', ':'], (Text.isNameChar d || d == ':') = true := by
    intro d hd
    rcases List.mem_append.mp hd with hd | hd
    · simp [hr d hd]
    · simp_all
  have htake := @List.takeWhile_append_of_pos _ _ _ s hall
  have hname : hasDoubleColon (c :: (r ++ [':', ':'] ++
      s.takeWhile fun d => Text.isNameChar d || d == ':')) = true := by
    simpa using hasDoubleColon_append (c :: r) (s.takeWhile fun d => Text.isNameChar d || d == ':')
  rw [hcr, startsPrimary?_of_isNameStart hc]
  simp only [startsCall?, hc, Bool.true_or, if_true, htake, hname, Bool.not_true, Bool.false_and]
  split <;> rfl

/-- Steps from the context node along an axis. -/
theorem reads_axis {n : ℕ} {a s t : Text} {axis : Axis} {test : NodeTest} {ps : List Expr}
    {e : Expr} (ha : Text.IsName a) (hs : StepReads n (a ++ "::".toList ++ s) axis test ps)
    (ht : StepsRead n t (.step .here axis test ps) e) :
    Reads n 0 (a ++ "::".toList ++ s ++ t) e :=
  reads_relative hs (fun rest _ => by
    rw [List.append_assoc]
    exact startsPrimary?_axis ha (s ++ rest)) ht

end Locator.XPath

/-
Parts of paths

* `predicates_eq_some`: predicates stand between square brackets one behind the other;
* `segments_squeeze`: **the steps of a path** stand behind runs of slashes;
* `bracketsOf`, `compoundOf_eq`: the tests of a step, bracket by bracket;
* `StepText`, `stepText_of_bracketsOf`: **a step that is read** holds its name and brackets that
  state its tests.
-/
import Locator.Proofs.Convert.Stated
import Locator.Proofs.Text.TopLevel
import Locator.Proofs.XPath.Normal

namespace Locator

open Text

variable {s u sep : Text} {c : Char} {n : Nesting}

namespace Text

lemma rdropWhile_append_rtakeWhile (p : Char → Bool) (s : Text) :
    s.rdropWhile p ++ s.rtakeWhile p = s := by
  rw [List.rdropWhile, List.rtakeWhile, ← List.reverse_append, List.takeWhile_append_dropWhile,
    List.reverse_reverse]

/-- A text stands between blanks without those around it. -/
lemma exists_strip (s : Text) :
    ∃ bs bs', XPath.IsBlanks bs ∧ XPath.IsBlanks bs' ∧ s = bs ++ (strip s ++ bs') := by
  refine ⟨s.takeWhile isBlank, (s.dropWhile isBlank).rtakeWhile isBlank,
    fun _ hc => List.mem_takeWhile_imp hc, fun _ hc => List.mem_rtakeWhile_imp hc, ?_⟩
  rw [strip, stripBy, dropEnd_eq, rdropWhile_append_rtakeWhile, List.takeWhile_append_dropWhile]

/-- What is stripped and not empty has no blank at its ends. -/
lemma isTrim_strip (h : strip s ≠ []) : IsTrim (strip s) where
  ne_nil := h
  head c hc := by
    obtain ⟨t, ht⟩ := List.rdropWhile_prefix isBlank (s.dropWhile isBlank)
    have hhead : (s.dropWhile isBlank).head? = some c := by
      rw [← ht, List.head?_append]
      have hc : ((s.dropWhile isBlank).rdropWhile isBlank).head? = some c := hc
      rw [hc]
      rfl
    simpa [hhead] using List.head?_dropWhile_not isBlank s
  last := getLast?_dropEnd

/-- A part stands in what the parts make up. -/
lemma infix_join {p : Text} {ps : List Text} (h : p ∈ ps) : p <:+: join sep ps := by
  obtain ⟨p', ps, rfl⟩ := List.exists_cons_of_ne_nil (List.ne_nil_of_mem h)
  rw [join_cons]
  rcases List.mem_cons.mp h with rfl | h
  · exact (List.prefix_append ..).isInfix
  · have hmore : sep ++ p <:+: ps.flatMap (sep ++ ·) :=
      List.infix_of_mem_flatten (List.mem_map_of_mem h)
    exact (List.suffix_append sep p).isInfix.trans (hmore.trans (List.suffix_append ..).isInfix)

/-! ### Slashes do not count -/

/-- Only a quotation mark is open. -/
def Nesting.IsSound (n : Nesting) : Prop := ∀ q ∈ n.quote, isQuote q = true

lemma Nesting.isSound_outside : Nesting.outside.IsSound := by simp [Nesting.IsSound, Nesting.outside]

lemma Nesting.IsSound.next (h : n.IsSound) (opening closing : Text) (c : Char) :
    (n.next opening closing c).IsSound := by
  intro q hq
  rw [Nesting.next] at hq
  split at hq
  · split_ifs at hq
    · simp at hq
    · exact h q hq
  · split_ifs at hq with hc
    · obtain rfl : c = q := Option.some.inj hq
      exact hc
    all_goals exact h q hq

/-- What is neither a mark nor a bracket changes nothing. -/
lemma Nesting.IsSound.next_eq_self (h : n.IsSound) {opening closing : Text}
    (hc : isQuote c = false) (ho : c ∉ opening) (hcl : c ∉ closing) :
    n.next opening closing c = n := by
  rw [Nesting.next]
  split
  · next q heq =>
      have hne : (c == q) = false := by
        rw [Bool.eq_false_iff]
        intro heq'
        rw [beq_iff_eq.mp heq', h q heq] at hc
        exact absurd hc (by decide)
      rw [hne]
      rfl
  · simp [hc, ho, hcl]

end Text

namespace XPath

open Css

variable {r : Text} {t : Test}

/-! ### Steps and predicates are cut off -/

/-- What stands behind a step starts with a slash. -/
lemma cutStep_eq (n : Nesting) (s : Text) :
    s = (cutStep n s).1 ++ (cutStep n s).2 ∧ ∀ c ∈ (cutStep n s).2.head?, c = '/' := by
  induction s generalizing n with
  | nil => exact ⟨rfl, by simp [cutStep]⟩
  | cons c r ih =>
      rw [cutStep]
      split_ifs with hstop
      · simp only [Bool.and_eq_true, beq_iff_eq] at hstop
        exact ⟨rfl, by rintro _ ⟨rfl⟩; exact hstop.2⟩
      · obtain ⟨heq, hhead⟩ := ih (nextInStep n c)
        exact ⟨congrArg (c :: ·) heq, hhead⟩

/-- A predicate ends in front of a closing bracket. -/
lemma cutPredicate_eq_some {body rest : Text} (h : cutPredicate n s = some (body, rest)) :
    s = body ++ ']' :: rest := by
  induction s generalizing n body with
  | nil => simp [cutPredicate] at h
  | cons c r ih =>
      rw [cutPredicate] at h
      split_ifs at h with hstop
      · simp only [Bool.and_eq_true, beq_iff_eq] at hstop
        obtain ⟨rfl, rfl⟩ := Prod.mk.inj (Option.some.inj h)
        rw [hstop.2]
        rfl
      · simp only [Option.bind_eq_bind, Option.bind_eq_some_iff, Option.pure_def, Prod.exists,
          Option.some.injEq, Prod.mk.injEq] at h
        obtain ⟨head, rest', hcut, rfl, rfl⟩ := h
        rw [ih hcut]
        rfl

/-- A predicate between its brackets. -/
def bracketed (body : Text) : Text := '[' :: body ++ [']']

/-- Predicates stand between square brackets one behind the other. -/
lemma predicatesFrom_eq_some {fuel : ℕ} {ps : List Text} (h : predicatesFrom fuel s = some ps) :
    ∃ bodies : List Text, s = bodies.flatMap bracketed ∧ ps = bodies.map strip := by
  induction fuel generalizing s ps with
  | zero =>
      cases s with
      | nil => exact ⟨[], rfl, (Option.some.inj h).symm⟩
      | cons c r => simp [predicatesFrom] at h
  | succ fuel ih =>
      cases s with
      | nil => exact ⟨[], rfl, (Option.some.inj h).symm⟩
      | cons c r =>
          unfold predicatesFrom at h
          split at h
          · next heq => simp at heq
          · next r' hfuel heq =>
              obtain ⟨rfl, rfl⟩ := List.cons.inj heq
              obtain rfl := Nat.succ.inj hfuel
              simp only [Option.bind_eq_bind, Option.bind_eq_some_iff, Prod.exists] at h
              obtain ⟨body, rest, hcut, h⟩ := h
              split_ifs at h with hblank
              simp only [Option.bind_eq_some_iff, Option.pure_def, Option.some.injEq] at h
              obtain ⟨ps', hps', rfl⟩ := h
              obtain ⟨bodies, rfl, rfl⟩ := ih hps'
              refine ⟨body :: bodies, ?_, rfl⟩
              rw [cutPredicate_eq_some hcut, List.flatMap_cons, bracketed]
              simp
          · simp at h

lemma predicates_eq_some {ps : List Text} (h : predicates s = some ps) :
    ∃ bodies : List Text, s = bodies.flatMap bracketed ∧ ps = bodies.map strip :=
  predicatesFrom_eq_some h

/-! ### Steps -/

/-- The axis in front of a step is read. -/
lemma readAxis_axis (before how : Combinator) (h : ∀ r, s ≠ '/' :: r) :
    readAxis before (Chain.axis how ++ s) = (how, s) := by
  cases how with
  | descendant => rfl
  | child =>
      have htext : Chain.axis .child ++ s = '/' :: s := rfl
      rw [htext]
      unfold readAxis
      split
      · next r heq => exact absurd (List.cons.inj heq).2 (h r)
      · next heq => rw [(List.cons.inj heq).2]
      · next hno => exact absurd rfl (hno s)

/-- A step is cut off a shortened text as it is off the text itself. -/
lemma cutStep_squeezeFrom {k : ℕ} (hn : n.IsSound)
    (hk : n.quote = none → n.depth = 0 → k = 0) (s : Text) :
    cutStep n (squeezeFrom k s) = (squeezeFrom k (cutStep n s).1, squeeze (cutStep n s).2) := by
  induction s generalizing n k with
  | nil => rfl
  | cons c r ih =>
      have hstop : ¬ (c = '/' ∧ n.quote = none ∧ n.depth = 0) → ∀ t, cutStep n (c :: t) =
          (c :: (cutStep (nextInStep n c) t).1, (cutStep (nextInStep n c) t).2) := by
        intro hno t
        rw [cutStep, if_neg]
        simp only [Bool.and_eq_true, Option.isNone_iff_eq_none, beq_iff_eq, not_and]
        exact fun h hc => hno ⟨hc, h⟩
      by_cases hc : c = '/'
      · subst hc
        have hnext : nextInStep n '/' = n := hn.next_eq_self rfl (by decide) (by decide)
        by_cases hout : n.quote = none ∧ n.depth = 0
        · obtain rfl := hk hout.1 hout.2
          have hhere : ∀ t, cutStep n ('/' :: t) = ([], '/' :: t) := fun t => by
            rw [cutStep, if_pos (by simp [hout])]
          have hsqueeze : squeezeFrom 0 ('/' :: r) = '/' :: squeezeFrom 1 r := rfl
          rw [hhere, hsqueeze, hhere]
          rfl
        · have hrest := fun j => ih (k := j) hn fun h h' => absurd ⟨h, h'⟩ hout
          have hstop := hstop fun h => hout h.2
          rw [hnext] at hstop
          by_cases hlt : k < 2
          · have hsqueeze : ∀ t, squeezeFrom k ('/' :: t) = '/' :: squeezeFrom (k + 1) t := fun t => by
              rw [squeezeFrom, if_pos (beq_self_eq_true _), if_pos hlt]
            rw [hsqueeze, hstop, hstop, hrest, hsqueeze]
          · have hsqueeze : ∀ t, squeezeFrom k ('/' :: t) = squeezeFrom k t := fun t => by
              rw [squeezeFrom, if_pos (beq_self_eq_true _), if_neg hlt]
            rw [hsqueeze, hstop, hrest, hsqueeze]
      · have hsqueeze : ∀ t, squeezeFrom k (c :: t) = c :: squeezeFrom 0 t := fun t => by
          rw [squeezeFrom, if_neg (by simpa using hc)]
        have hstop := hstop fun h => hc h.1
        have hnext : (nextInStep n c).IsSound := hn.next _ _ c
        rw [hsqueeze, hstop, hstop, ih hnext fun _ _ => rfl, hsqueeze]

/-- A step behind a run of slashes. -/
structure Leg where
  slashes : ℕ
  text : Text

namespace Leg

/-- The slashes and the step behind them. -/
def written (x : Leg) : Text := List.replicate x.slashes '/' ++ x.text

/-- One slash leads to a child, more of them lead further down; runs of slashes are
shortened. -/
def segment (x : Leg) : Segment := ⟨if x.slashes = 1 then .child else .descendant, squeeze x.text⟩

/-- There are slashes, and a step behind them. -/
structure IsProper (x : Leg) : Prop where
  pos : 0 < x.slashes
  ne_nil : x.text ≠ []
  head : ∀ c ∈ x.text.head?, c ≠ '/'

end Leg

/-- A text that is shortened behind a run of slashes. -/
lemma squeeze_replicate {k : ℕ} (hk : 0 < k) (hs : ∀ c ∈ s.head?, c ≠ '/') :
    squeeze (List.replicate k '/' ++ s) =
      Chain.axis (if k = 1 then .child else .descendant) ++ squeeze s := by
  have hend : ∀ j, squeezeFrom j s = squeeze s := by
    intro j
    cases s with
    | nil => rfl
    | cons c r =>
        have hc : c ≠ '/' := hs c rfl
        simp only [squeeze, squeezeFrom, beq_iff_eq, hc, if_false]
  have hmany : ∀ j, squeezeFrom 2 (List.replicate j '/' ++ s) = squeeze s := by
    intro j
    induction j with
    | zero => exact hend 2
    | succ j ih => exact ih
  obtain rfl | ⟨j, rfl⟩ : k = 1 ∨ ∃ j, k = j + 2 := by
    rcases le_or_gt 2 k with htwo | hone
    · exact .inr ⟨k - 2, by omega⟩
    · exact .inl (by omega)
  · exact congrArg ('/' :: ·) (hend 1)
  · have htext : squeeze (List.replicate (j + 2) '/' ++ s) =
        '/' :: '/' :: squeezeFrom 2 (List.replicate j '/' ++ s) := rfl
    rw [htext, hmany, if_neg (by omega)]
    rfl

/-- Every text is a run of slashes, perhaps of none, and what stands behind it. -/
lemma exists_slashes (s : Text) :
    ∃ k r, (∀ c ∈ r.head?, c ≠ '/') ∧ s = List.replicate k '/' ++ r := by
  refine ⟨(s.takeWhile (· == '/')).length, s.dropWhile (· == '/'), fun c hc => ?_, ?_⟩
  · simpa [Option.mem_def.mp hc] using List.head?_dropWhile_not (· == '/') s
  · have hrun : s.takeWhile (· == '/') = List.replicate (s.takeWhile (· == '/')).length '/' :=
      List.eq_replicate_of_mem fun c hc => by simpa using List.mem_takeWhile_imp hc
    rw [← hrun, List.takeWhile_append_dropWhile]

/-- A step that is cut off a shortened text is the shortened step. -/
lemma cutStep_squeeze (s : Text) : cutStep .outside (squeeze s) =
    (squeeze (cutStep .outside s).1, squeeze (cutStep .outside s).2) :=
  cutStep_squeezeFrom Nesting.isSound_outside (fun _ _ => rfl) s

/-- A step starts with the first character, if that is no slash. -/
lemma exists_cutStep_eq {c : Char} (hc : c ≠ '/') (s : Text) :
    ∃ u, (cutStep .outside (c :: s)).1 = c :: u := by
  rw [cutStep, if_neg (by simp [hc])]
  exact ⟨_, rfl⟩

/-- A run of slashes and the step behind it are read first. -/
lemma segmentsFrom_replicate {k : ℕ} (hk : 0 < k) (hs : ∀ c ∈ s.head?, c ≠ '/') (fuel : ℕ)
    (before : Combinator) : segmentsFrom (fuel + 1) before (squeeze (List.replicate k '/' ++ s)) =
      (if (squeeze (cutStep .outside s).1).isEmpty then
        segmentsFrom fuel (if k = 1 then .child else .descendant) (squeeze (cutStep .outside s).2)
      else ⟨if k = 1 then .child else .descendant, squeeze (cutStep .outside s).1⟩ ::
        segmentsFrom fuel (if k = 1 then .child else .descendant)
          (squeeze (cutStep .outside s).2)) := by
  have haxis : readAxis before (squeeze (List.replicate k '/' ++ s)) =
      (if k = 1 then .child else .descendant, squeeze s) := by
    rw [squeeze_replicate hk hs, readAxis_axis]
    intro t ht
    have hhead := head?_squeeze s
    rw [ht] at hhead
    exact hs '/' hhead.symm rfl
  obtain ⟨c, t, hct⟩ : ∃ c t, squeeze (List.replicate k '/' ++ s) = c :: t := by
    rw [squeeze_replicate hk hs]
    split_ifs <;> exact ⟨_, _, rfl⟩
  rw [hct] at haxis ⊢
  simp only [segmentsFrom, haxis, cutStep_squeeze]

/-- Behind slashes every step stands behind its own run of them, perhaps but the last run. -/
lemma segmentsFrom_squeeze (hs : ∀ c ∈ s.head?, c = '/') :
    ∃ (legs : List Leg) (k : ℕ), s = legs.flatMap Leg.written ++ List.replicate k '/' ∧
      (∀ x ∈ legs, x.IsProper) ∧ ∀ fuel before, (squeeze s).length ≤ fuel →
        segmentsFrom fuel before (squeeze s) = legs.map Leg.segment := by
  -- The run of slashes and the step behind it are cut off, and what is left is shorter.
  induction hlen : s.length using Nat.strong_induction_on generalizing s with
  | _ l ih =>
      obtain ⟨k, r, hr, rfl⟩ := exists_slashes s
      by_cases hk : k = 0
      · obtain rfl : r = [] := by
          subst hk
          cases r with
          | nil => rfl
          | cons c r => exact absurd (hs c rfl) (hr c rfl)
        subst hk
        exact ⟨[], 0, rfl, by simp, fun fuel _ _ => by cases fuel <;> rfl⟩
      have hpos : 0 < k := Nat.pos_of_ne_zero hk
      have hread := segmentsFrom_replicate hpos hr
      have haxis : 0 < (Chain.axis (if k = 1 then .child else .descendant)).length := by
        split_ifs <;> decide
      obtain ⟨hcut, hhead⟩ := cutStep_eq .outside r
      have hshort : (cutStep .outside r).2.length < l := by
        have := congrArg List.length hcut
        rw [← hlen, List.length_append, List.length_replicate]
        rw [List.length_append] at this
        omega
      obtain ⟨legs, j, htext, hlegs, hrest⟩ := ih _ hshort hhead rfl
      cases r with
      | nil =>
          refine ⟨[], k, by simp, by simp, fun fuel before hf => ?_⟩
          rw [squeeze_replicate hpos hr, List.length_append] at hf
          obtain ⟨fuel, rfl⟩ : ∃ m, fuel = m + 1 := ⟨fuel - 1, by omega⟩
          rw [hread]
          cases fuel <;> rfl
      | cons c r =>
          have hc : c ≠ '/' := hr c rfl
          obtain ⟨u, hu⟩ := exists_cutStep_eq hc r
          refine ⟨⟨k, c :: u⟩ :: legs, j, ?_, ?_, fun fuel before hf => ?_⟩
          · rw [List.flatMap_cons, Leg.written, List.append_assoc, ← htext, List.append_assoc, ← hu,
              ← hcut]
          · rw [List.forall_mem_cons]
            exact ⟨⟨hpos, List.cons_ne_nil _ _, by rintro _ ⟨rfl⟩; exact hc⟩, hlegs⟩
          · rw [squeeze_replicate hpos hr, List.length_append] at hf
            obtain ⟨fuel, rfl⟩ : ∃ m, fuel = m + 1 := ⟨fuel - 1, by omega⟩
            have hsqueeze : squeeze (c :: u) = c :: squeeze u := squeeze_cons hc u
            have hfuel : (squeeze (cutStep .outside (c :: r)).2).length ≤ fuel := by
              have hparts := congrArg List.length (cutStep_eq .outside (squeeze (c :: r))).1
              rw [cutStep_squeeze, List.length_append] at hparts
              dsimp only at hparts
              omega
            rw [hread, hu, hsqueeze, hrest fuel _ hfuel, List.map_cons, Leg.segment, hsqueeze]
            rfl

/-- **The steps of a path** stand behind runs of slashes, perhaps but the first one and the last
run. -/
theorem segments_squeeze (s : Text) : ∃ (lead : Text) (legs : List Leg) (k : ℕ),
    s = lead ++ (legs.flatMap Leg.written ++ List.replicate k '/') ∧
      (∀ c ∈ lead.head?, c ≠ '/') ∧ (∀ x ∈ legs, x.IsProper) ∧
      segments (squeeze s) =
        (if lead = [] then [] else [⟨.descendant, squeeze lead⟩]) ++ legs.map Leg.segment := by
  by_cases hs : ∀ c ∈ s.head?, c = '/'
  · obtain ⟨legs, k, htext, hlegs, hread⟩ := segmentsFrom_squeeze hs
    refine ⟨[], legs, k, htext, by simp, hlegs, ?_⟩
    rw [if_pos rfl, List.nil_append]
    exact hread _ _ le_rfl
  · push Not at hs
    obtain ⟨c, hc, hne⟩ := hs
    obtain ⟨r, rfl⟩ : ∃ r, s = c :: r := ⟨s.tail, List.eq_cons_of_mem_head? hc⟩
    obtain ⟨hcut, hhead⟩ := cutStep_eq .outside (c :: r)
    obtain ⟨u, hu⟩ := exists_cutStep_eq hne r
    have hstep := cutStep_squeeze (c :: r)
    have hparts := congrArg List.length (cutStep_eq .outside (squeeze (c :: r))).1
    obtain ⟨legs, k, htext, hlegs, hread⟩ := segmentsFrom_squeeze hhead
    refine ⟨c :: u, legs, k, by rw [← htext, ← hu, ← hcut], by rintro _ ⟨rfl⟩; exact hne, hlegs, ?_⟩
    rw [hu] at hstep
    rw [hstep, List.length_append] at hparts
    have hsqueeze : ∀ t, squeeze (c :: t) = c :: squeeze t := squeeze_cons hne
    have haxis : readAxis .descendant (squeeze (c :: r)) = (.descendant, squeeze (c :: r)) := by
      rw [hsqueeze]
      unfold readAxis
      split
      · next heq => exact absurd (List.cons.inj heq).1 hne
      · next heq => exact absurd (List.cons.inj heq).1 hne
      · rfl
    rw [hsqueeze] at hparts hstep haxis
    rw [hsqueeze u] at hparts hstep
    simp only [List.length_cons] at hparts
    have hrest := hread (squeeze r).length .descendant (by omega)
    rw [segments, hsqueeze, List.length_cons, segmentsFrom, haxis]
    simp only [hstep, hrest]
    rw [if_neg (List.cons_ne_nil c u), hsqueeze u]
    rfl

/-! ### What the steps hold -/

/-- A text with blanks around it. -/
def Padded (u s : Text) : Prop := ∃ bs bs', IsBlanks bs ∧ IsBlanks bs' ∧ s = bs ++ (u ++ bs')

lemma padded_strip (s : Text) : Padded (strip s) s := exists_strip s

lemma Padded.isInfix (h : Padded u s) : u <:+: s := by
  obtain ⟨bs, bs', -, -, rfl⟩ := h
  exact ⟨bs, bs', by rw [List.append_assoc]⟩

/-- The texts of predicates that state tests, all of them to hold. -/
def StatesAll (ts : List Test) (body : Text) : Prop :=
  ∃ (t : Test) (ts' : List Test) (part : Text) (parts : List Text), ts = t :: ts' ∧
    Padded (join " and ".toList (part :: parts)) body ∧
    List.Forall₂ (fun t p => ∃ u, Padded u p ∧ States t u) (t :: ts') (part :: parts)

/-- The texts of steps: a name, and brackets that state the tests. -/
structure StepText (name : Text) (tss : List (List Test)) (s : Text) : Prop where
  tag : name = ['*'] ∨ isWordName name = true
  text : ∃ bodies : List Text,
    List.Forall₂ StatesAll tss bodies ∧ Padded (name ++ bodies.flatMap bracketed) s

lemma mapM_eq_some {α β : Type} {f : α → Option β} {l : List α} {l' : List β} :
    l.mapM f = some l' ↔ List.Forall₂ (fun a b => f a = some b) l l' := by
  induction l generalizing l' with
  | nil => simp [eq_comm]
  | cons a l ih =>
      simp only [List.mapM_cons, Option.bind_eq_bind, Option.bind_eq_some_iff, ih,
        List.forall₂_cons_left_iff, Option.pure_def, Option.some.injEq]
      exact ⟨fun ⟨b, hb, bs, hbs, h⟩ => ⟨b, bs, hb, hbs, h.symm⟩,
        fun ⟨b, bs, hb, hbs, h⟩ => ⟨b, hb, bs, hbs, h.symm⟩⟩

/-- What is read and then changed, one after the other. -/
lemma mapM_map_eq {α β γ : Type} (f : α → Option β) (g : β → γ) (l : List α) :
    (l.mapM fun a => (f a).map g) = (l.mapM f).map (List.map g) := by
  induction l with
  | nil => rfl
  | cons a l ih =>
      rw [List.mapM_cons, List.mapM_cons, ih]
      cases f a with
      | none => rfl
      | some b => cases l.mapM f <;> rfl

/-- The tests of a predicate are stated by its conditions. -/
lemma statesAll_of_mapM {body : Text} {ts : List Test}
    (h : (conditions (strip body)).mapM testOf = some ts) : StatesAll ts body := by
  have hand : " and ".toList ≠ [] := by decide
  have hjoin := join_splitTop hand (strip body)
  obtain ⟨part, parts, hparts⟩ := List.exists_cons_of_ne_nil
    (splitTopFrom_ne_nil " and ".toList 0 .outside (strip body))
  rw [conditions, splitTop, hparts, mapM_eq_some, List.forall₂_map_left_iff] at h
  obtain ⟨t, ts', ht, hts', rfl⟩ := List.forall₂_cons_left_iff.mp h
  rw [splitTop, hparts] at hjoin
  refine ⟨t, ts', part, parts, rfl, ?_, ?_⟩
  · rw [hjoin]
    exact padded_strip body
  · exact .flip (List.Forall₂.imp (fun p _ hp => ⟨strip p, padded_strip p, testOf_iff.mp hp⟩)
      (.cons ht hts'))

/-- The name of a step is read. -/
lemma readName_eq_some {tag r : Text} (h : readName s = some (tag, r)) :
    (tag = ['*'] ∨ isWordName tag = true) ∧ s = tag ++ r := by
  unfold readName at h
  split at h
  · obtain ⟨rfl, rfl⟩ := Prod.mk.inj (Option.some.inj h)
    exact ⟨.inl rfl, rfl⟩
  · obtain ⟨hname, rfl, -⟩ := ident?_eq_some h
    exact ⟨.inr hname, rfl⟩

/-- The name of a step and its tests, bracket by bracket. -/
def bracketsOf (segment : Text) : Option (Text × List (List Test)) := do
  let (tag, r) ← readName (strip segment)
  let ps ← predicates r
  return (tag, ← ps.mapM fun p => (conditions p).mapM testOf)

/-- A compound has all the tests of its brackets. -/
lemma compoundOf_eq (segment : Text) :
    compoundOf segment = (bracketsOf segment).map fun x => ⟨x.1, x.2.flatten⟩ := by
  have hall : ∀ ps : List Text, (ps.flatMap conditions).mapM testOf =
      (ps.mapM fun p => (conditions p).mapM testOf).map List.flatten := by
    intro ps
    induction ps with
    | nil => rfl
    | cons p ps ih =>
        rw [List.flatMap_cons, List.mapM_append, ih, List.mapM_cons]
        cases (conditions p).mapM testOf with
        | none => rfl
        | some ts => cases ps.mapM fun p => (conditions p).mapM testOf <;> rfl
  rw [compoundOf, bracketsOf]
  cases readName (strip segment) with
  | none => rfl
  | some x =>
      obtain ⟨tag, r⟩ := x
      cases hps : predicates r with
      | none => simp [hps]
      | some ps =>
          simp only [Option.bind_eq_bind, Option.bind_some, hps, hall]
          cases ps.mapM fun p => (conditions p).mapM testOf <;> rfl

/-- **A step that is read** holds its name and brackets that state its tests. -/
theorem stepText_of_bracketsOf {tag : Text} {tss : List (List Test)}
    (h : bracketsOf s = some (tag, tss)) : StepText tag tss s := by
  simp only [bracketsOf, Option.bind_eq_bind, Option.bind_eq_some_iff, Option.pure_def,
    Option.some.injEq, Prod.exists, Prod.mk.injEq] at h
  obtain ⟨tag, r, hname, ps, hps, tss, htss, rfl, rfl⟩ := h
  obtain ⟨htag, hstrip⟩ := readName_eq_some hname
  obtain ⟨bodies, rfl, rfl⟩ := predicates_eq_some hps
  rw [mapM_eq_some, List.forall₂_map_left_iff] at htss
  exact ⟨htag, bodies, htss.flip.imp fun _ _ h => statesAll_of_mapM h,
    hstrip ▸ padded_strip s⟩

end XPath

end Locator

/-
Reading the paths of a union

* `Leg.ReadsAs`: a step behind slashes, with blanks around it, that is read;
* `stepsFrom_legs`, `pathExpr?_legs`: **steps that are read as a whole** stand behind one or
  two slashes each, the first one perhaps behind more, and no slash follows the last one;
* `BranchReads`, `exists_of_read?`: **an expression that is read from a union** is the union of
  its paths.
-/
import Locator.Proofs.Convert.Read

namespace Locator.XPath

open Text Css

variable {n d fuel : ℕ} {s t u r r' bs p : Text} {e e' : Expr} {leg : Leg} {legs : List Leg}

/-! ### Behind the steps of a path -/

/-- What can stand behind the steps of a path in a union: slashes and blanks, and then nothing
or a bar. -/
structure IsTail (t r : Text) : Prop where
  loose : ∀ c ∈ t, c = '/' ∨ Text.isSpace c = true
  bar : ∀ c ∈ r.head?, c = '|'

namespace IsTail

lemma blanks_eq_self (h : IsTail t r) : blanks r = r := by
  cases r with
  | nil => rfl
  | cons c r =>
      rw [h.bar c rfl]
      exact blanks_cons rfl r

/-- Without slashes there are blanks alone. -/
lemma blanks_eq (h : IsTail t r) (ht : '/' ∉ t) : blanks (t ++ r) = r := by
  have hb : IsSpaces t := fun c hc => (h.loose c hc).resolve_left fun heq => ht (heq ▸ hc)
  rw [blanks_spaces hb, h.blanks_eq_self]

/-- The first slash with what stands behind it. -/
lemma exists_slash (h : IsTail t r) (ht : '/' ∈ t) :
    ∃ t', blanks (t ++ r) = '/' :: (t' ++ r) ∧ IsTail t' r := by
  induction t with
  | nil => simp at ht
  | cons c t ih =>
      have hrest : IsTail t r := ⟨fun d hd => h.loose d (List.mem_cons_of_mem c hd), h.bar⟩
      rcases h.loose c List.mem_cons_self with rfl | hc
      · exact ⟨t, blanks_cons rfl _, hrest⟩
      · have hne : '/' ≠ c := by
          rintro rfl
          exact absurd hc (by decide)
        obtain ⟨t', ht', htail⟩ := ih hrest ((List.mem_cons.mp ht).resolve_left hne)
        have hskip : blanks (c :: t ++ r) = blanks (t ++ r) := List.dropWhile_cons_of_pos hc
        exact ⟨t', hskip.trans ht', htail⟩

/-- A slash or a bar stands behind the blanks. -/
lemma head (h : IsTail t r) : ∀ c ∈ (blanks (t ++ r)).head?, c = '/' ∨ c = '|' := by
  intro c hc
  by_cases ht : '/' ∈ t
  · obtain ⟨t', heq, -⟩ := h.exists_slash ht
    rw [heq] at hc
    exact .inl (Option.some.inj hc).symm
  · rw [h.blanks_eq ht] at hc
    exact .inr (h.bar c hc)

lemma endsStep (h : IsTail t r) : EndsStep (t ++ r) where
  word c hc := by
    cases t with
    | nil =>
        rw [h.bar c hc]
        rfl
    | cons b t =>
        obtain rfl : b = c := Option.some.inj hc
        rcases h.loose b List.mem_cons_self with rfl | hb
        · rfl
        · exact goesOn_of_isSpace hb
  step c hc := by
    rcases h.head c hc with rfl | rfl <;> rfl

end IsTail

/-- No step starts with a slash or a bar, or where the text ends. -/
lemma step?_eq_none {sub : Reader Expr} {start : Expr}
    (h : ∀ c ∈ (blanks s).head?, c = '/' ∨ c = '|') : step? sub start s = none := by
  unfold step?
  generalize blanks s = b at h
  cases b with
  | nil => rfl
  | cons c r => rcases h c rfl with rfl | rfl <;> rfl

/-! ### Steps behind slashes -/

/-- A step behind slashes, with blanks around it, is read with its predicates. -/
structure Leg.ReadsAs (n : ℕ) (leg : Leg) (x : Step × List Expr) : Prop where
  pos : 0 < leg.slashes
  combinator : x.1.combinator = if leg.slashes = 1 then .child else .descendant
  text : ∃ bs u, IsSpaces bs ∧ StepReads n u .child x.1.compound.nodeTest x.2 ∧ leg.text = bs ++ u

/-- What a step with its predicates leads to. -/
def behind (e : Expr) (x : Step × List Expr) : Expr :=
  x.1.combinator.stepExpr e x.1.compound.nodeTest x.2

variable {x : Step × List Expr} {xs : List (Step × List Expr)}

/-- Steps behind slashes end the step in front of them. -/
lemma endsStep_legs (h : List.Forall₂ (Leg.ReadsAs n) legs xs) (hz : IsTail t r) :
    EndsStep (legs.flatMap Leg.written ++ (t ++ r)) := by
  cases h with
  | nil => exact hz.endsStep
  | @cons leg x legs xs hleg _ =>
      obtain ⟨k, hk⟩ := Nat.exists_eq_succ_of_ne_zero hleg.pos.ne'
      rw [List.flatMap_cons, Leg.written, hk]
      exact endsStep_slash _

/-- Neither a blank nor a slash starts the text of a step behind its blanks. -/
lemma StepReads.head {axis : Axis} {test : NodeTest} {ps : List Expr}
    (h : StepReads n u axis test ps) (hb : IsSpaces bs) (rest : Text) :
    blanks (bs ++ (u ++ rest)) = u ++ rest ∧ (∀ w, u ++ rest ≠ '/' :: w) ∧
      ∀ w, bs ++ (u ++ rest) ≠ '/' :: w := by
  have hslash := ne_slash_of_startsTest h.starts rest
  refine ⟨by rw [blanks_spaces hb, startsTest_blanks h.starts], hslash, fun w => ?_⟩
  cases bs with
  | nil => exact hslash w
  | cons b bs =>
      intro heq
      have hspace := hb b List.mem_cons_self
      rw [(List.cons.inj heq).1] at hspace
      exact absurd hspace (by decide)

/-- Nothing is read behind the steps of a path, and a slash there stops the reader. -/
lemma stepsFrom_tail {sub : Reader Expr} (hz : IsTail t r)
    (hread : stepsFrom sub (fuel + 1) e (blanks (t ++ r)) = some (e', r')) : e' = e ∧ r' = r := by
  unfold stepsFrom at hread
  rw [blanks_blanks] at hread
  by_cases ht : '/' ∈ t
  · obtain ⟨t', heq, htail⟩ := hz.exists_slash ht
    have hnone : ∀ {w start}, (∀ c ∈ (blanks w).head?, c = '/' ∨ c = '|') →
        step? sub start (blanks w) = none := fun h => step?_eq_none (by rwa [blanks_blanks])
    rw [heq] at hread
    split at hread
    · next w hw =>
        obtain ⟨-, hw⟩ := List.cons.inj hw
        have hagain : ∀ c ∈ (blanks w).head?, c = '/' ∨ c = '|' := by
          cases t' with
          | nil => exact absurd (htail.bar '/' (by rw [← List.nil_append r, hw]; rfl)) (by decide)
          | cons b t' =>
              obtain ⟨rfl, rfl⟩ := List.cons.inj hw
              exact IsTail.head ⟨fun c hc => htail.loose c (List.mem_cons_of_mem _ hc), htail.bar⟩
        simp [hnone hagain] at hread
    · next w _ hw =>
        obtain ⟨-, rfl⟩ := List.cons.inj hw
        simp [hnone htail.head] at hread
    · next hno => exact absurd rfl (hno _)
  · rw [hz.blanks_eq ht] at hread
    split at hread
    · exact absurd (hz.bar '/' rfl) (by decide)
    · exact absurd (hz.bar '/' rfl) (by decide)
    · obtain ⟨rfl, rfl⟩ := Prod.mk.inj (Option.some.inj hread)
      exact ⟨rfl, rfl⟩

/-- **Steps that are read as a whole** stand behind one or two slashes each, and no slash
follows the last one. -/
theorem stepsFrom_legs (h : List.Forall₂ (Leg.ReadsAs n) legs xs) (hd : n ≤ d) (hz : IsTail t r)
    (hf : legs.length < fuel)
    (hread : stepsFrom (exprAt? d) fuel e (blanks (legs.flatMap Leg.written ++ (t ++ r))) =
      some (e', r')) : e' = xs.foldl behind e ∧ r' = r := by
  induction h generalizing fuel e with
  | nil =>
      obtain ⟨fuel, rfl⟩ := Nat.exists_eq_add_of_lt hf
      exact stepsFrom_tail hz hread
  | @cons leg x legs xs hleg hrest ih =>
      obtain ⟨fuel, rfl⟩ : ∃ m, fuel = m + 1 := ⟨fuel - 1, by omega⟩
      have hfuel : legs.length < fuel := by
        rw [List.length_cons] at hf
        omega
      obtain ⟨hpos, hhow, bs, u, hb, hu, htext⟩ := hleg
      obtain ⟨hblanks, -, hslash⟩ := hu.head hb (legs.flatMap Leg.written ++ (t ++ r))
      have hstep := fun start => hu.reads d hd start _ (endsStep_legs hrest hz)
      have hwritten : ((leg :: legs).flatMap Leg.written ++ (t ++ r)) =
          List.replicate leg.slashes '/' ++ (bs ++ (u ++ (legs.flatMap Leg.written ++ (t ++ r)))) := by
        rw [List.flatMap_cons, Leg.written, htext]
        simp only [List.append_assoc]
      rw [hwritten] at hread
      rw [List.foldl_cons, behind, hhow]
      obtain hk | hk | ⟨k, hk⟩ :
          leg.slashes = 1 ∨ leg.slashes = 2 ∨ ∃ k, leg.slashes = k + 3 := by
        rcases le_or_gt 3 leg.slashes with hmany | hfew
        · exact .inr (.inr ⟨leg.slashes - 3, by omega⟩)
        · omega
      · rw [hk, List.replicate_one, List.singleton_append, blanks_cons rfl] at hread
        unfold stepsFrom at hread
        rw [blanks_cons rfl] at hread
        rw [hk]
        split at hread
        · next w hw => exact absurd (List.cons.inj hw).2 (hslash w)
        · next w _ hw =>
          obtain ⟨-, rfl⟩ := List.cons.inj hw
          simp only [hblanks, hstep, Option.bind_eq_bind, Option.bind_some] at hread
          exact ih hfuel hread
        · next hno => exact absurd rfl (hno _)
      · rw [hk, List.replicate_succ, List.replicate_one, List.cons_append, List.singleton_append,
          blanks_cons rfl] at hread
        unfold stepsFrom at hread
        rw [blanks_cons rfl] at hread
        simp only [hblanks, hstep, Option.bind_eq_bind, Option.bind_some] at hread
        rw [hk]
        exact ih hfuel hread
      · rw [hk, List.replicate_succ, List.replicate_succ, List.replicate_succ, List.cons_append,
          List.cons_append, List.cons_append, blanks_cons rfl] at hread
        unfold stepsFrom at hread
        have hnone : step? (exprAt? d) e.inside ('/' :: (List.replicate k '/' ++
            (bs ++ (u ++ (legs.flatMap Leg.written ++ (t ++ r)))))) = none :=
          step?_eq_none (by rw [blanks_cons rfl]; simp)
        rw [blanks_cons rfl] at hread
        simp [blanks_cons (c := '/') rfl, hnone] at hread

/-! ### Paths of a union -/

/-- A first step behind up to two more slashes: they do not lead further. -/
lemma relativePath?_run {start : Expr} {test : NodeTest} {ps : List Expr} {rest : Text}
    {y : Expr × Text} {k : ℕ} (hu : StepReads n u .child test ps) (hd : n ≤ d) (hb : IsSpaces bs)
    (hr : EndsStep rest) (hread : relativePath? (exprAt? d) start
      (blanks (List.replicate k '/' ++ (bs ++ (u ++ rest)))) = some y) :
    ∃ start', (start' = start ∨ start' = start.inside) ∧
      stepsFrom (exprAt? d) ((blanks rest).length + 1) (.step start' .child test ps) (blanks rest) =
        some y := by
  obtain ⟨hblanks, hfirst, hslash⟩ := hu.head hb rest
  have hstep := fun start => hu.reads d hd start _ hr
  unfold relativePath? at hread
  rw [blanks_blanks] at hread
  match k with
  | 0 =>
      rw [List.replicate_zero, List.nil_append, hblanks] at hread
      split at hread
      · next heq => exact absurd heq (hfirst _)
      · next heq => exact absurd heq (hfirst _)
      · simp only [hstep, Option.bind_eq_bind, Option.bind_some] at hread
        exact ⟨start, .inl rfl, hread⟩
  | 1 =>
      rw [List.replicate_one, List.singleton_append, blanks_cons rfl] at hread
      split at hread
      · next heq => exact absurd (List.cons.inj heq).2 (hslash _)
      · next w _ heq =>
          obtain ⟨-, rfl⟩ := List.cons.inj heq
          simp only [hblanks, hstep, Option.bind_eq_bind, Option.bind_some] at hread
          exact ⟨start, .inl rfl, hread⟩
      · next hno => exact absurd rfl (hno _)
  | 2 =>
      rw [List.replicate_succ, List.replicate_one, List.cons_append, List.singleton_append,
        blanks_cons rfl] at hread
      simp only [hblanks, hstep, Option.bind_eq_bind, Option.bind_some] at hread
      exact ⟨start.inside, .inr rfl, hread⟩
  | k + 3 =>
      rw [List.replicate_succ, List.replicate_succ, List.replicate_succ, List.cons_append,
        List.cons_append, List.cons_append, blanks_cons rfl] at hread
      have hnone : step? (exprAt? d) start.inside ('/' :: (List.replicate k '/' ++
          (bs ++ (u ++ rest)))) = none := step?_eq_none (by rw [blanks_cons rfl]; simp)
      simp [blanks_cons (c := '/') rfl, hnone] at hread

/-- What the steps of a path from the document lead to, if two slashes stand in front of the
first one. More of them do not count. -/
inductive LeadsTo : List (Step × List Expr) → Expr → Prop
  | steps {x : Step × List Expr} {xs : List (Step × List Expr)} {start : Expr}
      (hx : x.1.combinator = .descendant)
      (h : start = Expr.root.inside ∨ start = Expr.root.inside.inside) :
      LeadsTo (x :: xs) (xs.foldl behind (.step start .child x.1.compound.nodeTest x.2))

/-- There are no more steps than characters. -/
lemma length_le_legs (h : List.Forall₂ (Leg.ReadsAs n) legs xs) (rest : Text) :
    legs.length ≤ (blanks (legs.flatMap Leg.written ++ rest)).length := by
  cases h with
  | nil => exact Nat.zero_le _
  | @cons leg x legs xs hleg hrest =>
      have hmore : ∀ {legs xs}, List.Forall₂ (Leg.ReadsAs n) legs xs →
          legs.length ≤ (legs.flatMap Leg.written).length := by
        intro legs xs h
        induction h with
        | nil => exact Nat.zero_le _
        | @cons leg x legs xs hleg _ ih =>
            have hpos := hleg.pos
            simp only [List.length_cons, List.flatMap_cons, List.length_append, Leg.written,
              List.length_replicate]
            omega
      obtain ⟨k, hk⟩ := Nat.exists_eq_succ_of_ne_zero hleg.pos.ne'
      have hle := hmore (.cons hleg hrest)
      rw [List.flatMap_cons, Leg.written, hk, List.replicate_succ] at hle ⊢
      rw [List.cons_append, List.cons_append, List.cons_append, blanks_cons rfl]
      simp only [List.length_cons, List.cons_append, List.length_append] at hle ⊢
      omega

/-- **A path that is read as a whole** starts with two slashes at least. -/
theorem pathExpr?_legs (hslashes : 2 ≤ leg.slashes)
    (h : List.Forall₂ (Leg.ReadsAs n) (leg :: legs) (x :: xs)) (hd : n ≤ d) (hz : IsTail t r)
    (hread : pathExpr? (exprAt? d) ((leg :: legs).flatMap Leg.written ++ (t ++ r)) = some (e', r')) :
    LeadsTo (x :: xs) e' ∧ r' = r := by
  obtain ⟨⟨-, hcombinator, bs, u, hb, hu, htext⟩, hrest⟩ := List.forall₂_cons.mp h
  obtain ⟨k, hk⟩ := Nat.exists_eq_add_of_le' hslashes
  have hwritten : (leg :: legs).flatMap Leg.written ++ (t ++ r) = '/' :: '/' :: (List.replicate k '/' ++
      (bs ++ (u ++ (legs.flatMap Leg.written ++ (t ++ r))))) := by
    rw [List.flatMap_cons, Leg.written, htext, hk, List.replicate_succ, List.replicate_succ]
    simp only [List.append_assoc, List.cons_append]
  rw [hwritten, pathExpr?, blanks_cons rfl] at hread
  have hprimary : ∀ w, startsPrimary? ('/' :: w) = some false := fun _ => rfl
  simp only [hprimary, Option.bind_eq_bind, Option.bind_some, Bool.false_eq_true, if_false,
    locationPath?, blanks_cons (c := '/') rfl, Option.bind_eq_some_iff, Prod.exists] at hread
  obtain ⟨e₁, r₁, hpath, hend⟩ := hread
  rw [List.length_cons, absolutePath?] at hpath
  simp only [Option.bind_eq_bind, Option.bind_eq_some_iff, Prod.exists] at hpath
  obtain ⟨e₂, r₂, hrelative, hmore⟩ := hpath
  obtain ⟨start, hstart, hsteps⟩ := relativePath?_run hu hd hb (endsStep_legs hrest hz) hrelative
  obtain ⟨rfl, rfl⟩ := stepsFrom_legs hrest hd hz
    (Nat.lt_succ_of_le (length_le_legs hrest (t ++ r))) hsteps
  have hdone : ∀ {fuel e}, absolutePath? (exprAt? d) fuel e r₂ = some (e, r₂) := by
    intro fuel e
    cases fuel with
    | zero => rfl
    | succ fuel =>
        unfold absolutePath?
        split
        · exact absurd (hz.bar '/' rfl) (by decide)
        · exact absurd (hz.bar '/' rfl) (by decide)
        · rfl
  rw [hdone] at hmore
  obtain ⟨rfl, rfl⟩ := Prod.mk.inj (Option.some.inj hmore)
  obtain ⟨rfl, rfl⟩ := Prod.mk.inj (Option.some.inj hend)
  have hinside : x.1.combinator = .descendant := by rw [hcombinator, if_neg (by omega)]
  exact ⟨.steps hinside hstart, hz.blanks_eq_self⟩

/-- A path of a union that is read, with blanks in front of it, and slashes and blanks
behind. -/
structure BranchReads (n : ℕ) (p : Text) (xs : List (Step × List Expr)) : Prop where
  text : ∃ bs leg legs t, IsSpaces bs ∧ 2 ≤ leg.slashes ∧
    List.Forall₂ (Leg.ReadsAs n) (leg :: legs) xs ∧ (∀ c ∈ t, c = '/' ∨ Text.isSpace c = true) ∧
    p = bs ++ ((leg :: legs).flatMap Leg.written ++ t)

/-- Two slashes stand in front of the first step of a path of a union. -/
lemma BranchReads.exists_first (h : BranchReads n p xs) :
    ∃ x xs', xs = x :: xs' ∧ x.1.combinator = .descendant := by
  obtain ⟨bs, leg, legs, t, -, hslashes, hlegs, -, -⟩ := h
  obtain ⟨x, xs, hleg, -, rfl⟩ := List.forall₂_cons_left_iff.mp hlegs
  exact ⟨x, xs, rfl, by rw [hleg.combinator, if_neg (by omega)]⟩

/-- A path of a union starts with a slash. -/
lemma BranchReads.exists_slash (h : BranchReads n p xs) (r : Text) :
    ∃ w, blanks (p ++ r) = '/' :: w := by
  obtain ⟨bs, leg, legs, t, hb, hslashes, -, -, rfl⟩ := h
  obtain ⟨k, hk⟩ := Nat.exists_eq_add_of_le' hslashes
  rw [List.append_assoc, blanks_spaces hb, List.flatMap_cons, Leg.written, hk, List.replicate_succ]
  exact ⟨_, blanks_cons rfl _⟩

/-- A path of a union is read as a whole. -/
lemma BranchReads.leadsTo (h : BranchReads n p xs) (hd : n ≤ d) (hr : ∀ c ∈ r.head?, c = '|')
    (hread : pathExpr? (exprAt? d) (blanks (p ++ r)) = some (e, r')) : LeadsTo xs e ∧ r' = r := by
  obtain ⟨w, hw⟩ := h.exists_slash r
  obtain ⟨bs, leg, legs, t, hb, hslashes, hlegs, ht, rfl⟩ := h
  obtain ⟨x, xs, -, -, rfl⟩ := List.forall₂_cons_left_iff.mp hlegs
  have hblanks : blanks (bs ++ ((leg :: legs).flatMap Leg.written ++ t) ++ r) =
      (leg :: legs).flatMap Leg.written ++ (t ++ r) := by
    obtain ⟨k, hk⟩ := Nat.exists_eq_add_of_le' hslashes
    rw [List.append_assoc, blanks_spaces hb, List.append_assoc, List.flatMap_cons, Leg.written, hk,
      List.replicate_succ]
    exact blanks_cons rfl _
  rw [hblanks] at hread
  exact pathExpr?_legs hslashes hlegs hd ⟨ht, hr⟩ hread

variable {ps : List Text} {xss : List (List (Step × List Expr))}

/-- The paths behind the first one of a union are read one after the other. -/
lemma chainFrom_branches (h : List.Forall₂ (BranchReads n) ps xss) (hd : n ≤ d)
    (hf : ps.length < fuel) (hread : chainFrom (signsAt 1) (pathExpr? (exprAt? d)) fuel e
      (ps.flatMap (['|'] ++ ·)) = some (e', r')) :
    r' = [] ∧ ∃ es, List.Forall₂ LeadsTo xss es ∧ e' = es.foldl (.binary .union) e := by
  induction h generalizing fuel e with
  | nil =>
      obtain ⟨fuel, rfl⟩ := Nat.exists_eq_add_of_lt hf
      obtain ⟨rfl, rfl⟩ := Prod.mk.inj (Option.some.inj hread)
      exact ⟨rfl, [], .nil, rfl⟩
  | @cons p xs ps xss hp _ ih =>
      obtain ⟨fuel, rfl⟩ : ∃ m, fuel = m + 1 := ⟨fuel - 1, by omega⟩
      have hfuel : ps.length < fuel := by
        rw [List.length_cons] at hf
        omega
      have hsign : ∀ w, sign? (signsAt 1) (blanks ('|' :: w)) = some (.union, w) := fun _ => rfl
      have hbar : ∀ c ∈ (ps.flatMap (['|'] ++ ·)).head?, c = '|' := by
        cases ps with
        | nil => simp
        | cons p ps =>
            rintro _ ⟨rfl⟩
            rfl
      have htext : (p :: ps).flatMap (['|'] ++ ·) = '|' :: (p ++ ps.flatMap (['|'] ++ ·)) := rfl
      rw [htext, chainFrom, hsign] at hread
      simp only [Option.bind_eq_bind, Option.bind_eq_some_iff, Prod.exists] at hread
      obtain ⟨f, r₁, hfirst, hmore⟩ := hread
      obtain ⟨hleads, rfl⟩ := hp.leadsTo hd hbar hfirst
      obtain ⟨rfl, es, hes, rfl⟩ := ih hfuel hmore
      exact ⟨rfl, f :: es, .cons hleads hes, rfl⟩

/-- What is read at a level has an operand at each of the levels below. -/
lemma isSome_readerAt {sub : Reader Expr} {j k : ℕ} (hjk : j ≤ k) (hs : Starts s)
    (h : (readerAt sub k s).isSome) : (readerAt sub j s).isSome := by
  induction k, hjk using Nat.le_induction with
  | base => exact h
  | succ k _ ih =>
      refine ih ?_
      rw [readerAt, chain, atOperands_of_starts k _ hs] at h
      cases hread : readerAt sub k s with
      | none => simp [hread] at h
      | some y => rfl

/-- **An expression that is read from a union** is the union of its paths. -/
theorem exists_of_read? {xs : List (Step × List Expr)}
    (h : List.Forall₂ (BranchReads n) (p :: ps) (xs :: xss)) (hn : n + 1 < maxDepth)
    (hread : Expr.read? (join ['|'] (p :: ps)) = some e) :
    ∃ f es, LeadsTo xs f ∧ List.Forall₂ LeadsTo xss es ∧ e = es.foldl (.binary .union) f := by
  obtain ⟨hp, hps⟩ := List.forall₂_cons.mp h
  have hdepth : n ≤ maxDepth - 1 := by omega
  set sub := exprAt? (maxDepth - 1) with hsub
  have hexpr : exprAt? maxDepth = readerAt sub loosest := exprAt?_succ _
  rw [join_cons] at hread
  set text := p ++ ps.flatMap (['|'] ++ ·) with htext
  obtain ⟨w, hw⟩ := hp.exists_slash (ps.flatMap (['|'] ++ ·))
  have hstarts : Starts (blanks text) := ⟨'/', w, hw, rfl, by decide, by decide⟩
  have hwhole : readerAt sub loosest (blanks text) = some (e, []) := by
    rw [Expr.read?, hexpr] at hread
    have hsame : readerAt sub loosest (blanks text) = readerAt sub loosest text :=
      readerAt_blanks sub loosest text
    rw [hsame]
    cases hfirst : readerAt sub loosest text with
    | none => simp [hfirst] at hread
    | some y =>
        obtain ⟨f, r⟩ := y
        cases r with
        | nil => simpa [hfirst] using hread
        | cons c r => simp [hfirst] at hread
  obtain ⟨⟨e₁, r₁⟩, hone⟩ := Option.isSome_iff_exists.mp
    (isSome_readerAt (j := 1) (k := loosest) (by decide) hstarts (by rw [hwhole]; rfl))
  have hlevel : readerAt sub 1 = chain (signsAt 1) (pathExpr? sub) := rfl
  have hunion := hone
  simp only [hlevel, chain, Option.bind_eq_bind, Option.bind_eq_some_iff, Prod.exists] at hunion
  obtain ⟨f, r, hfirst, hmore⟩ := hunion
  have hbar : ∀ c ∈ (ps.flatMap (['|'] ++ ·)).head?, c = '|' := by
    cases ps with
    | nil => simp
    | cons p ps =>
        rintro _ ⟨rfl⟩
        rfl
  obtain ⟨hleads, rfl⟩ := hp.leadsTo hdepth hbar hfirst
  have hlong : ps.length < (ps.flatMap (['|'] ++ ·)).length + 1 := by
    have hlong := length_le_length_join (w := ['|']) Nat.one_pos [] ps
    rw [join_cons, List.nil_append] at hlong
    omega
  obtain ⟨rfl, es, hes, rfl⟩ := chainFrom_branches hps hdepth hlong hmore
  have hends : ∀ l, 0 < l → l ≤ loosest → sign? (signsAt l) (blanks []) = none := ends_nil.signs
  have hlift := readerAt_lift (by decide) hstarts hends hone
  rw [hwhole] at hlift
  obtain ⟨rfl, -⟩ := Prod.mk.inj (Option.some.inj hlift)
  exact ⟨f, es, hleads, hes, rfl⟩

end Locator.XPath

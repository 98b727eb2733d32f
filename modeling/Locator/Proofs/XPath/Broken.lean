/-
Paths whose last step cannot be read

A path whose end is cut off may end in the middle of a step. It is then no
expression, however the steps in front are read.

* `IsBroken`: a text that starts a step but cannot be read as one;
  `isBroken_of_colon`: a prefix with nothing behind it;
* `read?_broken_absolute`, `read?_broken_here`: **no expression ends in a
  broken step**;
* `isStray`: a text that no expression goes on with behind a test;
* `predicate?_eq_none_of_test`, `predicate?_eq_none_of_stray`: predicates whose test of
  attributes cannot be read, or not to its end.
-/
import Locator.Proofs.XPath.Path

namespace Locator.XPath

/-! ### Broken steps -/

/-- A text that starts a step but cannot be read as one. -/
structure IsBroken (s : Text) : Prop where
  starts : ∃ c r, s = c :: r ∧ StartsTest c
  step? : ∀ sub e, step? sub e s = none

/-- A prefix with nothing behind it is no test. -/
lemma axisAndTest?_of_colon {p : Text} (hp : Text.IsName p) : axisAndTest? (p ++ [':']) = none := by
  have hname := Text.plainName?_append (t := [':']) hp (by simp; rfl)
  have htest : nameTest? p [':'] = none := rfl
  obtain ⟨c, r, rfl, hc, -⟩ := hp
  have hat : c ≠ '@' := Text.ne_of_isNameStart hc rfl
  unfold axisAndTest?
  split
  · next heq => exact absurd (List.cons.inj heq).1 hat
  · simp only [hname, blanks_cons (c := ':') rfl, htest, Option.map_none]
    split
    · next heq => simp at heq
    · rfl
    · rfl

/-- **A prefix** with nothing behind it cannot be read. -/
theorem isBroken_of_colon {p : Text} (hp : Text.IsName p) : IsBroken (p ++ [':']) := by
  have hstarts : ∃ c r, p = c :: r ∧ StartsTest c := by
    obtain ⟨c, r, rfl, hc, -⟩ := hp
    exact ⟨c, r, rfl, .of_isNameStart hc⟩
  refine ⟨?_, fun sub e => ?_⟩
  · obtain ⟨c, r, rfl, hc⟩ := hstarts
    exact ⟨c, r ++ [':'], rfl, hc⟩
  · simp [step?_eq hstarts, axisAndTest?_of_colon hp]

namespace IsBroken

variable {n d : ℕ} {s t b : Text} {e e' : Expr} {axis : Axis} {test : NodeTest} {ps : List Expr}

lemma blanks_eq (hb : IsBroken b) : blanks b = b := by
  simpa using startsTest_blanks hb.starts []

lemma ne_slash (hb : IsBroken b) : ∀ r, b ≠ '/' :: r := by
  simpa using ne_slash_of_startsTest hb.starts []

/-- Steps in front of a broken one are read, and then nothing more. -/
lemma stepsFrom (hb : IsBroken b) (h : StepsRead n t e e') (hd : n ≤ d) {fuel : ℕ}
    (hf : t.length < fuel) : stepsFrom (exprAt? d) fuel e (t ++ '/' :: b) = none := by
  induction h generalizing fuel with
  | nil e =>
      obtain ⟨fuel, rfl⟩ := Nat.exists_eq_add_of_lt hf
      unfold XPath.stepsFrom
      simp only [List.nil_append, blanks_cons (c := '/') rfl]
      split
      · next heq => exact absurd (List.cons.inj heq).2 (hb.ne_slash _)
      · next heq =>
        obtain rfl := (List.cons.inj heq).2
        simp [hb.blanks_eq, hb.step?]
      · next h2 => exact absurd rfl (h2 _)
  | @child s t axis test ps e e' hs ht ih =>
      obtain ⟨fuel, rfl⟩ : ∃ m, fuel = m + 1 := ⟨fuel - 1, by omega⟩
      have hft : t.length < fuel := by
        simp only [List.length_append, List.length_cons] at hf
        omega
      have hread := hs.reads d hd e (t ++ '/' :: b) (ht.endsStep (endsStep_slash b))
      have hbl := startsTest_blanks hs.starts (t ++ '/' :: b)
      have hslash : blanks (t ++ '/' :: b) = t ++ '/' :: b := by
        cases ht <;> simp [blanks_cons (c := '/') rfl]
      have hs' := ne_slash_of_startsTest hs.starts (t ++ '/' :: b)
      simp only [List.cons_append, List.append_assoc]
      unfold XPath.stepsFrom
      rw [blanks_cons rfl]
      split
      · next heq => exact absurd (List.cons.inj heq).2 (hs' _)
      · next heq =>
        obtain rfl := (List.cons.inj heq).2
        simp [hbl, hread, hslash, ih hft]
      · next h2 => exact absurd rfl (h2 _)
  | @inside s t axis test ps e e' hs ht ih =>
      obtain ⟨fuel, rfl⟩ : ∃ m, fuel = m + 1 := ⟨fuel - 1, by omega⟩
      have hft : t.length < fuel := by
        simp only [List.length_append, List.length_cons] at hf
        omega
      have hread := hs.reads d hd e.inside (t ++ '/' :: b) (ht.endsStep (endsStep_slash b))
      have hbl := startsTest_blanks hs.starts (t ++ '/' :: b)
      have hslash : blanks (t ++ '/' :: b) = t ++ '/' :: b := by
        cases ht <;> simp [blanks_cons (c := '/') rfl]
      simp [XPath.stepsFrom, blanks_cons (c := '/') rfl, hbl, hread, hslash, ih hft]

/-- A step, further ones and a broken one. -/
lemma relativePath?_append (hb : IsBroken b) (hd : n ≤ d) {start : Expr}
    (hs : StepReads n s axis test ps) (ht : StepsRead n t (.step start axis test ps) e) :
    relativePath? (exprAt? d) start (s ++ (t ++ '/' :: b)) = none := by
  have hread := hs.reads d hd start (t ++ '/' :: b) (ht.endsStep (endsStep_slash b))
  have hbl := startsTest_blanks hs.starts (t ++ '/' :: b)
  have hslash : blanks (t ++ '/' :: b) = t ++ '/' :: b := by
    cases ht <;> simp [blanks_cons (c := '/') rfl]
  have hf : t.length < t.length + (b.length + 1) + 1 := by omega
  have hs' := ne_slash_of_startsTest hs.starts (t ++ '/' :: b)
  unfold relativePath?
  rw [hbl]
  split
  · next heq => exact absurd heq (hs' _)
  · next heq => exact absurd heq (hs' _)
  · simp [hread, hslash, hb.stepsFrom ht hd hf]

/-- A broken step alone. -/
lemma relativePath? (hb : IsBroken b) (sub : Reader Expr) (start : Expr) :
    XPath.relativePath? sub start b = none := by
  unfold XPath.relativePath?
  rw [hb.blanks_eq]
  split
  · exact absurd rfl (hb.ne_slash _)
  · exact absurd rfl (hb.ne_slash _)
  · simp [hb.step?]

/-- No path from the document ends in a broken step. -/
lemma locationPath?_absolute (hb : IsBroken b) (hd : n ≤ d) (h : StepsRead n t .root e) :
    locationPath? (exprAt? d) (t ++ '/' :: b) = none := by
  cases h with
  | nil =>
      have hrel := hb.relativePath? (exprAt? d) .root
      have hbl := hb.blanks_eq
      have hs' := hb.ne_slash
      obtain ⟨c, r, rfl, hc⟩ := hb.starts
      simp only [List.nil_append, locationPath?, blanks_cons (c := '/') rfl]
      unfold absolutePath?
      split
      · next heq => exact absurd (List.cons.inj heq).2 (hs' _)
      · next heq =>
        obtain rfl := (List.cons.inj heq).2
        simp [hbl, hc.step, hrel]
      · next h2 => exact absurd rfl (h2 _)
  | @child s t axis test ps _ _ hs ht =>
      have hread := hb.relativePath?_append hd hs ht
      have hbl := startsTest_blanks hs.starts (t ++ '/' :: b)
      obtain ⟨c, r, rfl, hc⟩ := hs.starts
      have hslash : c ≠ '/' := hc.ne rfl
      rw [List.cons_append] at hbl hread
      simp only [List.cons_append, List.append_assoc, locationPath?, blanks_cons (c := '/') rfl]
      unfold absolutePath?
      simp [hslash, hbl, hc.step, hread]
  | @inside s t axis test ps _ _ hs ht =>
      have hread := hb.relativePath?_append hd hs ht
      have hbl := startsTest_blanks hs.starts (t ++ '/' :: b)
      simp only [List.cons_append, List.append_assoc, locationPath?, blanks_cons (c := '/') rfl]
      unfold absolutePath?
      simp [hbl, hread]

/-- No path from the point ends in a broken step. -/
lemma locationPath?_here (hb : IsBroken b) (hd : n ≤ d) (h : StepsRead n t .here e) :
    locationPath? (exprAt? d) ('.' :: (t ++ '/' :: b)) = none := by
  have hpoint : ∀ r, t ++ '/' :: b ≠ '.' :: r := by
    cases h <;> simp
  have hslash : blanks (t ++ '/' :: b) = t ++ '/' :: b := by
    cases h <;> simp [blanks_cons (c := '/') rfl]
  have hstep : XPath.step? (exprAt? d) .here ('.' :: (t ++ '/' :: b)) =
      some (.here, t ++ '/' :: b) := by
    unfold XPath.step?
    rw [blanks_cons rfl]
    split
    · next heq => exact absurd (List.cons.inj heq).2 (hpoint _)
    · next heq =>
      obtain rfl := (List.cons.inj heq).2
      simp [hslash]
    · next h2 => exact absurd rfl (h2 _)
  have hf : t.length < t.length + (b.length + 1) + 1 := by omega
  have hfrom := hb.stepsFrom h hd hf
  simp [locationPath?, XPath.relativePath?, blanks_cons (c := '.') rfl, hstep, hfrom]

end IsBroken

/-! ### Texts that are no expressions -/

/-- What cannot be read as a path is no operand at any level. -/
lemma readerAt_eq_none {sub : Reader Expr} {s : Text} (hs : Starts s) (h : pathExpr? sub s = none)
    (k : ℕ) : readerAt sub k s = none := by
  induction k with
  | zero => exact h
  | succ k ih => simp [readerAt, chain, atOperands_of_starts k _ hs, ih]

/-- A text in front of which no operand can be read is no expression. -/
lemma read?_eq_none {s : Text} (hs : Starts s)
    (h : ∀ d, maxDepth = d + 1 → pathExpr? (exprAt? d) s = none) : Expr.read? s = none := by
  have hd : maxDepth = 499 + 1 := rfl
  rw [Expr.read?, hd, exprAt?_succ, readerAt_eq_none hs (h 499 hd)]
  rfl

variable {n : ℕ} {t b : Text} {e : Expr}

/-- **No expression** is a path from the document that ends in a broken step. -/
theorem read?_broken_absolute (hb : IsBroken b) (hn : n < maxDepth) (h : StepsRead n t .root e) :
    Expr.read? (t ++ '/' :: b) = none := by
  obtain ⟨r, hr⟩ : ∃ r, t ++ '/' :: b = '/' :: r := by
    cases h with
    | nil => exact ⟨_, rfl⟩
    | child => exact ⟨_, rfl⟩
    | inside => exact ⟨_, rfl⟩
  have hs : Starts (t ++ '/' :: b) := ⟨'/', r, hr, rfl, by simp, by simp⟩
  refine read?_eq_none hs fun d hd => ?_
  have hl := hb.locationPath?_absolute (d := d) (by omega) h
  rw [hr] at hl ⊢
  have hp : startsPrimary? ('/' :: r) = some false := rfl
  simp [pathExpr?, blanks_cons (c := '/') rfl, hp, hl]

/-- **No expression** is a path from the point that ends in a broken step. -/
theorem read?_broken_here (hb : IsBroken b) (hn : n < maxDepth) (h : StepsRead n t .here e) :
    Expr.read? ('.' :: (t ++ '/' :: b)) = none := by
  obtain ⟨r, hr⟩ : ∃ r, t ++ '/' :: b = '/' :: r := by
    cases h with
    | nil => exact ⟨_, rfl⟩
    | child => exact ⟨_, rfl⟩
    | inside => exact ⟨_, rfl⟩
  have hs : Starts ('.' :: (t ++ '/' :: b)) := ⟨'.', _, rfl, rfl, by simp, by simp⟩
  refine read?_eq_none hs fun d hd => ?_
  have hl := hb.locationPath?_here (d := d) (by omega) h
  rw [hr] at hl ⊢
  have hp : startsPrimary? ('.' :: '/' :: r) = some false := rfl
  simp [pathExpr?, blanks_cons (c := '.') rfl, hp, hl]

/-! ### Tests of attributes that cannot be read -/

/-- Behind two slashes no step can be left out. -/
lemma read?_inside_eq_none {s : Text} (hs : ∃ c r, s = c :: r ∧ StartsTest c)
    (h : ∀ d e, step? (exprAt? d) e s = none) : Expr.read? ('/' :: '/' :: s) = none := by
  have hblanks : blanks s = s := by simpa using startsTest_blanks hs []
  have hslash : ∀ r, s ≠ '/' :: r := by simpa using ne_slash_of_startsTest hs []
  refine read?_eq_none ⟨'/', _, rfl, rfl, by simp, by simp⟩ fun d _ => ?_
  have hrel : relativePath? (exprAt? d) Expr.root.inside s = none := by
    unfold relativePath?
    rw [hblanks]
    split
    · exact absurd rfl (hslash _)
    · exact absurd rfl (hslash _)
    · simp [h]
  have hp : startsPrimary? ('/' :: '/' :: s) = some false := rfl
  simp [pathExpr?, locationPath?, absolutePath?, blanks_cons (c := '/') rfl, hp, hblanks, hrel]

/-- A step is not read where its predicate is not. -/
lemma step?_eq_none_of_predicate {s p : Text} {axis : Axis} {test : NodeTest} {sub : Reader Expr}
    (hs : TestReads s axis test) (h : predicate? sub ('[' :: p) = none) (e : Expr) :
    step? sub e (s ++ '[' :: p) = none := by
  obtain ⟨r, hread, hblanks⟩ := hs.reads ('[' :: p) (endsTest_bracket p)
  have hpredicates : ∀ fuel, predicates? sub (fuel + 1) ('[' :: p) = none := fun fuel => by
    rw [predicates?, h]
    rfl
  rw [step?_eq hs.starts, hread]
  simp only [Option.bind_eq_bind, Option.bind_some, hblanks, blanks_cons (c := '[') rfl,
    hpredicates]
  rfl

/-- A step to attributes. -/
lemma step?_at_sign (sub : Reader Expr) (start : Expr) (s : Text) :
    step? sub start ('@' :: s) = (do
      let ((axis, test), r) ← axisAndTest? ('@' :: s)
      let (es, r) ← predicates? sub ((blanks r).length + 1) (blanks r)
      return (.step start axis test es, r)) :=
  step?_eq (s := ['@']) ⟨'@', [], rfl, .at_sign⟩

/-- Where no test can be read behind the sign for attributes there is no predicate. -/
lemma predicate?_eq_none_of_test {s : Text} (h : nodeTest? s = none) (d : ℕ) :
    predicate? (exprAt? d) ('[' :: '@' :: s) = none := by
  have haxis : axisAndTest? ('@' :: s) = none := by
    rw [axisAndTest?, h]
    rfl
  have hstep : ∀ sub e, step? sub e ('@' :: s) = none := fun sub e => by
    rw [step?_at_sign, haxis]
    rfl
  have hpath : ∀ sub, pathExpr? sub ('@' :: s) = none := fun sub => by
    have hp : startsPrimary? ('@' :: s) = some false := rfl
    simp [pathExpr?, locationPath?, relativePath?, blanks_cons (c := '@') rfl, hp, hstep]
  cases d with
  | zero => rfl
  | succ d =>
      have hs : Starts ('@' :: s) := ⟨'@', s, rfl, rfl, by simp, by simp⟩
      simp only [predicate?, blanks_cons (c := '@') rfl, exprAt?_succ,
        readerAt_eq_none hs (hpath (exprAt? d)) loosest]
      rfl

/-- The characters with which an expression can go on behind a test. -/
def marks : Text := " \t\n\r([]/|*+-=!<>".toList

/-- The words with which it can. -/
def signWords : List Text := ["and".toList, "or".toList, "div".toList, "mod".toList]

/-- Is it a text that no expression goes on with behind a test? -/
def isStray : Text → Bool
  | [] => false
  | c :: r => !marks.contains c && signWords.all fun w => !w.isPrefixOf (c :: r)

section Stray

variable {s w : Text} {c : Char} {test : NodeTest}

lemma isStray_cons : isStray (c :: w) = true ↔ c ∉ marks ∧ ∀ k ∈ signWords, ¬ k <+: c :: w := by
  simp [isStray, ← List.isPrefixOf_iff_prefix]

/-- Such a text starts with a character that is none of these. -/
lemma exists_of_isStray (h : isStray w = true) : ∃ c r, w = c :: r ∧ ∀ x ∈ marks, c ≠ x := by
  cases w with
  | nil => simp [isStray] at h
  | cons c r => exact ⟨c, r, rfl, fun x hx hc => (isStray_cons.mp h).1 (hc ▸ hx)⟩

/-- It has no blanks in front. -/
lemma blanks_of_isStray (h : isStray w = true) : blanks w = w := by
  obtain ⟨c, r, rfl, hne⟩ := exists_of_isStray h
  refine blanks_cons ?_ r
  simp [Text.isSpace, hne ' ' (by decide), hne '\t' (by decide), hne '\n' (by decide),
    hne '\r' (by decide)]

/-- Every sign is one of these words, or it starts with one of these characters. -/
lemma mem_signWords_or_head_mem_marks {l : ℕ} (hl : 0 < l) (hlt : l ≤ loosest) :
    ∀ p ∈ signsAt l, p.1 ∈ signWords ∨ ∃ x ∈ marks, p.1.head? = some x := by
  have hlt : l ≤ 7 := hlt
  have hall : (signsAt l).all (fun p =>
      signWords.contains p.1 || marks.any fun x => p.1.head? == some x) = true := by
    interval_cases l <;> rfl
  simpa using hall

/-- No sign stands there. -/
lemma sign?_of_isStray (h : isStray w = true) {l : ℕ} (hl : 0 < l) (hlt : l ≤ loosest) :
    sign? (signsAt l) w = none := by
  obtain ⟨c, r, rfl, hne⟩ := exists_of_isStray h
  obtain ⟨-, hwords⟩ := isStray_cons.mp h
  have hmark : ∀ k : Text, (∃ x ∈ marks, k.head? = some x) → Text.behind? k (c :: r) = none := by
    rintro k ⟨x, hx, hk⟩
    cases k with
    | nil => simp at hk
    | cons y k =>
        obtain rfl : y = x := by simpa using hk
        simp [Text.behind?, List.isPrefixOf, (hne y hx).symm]
  have hword : ∀ k ∈ signWords, Text.behind? k (c :: r) = none := fun k hk => by
    simpa [Text.behind?] using hwords k hk
  rw [sign?, List.findSome?_eq_none_iff]
  intro p hp
  rw [(mem_signWords_or_head_mem_marks hl hlt p hp).elim (hword p.1) (hmark p.1)]
  rfl

/-- Where such a text is left behind the test there is no predicate. -/
lemma predicate?_eq_none_of_stray (h : nodeTest? s = some (test, w)) (hw : isStray w = true)
    (d : ℕ) : predicate? (exprAt? d) ('[' :: '@' :: s) = none := by
  have haxis : axisAndTest? ('@' :: s) = some ((.attribute, test), w) := by
    rw [axisAndTest?, h]
    rfl
  have hblanks := blanks_of_isStray hw
  have hsign := fun l => sign?_of_isStray hw (l := l)
  obtain ⟨c, r, rfl, hne⟩ := exists_of_isStray hw
  have hbracket : c ≠ '[' := hne '[' (by decide)
  have hslash : c ≠ '/' := hne '/' (by decide)
  have hclose : c ≠ ']' := hne ']' (by decide)
  have hstep : ∀ sub e, step? sub e ('@' :: s) =
      some (.step e .attribute test [], c :: r) := fun sub e => by
    rw [step?_at_sign, haxis]
    simp [hblanks, predicates?, hbracket]
  have hpath : ∀ sub, pathExpr? sub ('@' :: s) =
      some (.step .here .attribute test [], blanks (c :: r)) := fun sub => by
    have hp : startsPrimary? ('@' :: s) = some false := rfl
    simp [pathExpr?, locationPath?, relativePath?, stepsFrom, blanks_cons (c := '@') rfl, hblanks,
      hp, hstep, hslash]
  cases d with
  | zero => rfl
  | succ d =>
      have hs : Starts ('@' :: s) := ⟨'@', s, rfl, rfl, by simp, by simp⟩
      have hread := readerAt_lift (Nat.zero_le loosest) hs
        (fun l hl hlt => hblanks.symm ▸ hsign l hl hlt) (hpath (exprAt? d))
      rw [hblanks] at hread
      simp [predicate?, blanks_cons (c := '@') rfl, exprAt?_succ, hread, hclose]

end Stray

end Locator.XPath

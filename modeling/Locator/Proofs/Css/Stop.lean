/-
Selectors that are read to the end

* `stop_of_done`: the token of the end is reached only if every part of a text is a token;
* `Reading.Takes`: a step of reading takes tokens from the front, with a lemma for each reader;
* `Reading.ends_of_combinations`, `Reading.done_of_list`: compounds are read up to a token that
  ends them, and lists up to the end;
* `isBroken_string`, `readAll_of_isBroken`: a line break between quotation marks stops the reading,
  and **a text that stops in front of its end** is no selector.
-/
import Locator.Proofs.Css.Read

namespace Locator.Css

/-! ### Tokens -/

/-- No token in front of the end is the one of the end. -/
lemma kind_of_nextToken {p n : ℕ} {c : Char} {r : Text} {t : Token}
    (h : nextToken p c r = .ok (some t, n)) : t.kind ≠ .done := by
  have hkind : ∀ {kind : TokenKind} {value : Text} {k : ℕ}, kind ≠ .done →
      (.ok (some ⟨kind, value, p⟩, k) : Except SelectorError (Option Token × ℕ)) = .ok (some t, n) →
        t.kind ≠ .done := by
    rintro kind value k hne heq
    obtain ⟨ht, -⟩ := Prod.mk.inj (Except.ok.inj heq)
    obtain rfl := Option.some.inj ht
    exact hne
  simp only [nextToken] at h
  split_ifs at h with hspace hident hhash hquote hnumber hcomment
  · exact hkind (by decide) h
  · exact hkind (by decide) h
  · exact hkind (by decide) h
  · split at h
    · cases h
    · split_ifs at h
      exact hkind (by decide) h
  · exact hkind (by decide) h
  · cases h
  · exact hkind (by decide) h

/-- The token of the end is reached only if nothing stops the reading in front of it. -/
lemma stop_of_done {p k : ℕ} {s : Text} (h : ∃ t ∈ (tokenizeFrom p k s).tokens, t.kind = .done) :
    (tokenizeFrom p k s).stop = nothingLeft := by
  induction s generalizing p k with
  | nil => cases k <;> rfl
  | cons c s ih =>
      cases k with
      | succ k => exact ih h
      | zero =>
          rw [tokenizeFrom] at h ⊢
          cases hnext : nextToken p c s with
          | error e => simp [hnext] at h
          | ok x =>
              obtain ⟨first, n⟩ := x
              obtain ⟨t, ht, hdone⟩ := h
              rw [hnext] at ht
              refine ih ⟨t, ?_, hdone⟩
              rcases List.mem_append.mp ht with ht | ht
              · obtain rfl := Option.mem_toList.mp ht
                exact absurd hdone (kind_of_nextToken hnext)
              · exact ht

namespace Reading

variable {α β : Type}

/-- A step of reading takes tokens from the front. -/
def Takes (r : Reading α) : Prop :=
  ∀ ts x us, r ts = .ok (x, us) → us.tokens <:+ ts.tokens

/-- What is read in two steps. -/
lemma exists_of_bind {r : Reading α} {f : α → Reading β} {ts us : Tokens} {y : β}
    (h : (r >>= f) ts = .ok (y, us)) : ∃ x vs, r ts = .ok (x, vs) ∧ f x vs = .ok (y, us) := by
  cases hr : r ts with
  | error e =>
      rw [bind_of_error hr] at h
      cases h
  | ok z =>
      obtain ⟨x, vs⟩ := z
      rw [bind_of_ok hr] at h
      exact ⟨x, vs, rfl, h⟩

namespace Takes

lemma pure (x : α) : Takes (Pure.pure x) := by
  rintro ts y us h
  obtain ⟨-, rfl⟩ := Prod.mk.inj (Except.ok.inj h)
  exact List.suffix_rfl

lemma throw (e : SelectorError) : Takes (MonadExcept.throw e : Reading α) := by
  rintro ts x us h
  cases h

lemma fail (message : Text) : Takes (Reading.fail message : Reading α) := throw _

lemma bind {r : Reading α} {f : α → Reading β} (hr : Takes r) (hf : ∀ x, Takes (f x)) :
    Takes (r >>= f) := by
  rintro ts y us h
  obtain ⟨x, vs, hx, hy⟩ := exists_of_bind h
  exact (hf x vs y us hy).trans (hr ts x vs hx)

/-- Nothing is read behind a failure. -/
lemma failed (message : Text) (f : β → Reading α) :
    Takes ((Reading.fail message : Reading β) >>= f) := by
  rintro ts x us h
  cases h

lemma ite {c : Prop} [Decidable c] {r r' : Reading α} (hr : Takes r) (hr' : Takes r') :
    Takes (if c then r else r') := by
  split_ifs
  · exact hr
  · exact hr'

lemma peek : Takes Reading.peek := by
  rintro ⟨tokens, stop⟩ x us h
  cases tokens with
  | nil => cases h
  | cons t tokens =>
      obtain ⟨-, rfl⟩ := Prod.mk.inj (Except.ok.inj h)
      exact List.suffix_rfl

lemma next : Takes Reading.next := by
  rintro ⟨tokens, stop⟩ x us h
  cases tokens with
  | nil => cases h
  | cons t tokens =>
      obtain ⟨-, rfl⟩ := Prod.mk.inj (Except.ok.inj h)
      exact List.suffix_cons t tokens

lemma skipSpace : Takes Reading.skipSpace := by
  rintro ⟨tokens, stop⟩ x us h
  obtain ⟨-, rfl⟩ := Prod.mk.inj (Except.ok.inj h)
  exact List.dropWhile_suffix _

lemma nextIdent : Takes Reading.nextIdent := next.bind fun _ => .ite (.pure _) (.fail _)

lemma nextIdentOrStar : Takes Reading.nextIdentOrStar :=
  next.bind fun _ => .ite (.pure _) (.ite (.pure _) (.fail _))

lemma arguments (fuel : ℕ) : Takes (Reading.arguments fuel) := by
  induction fuel with
  | zero => exact throw _
  | succ fuel ih =>
      exact skipSpace.bind fun _ => next.bind fun t =>
        .ite (ih.bind fun _ => .pure _) (.ite (.pure _) (.fail _))

lemma attributeSign (t : Token) : Takes (Reading.attributeSign t) := by
  rw [Reading.attributeSign]
  refine .ite (.pure _) ?_
  split
  · exact .fail _
  · exact peek.bind fun _ => .ite (next.bind fun _ => .pure _) (.fail _)

/-- What is read behind a check. -/
lemma check {c : Prop} [Decidable c] {message : Text} {r : Reading α} (hr : Takes r) :
    Takes (if c then (Reading.fail message : Reading PUnit) >>= fun _ => r else r) :=
  .ite (.failed _ _) hr

/-- What is read behind a check that looks at the next token to tell what is wrong. -/
lemma checkPeek {c : Prop} [Decidable c] {message : Token → Text} {r : Reading α} (hr : Takes r) :
    Takes (if c then Reading.peek >>= fun t => (Reading.fail (message t) : Reading PUnit) >>=
      fun _ => r else r) :=
  .ite (peek.bind fun _ => .failed _ _) hr

lemma attributeValue : Takes Reading.attributeValue :=
  skipSpace.bind fun _ => next.bind fun _ => .check (skipSpace.bind fun _ => next.bind fun _ =>
    .ite (skipSpace.bind fun _ => next.bind fun _ => .check (.pure _))
      ((Takes.pure _).bind fun _ => .check (.pure _)))

lemma attributeTest (s : Selector) (space : Space) (name : Text) :
    Takes (Reading.attributeTest s space name) :=
  skipSpace.bind fun _ => next.bind fun _ => .ite (.pure _)
    ((attributeSign _).bind fun _ => attributeValue.bind fun _ => .pure _)

lemma bracketed (s : Selector) : Takes (Reading.bracketed s) := by
  refine skipSpace.bind fun _ => peek.bind fun _ => .ite ?bare (nextIdentOrStar.bind fun first =>
    peek.bind fun _ => .checkPeek (peek.bind fun _ => .ite (attributeTest s _ _) ?named))
  case bare => exact next.bind fun _ => nextIdent.bind fun _ => attributeTest s _ _
  case named =>
    refine next.bind fun _ => ?_
    cases first with
    | none => exact nextIdent.bind fun _ => attributeTest s _ _
    | some name =>
        exact peek.bind fun _ =>
          .ite (next.bind fun _ => attributeValue.bind fun _ => .pure _)
            (nextIdent.bind fun _ => attributeTest s _ _)

lemma elementName : Takes Reading.elementName :=
  peek.bind fun _ => .ite (next.bind fun _ => nextIdentOrStar.bind fun _ => .pure _)
    (.ite (.pure _) (nextIdentOrStar.bind fun _ => peek.bind fun _ =>
      .ite (next.bind fun _ => nextIdentOrStar.bind fun _ => .pure _) (.pure _)))

lemma checkLast (found : Option Text) : Takes (Reading.checkLast found) := by
  cases found with
  | none => exact .pure _
  | some p => exact .fail _

lemma pseudoElement (fuel : ℕ) : Takes (Reading.pseudoElement fuel) :=
  nextIdent.bind fun _ => peek.bind fun _ =>
    .ite (next.bind fun _ => (arguments fuel).bind fun _ => .pure _) (.pure _)

lemma boundBy : Takes Reading.boundBy := by
  refine peek.bind fun t => ?_
  split
  · exact .pure _
  · exact next.bind fun _ => skipSpace.bind fun _ => .pure _

lemma plain (function : Text) (found : Found) (t : Token) :
    Takes (Reading.plain function found t) := by
  obtain ⟨s, p⟩ := found
  cases p with
  | none => exact .pure _
  | some p => exact .fail _

section Inner

variable {compound : Spot → Reading Found}

lemma combinations {compound : Reading Found} (h : Takes compound) (isInner : Bool) (fuel : ℕ)
    (found : Found) : Takes (Reading.combinations isInner compound fuel found) := by
  induction fuel generalizing found with
  | zero => exact .pure _
  | succ fuel ih =>
      obtain ⟨s, p⟩ := found
      exact skipSpace.bind fun _ => peek.bind fun _ => .ite (.pure _)
        ((checkLast p).bind fun _ => boundBy.bind fun _ => h.bind fun _ => ih _)

lemma matchedList (h : ∀ spot, Takes (compound spot)) (fuel : ℕ) :
    Takes (Reading.matchedList compound fuel) := by
  induction fuel with
  | zero => exact .throw _
  | succ fuel ih =>
      refine (h .matched).bind fun found => ?_
      obtain ⟨s, p⟩ := found
      cases p with
      | none =>
          exact skipSpace.bind fun _ => next.bind fun _ =>
            .ite (ih.bind fun _ => .pure _) (.ite (.pure _) (.fail _))
      | some p => exact .failed _ _

lemma negated (h : ∀ spot, Takes (compound spot)) (fuel : ℕ) :
    Takes (Reading.negated compound fuel) :=
  (h .negated).bind fun _ => (combinations (h .negated) true fuel _).bind fun _ =>
    next.bind fun _ => (plain _ _ _).bind fun _ => .check (.pure _)

lemma relatedList (h : ∀ spot, Takes (compound spot)) (fuel : ℕ) :
    Takes (Reading.relatedList compound fuel) := by
  induction fuel with
  | zero => exact .throw _
  | succ fuel ih =>
      exact skipSpace.bind fun _ => boundBy.bind fun _ => (h .related).bind fun _ =>
        (combinations (h .related) true fuel _).bind fun _ => next.bind fun _ =>
          (plain _ _ _).bind fun _ => .ite (ih.bind fun _ => .pure _) (.ite (.pure _) (.fail _))

lemma functionCall (h : ∀ spot, Takes (compound spot)) (spot : Spot) (s : Selector) (name : Text)
    (fuel : ℕ) : Takes (Reading.functionCall compound spot s name fuel) :=
  skipSpace.bind fun _ =>
    .ite (.check (.check ((negated h fuel).bind fun _ => .pure _)))
      (.ite ((relatedList h fuel).bind fun _ => .pure _)
        (.ite ((matchedList h fuel).bind fun _ => .pure _)
          ((arguments fuel).bind fun _ => .pure _)))

lemma pseudoClass (h : ∀ spot, Takes (compound spot)) (spot : Spot) (s : Selector) (fuel : ℕ) :
    Takes (Reading.pseudoClass compound spot s fuel) :=
  peek.bind fun _ => .ite (next.bind fun _ => (pseudoElement fuel).bind fun _ => .pure _)
    (nextIdent.bind fun _ => .ite (.pure _) (peek.bind fun _ =>
      .ite (next.bind fun _ => (functionCall h spot s _ fuel).bind fun _ => .pure _)
        (.check (.pure _))))

lemma tests (h : ∀ spot, Takes (compound spot)) (spot : Spot) (fuel : ℕ) (found : Found) :
    Takes (Reading.tests compound spot fuel found) := by
  induction fuel generalizing found with
  | zero => exact .pure _
  | succ fuel ih =>
      obtain ⟨s, p⟩ := found
      exact peek.bind fun _ => .ite (.pure _) ((checkLast p).bind fun _ =>
        .ite (next.bind fun _ => ih _)
          (.ite (next.bind fun _ => nextIdent.bind fun _ => ih _)
            (.ite (next.bind fun _ => (bracketed s).bind fun _ => ih _)
              (.ite (next.bind fun _ => (pseudoClass h spot s fuel).bind fun _ => ih _)
                (.fail _)))))

end Inner

lemma get : Takes (MonadState.get : Reading Tokens) := by
  rintro ts x us h
  obtain ⟨-, rfl⟩ := Prod.mk.inj (Except.ok.inj h)
  exact List.suffix_rfl

/-- A compound takes tokens from the front, whatever stands in its parentheses. -/
lemma compoundAt (depth : ℕ) (spot : Spot) : Takes (Reading.compoundAt depth spot) := by
  induction depth generalizing spot with
  | zero => exact .throw _
  | succ depth ih =>
      exact skipSpace.bind fun _ => get.bind fun _ => elementName.bind fun _ =>
        (tests ih spot _ _).bind fun _ => get.bind fun _ =>
          .checkPeek (.pure _)

end Takes

/-! ### The end of what is read -/

variable {ts us : Tokens} {depth fuel : ℕ} {spot : Spot} {isInner : Bool}

lemma Takes.length_le {r : Reading α} (hr : Takes r) {x : α} (h : r ts = .ok (x, us)) :
    us.tokens.length ≤ ts.tokens.length := (hr ts x us h).length_le

/-- The next token is left where it is. -/
lemma of_peek {t : Token} (h : peek ts = .ok (t, us)) : us = ts ∧ ∃ r, ts.tokens = t :: r := by
  obtain ⟨tokens, stop⟩ := ts
  cases tokens with
  | nil => cases h
  | cons t' r =>
      obtain ⟨rfl, rfl⟩ := Prod.mk.inj (Except.ok.inj h)
      exact ⟨rfl, r, rfl⟩

/-- A compound has a token at least. -/
lemma length_lt_of_compoundAt {found : Found} (h : compoundAt depth spot ts = .ok (found, us)) :
    us.tokens.length < ts.tokens.length := by
  cases depth with
  | zero => cases h
  | succ depth =>
      rw [compoundAt] at h
      obtain ⟨_, ts₁, hskip, h₁⟩ := exists_of_bind h
      obtain ⟨before, ts₂, hbefore, h₂⟩ := exists_of_bind h₁
      obtain ⟨s, ts₃, hname, h₃⟩ := exists_of_bind h₂
      obtain ⟨x, ts₄, htests, h₄⟩ := exists_of_bind h₃
      obtain ⟨after, ts₅, hafter, h₅⟩ := exists_of_bind h₄
      obtain ⟨rfl, rfl⟩ := Prod.mk.inj (Except.ok.inj hbefore)
      obtain ⟨rfl, rfl⟩ := Prod.mk.inj (Except.ok.inj hafter)
      have hle := Takes.skipSpace.length_le hskip
      have hle' := Takes.elementName.length_le hname
      have hle'' := (Takes.tests (Takes.compoundAt depth) spot _ _).length_le htests
      split_ifs at h₅ with hsame
      · obtain ⟨t, ts₆, -, hfail⟩ := exists_of_bind h₅
        cases hfail
      · obtain ⟨-, rfl⟩ := Prod.mk.inj (Except.ok.inj h₅)
        rw [beq_iff_eq] at hsame
        omega

/-- **Compounds are read up to a token that ends them.** -/
lemma ends_of_combinations {found x : Found} (hf : ts.tokens.length < fuel)
    (h : combinations isInner (compoundAt depth spot) fuel found ts = .ok (x, us)) :
    ∃ t r, us.tokens = t :: r ∧
      (t.kind == .done || t.isDelim ',' || (isInner && t.isDelim ')')) = true := by
  induction fuel generalizing found ts with
  | zero => omega
  | succ fuel ih =>
      obtain ⟨s, p⟩ := found
      rw [combinations] at h
      obtain ⟨_, ts₁, hskip, h₁⟩ := exists_of_bind h
      obtain ⟨t, ts₂, hpeek, h₂⟩ := exists_of_bind h₁
      obtain ⟨hsame, r, hr⟩ := of_peek hpeek
      rw [hsame] at h₂
      split_ifs at h₂ with hends
      · obtain ⟨-, rfl⟩ := Prod.mk.inj (Except.ok.inj h₂)
        exact ⟨t, r, hr, hends⟩
      · obtain ⟨_, ts₃, hlast, h₃⟩ := exists_of_bind h₂
        obtain ⟨how, ts₄, hbound, h₄⟩ := exists_of_bind h₃
        obtain ⟨y, ts₅, hcompound, h₅⟩ := exists_of_bind h₄
        have hle := Takes.skipSpace.length_le hskip
        have hle' := (Takes.checkLast p).length_le hlast
        have hle'' := Takes.boundBy.length_le hbound
        have hlt := length_lt_of_compoundAt hcompound
        exact ih (by omega) h₅

/-- **A list is read up to the end of the text.** -/
lemma done_of_list {x : List Found} (hf : ts.tokens.length < fuel)
    (h : list (compoundAt depth) fuel ts = .ok (x, us)) : ∃ t ∈ ts.tokens, t.kind = .done := by
  induction fuel generalizing ts us x with
  | zero => omega
  | succ fuel ih =>
      rw [list] at h
      obtain ⟨first, ts₁, hfirst, h₁⟩ := exists_of_bind h
      obtain ⟨left, ts₂, hleft, h₂⟩ := exists_of_bind h₁
      obtain ⟨found, ts₃, hfound, h₃⟩ := exists_of_bind h₂
      obtain ⟨t, ts₄, hpeek, h₄⟩ := exists_of_bind h₃
      obtain ⟨rfl, rfl⟩ := Prod.mk.inj (Except.ok.inj hleft)
      obtain ⟨hsame, r, hr⟩ := of_peek hpeek
      rw [hsame] at h₄
      have hcombined := Takes.combinations (Takes.compoundAt depth .behind) false
        (ts₁.tokens.length + 1) first _ _ _ hfound
      have hsuffix := hcombined.trans (Takes.compoundAt depth .start _ _ _ hfirst)
      split_ifs at h₄ with hcomma
      · obtain ⟨_, ts₅, hnext, h₅⟩ := exists_of_bind h₄
        obtain ⟨_, ts₆, hskip, h₆⟩ := exists_of_bind h₅
        obtain ⟨xs, ts₇, hmore, -⟩ := exists_of_bind h₆
        have hbehind := (Takes.skipSpace _ _ _ hskip).trans (Takes.next _ _ _ hnext)
        have hlt := length_lt_of_compoundAt hfirst
        have hle := (hbehind.trans hcombined).length_le
        have hshort : ts₆.tokens.length < fuel := by omega
        obtain ⟨t', ht', hdone⟩ := ih hshort hmore
        exact ⟨t', (hbehind.trans hsuffix).mem ht', hdone⟩
      · obtain ⟨t', r', hr', hends⟩ := ends_of_combinations (Nat.lt_succ_self _) hfound
        obtain ⟨rfl, -⟩ := List.cons.inj (hr.symm.trans hr')
        refine ⟨t, hsuffix.mem (by rw [hr]; exact List.mem_cons_self), ?_⟩
        simpa [hcomma] using hends

end Reading

/-! ### Texts that stop in front of their end -/

/-- A text that stops in front of its end, wherever it stands. -/
def IsBroken (s : Text) : Prop := ∀ p, (tokenizeFrom p 0 s).stop ≠ nothingLeft

/-- What stops behind tokens stops with them in front. -/
lemma Spells.isBroken {s t : Text} {ls : List (TokenKind × Text)} (hs : Spells s ls t)
    (ht : IsBroken t) : IsBroken (s ++ t) := by
  intro p
  obtain ⟨ts, -, h⟩ := hs p
  rw [h]
  exact ht _

/-- A text with a line break has a first one. -/
lemma exists_break {v : Text} (h : ¬ ∀ c ∈ v, isBreak c = false) :
    ∃ u b w, v = u ++ b :: w ∧ (∀ c ∈ u, isBreak c = false) ∧ isBreak b = true := by
  induction v with
  | nil => simp at h
  | cons c v ih =>
      by_cases hc : isBreak c = true
      · exact ⟨[], c, v, rfl, by simp, hc⟩
      · obtain ⟨u, b, w, rfl, hu, hb⟩ := ih fun hv =>
          h (List.forall_mem_cons.mpr ⟨Bool.eq_false_iff.mpr hc, hv⟩)
        exact ⟨c :: u, b, w, rfl, List.forall_mem_cons.mpr ⟨Bool.eq_false_iff.mpr hc, hu⟩, hb⟩

/-- A line break between quotation marks stops the reading. -/
lemma isBroken_string {v : Text} (h : ¬ ∀ c ∈ v, isBreak c = false) (rest : Text) :
    IsBroken ('"' :: (escape v ++ rest)) := by
  obtain ⟨u, b, w, rfl, hu, hb⟩ := exists_break h
  intro p
  rw [tokenizeFrom, nextToken_break hu hb w rest p]
  simp [nothingLeft]

/-- **A text that stops in front of its end** is no selector. -/
theorem readAll_of_isBroken {s : Text} (h : IsBroken s) : ∃ e, Selector.readAll s = .error e := by
  cases hread : Selector.readAll s with
  | error e => exact ⟨e, rfl⟩
  | ok xs =>
      exfalso
      have hlist : ∃ us, (Reading.skipSpace >>= fun _ => Reading.list
          (Reading.compoundAt (s.length + 1)) ((tokenize s).tokens.length + 1)) (tokenize s) =
            .ok (xs, us) := by
        simp only [Selector.readAll, StateT.run] at hread
        cases hrun : (Reading.skipSpace >>= fun _ => Reading.list
          (Reading.compoundAt (s.length + 1)) ((tokenize s).tokens.length + 1)) (tokenize s) with
        | error e =>
            rw [hrun] at hread
            cases hread
        | ok x =>
            rw [hrun] at hread
            obtain ⟨ys, us⟩ := x
            obtain rfl := Except.ok.inj hread
            exact ⟨us, rfl⟩
      obtain ⟨us, hus⟩ := hlist
      obtain ⟨_, ts, hskip, hts⟩ := Reading.exists_of_bind hus
      have hsuffix := Reading.Takes.skipSpace _ _ _ hskip
      obtain ⟨t, ht, hdone⟩ := Reading.done_of_list (Nat.lt_succ_of_le hsuffix.length_le) hts
      exact h 0 (stop_of_done ⟨t, hsuffix.mem ht, hdone⟩)

end Locator.Css

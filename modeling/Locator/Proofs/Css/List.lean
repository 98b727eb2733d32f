/-
Reading groups and lists of selectors

* `Joins`, `RestLexes`, `Group.Lexes`, `ListLexes`: the tokens of combinators, of
  compounds behind the first one, of groups, and of groups with commas between them;
* `Group.Combines`: the selectors that a group is read as;
* `Reading.combinations_run`: further compounds are read one after the other;
* `Selector.readAll_eq`: **a list of groups is read as their selectors**.
-/
import Locator.Proofs.Css.Meaning
import Locator.Proofs.Css.Read

namespace Locator.Css

/-! ### Groups in tokens -/

/-- The token of blanks, or none. -/
def blankLexeme (isThere : Bool) : List (TokenKind × Text) :=
  if isThere then [(.space, [' '])] else []

/-- The tokens of a combinator: blanks, or a sign, perhaps between blanks. -/
inductive Joins : Combinator → List (TokenKind × Text) → Prop
  | descendant : Joins .descendant (blankLexeme true)
  | child (before behind : Bool) :
      Joins .child (blankLexeme before ++ (.delim, ['>']) :: blankLexeme behind)

/-- The tokens of compounds behind a first one. -/
inductive RestLexes : List Step → List (TokenKind × Text) → Prop
  | nil : RestLexes [] []
  | cons {s : Step} {ss : List Step} {js cs ls : List (TokenKind × Text)}
      (hj : Joins s.combinator js) (hc : s.compound.Lexes cs) (hs : RestLexes ss ls) :
      RestLexes (s :: ss) (js ++ (cs ++ ls))

/-- The tokens of a group. -/
def Group.Lexes (g : Group) (ls : List (TokenKind × Text)) : Prop :=
  ∃ cs rs, g.first.Lexes cs ∧ RestLexes g.rest rs ∧ ls = cs ++ rs

/-- The tokens of groups with a comma between each two of them, which may stand between
blanks. -/
inductive ListLexes : List Group → List (TokenKind × Text) → Prop
  | one {g : Group} {ls : List (TokenKind × Text)} (hg : g.Lexes ls) (behind : Bool) :
      ListLexes [g] (ls ++ blankLexeme behind)
  | cons {g : Group} {gs : List Group} {ls ms : List (TokenKind × Text)} (hg : g.Lexes ls)
      (before behind : Bool) (hs : ListLexes gs ms) :
      ListLexes (g :: gs)
        (ls ++ (blankLexeme before ++ ((.delim, [',']) :: (blankLexeme behind ++ ms))))

/-- The tokens of groups start with one that can start a compound. -/
lemma ListLexes.exists_cons {gs : List Group} {ts : List Token}
    (h : ListLexes gs (ts.map Token.lexeme)) : ∃ t us, ts = t :: us ∧ t.startsCompound := by
  have hgroup : ∀ (g : Group) (ls ms : List (TokenKind × Text)), g.Lexes ls →
      ts.map Token.lexeme = ls ++ ms → ∃ t us, ts = t :: us ∧ t.startsCompound := by
    rintro g _ ms ⟨cls, rls, hc, -, rfl⟩ hls
    rw [List.append_assoc] at hls
    obtain ⟨cs, us, rfl, rfl, -⟩ := List.map_eq_append_iff.mp hls
    obtain ⟨t, ws, rfl, ht⟩ := Compound.Lexes.exists_cons hc
    exact ⟨t, ws ++ us, rfl, ht⟩
  generalize hls : ts.map Token.lexeme = ls at h
  cases h with
  | one hg => exact hgroup _ _ _ hg hls
  | cons hg => exact hgroup _ _ _ hg hls

/-! ### The selectors of groups -/

/-- The relation that a combinator stands for. -/
def Combinator.relation : Combinator → Relation
  | .descendant => .descendant
  | .child => .child

/-- The selectors that further compounds lead to from a selector. -/
inductive Combines : Selector → List Step → Selector → Prop
  | nil (s : Selector) : Combines s [] s
  | cons {s x y : Selector} {t : Step} {ts : List Step}
      (h : Test.NarrowsAll (tagSelector t.compound.tag) t.compound.tests x)
      (hs : Combines (.combined s t.combinator.relation x) ts y) : Combines s (t :: ts) y

/-- The selectors that a group is read as. -/
def Group.Combines (g : Group) (x : Selector) : Prop :=
  ∃ s, Test.NarrowsAll (tagSelector g.first.tag) g.first.tests s ∧ Css.Combines s g.rest x

namespace Reading

variable {s : Selector} {rest : Tokens}

/-- Tokens that end a group. -/
def EndsGroup (rest : Tokens) : Prop :=
  ∃ t us, rest.tokens = t :: us ∧ (t.kind = .done ∨ t.isDelim ',' = true)

/-- What ends a group is no blank. -/
lemma EndsGroup.exists_cons (hr : EndsGroup rest) :
    ∃ t us, rest.tokens = t :: us ∧ t.kind ≠ .space ∧
      (t.kind == .done || t.isDelim ',' || (false && t.isDelim ')')) = true := by
  obtain ⟨t, us, ht, h⟩ := hr
  obtain ⟨kind, value, p⟩ := t
  refine ⟨_, us, ht, ?_, by simpa using h⟩
  rintro rfl
  simp [Token.isDelim] at h

/-- Blanks and what ends a group end its last compound. -/
lemma EndsGroup.endsTests (hr : EndsGroup rest) {ts : List Token} {b : Bool}
    (ht : ts.map Token.lexeme = blankLexeme b) : EndsTests .behind (rest.behind ts) := by
  cases b with
  | false =>
      obtain rfl := List.map_eq_nil_iff.mp ht
      obtain ⟨t, us, hu, h⟩ := hr
      refine ⟨t, us, hu, ?_⟩
      rcases h with h | h <;> simp [Reading.endsTests, Token.isAnyDelim, h]
  | true =>
      obtain ⟨p, us, rfl, h⟩ := Token.of_map_lexeme_cons ht
      exact ⟨_, us ++ rest.tokens, rfl, rfl⟩

/-- The token of blanks is passed over, if there is one. -/
lemma skipSpace_blank {ts : List Token} {b : Bool} (ht : ts.map Token.lexeme = blankLexeme b)
    {t : Token} {us : List Token} (hr : rest.tokens = t :: us) (hk : t.kind ≠ .space) :
    skipSpace (rest.behind ts) = .ok ((), rest) := by
  cases b with
  | false =>
      obtain rfl := List.map_eq_nil_iff.mp ht
      exact skipSpace_of_head hr hk
  | true =>
      obtain ⟨p, us', rfl, h⟩ := Token.of_map_lexeme_cons ht
      obtain rfl := List.map_eq_nil_iff.mp h
      exact skipSpace_of_head hr hk

/-- A combinator ends the compound in front. -/
lemma endsTests_joins {how : Combinator} {ts : List Token} (hj : Joins how (ts.map Token.lexeme))
    (spot : Spot) (rest : Tokens) : EndsTests spot (rest.behind ts) := by
  generalize hls : ts.map Token.lexeme = ls at hj
  cases hj with
  | descendant =>
      obtain ⟨p, us, rfl, -⟩ := Token.of_map_lexeme_cons hls
      exact ⟨_, us ++ rest.tokens, rfl, rfl⟩
  | child before behind =>
      cases before with
      | true =>
          obtain ⟨p, us, rfl, -⟩ := Token.of_map_lexeme_cons hls
          exact ⟨_, us ++ rest.tokens, rfl, rfl⟩
      | false =>
          obtain ⟨p, us, rfl, -⟩ := Token.of_map_lexeme_cons hls
          exact ⟨_, us ++ rest.tokens, rfl, rfl⟩

/-- What follows a compound ends it. -/
lemma endsTests_rest {ss : List Step} {ts bs : List Token} {b : Bool}
    (hs : RestLexes ss (ts.map Token.lexeme)) (hb : bs.map Token.lexeme = blankLexeme b)
    (hr : EndsGroup rest) : EndsTests .behind ((rest.behind bs).behind ts) := by
  generalize hls : ts.map Token.lexeme = ls at hs
  cases hs with
  | nil =>
      obtain rfl := List.map_eq_nil_iff.mp hls
      exact hr.endsTests hb
  | cons hj hc hs =>
      obtain ⟨js, us, rfl, hjs, -⟩ := List.map_eq_append_iff.mp hls
      rw [Tokens.behind_append]
      exact endsTests_joins (hjs ▸ hj) _ _

/-- A combinator is passed over, and how the next compound is bound is told. -/
lemma boundBy_joins {how : Combinator} {ts us : List Token} {t : Token} {compound : Reading Found}
    (hj : Joins how (ts.map Token.lexeme)) (ht : t.startsCompound)
    (hu : rest.tokens = t :: us) (fuel : ℕ) :
    combinations false compound (fuel + 1) (s, none) (rest.behind ts) =
      (do
        let (right, p) ← compound
        combinations false compound fuel (.combined s how.relation right, p)) rest := by
  obtain ⟨hspace, hdone, hcomma, hchild, hnext, hlater⟩ := Token.of_startsCompound ht
  generalize hls : ts.map Token.lexeme = ls at hj
  cases hj with
  | descendant =>
      have hgo : (t.kind == .done || t.isDelim ',' || (false && t.isDelim ')')) = false := by
        simp [hdone, hcomma]
      have hnone : relationOf? t = none := by simp [relationOf?, hchild, hnext, hlater]
      have hbound : boundBy rest = .ok (.descendant, rest) := by
        rw [boundBy]
        refine (bind_of_ok (peek_of_tokens hu)).trans ?_
        rw [hnone]
        rfl
      rw [combinations]
      refine (bind_of_ok (skipSpace_blank hls hu hspace)).trans ?_
      refine (bind_of_ok (peek_of_tokens hu)).trans ?_
      simp only [hgo, Bool.false_eq_true, ↓reduceIte]
      refine (bind_of_ok (rfl : checkLast none rest = .ok ((), rest))).trans ?_
      exact (bind_of_ok hbound).trans rfl
  | child before behind =>
      obtain ⟨bs, us', rfl, hbs, hus⟩ := List.map_eq_append_iff.mp hls
      obtain ⟨p, vs, rfl, hvs⟩ := Token.of_map_lexeme_cons hus
      have hbound : boundBy ((rest.behind vs).behind [⟨.delim, ['>'], p⟩]) = .ok (.child, rest) := by
        rw [boundBy]
        refine (bind_of_ok rfl).trans ?_
        refine (bind_of_ok rfl).trans ?_
        exact (bind_of_ok (skipSpace_blank hvs hu hspace)).trans rfl
      have hhead : ((rest.behind vs).behind [⟨.delim, ['>'], p⟩]).tokens =
          ⟨.delim, ['>'], p⟩ :: (rest.behind vs).tokens := rfl
      have hskip := skipSpace_blank hbs hhead (by simp)
      rw [Tokens.behind_append, ← List.singleton_append, Tokens.behind_append, combinations]
      refine (bind_of_ok hskip).trans ?_
      refine (bind_of_ok rfl).trans ?_
      refine (bind_of_ok rfl).trans ?_
      exact (bind_of_ok hbound).trans rfl

/-- **Further compounds are read one after the other**, up to what ends the group. -/
theorem combinations_run {ss : List Step} {ts bs : List Token} {b : Bool}
    (hs : RestLexes ss (ts.map Token.lexeme)) (hb : bs.map Token.lexeme = blankLexeme b)
    (hr : EndsGroup rest) (depth : ℕ) {fuel : ℕ} (hf : ts.length < fuel) :
    ∃ x, Combines s ss x ∧
      combinations false (compoundAt (depth + 1) .behind) fuel (s, none)
        ((rest.behind bs).behind ts) = .ok ((x, none), rest) := by
  generalize hls : ts.map Token.lexeme = ls at hs
  induction hs generalizing s ts fuel with
  | nil =>
      obtain rfl := List.map_eq_nil_iff.mp hls
      obtain ⟨fuel, rfl⟩ : ∃ k, fuel = k + 1 := ⟨fuel - 1, by omega⟩
      obtain ⟨t, us, hu, hspace, hends⟩ := hr.exists_cons
      refine ⟨s, .nil s, ?_⟩
      rw [Tokens.behind_nil, combinations]
      refine (bind_of_ok (skipSpace_blank hb hu hspace)).trans ?_
      refine (bind_of_ok (peek_of_tokens hu)).trans ?_
      rw [if_pos hends]
      rfl
  | @cons step ss jls cls ls hj hc hs ih =>
      obtain ⟨js, us, rfl, rfl, hus⟩ := List.map_eq_append_iff.mp hls
      obtain ⟨cs, vs, rfl, rfl, rfl⟩ := List.map_eq_append_iff.mp hus
      obtain ⟨t, ws, hcs, hstart⟩ := Compound.Lexes.exists_cons hc
      rw [List.length_append, List.length_append, hcs, List.length_cons] at hf
      obtain ⟨fuel, rfl⟩ : ∃ k, fuel = k + 1 := ⟨fuel - 1, by omega⟩
      obtain ⟨x, hx, hread⟩ := compoundAt_eq hc (endsTests_rest hs hb hr) depth
      have hothers : vs.length < fuel := by omega
      obtain ⟨y, hy, hrun⟩ := ih hothers rfl
      have hhead : (((rest.behind bs).behind vs).behind cs).tokens =
          t :: (ws ++ ((rest.behind bs).behind vs).tokens) := by rw [hcs]; rfl
      refine ⟨y, .cons hx hy, ?_⟩
      rw [Tokens.behind_append, Tokens.behind_append, boundBy_joins hj hstart hhead]
      exact (bind_of_ok hread).trans hrun

/-! ### Lists of groups -/

/-- A group is read as its selectors, and what ends it is left. -/
lemma group_run {g : Group} {ts bs : List Token} {b : Bool}
    (hg : g.Lexes (ts.map Token.lexeme)) (hb : bs.map Token.lexeme = blankLexeme b)
    (hr : EndsGroup rest) (depth : ℕ) {α : Type} (f : Found → Reading α) :
    ∃ x, g.Combines x ∧
      (do
        let first ← compoundAt (depth + 1) .start
        let found ← combinations false (compoundAt (depth + 1) .behind)
          ((← get).tokens.length + 1) first
        f found) ((rest.behind bs).behind ts) = f (x, none) rest := by
  obtain ⟨cls, rls, hc, hs, hls⟩ := hg
  obtain ⟨cs, rs, rfl, rfl, rfl⟩ := List.map_eq_append_iff.mp hls
  have hends : EndsTests .start ((rest.behind bs).behind rs) := by
    obtain ⟨t, us, ht, he⟩ := endsTests_rest hs hb hr
    exact ⟨t, us, ht, he⟩
  obtain ⟨x, hx, hread⟩ := compoundAt_eq hc hends depth
  have hf : rs.length < ((rest.behind bs).behind rs).tokens.length + 1 := by
    simp only [Tokens.behind, List.length_append]
    omega
  obtain ⟨y, hy, hrun⟩ := combinations_run (s := x) hs hb hr depth hf
  refine ⟨y, ⟨x, hx, hy⟩, ?_⟩
  rw [Tokens.behind_append]
  refine (bind_of_ok hread).trans ?_
  refine (bind_of_ok rfl).trans ?_
  exact bind_of_ok hrun

/-- **Groups are read one after the other**, up to the end of the text. -/
theorem list_run {gs : List Group} {ts : List Token} (h : ListLexes gs (ts.map Token.lexeme))
    {t : Token} (hr : rest.tokens = [t]) (ht : t.kind = .done) (depth : ℕ) {fuel : ℕ}
    (hf : ts.length < fuel) :
    ∃ xs, List.Forall₂ Group.Combines gs xs ∧
      list (compoundAt (depth + 1)) fuel (rest.behind ts) = .ok (xs.map (·, none), rest) := by
  generalize hls : ts.map Token.lexeme = ls at h
  induction h generalizing ts fuel with
  | @one g ls hg behind =>
      obtain ⟨us, bs, rfl, rfl, hb⟩ := List.map_eq_append_iff.mp hls
      obtain ⟨fuel, rfl⟩ : ∃ k, fuel = k + 1 := ⟨fuel - 1, by omega⟩
      have hends : EndsGroup rest := ⟨t, [], hr, .inl ht⟩
      have hcomma : t.isDelim ',' = false := by simp [Token.isDelim, ht]
      obtain ⟨x, hx, hrun⟩ := group_run hg hb hends depth (fun found => do
        if (← peek).isDelim ',' then
          let _ ← next
          skipSpace
          return found :: (← list (compoundAt (depth + 1)) fuel)
        else return [found])
      refine ⟨[x], .cons hx .nil, ?_⟩
      rw [list, Tokens.behind_append]
      refine hrun.trans ?_
      refine (bind_of_ok (peek_of_tokens hr)).trans ?_
      rw [hcomma]
      rfl
  | @cons g gs ls ms hg before behind hs ih =>
      obtain ⟨us, vs, rfl, rfl, hvs⟩ := List.map_eq_append_iff.mp hls
      obtain ⟨bs, vs', rfl, hbs, hvs'⟩ := List.map_eq_append_iff.mp hvs
      obtain ⟨p, vs'', rfl, hvs''⟩ := Token.of_map_lexeme_cons hvs'
      obtain ⟨cs, ws, rfl, hcs, rfl⟩ := List.map_eq_append_iff.mp hvs''
      simp only [List.length_append, List.length_cons] at hf
      obtain ⟨fuel, rfl⟩ : ∃ k, fuel = k + 1 := ⟨fuel - 1, by omega⟩
      have hends : EndsGroup (((rest.behind ws).behind cs).behind [⟨.delim, [','], p⟩]) :=
        ⟨_, _, rfl, .inr rfl⟩
      obtain ⟨t', ws', hcons, hstart⟩ := ListLexes.exists_cons hs
      have hhead : (rest.behind ws).tokens = t' :: (ws' ++ rest.tokens) := by rw [hcons]; rfl
      have hothers : ws.length < fuel := by omega
      obtain ⟨xs, hxs, hlist⟩ := ih hothers rfl
      obtain ⟨x, hx, hrun⟩ := group_run hg hbs hends depth (fun found => do
        if (← peek).isDelim ',' then
          let _ ← next
          skipSpace
          return found :: (← list (compoundAt (depth + 1)) fuel)
        else return [found])
      have htokens : rest.behind (us ++ (bs ++ (⟨.delim, [','], p⟩ :: (cs ++ ws)))) =
          ((((rest.behind ws).behind cs).behind [⟨.delim, [','], p⟩]).behind bs).behind us := by
        simp [Tokens.behind]
      refine ⟨x :: xs, .cons hx hxs, ?_⟩
      rw [list, htokens]
      refine hrun.trans ?_
      refine (bind_of_ok rfl).trans ?_
      refine (bind_of_ok rfl).trans ?_
      refine (bind_of_ok (skipSpace_blank hcs hhead (Token.of_startsCompound hstart).1)).trans ?_
      exact (bind_of_ok hlist).trans rfl

end Reading

/-- **A list of groups is read as their selectors.** Blanks may stand in front of it. -/
theorem Selector.readAll_eq {s : Text} {gs : List Group} {ls : List (TokenKind × Text)} {b : Bool}
    (hs : Spells s (blankLexeme b ++ ls) []) (hls : ListLexes gs ls) :
    ∃ xs, List.Forall₂ Group.Combines gs xs ∧ Selector.readAll s = .ok (xs.map (·, none)) := by
  obtain ⟨ts, hts, htokens⟩ := hs 0
  obtain ⟨bs, us, rfl, hbs, rfl⟩ := List.map_eq_append_iff.mp hts
  obtain ⟨t, ws, hcons, hstart⟩ := ListLexes.exists_cons hls
  rw [List.append_nil, Nat.zero_add, Tokens.behind_append] at htokens
  have hhead : ((tokenizeFrom s.length 0 []).behind us).tokens =
      t :: (ws ++ [⟨.done, [], s.length⟩]) := by rw [hcons]; rfl
  have hf : us.length < (tokenize s).tokens.length + 1 := by
    rw [tokenize, htokens]
    simp only [Tokens.behind, List.length_append]
    omega
  have hdone : (tokenizeFrom s.length 0 []).tokens = [⟨.done, [], s.length⟩] := rfl
  obtain ⟨xs, hxs, hlist⟩ := Reading.list_run hls hdone rfl s.length hf
  have hskip := Reading.skipSpace_blank hbs hhead (Token.of_startsCompound hstart).1
  rw [← htokens] at hskip
  have hrun : (do
      Reading.skipSpace
      Reading.list (Reading.compoundAt (s.length + 1)) ((tokenize s).tokens.length + 1) :
        Reading _) (tokenize s) = .ok (xs.map (·, none), tokenizeFrom s.length 0 []) :=
    (Reading.bind_of_ok hskip).trans hlist
  refine ⟨xs, hxs, ?_⟩
  simp only [Selector.readAll, StateT.run, hrun]
  rfl

end Locator.Css

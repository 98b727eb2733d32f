/-
Reading the tests of a compound

* `Test.lexemes`, `Test.narrows`: the tokens of a test, and the selectors that it
  narrows others to;
* `Reading.tests_step`: a test is read from its tokens, and `Reading.tests_run`:
  **tests are read one after the other**, up to a token that ends the compound;
* `Reading.compoundAt_eq`: a compound is read as an element name and its tests.
-/
import Locator.Css.Compound
import Locator.Proofs.Css.Token

namespace Locator.Css

/-! ### Tests in tokens -/

/-- The test of attributes that a comparison asks for. -/
def Comparison.attributeTest : Comparison → AttributeTest
  | .equals => .equals
  | .startsWith => .startsWith
  | .endsWith => .endsWith
  | .contains => .contains
  | .hasWord => .includes
  | .dash => .dash

/-- The pseudo-class that counts the elements of one name. -/
def nthName : Text := "nth-of-type".toList

namespace Test

/-- The kinds and values of the tokens of digits of any script: the ASCII digits in front are
a number, and the others start a name. -/
def digitLexemes (digits : Text) : List (TokenKind × Text) :=
  let number := digits.takeWhile Char.isDigit
  let name := digits.dropWhile Char.isDigit
  (if number = [] then [] else [(.number, number)]) ++ if name = [] then [] else [(.ident, name)]

/-- ASCII digits are a single number. -/
lemma digitLexemes_eq {digits : Text} (hne : digits ≠ []) (h : ∀ c ∈ digits, c.isDigit = true) :
    digitLexemes digits = [(.number, digits)] := by
  simp [digitLexemes, List.takeWhile_eq_self_iff.mpr h, List.dropWhile_eq_nil_iff.mpr h, hne]

/-- The kinds and values of the tokens of a test. -/
def lexemes : Test → List (TokenKind × Text)
  | .id v => [(.hash, v)]
  | .classToken v => [(.delim, ['.']), (.ident, v)]
  | .present a => [(.delim, ['[']), (.ident, a), (.delim, [']'])]
  | .compare a how v =>
    (.delim, ['[']) :: (.ident, a) :: (sign how).map (fun c => (.delim, [c])) ++
      [(.string, v), (.delim, [']'])]
  | .nthOfType digits =>
    (.delim, [':']) :: (.ident, nthName) :: (.delim, ['(']) :: digitLexemes digits ++
      [(.delim, [')'])]

/-- The selectors that a test narrows a selector to; they differ in the positions of
tokens alone. -/
def Narrows (s : Selector) : Test → Selector → Prop
  | .id v, x => x = .hash s v
  | .classToken v, x => x = .className s v
  | .present a, x => x = .attribute s .unsaid a .exists_ [] false
  | .compare a how v, x => x = .attribute s .unsaid a how.attributeTest v false
  | .nthOfType digits, x => ∃ ts : List Token, ts.map Token.lexeme = digitLexemes digits ∧
      x = .function s nthName ts

/-- Several tests narrow a selector one after the other. -/
inductive NarrowsAll : Selector → List Test → Selector → Prop
  | nil (s : Selector) : NarrowsAll s [] s
  | cons {s x y : Selector} {t : Test} {ts : List Test} (h : t.Narrows s x)
      (hs : NarrowsAll x ts y) : NarrowsAll s (t :: ts) y

end Test

/-- The token of an element name. -/
def tagLexeme (tag : Text) : TokenKind × Text :=
  if tag = ['*'] then (.delim, ['*']) else (.ident, tag)

/-- The kinds and values of the tokens of a compound. Its name is left out only where
it is the asterisk and a test follows. -/
def Compound.Lexes (c : Compound) (ls : List (TokenKind × Text)) : Prop :=
  ls = tagLexeme c.tag :: c.tests.flatMap Test.lexemes ∨
    (c.tag = ['*'] ∧ c.tests ≠ [] ∧ ls = c.tests.flatMap Test.lexemes)

/-- The elements of a name, or of any name. -/
def tagSelector (tag : Text) : Selector :=
  .element .unsaid (if tag = ['*'] then none else some tag)

/-- The first token of given kinds and values. -/
lemma Token.of_map_lexeme_cons {ts : List Token} {kind : TokenKind} {value : Text}
    {ls : List (TokenKind × Text)} (h : ts.map lexeme = (kind, value) :: ls) :
    ∃ p us, ts = ⟨kind, value, p⟩ :: us ∧ us.map lexeme = ls := by
  obtain ⟨⟨k, v, p⟩, us, rfl, ht, hus⟩ := List.map_eq_cons_iff.mp h
  obtain ⟨rfl, rfl⟩ : k = kind ∧ v = value := by simpa [lexeme] using ht
  exact ⟨p, us, rfl, hus⟩

/-- Can a token start a compound? -/
def Token.startsCompound (t : Token) : Bool :=
  t.kind == .ident || t.kind == .hash || t.isAnyDelim ['*', '.', '[', ':']

/-- What starts a compound neither ends one nor stands between two. -/
lemma Token.of_startsCompound {t : Token} (h : t.startsCompound) :
    t.kind ≠ .space ∧ t.kind ≠ .done ∧ t.isDelim ',' = false ∧ t.isDelim '>' = false ∧
      t.isDelim '+' = false ∧ t.isDelim '~' = false := by
  obtain ⟨kind, value, p⟩ := t
  simp only [startsCompound, isAnyDelim, isDelim, List.any_cons, List.any_nil, Bool.or_false,
    Bool.or_eq_true, Bool.and_eq_true, beq_iff_eq] at h
  rcases h with (rfl | rfl) | ⟨rfl, rfl⟩ | ⟨rfl, rfl⟩ | ⟨rfl, rfl⟩ | ⟨rfl, rfl⟩ <;>
    simp [isDelim]

/-- ASCII digits are the single argument of a function. -/
lemma Test.exists_number {s x : Selector} {digits : Text}
    (h : (Test.nthOfType digits).Narrows s x) (hne : digits ≠ [])
    (hd : ∀ c ∈ digits, c.isDigit = true) :
    ∃ p, x = .function s nthName [⟨.number, digits, p⟩] := by
  obtain ⟨ts, hts, rfl⟩ := h
  rw [Test.digitLexemes_eq hne hd] at hts
  obtain ⟨p, us, rfl, hus⟩ := Token.of_map_lexeme_cons hts
  obtain rfl := List.map_eq_nil_iff.mp hus
  exact ⟨p, rfl⟩

/-- A test has a token at least. -/
lemma Test.length_lexemes_pos (t : Test) : 0 < t.lexemes.length := by
  cases t <;> simp [Test.lexemes]

/-- The first token of the tests of a compound goes on with it. -/
lemma Test.head_flatMap_lexemes {cs : List Test} {t : Token} {us : List Token}
    (h : (t :: us).map Token.lexeme = cs.flatMap Test.lexemes) :
    t.kind ≠ .ident ∧ t.startsCompound ∧ t.isDelim '*' = false ∧ t.isDelim '|' = false := by
  cases cs with
  | nil => simp at h
  | cons c cs =>
      obtain ⟨kind, value, p⟩ := t
      cases c <;>
        simp_all [Test.lexemes, Token.lexeme, Token.startsCompound, Token.isDelim, Token.isAnyDelim]

/-- The tokens of a compound start with one that can start it. -/
lemma Compound.Lexes.exists_cons {c : Compound} {ts : List Token}
    (ht : c.Lexes (ts.map Token.lexeme)) : ∃ t us, ts = t :: us ∧ t.startsCompound := by
  rcases ht with ht | ⟨-, hne, ht⟩
  · obtain ⟨⟨k, v, p⟩, us, rfl, htl, -⟩ := List.map_eq_cons_iff.mp ht
    refine ⟨_, us, rfl, ?_⟩
    by_cases hstar : c.tag = ['*'] <;>
      simp_all [Token.lexeme, tagLexeme, Token.startsCompound, Token.isAnyDelim, Token.isDelim]
  · cases ts with
    | nil =>
        obtain ⟨x, xs, hx⟩ := List.exists_cons_of_ne_nil hne
        have := Test.length_lexemes_pos x
        simp_all
    | cons t us => exact ⟨t, us, rfl, (Test.head_flatMap_lexemes ht).2.1⟩

namespace Reading

variable {compound : Spot → Reading Found} {spot : Spot} {s : Selector} {rest : Tokens}

/-! ### Single tests -/

/-- A step of reading that gives a result goes on with it. -/
lemma bind_of_ok {α β : Type} {a : Reading α} {f : α → Reading β} {x : α} {ts us : Tokens}
    (h : a ts = .ok (x, us)) : (a >>= f) ts = f x us := by
  change (a ts >>= fun y => f y.1 y.2) = _
  rw [h]
  rfl

/-- A step of reading that fails ends the reading. -/
lemma bind_of_error {α β : Type} {a : Reading α} {f : α → Reading β} {ts : Tokens}
    {e : SelectorError} (h : a ts = .error e) : (a >>= f) ts = .error e := by
  change (a ts >>= fun y => f y.1 y.2) = _
  rw [h]
  rfl

/-- Nothing is passed over in front of a token that is no blank. -/
lemma skipSpace_of_head {t : Token} {us : List Token} (ht : rest.tokens = t :: us)
    (hk : t.kind ≠ .space) : skipSpace rest = .ok ((), rest) := by
  obtain ⟨tokens, stop⟩ := rest
  obtain rfl : tokens = t :: us := ht
  have hdrop : (t :: us).dropWhile (fun t => t.kind == .space) = t :: us := by simp [hk]
  change Except.ok ((), (⟨(t :: us).dropWhile (fun t => t.kind == .space), stop⟩ : Tokens)) = _
  rw [hdrop]

/-- The arguments of a function: numbers and names. -/
lemma arguments_run {ts : List Token} (h : ∀ t ∈ ts, t.kind = .number ∨ t.kind = .ident) (q : ℕ)
    {fuel : ℕ} (hf : ts.length < fuel) :
    arguments fuel ((rest.behind [⟨.delim, [')'], q⟩]).behind ts) = .ok (ts, rest) := by
  induction ts generalizing fuel with
  | nil =>
      obtain ⟨fuel, rfl⟩ : ∃ k, fuel = k + 1 := ⟨fuel - 1, by simp at hf; omega⟩
      rfl
  | cons t ts ih =>
      rw [List.forall_mem_cons] at h
      rw [List.length_cons] at hf
      obtain ⟨fuel, rfl⟩ : ∃ k, fuel = k + 1 := ⟨fuel - 1, by omega⟩
      have hk : t.kind ≠ .space := by rcases h.1 with hk | hk <;> simp [hk]
      have hgo : (t.kind == .ident || t.kind == .string || t.kind == .number ||
          t.isAnyDelim ['+', '-']) = true := by rcases h.1 with hk | hk <;> simp [hk]
      rw [arguments]
      refine (bind_of_ok (skipSpace_of_head rfl hk)).trans ?_
      refine (bind_of_ok rfl).trans ?_
      rw [if_pos hgo]
      exact (bind_of_ok (ih h.2 (by omega))).trans rfl

/-- Digits are the arguments of a function. -/
lemma kind_of_digitLexemes {ts : List Token} {digits : Text}
    (h : ts.map Token.lexeme = Test.digitLexemes digits) :
    ∀ t ∈ ts, t.kind = .number ∨ t.kind = .ident := by
  intro t ht
  have hmem : t.lexeme ∈ Test.digitLexemes digits := h ▸ List.mem_map_of_mem ht
  have hkind : t.lexeme.1 = t.kind := rfl
  rw [Test.digitLexemes, List.mem_append] at hmem
  rw [← hkind]
  rcases hmem with hmem | hmem
  · split_ifs at hmem
    · simp at hmem
    · exact .inl (by rw [List.mem_singleton.mp hmem])
  · split_ifs at hmem
    · simp at hmem
    · exact .inr (by rw [List.mem_singleton.mp hmem])

/-- The pseudo-class that counts elements, behind its opening parenthesis. -/
lemma functionCall_nth {ts : List Token} (h : ∀ t ∈ ts, t.kind = .number ∨ t.kind = .ident) (q : ℕ)
    {fuel : ℕ} (hf : ts.length < fuel) :
    functionCall compound spot s nthName fuel ((rest.behind [⟨.delim, [')'], q⟩]).behind ts) =
      .ok (.function s nthName ts, rest) := by
  have hlower : Text.lower nthName = nthName := by decide
  have hnot : (nthName == "not".toList) = false := by decide
  have hhas : (nthName == "has".toList) = false := by decide
  have hmatches : (nthName == "matches".toList || nthName == "is".toList ||
      nthName == "where".toList) = false := by decide
  have hskip : skipSpace ((rest.behind [⟨.delim, [')'], q⟩]).behind ts) =
      .ok ((), (rest.behind [⟨.delim, [')'], q⟩]).behind ts) := by
    cases ts with
    | nil => exact skipSpace_of_head rfl (by simp)
    | cons t ts =>
        have hk : t.kind ≠ .space := by rcases h t (by simp) with hk | hk <;> simp [hk]
        exact skipSpace_of_head rfl hk
  rw [functionCall]
  refine (bind_of_ok hskip).trans ?_
  simp only [hlower, hnot, hhas, hmatches, Bool.false_eq_true, ↓reduceIte]
  exact (bind_of_ok (arguments_run h q hf)).trans rfl

/-- The pseudo-class that counts elements, behind its colon. -/
lemma pseudoClass_nth {ts : List Token} (h : ∀ t ∈ ts, t.kind = .number ∨ t.kind = .ident)
    (p p' q : ℕ) {fuel : ℕ} (hf : ts.length < fuel) :
    pseudoClass compound spot s fuel (((rest.behind [⟨.delim, [')'], q⟩]).behind ts).behind
        [⟨.ident, nthName, p⟩, ⟨.delim, ['('], p'⟩]) =
      .ok ((.function s nthName ts, none), rest) := by
  have hlower : Text.lower nthName = nthName := by decide
  have hold : oldPseudoElements.contains nthName = false := by decide
  rw [pseudoClass]
  refine (bind_of_ok rfl).trans ?_
  refine (bind_of_ok rfl).trans ?_
  simp only [hlower, hold, Bool.false_eq_true, ↓reduceIte]
  refine (bind_of_ok rfl).trans ?_
  refine (bind_of_ok rfl).trans ?_
  exact (bind_of_ok (functionCall_nth h q hf)).trans rfl

/-- The test of an attribute with a value is read from its tokens. -/
lemma tests_compare {ts : List Token} {a v : Text} {how : Comparison}
    (ht : ts.map Token.lexeme = (Test.compare a how v).lexemes) (fuel : ℕ) :
    tests compound spot (fuel + 1) (s, none) (rest.behind ts) =
      tests compound spot fuel (.attribute s .unsaid a how.attributeTest v false, none) rest := by
  obtain ⟨p1, ts1, rfl, h1⟩ := Token.of_map_lexeme_cons ht
  obtain ⟨p2, ts2, rfl, h2⟩ := Token.of_map_lexeme_cons h1
  cases how with
  | equals =>
      obtain ⟨p3, ts3, rfl, h3⟩ := Token.of_map_lexeme_cons h2
      obtain ⟨p4, ts4, rfl, h4⟩ := Token.of_map_lexeme_cons h3
      obtain ⟨p5, ts5, rfl, h5⟩ := Token.of_map_lexeme_cons h4
      obtain rfl := List.map_eq_nil_iff.mp h5
      cases spot <;> rfl
  | _ =>
      obtain ⟨p3, ts3, rfl, h3⟩ := Token.of_map_lexeme_cons h2
      obtain ⟨p4, ts4, rfl, h4⟩ := Token.of_map_lexeme_cons h3
      obtain ⟨p5, ts5, rfl, h5⟩ := Token.of_map_lexeme_cons h4
      obtain ⟨p6, ts6, rfl, h6⟩ := Token.of_map_lexeme_cons h5
      obtain rfl := List.map_eq_nil_iff.mp h6
      cases spot <;> rfl

/-- The pseudo-class that counts elements is read from its tokens. -/
lemma tests_nth {ts : List Token} {digits : Text}
    (ht : ts.map Token.lexeme = (Test.nthOfType digits).lexemes) {fuel : ℕ}
    (hf : ts.length ≤ fuel) :
    ∃ us : List Token, us.map Token.lexeme = Test.digitLexemes digits ∧
      tests compound spot (fuel + 1) (s, none) (rest.behind ts) =
        tests compound spot fuel (.function s nthName us, none) rest := by
  obtain ⟨p1, ts1, rfl, h1⟩ := Token.of_map_lexeme_cons ht
  obtain ⟨p2, ts2, rfl, h2⟩ := Token.of_map_lexeme_cons h1
  obtain ⟨p3, ts3, rfl, h3⟩ := Token.of_map_lexeme_cons h2
  obtain ⟨us, vs, rfl, hus, hvs⟩ := List.map_eq_append_iff.mp h3
  obtain ⟨q, ws, rfl, hws⟩ := Token.of_map_lexeme_cons hvs
  obtain rfl := List.map_eq_nil_iff.mp hws
  refine ⟨us, hus, ?_⟩
  have hspot : (spot.isInner && Token.isDelim ⟨.delim, [':'], p1⟩ ')') = false := by
    cases spot <;> rfl
  have hshort : us.length < fuel := by
    simp only [List.length_cons, List.length_append] at hf
    omega
  have htokens : rest.behind (⟨.delim, [':'], p1⟩ :: ⟨.ident, nthName, p2⟩ ::
      ⟨.delim, ['('], p3⟩ :: (us ++ [⟨.delim, [')'], q⟩])) =
        (((rest.behind [⟨.delim, [')'], q⟩]).behind us).behind
          [⟨.ident, nthName, p2⟩, ⟨.delim, ['('], p3⟩]).behind [⟨.delim, [':'], p1⟩] := by
    simp [Tokens.behind]
  rw [tests, htokens]
  refine (bind_of_ok rfl).trans ?_
  simp only [hspot]
  refine (bind_of_ok rfl).trans ?_
  refine (bind_of_ok rfl).trans ?_
  exact bind_of_ok (pseudoClass_nth (kind_of_digitLexemes hus) p2 p3 q hshort)

/-- **A test** is read from its tokens. -/
theorem tests_step {t : Test} {ts : List Token} (ht : ts.map Token.lexeme = t.lexemes) {fuel : ℕ}
    (hf : ts.length ≤ fuel) :
    ∃ x, t.Narrows s x ∧ tests compound spot (fuel + 1) (s, none) (rest.behind ts) =
      tests compound spot fuel (x, none) rest := by
  cases t with
  | id v =>
      obtain ⟨p1, ts1, rfl, h1⟩ := Token.of_map_lexeme_cons ht
      obtain rfl := List.map_eq_nil_iff.mp h1
      exact ⟨_, rfl, by cases spot <;> rfl⟩
  | classToken v =>
      obtain ⟨p1, ts1, rfl, h1⟩ := Token.of_map_lexeme_cons ht
      obtain ⟨p2, ts2, rfl, h2⟩ := Token.of_map_lexeme_cons h1
      obtain rfl := List.map_eq_nil_iff.mp h2
      exact ⟨_, rfl, by cases spot <;> rfl⟩
  | present a =>
      obtain ⟨p1, ts1, rfl, h1⟩ := Token.of_map_lexeme_cons ht
      obtain ⟨p2, ts2, rfl, h2⟩ := Token.of_map_lexeme_cons h1
      obtain ⟨p3, ts3, rfl, h3⟩ := Token.of_map_lexeme_cons h2
      obtain rfl := List.map_eq_nil_iff.mp h3
      exact ⟨_, rfl, by cases spot <;> rfl⟩
  | compare a how v => exact ⟨_, rfl, tests_compare ht fuel⟩
  | nthOfType digits =>
      obtain ⟨us, hus, h⟩ := tests_nth ht hf
      exact ⟨_, ⟨us, hus, rfl⟩, h⟩

/-! ### Several tests -/

/-- Does a token end a compound? -/
def endsTests (spot : Spot) (t : Token) : Bool :=
  t.kind == .space || t.kind == .done || t.isAnyDelim [',', '+', '>', '~'] ||
    (spot.isInner && t.isDelim ')')

/-- Tokens the first of which ends a compound. -/
def EndsTests (spot : Spot) (rest : Tokens) : Prop :=
  ∃ t us, rest.tokens = t :: us ∧ endsTests spot t

lemma peek_of_tokens {rest : Tokens} {t : Token} {us : List Token} (h : rest.tokens = t :: us) :
    peek rest = .ok (t, rest) := by
  obtain ⟨tokens, stop⟩ := rest
  obtain rfl := h
  rfl

/-- A token that ends a compound ends its tests. -/
lemma tests_of_ends (hr : EndsTests spot rest) (fuel : ℕ) :
    tests compound spot fuel (s, none) rest = .ok ((s, none), rest) := by
  obtain ⟨t, us, ht, he⟩ := hr
  cases fuel with
  | zero => rfl
  | succ fuel =>
      rw [tests]
      refine (bind_of_ok (peek_of_tokens ht)).trans ?_
      rw [endsTests] at he
      simp only [he, ↓reduceIte]
      rfl

/-- **Tests are read one after the other**, up to a token that ends the
compound. -/
theorem tests_run {cs : List Test} {ts : List Token}
    (ht : ts.map Token.lexeme = cs.flatMap Test.lexemes) {fuel : ℕ} (hf : ts.length < fuel)
    (hr : EndsTests spot rest) :
    ∃ x, Test.NarrowsAll s cs x ∧
      tests compound spot fuel (s, none) (rest.behind ts) = .ok ((x, none), rest) := by
  induction cs generalizing s ts fuel with
  | nil =>
      obtain rfl := List.map_eq_nil_iff.mp ht
      exact ⟨s, .nil s, tests_of_ends hr fuel⟩
  | cons c cs ih =>
      obtain ⟨us, vs, rfl, hus, hvs⟩ := List.map_eq_append_iff.mp ht
      have hpos : 0 < us.length := by
        rw [← List.length_map Token.lexeme, hus]
        exact Test.length_lexemes_pos c
      rw [List.length_append] at hf
      obtain ⟨fuel, rfl⟩ : ∃ k, fuel = k + 1 := ⟨fuel - 1, by omega⟩
      have hfirst : us.length ≤ fuel := by omega
      have hothers : vs.length < fuel := by omega
      obtain ⟨x, hx, hstep⟩ := tests_step hus hfirst
      obtain ⟨y, hy, hrun⟩ := ih hvs hothers
      exact ⟨y, .cons hx hy, by rw [Tokens.behind_append, hstep, hrun]⟩

/-! ### Compounds -/

/-- A token behind which the name of an element ends. -/
def FollowsTag (rest : Tokens) : Prop :=
  ∃ t us, rest.tokens = t :: us ∧ t.isDelim '|' = false

/-- A name that is given. -/
lemma elementName_tag {tag : Text} {t : Token} (ht : t.lexeme = tagLexeme tag)
    (hr : FollowsTag rest) :
    elementName (rest.behind [t]) = .ok (tagSelector tag, rest) := by
  obtain ⟨u, us, hu, hbar⟩ := hr
  obtain ⟨kind, value, p⟩ := t
  by_cases hstar : tag = ['*']
  · obtain ⟨rfl, rfl⟩ : kind = .delim ∧ value = ['*'] := by
      simpa [Token.lexeme, tagLexeme, hstar] using ht
    rw [elementName]
    refine (bind_of_ok rfl).trans ?_
    refine (bind_of_ok (rfl : nextIdentOrStar _ = .ok (none, rest))).trans ?_
    refine (bind_of_ok (peek_of_tokens hu)).trans ?_
    simp only [hbar, tagSelector, hstar]
    rfl
  · obtain ⟨rfl, rfl⟩ : kind = .ident ∧ value = tag := by
      simpa [Token.lexeme, tagLexeme, hstar] using ht
    rw [elementName]
    refine (bind_of_ok rfl).trans ?_
    refine (bind_of_ok (rfl : nextIdentOrStar _ = .ok (some value, rest))).trans ?_
    refine (bind_of_ok (peek_of_tokens hu)).trans ?_
    simp only [hbar, tagSelector, hstar]
    rfl

/-- A name that is left out. -/
lemma elementName_none {t : Token} {us : List Token} (ht : rest.tokens = t :: us)
    (hk : t.kind ≠ .ident) (hstar : t.isDelim '*' = false) (hbar : t.isDelim '|' = false) :
    elementName rest = .ok (tagSelector ['*'], rest) := by
  have hk' : (t.kind != .ident) = true := by simpa using hk
  rw [elementName]
  refine (bind_of_ok (peek_of_tokens ht)).trans ?_
  simp only [hbar, hk', hstar]
  rfl

/-- Behind a name stands no bar. -/
lemma followsTag_behind {cs : List Test} {ts : List Token}
    (ht : ts.map Token.lexeme = cs.flatMap Test.lexemes) (hr : EndsTests spot rest) :
    FollowsTag (rest.behind ts) := by
  cases ts with
  | nil =>
      obtain ⟨t, us, hu, he⟩ := hr
      refine ⟨t, us, hu, ?_⟩
      obtain ⟨kind, value, p⟩ := t
      rw [Bool.eq_false_iff]
      intro hbar
      obtain ⟨rfl, rfl⟩ : kind = .delim ∧ value = ['|'] := by simpa [Token.isDelim] using hbar
      cases spot <;> simp [endsTests, Token.isAnyDelim, Token.isDelim] at he
  | cons t us => exact ⟨t, us ++ rest.tokens, rfl, (Test.head_flatMap_lexemes ht).2.2.2⟩

/-- The name of a compound is read, and its tests are left. -/
lemma elementName_eq {c : Compound} {ts : List Token} (ht : c.Lexes (ts.map Token.lexeme))
    (hr : EndsTests spot rest) :
    ∃ us, us.map Token.lexeme = c.tests.flatMap Test.lexemes ∧ us.length ≤ ts.length ∧
      elementName (rest.behind ts) = .ok (tagSelector c.tag, rest.behind us) := by
  rcases ht with ht | ⟨htag, hne, ht⟩
  · obtain ⟨t, us, rfl, htl, hus⟩ := List.map_eq_cons_iff.mp ht
    exact ⟨us, hus, by simp, elementName_tag htl (followsTag_behind hus hr)⟩
  · cases ts with
    | nil =>
        obtain ⟨x, xs, hx⟩ := List.exists_cons_of_ne_nil hne
        have := Test.length_lexemes_pos x
        simp_all
    | cons t us =>
        obtain ⟨hk, -, hstar, hbar⟩ := Test.head_flatMap_lexemes ht
        exact ⟨t :: us, ht, le_rfl, htag ▸ elementName_none rfl hk hstar hbar⟩

/-- **A compound** is read from its tokens. -/
theorem compoundAt_eq {c : Compound} {ts : List Token} (ht : c.Lexes (ts.map Token.lexeme))
    (hr : EndsTests spot rest) (depth : ℕ) :
    ∃ x, Test.NarrowsAll (tagSelector c.tag) c.tests x ∧
      compoundAt (depth + 1) spot (rest.behind ts) = .ok ((x, none), rest) := by
  obtain ⟨t, vs, rfl, hk⟩ := Compound.Lexes.exists_cons ht
  obtain ⟨us, hus, hlen, hname⟩ := elementName_eq ht hr
  have hfuel : us.length < (rest.behind (t :: vs)).tokens.length + 1 := by
    simp only [Tokens.behind, List.length_append]
    omega
  obtain ⟨x, hx, htests⟩ := tests_run hus hfuel hr
  have hshort : (rest.tokens.length == (rest.behind (t :: vs)).tokens.length) = false := by
    simp only [Tokens.behind, List.length_append, List.length_cons, beq_eq_false_iff_ne]
    omega
  refine ⟨x, hx, ?_⟩
  rw [compoundAt]
  refine (bind_of_ok (skipSpace_of_head rfl (Token.of_startsCompound hk).1)).trans ?_
  refine (bind_of_ok rfl).trans ?_
  refine (bind_of_ok hname).trans ?_
  refine (bind_of_ok htests).trans ?_
  refine (bind_of_ok rfl).trans ?_
  simp only [hshort]
  rfl

end Reading

end Locator.Css

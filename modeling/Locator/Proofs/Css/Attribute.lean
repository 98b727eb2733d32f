/-
Queries for an attribute with a value

* `IsAttributeName`: the names that attributes are looked up by, in braces or of the
  characters of names and colons;
* `IsReadable`: the name is a name of selectors, and no line breaks in the value;
* `queryPath_of_not_isReadable`: other names and values make **no selector**;
* `queryPath_attributeTest`, `queryPath_presence`: the expression of a readable query, and of
  one that asks for no value.
-/
import Locator.Css.Query
import Locator.Proofs.Css.List
import Locator.Proofs.Css.Stop
import Locator.Proofs.Outcome
import Locator.Proofs.Text.Basic

namespace Locator.Css

open Text

/-! ### What is refused -/

/-- What begins with a bracket fails as what is in the bracket does. -/
lemma Selector.readAll_of_bracketed {r : Text} {e : SelectorError}
    (h : Reading.bracketed (tagSelector ['*']) (tokenizeFrom 1 0 r) = .error e) :
    Selector.readAll ('[' :: r) = .error e := by
  have htokens : tokenize ('[' :: r) = (tokenizeFrom 1 0 r).behind [⟨.delim, ['['], 0⟩] :=
    (scans_sign (by decide) r).tokenizeFrom_eq 0
  set rest := tokenizeFrom 1 0 r with hrest
  have hskip : Reading.skipSpace (rest.behind [⟨.delim, ['['], 0⟩]) =
      .ok ((), rest.behind [⟨.delim, ['['], 0⟩]) := Reading.skipSpace_of_head rfl (by simp)
  have hname : Reading.elementName (rest.behind [⟨.delim, ['['], 0⟩]) =
      .ok (tagSelector ['*'], rest.behind [⟨.delim, ['['], 0⟩]) :=
    Reading.elementName_none rfl (by simp) rfl rfl
  have htests : ∀ (compound : Reading.Spot → Reading Reading.Found) (fuel : ℕ),
      Reading.tests compound .start (fuel + 1) (tagSelector ['*'], none)
        (rest.behind [⟨.delim, ['['], 0⟩]) = .error e := by
    intro compound fuel
    rw [Reading.tests]
    refine (Reading.bind_of_ok rfl).trans ?_
    refine (Reading.bind_of_ok rfl).trans ?_
    refine (Reading.bind_of_ok rfl).trans ?_
    exact Reading.bind_of_error h
  have hcompound : ∀ depth, Reading.compoundAt (depth + 1) .start
      (rest.behind [⟨.delim, ['['], 0⟩]) = .error e := by
    intro depth
    rw [Reading.compoundAt]
    refine (Reading.bind_of_ok hskip).trans ?_
    refine (Reading.bind_of_ok rfl).trans ?_
    refine (Reading.bind_of_ok hname).trans ?_
    exact Reading.bind_of_error (htests _ _)
  have hrun : ∀ depth fuel, (do
      Reading.skipSpace
      Reading.list (Reading.compoundAt (depth + 1)) (fuel + 1) : Reading _)
        (rest.behind [⟨.delim, ['['], 0⟩]) = .error e := by
    intro depth fuel
    refine (Reading.bind_of_ok hskip).trans ?_
    rw [Reading.list]
    exact Reading.bind_of_error (hcompound depth)
  simp only [Selector.readAll, StateT.run, htokens, hrun]
  rfl

namespace Reading

variable {s : Selector} {rest : Tokens} {t : Token} {us : List Token}

/-- A token that can stand neither in front of the name of an attribute nor behind
it. -/
def breaksOff (t : Token) : Bool :=
  t.kind != .space && t.kind != .ident &&
    !t.isAnyDelim ['|', '*', ']', '=', '^', '$', '~', '!']

lemma of_breaksOff (h : breaksOff t) :
    t.kind ≠ .space ∧ t.kind ≠ .ident ∧ t.isDelim '|' = false ∧ t.isDelim '*' = false ∧
      t.isDelim ']' = false ∧ t.isDelim '=' = false ∧ testBefore? t = none := by
  simp only [breaksOff, Token.isAnyDelim, List.any_cons, List.any_nil, Bool.or_false,
    Bool.and_eq_true, bne_iff_ne, Bool.not_eq_true', Bool.or_eq_false_iff] at h
  obtain ⟨⟨h1, h2⟩, h3, h4, h5, h6, h7, h8, h9, h10⟩ := h
  exact ⟨h1, h2, h3, h4, h5, h6, by simp [testBefore?, h3, h4, h7, h8, h9, h10]⟩

/-- No attribute is named where a bracket opens. -/
lemma bracketed_of_first (hr : rest.tokens = t :: us) (h : breaksOff t) :
    ∃ e, bracketed s rest = .error e := by
  obtain ⟨tokens, stop⟩ := rest
  obtain rfl : tokens = t :: us := hr
  obtain ⟨hspace, hident, hbar, hstar, -⟩ := of_breaksOff h
  have hname : ∃ e, nextIdentOrStar ⟨t :: us, stop⟩ = .error e := by
    have hnext : nextIdentOrStar ⟨t :: us, stop⟩ =
        (if t.kind == .ident then pure (some t.value)
          else if t.isDelim '*' then pure none
          else fail ("Expected ident or '*', got ".toList ++ t.shown) : Reading _) ⟨us, stop⟩ :=
      bind_of_ok rfl
    rw [hnext, if_neg (by simpa using hident), if_neg (by simp [hstar])]
    exact ⟨_, rfl⟩
  obtain ⟨e, he⟩ := hname
  refine ⟨e, ?_⟩
  rw [bracketed]
  refine (bind_of_ok (skipSpace_of_head rfl hspace)).trans ?_
  refine (bind_of_ok rfl).trans ?_
  simp only [hbar, Bool.false_eq_true, if_false]
  exact bind_of_error he

/-- The name of an attribute, behind which no bar stands. -/
lemma bracketed_of_name {a : Text} {p : ℕ} (hr : rest.tokens = t :: us)
    (hbar : t.isDelim '|' = false) :
    bracketed s (rest.behind [⟨.ident, a, p⟩]) = attributeTest s .unsaid a rest := by
  rw [bracketed]
  refine (bind_of_ok (skipSpace_of_head rfl (by simp))).trans ?_
  refine (bind_of_ok rfl).trans ?_
  refine (bind_of_ok (rfl : nextIdentOrStar _ = .ok (some a, rest))).trans ?_
  refine (bind_of_ok (peek_of_tokens hr)).trans ?_
  simp only [hbar]
  exact (bind_of_ok (peek_of_tokens hr)).trans (by simp only [hbar]; rfl)

/-- The name of an attribute breaks off. -/
lemma bracketed_of_second {a : Text} {p : ℕ} (hr : rest.tokens = t :: us) (h : breaksOff t) :
    ∃ e, bracketed s (rest.behind [⟨.ident, a, p⟩]) = .error e := by
  obtain ⟨hspace, -, hbar, -, hclose, hequals, hnone⟩ := of_breaksOff h
  have hsign : ∃ e, attributeSign t ⟨us, rest.stop⟩ = .error e := by
    rw [attributeSign]
    simp only [hequals, Bool.false_eq_true, if_false, hnone]
    exact ⟨_, rfl⟩
  obtain ⟨e, he⟩ := hsign
  refine ⟨e, ?_⟩
  rw [bracketed_of_name hr hbar]
  obtain ⟨tokens, stop⟩ := rest
  obtain rfl : tokens = t :: us := hr
  rw [attributeTest]
  refine (bind_of_ok (skipSpace_of_head rfl hspace)).trans ?_
  refine (bind_of_ok rfl).trans ?_
  simp only [hclose, Bool.false_eq_true, if_false]
  exact bind_of_error he

end Reading

/-! ### Names of attributes -/

/-- A character of the name of an attribute. -/
def isAttributeChar (c : Char) : Bool := Text.isNameChar c || c == ':'

/-- The names that attributes are looked up by: with a namespace in braces, or of the
characters of names and colons. -/
def IsAttributeName (name : Text) : Prop :=
  name ≠ [] ∧ (name.head? = some '\x7b' ∨ ∀ c ∈ name, isAttributeChar c = true)

instance (name : Text) : Decidable (IsAttributeName name) :=
  decidable_of_iff
    (name ≠ [] ∧ (name.head? = some '\x7b' ∨ name.all isAttributeChar = true))
    (by rw [IsAttributeName, List.all_eq_true])

/-- A query for a value that is read: the name is a name of selectors, and no line
breaks in the value. -/
def IsReadable (name value : Text) : Prop := IsIdent name ∧ ∀ c ∈ value, isBreak c = false

instance (name value : Text) : Decidable (IsReadable name value) :=
  decidable_of_iff (IsIdent name ∧ value.all (fun c => !isBreak c) = true)
    (by simp [IsReadable])

/-- Beyond ASCII, all characters of names are characters of the names of selectors, and
within it all but the point. -/
lemma isAttributeChar_cases {c : Char} (h : isAttributeChar c = true) :
    isNameChar c = true ∨ c = '.' ∨ c = ':' := by
  simp only [isAttributeChar, Text.isNameChar, Text.isNameStart, Bool.or_eq_true, beq_iff_eq] at h
  by_cases hbig : 127 < c.toNat
  · exact .inl (by simp [isNameChar, hbig])
  · simp only [isNameChar, isPlainIdentChar, Char.isAlphanum, Bool.or_eq_true, beq_iff_eq,
      decide_eq_true_eq, Bool.and_eq_true] at h ⊢
    grind

/-- A character that starts no name is a token of its own, or a number does. -/
lemma tokenizeFrom_of_char {c : Char} {r : Text} (hc : isAttributeChar c = true ∨ c = '\x7b')
    (hident : identLength (c :: r) = 0) (p : ℕ) :
    ∃ t us, (tokenizeFrom p 0 (c :: r)).tokens = t :: us ∧ Reading.breaksOff t := by
  have hne : ∀ x, isAttributeChar x = false → x ≠ '\x7b' → c ≠ x := by
    rintro x hx hb rfl
    rcases hc with hc | hc
    · simp [hc] at hx
    · exact hb hc
  have hspace : isCssSpace c = false := by
    simp [isCssSpace, isSpace, hne ' ' rfl (by decide), hne '\t' rfl (by decide),
      hne '\n' rfl (by decide), hne '\r' rfl (by decide), hne '\x0c' rfl (by decide)]
  have hhash := hne '#' rfl (by decide)
  have hquote : isQuote c = false := by
    simp [isQuote, hne '"' rfl (by decide), hne '\'' rfl (by decide)]
  have hslash := hne '/' rfl (by decide)
  have htoken : ∃ kind value n, nextToken p c r = .ok (some ⟨kind, value, p⟩, n) ∧
      (kind = .number ∨ kind = .delim ∧ value = [c]) := by
    by_cases hn : numberLength (c :: r) = 0
    · exact ⟨.delim, [c], 1, by simp [nextToken, hspace, hident, hhash, hquote, hn, hslash],
        .inr ⟨rfl, rfl⟩⟩
    · exact ⟨.number, (c :: r).take (numberLength (c :: r)), numberLength (c :: r),
        by simp [nextToken, hspace, hident, hhash, hquote, hn], .inl rfl⟩
  obtain ⟨kind, value, n, ht, hkind⟩ := htoken
  refine ⟨⟨kind, value, p⟩, (tokenizeFrom (p + 1) (n - 1) r).tokens, ?_, ?_⟩
  · rw [tokenizeFrom, ht]
    rfl
  · rcases hkind with rfl | ⟨rfl, rfl⟩
    · rfl
    · have hsigns : ∀ x ∈ ['|', '*', ']', '=', '^', '$', '~', '!'], c ≠ x := fun x hx => by
        have hall : (['|', '*', ']', '=', '^', '$', '~', '!'].all fun x =>
            !isAttributeChar x && x != '\x7b') = true := by decide
        have hx := List.all_eq_true.mp hall x hx
        simp only [Bool.and_eq_true, Bool.not_eq_true', bne_iff_ne] at hx
        exact hne x hx.1 hx.2
      simp only [List.mem_cons, List.not_mem_nil, or_false, forall_eq_or_imp, forall_eq] at hsigns
      simp [Reading.breaksOff, Token.isAnyDelim, Token.isDelim, hsigns]

/-! ### Queries that are no selectors -/

/-- What stands behind the name in a query. -/
def behindName (value : Text) : Text := '=' :: '"' :: (escape value ++ ['"', ']'])

lemma attributeTest_eq (name value : Text) :
    attributeTest name value = '[' :: (name ++ behindName value) := by
  simp [attributeTest, behindName]

lemma endsIdent_behindName (value : Text) : EndsIdent (behindName value) := by
  rintro c ⟨rfl⟩
  exact ⟨rfl, by decide⟩

/-- A character of attributes at which no name of selectors starts breaks off. -/
lemma bracketed_of_char {c : Char} {r : Text} (hc : isAttributeChar c = true ∨ c = '\x7b')
    (h : identLength (c :: r) = 0) (s : Selector) :
    ∃ e, Reading.bracketed s (tokenizeFrom 1 0 (c :: r)) = .error e := by
  obtain ⟨t, us, ht, hoff⟩ := tokenizeFrom_of_char hc h 1
  exact Reading.bracketed_of_first ht hoff

/-- What stands in attributes but not in names of selectors. -/
lemma eq_of_mem_head?_dropWhile {name : Text} (hn : ∀ c ∈ name, isAttributeChar c = true) {c : Char}
    (hc : c ∈ (name.dropWhile isNameChar).head?) : c = '.' ∨ c = ':' := by
  have hmem : c ∈ name := (List.dropWhile_suffix _).subset (List.mem_of_mem_head? hc)
  have hstop : isNameChar c = false := by
    have := List.head?_dropWhile_not (p := isNameChar) name
    rw [Option.mem_def.mp hc] at this
    simpa using this
  exact (isAttributeChar_cases (hn c hmem)).resolve_left (by simp [hstop])

/-- A name of selectors ends in front of a point or a colon. -/
lemma endsIdent_append {w rest : Text} (hw : ∀ c ∈ w.head?, c = '.' ∨ c = ':')
    (hr : EndsIdent rest) : EndsIdent (w ++ rest) := by
  intro c hc
  cases w with
  | nil => exact hr c hc
  | cons d w =>
      obtain rfl : d = c := by simpa using hc
      rcases hw d rfl with rfl | rfl <;> exact ⟨rfl, by decide⟩

/-- A name of selectors with a point or a colon behind it breaks off there. -/
lemma bracketed_of_isIdent {u w : Text} {d : Char} (hu : IsIdent u) (hd : d = '.' ∨ d = ':')
    (s : Selector) : ∃ e, Reading.bracketed s (tokenizeFrom 1 0 (u ++ d :: w)) = .error e := by
  have hzero : identLength (d :: w) = 0 := by rcases hd with rfl | rfl <;> rfl
  have hchar : isAttributeChar d = true := by rcases hd with rfl | rfl <;> rfl
  have hends : EndsIdent (d :: w) := by
    rintro c ⟨rfl⟩
    rcases hd with rfl | rfl <;> exact ⟨rfl, by decide⟩
  obtain ⟨t, us, ht, hoff⟩ := tokenizeFrom_of_char (.inl hchar) hzero (1 + u.length)
  rw [(scans_ident hu hends).tokenizeFrom_eq 1]
  exact Reading.bracketed_of_second ht hoff

/-- A name that is no name of selectors breaks off. -/
lemma bracketed_of_not_isIdent {name rest : Text} (hn : IsAttributeName name)
    (h : ¬ IsIdent name) (hr : EndsIdent rest) (s : Selector) :
    ∃ e, Reading.bracketed s (tokenizeFrom 1 0 (name ++ rest)) = .error e := by
  obtain ⟨hne, hn⟩ := hn
  rcases hn with hbrace | hall
  · obtain ⟨c, r, rfl⟩ := List.exists_cons_of_ne_nil hne
    obtain rfl : c = '\x7b' := by simpa using hbrace
    exact bracketed_of_char (.inr rfl) rfl s
  -- The name is read up to its first point or colon.
  set u := name.takeWhile isNameChar with hu
  set w := name.dropWhile isNameChar with hw
  have hname : name = u ++ w := (List.takeWhile_append_dropWhile).symm
  have hchars : ∀ c ∈ u, isNameChar c = true := fun c hc => List.mem_takeWhile_imp hc
  have hw' : ∀ c ∈ w.head?, c = '.' ∨ c = ':' := fun c hc => eq_of_mem_head?_dropWhile hall hc
  have hends : EndsIdent (w ++ rest) := endsIdent_append hw' hr
  by_cases hident : IsIdent u
  · cases hwc : w with
    | nil => exact absurd (by rw [hname, hwc, List.append_nil]; exact hident) h
    | cons d w' =>
        rw [hname, hwc, List.append_assoc, List.cons_append]
        exact bracketed_of_isIdent hident (hw' d (by simp [hwc])) s
  · cases huc : u with
    | nil =>
        obtain ⟨d, w', hwc⟩ : ∃ d w', w = d :: w' :=
          List.exists_cons_of_ne_nil fun hnil => hne (by rw [hname, huc, hnil]; rfl)
        rw [hname, huc, List.nil_append, hwc, List.cons_append]
        rcases hw' d (by simp [hwc]) with rfl | rfl <;> exact bracketed_of_char (.inl rfl) rfl s
    | cons d u' =>
        have hback : ∀ c ∈ ((u ++ (w ++ rest)).dropWhile isNameChar).head?, c ≠ '\\' := by
          rw [dropWhile_ident hchars hends]
          exact fun c hc => (hends c hc).2
        have hopen : opensIdent u = false := by
          rw [Bool.eq_false_iff]
          exact fun hopen => hident ⟨hopen, hchars⟩
        have hzero := identLength_eq hback
        rw [opensIdent_append (by simp [huc]) hends, hopen, huc] at hzero
        rw [hname, huc, List.append_assoc]
        exact bracketed_of_char (.inl (hall d (by rw [hname, huc]; simp))) hzero s

/-- A line break in the value stops the reading. -/
lemma readAll_of_break {name value : Text} (hn : IsIdent name)
    (hv : ¬ ∀ c ∈ value, isBreak c = false) :
    ∃ e, Selector.readAll (attributeTest name value) = .error e := by
  have hvalue := isBroken_string hv ['"', ']']
  have hequals := (Spells.of_scans (scans_sign (c := '=') (by decide) _)).isBroken hvalue
  have hname := (Spells.of_scans (scans_ident hn (endsIdent_behindName value))).isBroken hequals
  have hopen := (Spells.of_scans (scans_sign (c := '[') (by decide) _)).isBroken hname
  rw [attributeTest_eq]
  exact readAll_of_isBroken hopen

/-- **A query that is not readable is no selector.** -/
theorem queryPath_of_not_isReadable {name value : Text} (hn : IsAttributeName name)
    (h : ¬ IsReadable name value) : ∃ e, queryPath (attributeTest name value) = .error e := by
  have hread : ∃ e, Selector.readAll (attributeTest name value) = .error e := by
    by_cases hident : IsIdent name
    · exact readAll_of_break hident fun hv => h ⟨hident, hv⟩
    · obtain ⟨e, he⟩ := bracketed_of_not_isIdent hn hident (endsIdent_behindName value) _
      exact ⟨e, by rw [attributeTest_eq, Selector.readAll_of_bracketed he]⟩
  obtain ⟨e, he⟩ := hread
  refine ⟨e, ?_⟩
  rw [queryPath, he]
  rfl

/-! ### Queries that are read -/

/-- The condition that an attribute has a value. -/
def hasValueCondition (name value : Text) : Text :=
  Query.attributeName .unsaid name ++ " = ".toList ++ Query.literal value

/-- A query for any element is the condition that its test is drafted as. -/
lemma queryPath_of_test {t : Test} {s c : Text} (hs : Spells s t.lexemes []) (hc : c ≠ [])
    (hdraft : ∀ x, t.Narrows (tagSelector ['*']) x → draftWithout (x, none) = .ok { condition := c }) :
    queryPath s = .ok ("descendant-or-self::*[".toList ++ c ++ [']']) := by
  have hlexes : ListLexes [⟨⟨['*'], [t]⟩, []⟩] (t.lexemes ++ blankLexeme false) := by
    refine .one ⟨_, [], .inr ⟨rfl, by simp, rfl⟩, .nil, ?_⟩ false
    simp
  obtain ⟨xs, hxs, hread⟩ := Selector.readAll_eq (b := false) (by simpa [blankLexeme] using hs) hlexes
  obtain ⟨x, rest, ⟨y, hy, hcombines⟩, hrest, rfl⟩ := List.forall₂_cons_left_iff.mp hxs
  obtain rfl := List.forall₂_nil_left_iff.mp hrest
  cases hcombines
  cases hy with
  | cons hnarrow hnil =>
      cases hnil
      rw [queryPath, hread]
      simp only [List.map_cons, List.map_nil, List.mapM_cons, List.mapM_nil, ok_bind,
        hdraft _ hnarrow, pure_eq_ok, join_singleton]
      simp [Draft.path, Draft.text, predicate, hc]

/-- **The expression of a readable query** asks for the value that the escapes give. -/
theorem queryPath_attributeTest {name value : Text} (h : IsReadable name value) :
    queryPath (attributeTest name value) = .ok ("descendant-or-self::*[".toList ++
      hasValueCondition name (unescape (escape value)) ++ [']']) := by
  set v := unescape (escape value)
  have hspells : Spells (attributeTest name value)
      (Test.compare name .equals v).lexemes [] := by
    have hstring := scans_string h.2 ([']'] ++ [])
    have hvalue := (Spells.of_scans hstring).append
      (.of_scans (scans_sign (c := ']') (by decide) []))
    have hequals := (Spells.of_scans (scans_sign (c := '=') (by decide) _)).append hvalue
    have hname := (Spells.of_scans (scans_ident h.1
      (by rintro c ⟨rfl⟩; exact ⟨rfl, by decide⟩))).append hequals
    have hall := (Spells.of_scans (scans_sign (c := '[') (by decide) _)).append hname
    simpa [attributeTest_eq, behindName, Test.lexemes, Test.sign] using hall
  refine queryPath_of_test hspells (by simp [hasValueCondition]) fun x hx => ?_
  obtain rfl : x = .attribute (tagSelector ['*']) .unsaid name .equals v false := hx
  rfl

lemma attributeName_ne_nil (name : Text) : Query.attributeName .unsaid name ≠ [] := by
  by_cases h : Query.isSafeName name = true
  · have hsafe : Query.attributeName .unsaid name = '@' :: name := if_pos h
    simp [hsafe]
  · have hquoted : Query.attributeName .unsaid name =
        "attribute::*[name() = ".toList ++ Query.literal name ++ [']'] := if_neg h
    rw [hquoted]
    exact List.append_ne_nil_of_right_ne_nil _ (List.cons_ne_nil _ _)

/-- **The expression of a query for the attribute alone** asks for the attribute. -/
theorem queryPath_presence {name : Text} (h : IsIdent name) :
    queryPath ('[' :: name ++ [']']) = .ok ("descendant-or-self::*[".toList ++
      Query.attributeName .unsaid name ++ [']']) := by
  have hspells : Spells ('[' :: name ++ [']']) (Test.present name).lexemes [] := by
    have hclose : Spells [']'] [(.delim, [']'])] [] := .of_scans (scans_sign (by decide) [])
    have hname : Spells name [(.ident, name)] ([']'] ++ []) :=
      .of_scans (scans_ident h (by rintro c ⟨rfl⟩; exact ⟨rfl, by decide⟩))
    have hopen : Spells ['['] [(.delim, ['['])] ((name ++ [']']) ++ []) :=
      .of_scans (scans_sign (by decide) _)
    exact hopen.append (hname.append hclose)
  refine queryPath_of_test hspells (attributeName_ne_nil name) fun x hx => ?_
  obtain rfl : x = .attribute (tagSelector ['*']) .unsaid name .exists_ [] false := hx
  rfl

end Locator.Css

/-
Tokens of selectors

* `identLength_eq`: a name at the start of a text is the run of its characters,
  if it starts as a name does;
* `Scans`: a text is read as a token in front of another text, with `scans_ident`,
  `scans_hash`, `scans_string`, `scans_number`, `scans_sign`, `scans_space`;
* `Spells`: a text is read as tokens of given kinds and values, and
  `Spells.append`: texts one behind the other are read one after the other;
* `nextToken_break`: a line break between quotation marks stops the reading;
* `unescape_escape`: **escapes** give a text back, if no backslash in it stands in
  front of a hexadecimal digit.
-/
import Mathlib.Tactic
import Locator.Css.Selector
import Locator.Proofs.Text.Name

namespace Locator.Css

open Text

/-! ### Names -/

/-- A character that a name starts with, perhaps behind a hyphen. -/
def startsIdent (c : Char) : Bool := isNameChar c && !c.isDigit && c != '-'

/-- Does a text start as a name does? -/
def opensIdent : Text → Bool
  | '-' :: c :: _ => startsIdent c
  | c :: _ => startsIdent c
  | [] => false

/-- What can be no part of a name. -/
def EndsIdent (rest : Text) : Prop := ∀ c ∈ rest.head?, isNameChar c = false ∧ c ≠ '\\'

lemma escapeLength?_cons {c : Char} (h : c ≠ '\\') (r : Text) : escapeLength? (c :: r) = none := by
  unfold escapeLength?
  split
  · next heq => exact absurd (List.cons.inj heq).1 h
  · rfl

/-- The run of the characters of a name, if no escape follows. -/
lemma nameLength_eq {s : Text} (h : ∀ c ∈ (s.dropWhile isNameChar).head?, c ≠ '\\') :
    nameLength 0 s = (s.takeWhile isNameChar).length := by
  induction s with
  | nil => rfl
  | cons c s ih =>
      by_cases hc : isNameChar c
      · rw [List.dropWhile_cons_of_pos hc] at h
        simp [nameLength, hc, ih h]
      · rw [List.dropWhile_cons_of_neg hc] at h
        simp [nameLength, hc, escapeLength?_cons (h c rfl)]

lemma startsName_cons {c : Char} (h : c ≠ '\\') (r : Text) :
    startsName (c :: r) = startsIdent c := by
  simp [startsName, startsIdent, escapeLength?_cons h]

lemma opensIdent_of_ne {c : Char} (h : c ≠ '-') (r : Text) :
    opensIdent (c :: r) = startsIdent c := by
  simp [opensIdent, h]

/-- A name at the start of a text is the run of its characters. -/
lemma identLength_eq {s : Text} (h : ∀ c ∈ (s.dropWhile isNameChar).head?, c ≠ '\\') :
    identLength s = if opensIdent s then (s.takeWhile isNameChar).length else 0 := by
  have hback : isNameChar '\\' = false := rfl
  have hhyphen : isNameChar '-' = true := rfl
  cases s with
  | nil => rfl
  | cons c r =>
      by_cases hc : c = '-'
      · subst hc
        rw [List.dropWhile_cons_of_pos hhyphen] at h
        cases r with
        | nil => rfl
        | cons d r =>
            have hd : d ≠ '\\' := by
              rintro rfl
              exact h '\\' (by simp [hback]) rfl
            simp [identLength, startsName_cons hd, nameLength_eq h, opensIdent, hhyphen]
      · have hb : c ≠ '\\' := by
          rintro rfl
          exact h '\\' (by simp [hback]) rfl
        simp [identLength, hc, startsName_cons hb, nameLength_eq h, opensIdent_of_ne hc]

/-- A name in the sense of tokens, without escapes. -/
structure IsIdent (s : Text) : Prop where
  opens : opensIdent s = true
  chars : ∀ c ∈ s, isNameChar c = true

instance (s : Text) : Decidable (IsIdent s) :=
  decidable_of_iff (opensIdent s = true ∧ s.all isNameChar = true)
    ⟨fun h => ⟨h.1, List.all_eq_true.mp h.2⟩, fun h => ⟨h.opens, List.all_eq_true.mpr h.chars⟩⟩

lemma IsIdent.ne_nil {s : Text} (h : IsIdent s) : s ≠ [] := by
  rintro rfl
  simpa [opensIdent] using h.opens

/-- What follows does not change whether a text starts as a name does. -/
lemma opensIdent_append {s : Text} (hs : s ≠ []) {rest : Text} (hr : EndsIdent rest) :
    opensIdent (s ++ rest) = opensIdent s := by
  obtain ⟨c, r, rfl⟩ := List.exists_cons_of_ne_nil hs
  cases r with
  | cons d r => by_cases hc : c = '-' <;> simp_all [opensIdent]
  | nil =>
      cases rest with
      | nil => simp
      | cons d rest =>
          have hd := (hr d rfl).1
          by_cases hc : c = '-'
          · subst hc
            simp [opensIdent, startsIdent, hd]
          · simp [opensIdent, hc]

lemma takeWhile_ident {s rest : Text} (hs : ∀ c ∈ s, isNameChar c = true) (hr : EndsIdent rest) :
    (s ++ rest).takeWhile isNameChar = s :=
  takeWhile_append_of_all hs fun c hc => (hr c hc).1

lemma dropWhile_ident {s rest : Text} (hs : ∀ c ∈ s, isNameChar c = true) (hr : EndsIdent rest) :
    (s ++ rest).dropWhile isNameChar = rest :=
  dropWhile_append_of_all hs fun c hc => (hr c hc).1

/-! ### Texts without escapes -/

lemma resolveHexFrom_of_not_mem {s : Text} (h : '\\' ∉ s) : resolveHexFrom 0 s = s := by
  induction s with
  | nil => rfl
  | cons c s ih =>
      simp only [List.mem_cons, not_or] at h
      simp [resolveHexFrom, Ne.symm h.1, ih h.2]

lemma resolveSimple_cons {c : Char} (h : c ≠ '\\') (r : Text) :
    resolveSimple (c :: r) = c :: resolveSimple r := by
  cases r <;> simp [resolveSimple, h]

lemma resolveSimple_of_not_mem {s : Text} (h : '\\' ∉ s) : resolveSimple s = s := by
  induction s with
  | nil => rfl
  | cons c s ih =>
      simp only [List.mem_cons, not_or] at h
      rw [resolveSimple_cons (Ne.symm h.1), ih h.2]

lemma unescape_of_not_mem {s : Text} (h : '\\' ∉ s) : unescape s = s := by
  rw [unescape, resolveHexFrom_of_not_mem h, resolveSimple_of_not_mem h]

lemma backslash_not_mem {s : Text} (h : ∀ c ∈ s, isNameChar c = true) : '\\' ∉ s := by
  intro hm
  have hback : isNameChar '\\' = false := rfl
  exact Bool.false_ne_true (hback.symm.trans (h _ hm))

/-! ### Escapes -/

/-- A text in which no backslash stands in front of a hexadecimal digit. -/
def IsClear (v : Text) : Prop := v.IsChain fun c d => c = '\\' → isHexDigit d = false

instance (v : Text) : Decidable (IsClear v) := by
  unfold IsClear
  infer_instance

lemma hexEscape?_cons {c : Char} (h : isHexDigit c = false) (r : Text) :
    hexEscape? (c :: r) = none := by
  simp [hexEscape?, h]

lemma escape_cons_of_ne {c : Char} (h1 : c ≠ '\\') (h2 : c ≠ '"') (v : Text) :
    escape (c :: v) = c :: escape v := by
  simp [escape, h1, h2]

/-- The escapes of a clear text hold no hexadecimal ones. -/
lemma resolveHexFrom_escape {v : Text} (h : IsClear v) :
    resolveHexFrom 0 (escape v) = escape v := by
  have hback : isHexDigit '\\' = false := rfl
  have hmark : isHexDigit '"' = false := rfl
  induction v with
  | nil => rfl
  | cons c v ih =>
      have ih := ih (List.IsChain.tail h)
      by_cases hc : c = '\\'
      · subst hc
        have hcons : escape ('\\' :: v) = '\\' :: '\\' :: escape v := rfl
        have hnone : hexEscape? (escape v) = none := by
          cases v with
          | nil => rfl
          | cons d w =>
              have hd := (List.isChain_cons_cons.mp h).1 rfl
              by_cases hesc : d = '\\' ∨ d = '"'
              · rcases hesc with rfl | rfl <;> exact hexEscape?_cons hback _
              · rw [escape_cons_of_ne (not_or.mp hesc).1 (not_or.mp hesc).2]
                exact hexEscape?_cons hd _
        simp [hcons, resolveHexFrom, hexEscape?_cons hback, hnone, ih]
      · by_cases hq : c = '"'
        · subst hq
          have hcons : escape ('"' :: v) = '\\' :: '"' :: escape v := rfl
          simp [hcons, resolveHexFrom, hexEscape?_cons hmark, ih]
        · rw [escape_cons_of_ne hc hq]
          simp [resolveHexFrom, hc, ih]

/-- Every backslash of an escaped text stands in front of a mark. -/
lemma resolveSimple_escape (v : Text) : resolveSimple (escape v) = v := by
  induction v with
  | nil => rfl
  | cons c v ih =>
      by_cases hesc : c = '\\' ∨ c = '"'
      · have hcons : escape (c :: v) = '\\' :: c :: escape v := by
          rcases hesc with rfl | rfl <;> rfl
        have hne : c ≠ '\n' := by rcases hesc with rfl | rfl <;> decide
        simp [hcons, resolveSimple, hne, ih]
      · rw [escape_cons_of_ne (not_or.mp hesc).1 (not_or.mp hesc).2,
          resolveSimple_cons (not_or.mp hesc).1, ih]

/-- **Escapes** give a clear text back. -/
theorem unescape_escape {v : Text} (h : IsClear v) : unescape (escape v) = v := by
  rw [unescape, resolveHexFrom_escape h, resolveSimple_escape]

/-! ### Single tokens -/

/-- The kind and the value of a token. -/
def Token.lexeme (t : Token) : TokenKind × Text := (t.kind, t.value)

/-- A text in front of another one is read as a token, wherever it stands. -/
def Scans (u : Text) (kind : TokenKind) (value rest : Text) : Prop :=
  ∃ c r, u ++ rest = c :: r ∧ u ≠ [] ∧
    ∀ p, nextToken p c r = .ok (some ⟨kind, value, p⟩, u.length)

lemma tokenizeFrom_append (u : Text) (p : ℕ) (rest : Text) :
    tokenizeFrom p u.length (u ++ rest) = tokenizeFrom (p + u.length) 0 rest := by
  induction u generalizing p with
  | nil => rfl
  | cons c u ih =>
      rw [List.length_cons, List.cons_append, tokenizeFrom, ih, Nat.add_assoc, Nat.add_comm 1]

/-- The tokens of a text that starts with a token. -/
lemma Scans.tokenizeFrom_eq {u value rest : Text} {kind : TokenKind}
    (h : Scans u kind value rest) (p : ℕ) :
    tokenizeFrom p 0 (u ++ rest) =
      (tokenizeFrom (p + u.length) 0 rest).after (some ⟨kind, value, p⟩) := by
  obtain ⟨c, r, hcr, hne, htoken⟩ := h
  obtain ⟨d, u, rfl⟩ := List.exists_cons_of_ne_nil hne
  obtain ⟨rfl, rfl⟩ : d = c ∧ u ++ rest = r := by simpa using hcr
  have hlen : p + 1 + u.length = p + (d :: u).length := by
    rw [List.length_cons]
    omega
  rw [List.cons_append, tokenizeFrom, htoken p, ← hlen, ← tokenizeFrom_append u (p + 1) rest]
  rfl

/-- No blank is a part of a name. -/
lemma isCssSpace_of_isNameChar {c : Char} (h : isNameChar c = true) : isCssSpace c = false := by
  rw [Bool.eq_false_iff]
  intro hs
  simp only [isCssSpace, isSpace, Bool.or_eq_true, beq_iff_eq] at hs
  rcases hs with (((rfl | rfl) | rfl) | rfl) | rfl <;> simp [isNameChar, isPlainIdentChar] at h

lemma scans_ident {s rest : Text} (hs : IsIdent s) (hr : EndsIdent rest) :
    Scans s .ident s rest := by
  have hdrop := dropWhile_ident hs.chars hr
  have hlen : identLength (s ++ rest) = s.length := by
    rw [identLength_eq (by rw [hdrop]; exact fun c hc => (hr c hc).2),
      opensIdent_append hs.ne_nil hr, hs.opens, takeWhile_ident hs.chars hr]
    rfl
  have hval := unescape_of_not_mem (backslash_not_mem hs.chars)
  obtain ⟨c, r, rfl⟩ := List.exists_cons_of_ne_nil hs.ne_nil
  have hc := isCssSpace_of_isNameChar (hs.chars c (by simp))
  rw [List.cons_append] at hlen
  refine ⟨c, r ++ rest, rfl, by simp, fun p => ?_⟩
  have htake : (c :: (r ++ rest)).take (c :: r).length = c :: r := by
    rw [← List.cons_append, List.take_left]
  simp only [nextToken, hc, hlen, htake, hval]
  simp

lemma scans_hash {s rest : Text} (hne : s ≠ []) (hs : ∀ c ∈ s, isNameChar c = true)
    (hr : EndsIdent rest) : Scans ('#' :: s) .hash s rest := by
  have hlen : nameLength 0 (s ++ rest) = s.length := by
    rw [nameLength_eq (by rw [dropWhile_ident hs hr]; exact fun c hc => (hr c hc).2),
      takeWhile_ident hs hr]
  have hident : identLength ('#' :: (s ++ rest)) = 0 := rfl
  have hval := unescape_of_not_mem (backslash_not_mem hs)
  have hpos : s.length ≠ 0 := by simpa using hne
  refine ⟨'#', s ++ rest, rfl, by simp, fun p => ?_⟩
  have hspace : isCssSpace '#' = false := rfl
  simp [nextToken, hspace, hident, hlen, hpos, hval]

/-- The signs of selectors, whatever follows them. -/
def signs : Text := "[]=^$*~|,>:()".toList

lemma scans_sign {c : Char} (hc : c ∈ signs) (rest : Text) : Scans [c] .delim [c] rest := by
  have hident : identLength (c :: rest) = 0 := by
    rw [identLength_eq]
    · have hall : (signs.all fun c => !startsIdent c && c != '-') = true := by decide
      obtain ⟨hs, hne⟩ : startsIdent c = false ∧ c ≠ '-' := by
        simpa using List.all_eq_true.mp hall c hc
      rw [opensIdent_of_ne hne, hs]
      rfl
    · have hall : (signs.all fun c => !isNameChar c && c != '\\') = true := by decide
      obtain ⟨hn, hne⟩ : isNameChar c = false ∧ c ≠ '\\' := by
        simpa using List.all_eq_true.mp hall c hc
      rw [List.dropWhile_cons_of_neg (by simp [hn])]
      rintro _ ⟨rfl⟩
      exact hne
  have hall : (signs.all fun c => !isCssSpace c && c != '#' && !isQuote c && c != '+' &&
      c != '-' && !c.isDigit && c != '.' && c != '/') = true := by decide
  obtain ⟨⟨⟨⟨⟨⟨⟨hspace, hhash⟩, hquote⟩, hplus⟩, hminus⟩, hdigit⟩, hpoint⟩, hslash⟩ :
      ((((((isCssSpace c = false ∧ c ≠ '#') ∧ isQuote c = false) ∧ c ≠ '+') ∧ c ≠ '-') ∧
        c.isDigit = false) ∧ c ≠ '.') ∧ c ≠ '/' := by
    simpa only [Bool.and_eq_true, Bool.not_eq_true', bne_iff_ne] using List.all_eq_true.mp hall c hc
  have hnumber : numberLength (c :: rest) = 0 := by
    simp [numberLength, hplus, hminus, unsignedLength, hdigit, hpoint]
  refine ⟨c, rest, rfl, by simp, fun p => ?_⟩
  simp [nextToken, hspace, hident, hhash, hquote, hnumber, hslash]

/-- A point that starts no number. -/
lemma scans_point {rest : Text} (hr : ∀ c ∈ rest.head?, c.isDigit = false) :
    Scans ['.'] .delim ['.'] rest := by
  have hident : identLength ('.' :: rest) = 0 := rfl
  have hspace : isCssSpace '.' = false := rfl
  have hquote : isQuote '.' = false := rfl
  have hplaces : rest.takeWhile Char.isDigit = [] := by
    cases rest with
    | nil => rfl
    | cons c r => simp [hr c rfl]
  have hnumber : numberLength ('.' :: rest) = 0 := by
    simp [numberLength, unsignedLength, hplaces]
  refine ⟨'.', rest, rfl, by simp, fun p => ?_⟩
  simp [nextToken, hspace, hident, hquote, hnumber]

/-- What ends a whole number. -/
def EndsDigits (rest : Text) : Prop := ∀ c ∈ rest.head?, c.isDigit = false ∧ c ≠ '.'

lemma scans_number {s rest : Text} (hne : s ≠ []) (hs : ∀ c ∈ s, c.isDigit = true)
    (hr : EndsDigits rest) : Scans s .number s rest := by
  have hwhole : (s ++ rest).takeWhile Char.isDigit = s :=
    takeWhile_append_of_all hs fun c hc => (hr c hc).1
  have hunsigned : unsignedLength (s ++ rest) = s.length := by
    rw [unsignedLength, hwhole, List.drop_left]
    cases rest with
    | nil => rfl
    | cons c r => simp [(hr c rfl).2]
  obtain ⟨c, r, rfl⟩ := List.exists_cons_of_ne_nil hne
  have hc : c.isDigit = true := hs c (by simp)
  have hdigit : ∀ x : Char, x.isDigit = false → c ≠ x := by
    rintro x hx rfl
    simp [hx] at hc
  have hident : identLength (c :: (r ++ rest)) = 0 := by
    simp [identLength, hdigit '-' rfl, startsName_cons (hdigit '\\' rfl), startsIdent, hc]
  have hname : isNameChar c = true := by simp [isNameChar, isPlainIdentChar, Char.isAlphanum, hc]
  have hspace := isCssSpace_of_isNameChar hname
  have hnumber : numberLength (c :: (r ++ rest)) = (c :: r).length := by
    rw [← hunsigned]
    simp [numberLength, hdigit '+' rfl, hdigit '-' rfl]
  have htake : (c :: (r ++ rest)).take (c :: r).length = c :: r := by
    rw [← List.cons_append, List.take_left]
  refine ⟨c, r ++ rest, rfl, by simp, fun p => ?_⟩
  simp only [nextToken, hspace, hident, hnumber, htake]
  simp [hdigit '#' rfl, isQuote, hdigit '"' rfl, hdigit '\'' rfl]

lemma scans_space {s rest : Text} (hne : s ≠ []) (hs : ∀ c ∈ s, isCssSpace c = true)
    (hr : ∀ c ∈ rest.head?, isCssSpace c = false) : Scans s .space [' '] rest := by
  have hrun : (s ++ rest).takeWhile isCssSpace = s := takeWhile_append_of_all hs hr
  obtain ⟨c, r, rfl⟩ := List.exists_cons_of_ne_nil hne
  refine ⟨c, r ++ rest, rfl, by simp, fun p => ?_⟩
  rw [List.cons_append] at hrun
  simp [nextToken, hs c (by simp), hrun]

/-! ### Strings -/

/-- What stands between quotation marks is read up to the closing one or the first
line break. -/
lemma stringLength_escape {v : Text} (hv : ∀ c ∈ v, isBreak c = false) {c : Char} (hc : c = '"' ∨ isBreak c)
    (rest : Text) : stringLength '"' 0 (escape v ++ c :: rest) = (escape v).length := by
  have hb : isBreak '\\' = false := rfl
  induction v with
  | nil =>
      have hne : c ≠ '\\' := by
        rintro rfl
        simp [hb] at hc
      rcases hc with rfl | hc
      · rfl
      · simp [escape, stringLength, hne, hc]
  | cons x v ih =>
      have ih := ih fun c hc => hv c (by simp [hc])
      have hx := hv x (by simp)
      by_cases hesc : x = '\\' ∨ x = '"'
      · have hcons : escape (x :: v) = '\\' :: x :: escape v := by
          rcases hesc with rfl | rfl <;> rfl
        have hlen : ∀ r, escapeLength? ('\\' :: x :: r) = some 2 := by
          intro r
          rcases hesc with rfl | rfl <;> rfl
        simp [hcons, stringLength, hlen, ih]
      · have hcons : escape (x :: v) = x :: escape v := by simp [escape, not_or.mp hesc]
        simp [hcons, stringLength, not_or.mp hesc, hx, ih]

/-- Without line breaks no line is joined to the next. -/
lemma joinLines_of_breakless {s : Text} (h : ∀ c ∈ s, isBreak c = false) : joinLines s = s := by
  fun_induction joinLines s with
  | case1 r ih => exact absurd (h '\r' (by simp)) (by decide)
  | case2 c r _ hc ih => simp [h c (by simp)] at hc
  | case3 c r _ hc ih => rw [ih fun x hx => h x (List.mem_cons_of_mem _ hx)]
  | case4 c r _ _ ih => rw [ih fun x hx => h x (List.mem_cons_of_mem _ hx)]
  | case5 => rfl

/-- A text between quotation marks, with the value that its escapes give. -/
lemma scans_string {v : Text} (hv : ∀ c ∈ v, isBreak c = false) (rest : Text) :
    Scans ('"' :: escape v ++ ['"']) .string (unescape (escape v)) rest := by
  have hesc : ∀ c ∈ escape v, isBreak c = false := by
    intro c hc
    rw [escape, List.mem_flatMap] at hc
    obtain ⟨x, hx, hc⟩ := hc
    split at hc
    · rcases (by simpa using hc : c = '\\' ∨ c = x) with rfl | rfl
      · rfl
      · exact hv c hx
    · obtain rfl : c = x := by simpa using hc
      exact hv c hx
  have hident : identLength ('"' :: (escape v ++ '"' :: rest)) = 0 := rfl
  have hspace : isCssSpace '"' = false := rfl
  have hquote : isQuote '"' = true := rfl
  refine ⟨'"', escape v ++ '"' :: rest, by simp, by simp, fun p => ?_⟩
  simp [nextToken, hspace, hident, hquote, stringLength_escape hv (.inl rfl) rest,
    joinLines_of_breakless hesc]

/-- A line break between quotation marks stops the reading. -/
lemma nextToken_break {v : Text} (hv : ∀ c ∈ v, isBreak c = false) {b : Char}
    (hb : isBreak b = true) (w rest : Text) (p : ℕ) :
    nextToken p '"' (escape (v ++ b :: w) ++ rest) =
      .error (.malformed ("Invalid string at ".toList ++ decimal p)) := by
  have hesc : escape (v ++ b :: w) = escape v ++ b :: escape w := by
    have hback : b ≠ '\\' := by
      rintro rfl
      simp [isBreak] at hb
    have hmark : b ≠ '"' := by
      rintro rfl
      simp [isBreak] at hb
    simp [escape, hback, hmark]
  have hmark : (b != '"') = true := by
    rw [bne_iff_ne]
    rintro rfl
    simp [isBreak] at hb
  have hlen := stringLength_escape hv (.inr hb) (escape w ++ rest)
  have hident : identLength ('"' :: (escape v ++ b :: (escape w ++ rest))) = 0 := rfl
  have hspace : isCssSpace '"' = false := rfl
  have hquote : isQuote '"' = true := rfl
  rw [hesc, List.append_assoc, List.cons_append]
  simp [nextToken, hspace, hident, hquote, hlen, hmark]

/-! ### Tokens one behind the other -/

/-- Tokens behind others. -/
def Tokens.behind (rest : Tokens) (ts : List Token) : Tokens :=
  { rest with tokens := ts ++ rest.tokens }

@[simp]
lemma Tokens.behind_nil (rest : Tokens) : rest.behind [] = rest := rfl

lemma Tokens.behind_append (rest : Tokens) (ts us : List Token) :
    rest.behind (ts ++ us) = (rest.behind us).behind ts := by
  simp [behind]

/-- A text in front of another one is read as tokens of given kinds and
values. -/
def Spells (s : Text) (ls : List (TokenKind × Text)) (rest : Text) : Prop :=
  ∀ p, ∃ ts : List Token, ts.map Token.lexeme = ls ∧
    tokenizeFrom p 0 (s ++ rest) = (tokenizeFrom (p + s.length) 0 rest).behind ts

namespace Spells

variable {s t rest value : Text} {ls ms : List (TokenKind × Text)} {kind : TokenKind}

lemma nil (rest : Text) : Spells [] [] rest := fun _ => ⟨[], rfl, rfl⟩

lemma of_scans (h : Scans s kind value rest) : Spells s [(kind, value)] rest :=
  fun p => ⟨[⟨kind, value, p⟩], rfl, h.tokenizeFrom_eq p⟩

/-- Texts one behind the other are read one after the other. -/
lemma append (hs : Spells s ls (t ++ rest)) (ht : Spells t ms rest) :
    Spells (s ++ t) (ls ++ ms) rest := by
  intro p
  obtain ⟨ts, rfl, h⟩ := hs p
  obtain ⟨us, rfl, h'⟩ := ht (p + s.length)
  refine ⟨ts ++ us, List.map_append, ?_⟩
  rw [List.append_assoc, h, h', Tokens.behind_append, List.length_append, Nat.add_assoc]

end Spells

end Locator.Css

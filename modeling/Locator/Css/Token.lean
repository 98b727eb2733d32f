/-
The tokens of selectors

* `Token`: a name, a hash, a string, a number, a blank, a sign or the end,
  with its position;
* `unescape`: a name or a string without its escapes. The escapes with
  hexadecimal digits are resolved in the whole text first, and only then the
  others, so that an escaped backslash can still start a hexadecimal one;
* `Tokens`, `tokenize`: the tokens of a text, comments left out, up to the
  end or to where no token can be read.
-/
import Locator.Text.Quoted
import Locator.Css.Literal

namespace Locator.Css

/-- The kinds of tokens. -/
inductive TokenKind
  | space
  | ident
  | hash
  | string
  | number
  | delim
  | done
  deriving Repr, DecidableEq

/-- A token with its value and its position. -/
structure Token where
  kind : TokenKind
  value : Text
  position : Nat
  deriving Repr, DecidableEq

namespace Token

/-- Is the token the given sign? -/
def isDelim (t : Token) (c : Char) : Bool := t.kind == .delim && t.value == [c]

/-- Is the token one of the given signs? -/
def isAnyDelim (t : Token) (cs : Text) : Bool := cs.any t.isDelim

/-- The name of a kind in messages. -/
def kindName : TokenKind → Text
  | .space => ['S']
  | .ident => "IDENT".toList
  | .hash => "HASH".toList
  | .string => "STRING".toList
  | .number => "NUMBER".toList
  | .delim => "DELIM".toList
  | .done => "EOF".toList

/-- The token in messages. -/
def shown (t : Token) : Text :=
  '<' :: kindName t.kind ++
    (if t.kind == .done then [] else " '".toList ++ t.value ++ ['\'']) ++
    " at ".toList ++ Text.decimal t.position ++ ['>']

/-- Tokens in messages. -/
def shownAll (ts : List Token) : Text :=
  '[' :: Text.join ", ".toList (ts.map shown) ++ [']']

end Token

/-- A line break that a backslash may stand before. -/
def isBreak (c : Char) : Bool := c == '\n' || c == '\r' || c == '\x0c'

/-- Is it a hexadecimal digit? -/
def isHexDigit (c : Char) : Bool :=
  c.isDigit || ('a' ≤ c && c ≤ 'f') || ('A' ≤ c && c ≤ 'F')

/-- The one blank that may follow a hexadecimal escape. -/
def afterHex : Text → Nat
  | '\r' :: '\n' :: _ => 2
  | c :: _ => if Text.isCssSpace c then 1 else 0
  | [] => 0

/-- The digits of a hexadecimal escape behind its backslash, and the number
of characters of the escape behind the backslash. -/
def hexEscape? (s : Text) : Option (Text × Nat) :=
  let digits := (s.take 6).takeWhile isHexDigit
  if digits.isEmpty then none
  else some (digits, digits.length + afterHex (s.drop digits.length))

/-- The number of characters of an escape at the start of a text. -/
def escapeLength? : Text → Option Nat
  | '\\' :: r =>
    match hexEscape? r with
    | some (_, n) => some (n + 1)
    | none =>
      match r with
      | c :: _ => if isBreak c then none else some 2
      | [] => none
  | _ => none

/-- The character of a code point; zero, a surrogate and one that is out of
range are replaced. -/
def charOf (n : Nat) : Char :=
  if n ≠ 0 ∧ n.isValidChar then Char.ofNat n else '\uFFFD'

/-- Resolves the hexadecimal escapes; `skip` characters of one are still to
be passed over. -/
def resolveHexFrom : Nat → Text → Text
  | _, [] => []
  | skip + 1, _ :: r => resolveHexFrom skip r
  | 0, c :: r =>
    if c == '\\' then
      match hexEscape? r with
      | some (digits, n) => charOf (Text.ofHex digits) :: resolveHexFrom n r
      | none => c :: resolveHexFrom 0 r
    else c :: resolveHexFrom 0 r

/-- Resolves the other escapes: a character behind a backslash stands for
itself, a line feed apart. -/
def resolveSimple : Text → Text
  | [] => []
  | [c] => [c]
  | c :: d :: r =>
    if c == '\\' && d != '\n' then d :: resolveSimple r
    else c :: resolveSimple (d :: r)

/-- A name or a string without its escapes. -/
def unescape (s : Text) : Text := resolveSimple (resolveHexFrom 0 s)

/-- Takes out the line breaks behind backslashes. -/
def joinLines : Text → Text
  | '\\' :: '\r' :: '\n' :: r => joinLines r
  | '\\' :: c :: r =>
    if isBreak c then joinLines r else '\\' :: joinLines (c :: r)
  | c :: r => c :: joinLines r
  | [] => []

/-- A character of a name that is no escape. -/
def isNameChar (c : Char) : Bool := isPlainIdentChar c || 127 < c.toNat

/-- The number of name characters at the start of a text, escapes included;
`skip` characters of an escape are counted without a look at them. -/
def nameLength : Nat → Text → Nat
  | _, [] => 0
  | skip + 1, _ :: r => nameLength skip r + 1
  | 0, c :: r =>
    if isNameChar c then nameLength 0 r + 1
    else match escapeLength? (c :: r) with
      | some n => nameLength (n - 1) r + 1
      | none => 0

/-- Does a name start with this text, a hyphen in front apart? -/
def startsName : Text → Bool
  | [] => false
  | c :: r =>
    (isNameChar c && !c.isDigit && c != '-') || (escapeLength? (c :: r)).isSome

/-- The number of characters of the name at the start of a text. -/
def identLength (s : Text) : Nat :=
  match s with
  | '-' :: r => if startsName r then nameLength 0 r + 1 else 0
  | _ => if startsName s then nameLength 0 s else 0

/-- The number of characters of a string behind its quotation mark `q`. -/
def stringLength (q : Char) : Nat → Text → Nat
  | _, [] => 0
  | skip + 1, _ :: r => stringLength q skip r + 1
  | 0, c :: r =>
    if c == '\\' then
      match escapeLength? (c :: r) with
      | some n => stringLength q (n - 1) r + 1
      | none =>
        match r with
        | '\r' :: '\n' :: _ => stringLength q 2 r + 1
        | _ :: _ => stringLength q 1 r + 1
        | [] => 0
    else if c == q || isBreak c then 0
    else stringLength q 0 r + 1

/-- The number of characters of an unsigned number. -/
def unsignedLength (s : Text) : Nat :=
  let whole := (s.takeWhile Char.isDigit).length
  match s.drop whole with
  | '.' :: r =>
    let places := (r.takeWhile Char.isDigit).length
    if places == 0 then whole else whole + 1 + places
  | _ => whole

/-- The number of characters of the number at the start of a text. -/
def numberLength (s : Text) : Nat :=
  match s with
  | c :: r =>
    if c == '+' || c == '-' then
      (if unsignedLength r == 0 then 0 else unsignedLength r + 1)
    else unsignedLength s
  | [] => 0

/-- The number of characters of a comment behind its opening. -/
def commentLength : Text → Nat
  | '*' :: '/' :: _ => 2
  | _ :: r => commentLength r + 1
  | [] => 0

/-- Why a text is no selector, or a selector that cannot be evaluated. -/
inductive SelectorError
  /-- The text is no selector. -/
  | malformed (message : Text)
  /-- The selector asks for something unknown. -/
  | unknown (message : Text)
  deriving Repr, DecidableEq

/-- The message of an error. -/
def SelectorError.message : SelectorError → Text
  | .malformed m => m
  | .unknown m => m

/-- What stands at the start of a text: a token, or nothing for a comment,
and the number of its characters. -/
def nextToken (position : Nat) (c : Char) (r : Text) :
    Except SelectorError (Option Token × Nat) :=
  let s := c :: r
  let token : TokenKind → Text → Nat → Except SelectorError (Option Token × Nat) :=
    fun kind value n => .ok (some ⟨kind, value, position⟩, n)
  if Text.isCssSpace c then
    token .space [' '] ((s.takeWhile Text.isCssSpace).length)
  else if identLength s != 0 then
    token .ident (unescape (s.take (identLength s))) (identLength s)
  else if c == '#' && nameLength 0 r != 0 then
    token .hash (unescape (r.take (nameLength 0 r))) (nameLength 0 r + 1)
  else if Text.isQuote c then
    let n := stringLength c 0 r
    match r.drop n with
    | [] => .error (.malformed ("Unclosed string at ".toList ++ Text.decimal position))
    | q :: _ =>
      if q != c then
        .error (.malformed ("Invalid string at ".toList ++ Text.decimal position))
      else token .string (unescape (joinLines (r.take n))) (n + 2)
  else if numberLength s != 0 then
    token .number (s.take (numberLength s)) (numberLength s)
  else if c == '/' && r.head? == some '*' then
    .ok (none, commentLength (r.drop 1) + 2)
  else token .delim [c] 1

/-- Tokens, and what reading any further fails with. -/
structure Tokens where
  tokens : List Token
  stop : SelectorError
  deriving Repr

/-- Tokens behind another one, if there is one. -/
def Tokens.after (rest : Tokens) (first : Option Token) : Tokens :=
  { rest with tokens := first.toList ++ rest.tokens }

/-- Reading fails like this where a token is wanted and none is left. -/
def nothingLeft : SelectorError := .malformed "Expected selector, got nothing".toList

/-- The tokens from a position on; `skip` characters of one are still to be
passed over. -/
def tokenizeFrom : Nat → Nat → Text → Tokens
  | position, _, [] => ⟨[⟨.done, [], position⟩], nothingLeft⟩
  | position, skip + 1, _ :: r => tokenizeFrom (position + 1) skip r
  | position, 0, c :: r =>
    match nextToken position c r with
    | .ok (token, n) => (tokenizeFrom (position + 1) (n - 1) r).after token
    | .error e => ⟨[], e⟩

/-- The tokens of a text, the end as the last one. A text that holds no token
at some place can still fail for another reason in front of it. -/
def tokenize (s : Text) : Tokens := tokenizeFrom 0 0 s

end Locator.Css

/-
Character references of HTML

* `named?`: the longest name of a reference at the start of a text;
* `numeric?`: a code point in decimal or hexadecimal digits;
* `decode`: a text with its references replaced by what they stand for.
-/
import Locator.Html.ReferenceTable
import Locator.Text.Basic

namespace Locator.Html

/-- The character of a code point, or the replacement character if there is
none. -/
def charOf (n : Nat) : Char :=
  if n == 0 || !n.isValidChar then '\ufffd' else Char.ofNat n

/-- What the code points 128 to 159 stand for: they count as characters of
Windows code page 1252. -/
def windowsChars : List Nat :=
  [0x20AC, 0x81, 0x201A, 0x192, 0x201E, 0x2026, 0x2020, 0x2021,
   0x2C6, 0x2030, 0x160, 0x2039, 0x152, 0x8D, 0x17D, 0x8F,
   0x90, 0x2018, 0x2019, 0x201C, 0x201D, 0x2022, 0x2013, 0x2014,
   0x2DC, 0x2122, 0x161, 0x203A, 0x153, 0x9D, 0x17E, 0x178]

/-- The character of the number in a reference. -/
def numbered (n : Nat) : Char :=
  if 128 ≤ n then charOf ((windowsChars[n - 128]?).getD n) else charOf n

/-- Names and code points by turns as pairs. -/
def pairUp : List Text → List (Text × Text)
  | name :: codes :: rest =>
    (name, (Text.splitOn ['+'] codes).map fun c => charOf (Text.ofHex c)) :: pairUp rest
  | _ => []

/-- The names of references with what they stand for. -/
def referenceTable : List (Text × Text) :=
  namedReferences.flatMap fun line => pairUp (Text.splitOn [' '] line.toList)

/-- The names that may stand without a semicolon. -/
def bareNames : List Text :=
  bareReferences.flatMap fun line => Text.splitOn [' '] line.toList

/-- A name at the start of a text: the name as it is written, and what it
stands for. -/
structure Match where
  written : Text
  value : Text

/-- The longer of two names. -/
def Match.longer (a b : Option Match) : Option Match :=
  match a, b with
  | some a, some b => if a.written.length < b.written.length then some b else some a
  | none, b => b
  | a, none => a

/-- A name of the table at the start of a text, with its semicolon if it is
there. -/
def matchOf (s : Text) (entry : Text × Text) : Option Match :=
  let (name, value) := entry
  match Text.behind? name s with
  | none => none
  | some (';' :: _) => some ⟨name ++ [';'], value⟩
  | some _ => if bareNames.contains name then some ⟨name, value⟩ else none

/-- The longest name at the start of a text. -/
def named? (s : Text) : Option Match :=
  referenceTable.foldl (fun found entry => Match.longer found (matchOf s entry)) none

/-- In the value of an attribute a name without its semicolon is no reference
if an equals sign, a letter or a digit follows. -/
def isPlainIn (inAttribute : Bool) (m : Match) (rest : Text) : Bool :=
  inAttribute && m.written.getLast? != some ';' &&
    match rest with
    | c :: _ => c == '=' || c.isAlphanum
    | [] => false

/-- A hexadecimal digit. -/
def isHexDigit (c : Char) : Bool :=
  c.isDigit || ('a' ≤ c && c ≤ 'f') || ('A' ≤ c && c ≤ 'F')

/-- The number of a reference behind the number sign, and how many characters
it takes, the semicolon included. -/
def numeric? (s : Text) : Option (Nat × Nat) :=
  let (digits, value, sign) :=
    match s with
    | 'x' :: r => let ds := r.takeWhile isHexDigit; (ds, Text.ofHex ds, 1)
    | 'X' :: r => let ds := r.takeWhile isHexDigit; (ds, Text.ofHex ds, 1)
    | _ => let ds := s.takeWhile Char.isDigit; (ds, Text.ofDecimal ds, 0)
  if digits.isEmpty then none
  else
    let size := sign + digits.length
    some (value, if (s.drop size).head? == some ';' then size + 1 else size)

/-- What a reference behind an ampersand stands for, and how many characters
it takes. -/
def reference? (inAttribute : Bool) (s : Text) : Option (Text × Nat) :=
  match s with
  | '#' :: r => (numeric? r).map fun (n, size) => ([numbered n], size + 1)
  | c :: _ =>
    if !c.isAlpha then none
    else
      match named? s with
      | none => none
      | some m =>
        let size := m.written.length
        if isPlainIn inAttribute m (s.drop size) then none else some (m.value, size)
  | [] => none

/-- Replaces the references of a text; `skip` characters of a reference are
still to be passed over. -/
def decodeFrom (inAttribute : Bool) : Nat → Text → Text
  | _, [] => []
  | skip + 1, _ :: r => decodeFrom inAttribute skip r
  | 0, c :: r =>
    if c == '&' then
      match reference? inAttribute r with
      | some (value, size) => value ++ decodeFrom inAttribute size r
      | none => c :: decodeFrom inAttribute 0 r
    else c :: decodeFrom inAttribute 0 r

/-- The text with its references replaced. -/
def decode (inAttribute : Bool) (s : Text) : Text := decodeFrom inAttribute 0 s

end Locator.Html

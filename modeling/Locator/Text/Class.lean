/-
Classes of characters

* `isWord`, `isDigit`: letters, digits and the underscore of every script;
* `readInteger?`: the number written by digits of every script;
* `isXmlChar`, `isXmlText`: the characters that XML text may hold;
* `isNameStart`, `isNameChar`, `plainName?`: XML names without a colon, of the
  characters that the fifth edition of XML 1.0 names;
* `isIdentStart`, `isIdentChar`: the ASCII identifiers that selectors share
  with paths.
-/
import Locator.Text.Basic
import Locator.Text.WordTable
import Locator.Text.PrintTable

namespace Locator.Text

/-- Does a code point lie in one of the closed ranges? -/
def inRanges (ranges : List (Nat × Nat)) (n : Nat) : Bool :=
  ranges.any (fun r => r.1 ≤ n && n ≤ r.2)

/-- A letter or numeral of any script, or the underscore. -/
def isWord (c : Char) : Bool :=
  if c.toNat < 128 then c.isAlphanum || c == '_' else inRanges wordRanges c.toNat

/-- A decimal digit of any script. -/
def isDigit (c : Char) : Bool :=
  if c.toNat < 128 then c.isDigit else inRanges digitRanges c.toNat

/-- The value of a decimal digit of any script. -/
def digitValue? (c : Char) : Option Nat :=
  if c.toNat < 128 then (if c.isDigit then some (c.toNat - '0'.toNat) else none)
  else (digitRanges.find? fun r => r.1 ≤ c.toNat && c.toNat ≤ r.2).map fun r =>
    (c.toNat - r.1) % 10

/-- A number with more digits is not read. -/
def maxDigits : Nat := 4300

/-- The number written by decimal digits of any scripts, no more than
`maxDigits` of them and single underscores allowed between them, perhaps behind
a sign and between blanks. -/
def readInteger? (s : Text) : Option Int := do
  let (negative, r) := match strip s with
    | '-' :: r => (true, r)
    | '+' :: r => (false, r)
    | r => (false, r)
  let groups := pieces (· == '_') r
  if groups.any List.isEmpty || maxDigits < groups.flatten.length then none
  let digits ← groups.flatten.mapM digitValue?
  let n : Nat := digits.foldl (fun n d => n * 10 + d) 0
  return if negative then -(n : Int) else n

/-- Has the character a printed form of its own? -/
def isPrintable (c : Char) : Bool :=
  if c.toNat < 128 then 32 ≤ c.toNat && c.toNat ≠ 127
  else !inRanges unprintableRanges c.toNat

/-- The characters that XML text may hold. -/
def isXmlChar (c : Char) : Bool :=
  let n := c.toNat
  n == 9 || n == 10 || n == 13 || (32 ≤ n && n ≠ 0xFFFE && n ≠ 0xFFFF)

/-- A text of XML characters only. -/
def isXmlText (s : Text) : Bool := s.all isXmlChar

/-- A character that starts an XML name, the colon left out. -/
def isNameStart (c : Char) : Bool :=
  let n := c.toNat
  c.isAlpha || c == '_' || (0xC0 ≤ n && n ≤ 0x2FF && n ≠ 0xD7 && n ≠ 0xF7) ||
    (0x370 ≤ n && n ≤ 0x1FFF && n ≠ 0x37E) || n == 0x200C || n == 0x200D ||
    (0x2070 ≤ n && n ≤ 0x218F) || (0x2C00 ≤ n && n ≤ 0x2FEF) ||
    (0x3001 ≤ n && n ≤ 0xD7FF) || (0xF900 ≤ n && n ≤ 0xFDCF) ||
    (0xFDF0 ≤ n && n ≤ 0xFFFD) || (0x10000 ≤ n && n ≤ 0xEFFFF)

/-- A character of an XML name, the colon left out. -/
def isNameChar (c : Char) : Bool :=
  let n := c.toNat
  isNameStart c || c.isDigit || c == '-' || c == '.' || n == 0xB7 ||
    (0x300 ≤ n && n ≤ 0x36F) || n == 0x203F || n == 0x2040

/-- The longest XML name without a colon at the start of a text, and the
rest; `none` if the text does not start with a name. -/
def plainName? : Text → Option (Text × Text)
  | [] => none
  | c :: r =>
    if isNameStart c then some (c :: r.takeWhile isNameChar, r.dropWhile isNameChar)
    else none

/-- An ASCII letter or the underscore. -/
def isIdentStart (c : Char) : Bool := c.isAlpha || c == '_'

/-- A word character of any script or the hyphen. -/
def isIdentChar (c : Char) : Bool := isWord c || c == '-'

/-- The longest identifier at the start of a text, and the rest. -/
def ident? : Text → Option (Text × Text)
  | [] => none
  | c :: r =>
    if isIdentStart c then some (c :: r.takeWhile isIdentChar, r.dropWhile isIdentChar)
    else none

/-- The four blanks of XML. -/
def isSpace (c : Char) : Bool := c == ' ' || c == '\t' || c == '\n' || c == '\r'

/-- The five blanks of a selector. -/
def isCssSpace (c : Char) : Bool := isSpace c || c == '\x0c'

/-- Either of the two quotation marks. -/
def isQuote (c : Char) : Bool := c == '"' || c == '\''

end Locator.Text

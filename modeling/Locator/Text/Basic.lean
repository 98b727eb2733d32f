/-
Texts as lists of characters

* `Text`: a text is the list of its characters, so that a function on texts
  is a recursion on a list and a length is a number of code points;
* `strip`, `pieces`, `words`: blank space at the ends, and between words;
* `occursIn`, `splitOn`, `replaceAll`: one text inside another;
* `decimal`, `hex`: a number in digits.

A character is a Unicode scalar value: no text holds half of a surrogate pair.
-/
namespace Locator

/-- A text is the list of its characters. -/
abbrev Text := List Char

namespace Text

/-- Blank characters in the sense of Unicode, the four information
separators and the two Latin-1 blanks included. -/
def isBlank (c : Char) : Bool :=
  let n := c.toNat
  (9 ≤ n && n ≤ 13) || (28 ≤ n && n ≤ 32) || n == 0x85 || n == 0xA0 ||
    n == 0x1680 || (0x2000 ≤ n && n ≤ 0x200A) || n == 0x2028 || n == 0x2029 ||
    n == 0x202F || n == 0x205F || n == 0x3000

/-- The text without its longest ending of characters in `p`. -/
def dropEnd (p : Char → Bool) (s : Text) : Text :=
  (s.reverse.dropWhile p).reverse

/-- The text without the characters in `p` at both ends. -/
def stripBy (p : Char → Bool) (s : Text) : Text :=
  dropEnd p (s.dropWhile p)

/-- The text without the blanks at both ends. -/
def strip (s : Text) : Text := stripBy isBlank s

/-- The pieces between the characters in `p`; one more than there are such
characters. -/
def pieces (p : Char → Bool) : Text → List Text
  | [] => [[]]
  | c :: r =>
    if p c then [] :: pieces p r
    else match pieces p r with
      | [] => [[c]]
      | h :: t => (c :: h) :: t

/-- The maximal runs of characters that are not blank. -/
def words (s : Text) : List Text :=
  (pieces isBlank s).filter (fun w => !w.isEmpty)

/-- Does the first text occur in the second, at any place? -/
def occursIn (needle : Text) : Text → Bool
  | [] => needle.isEmpty
  | c :: r => needle.isPrefixOf (c :: r) || occursIn needle r

/-- The rest of `s` behind `start`, if `s` starts with it. -/
def behind? (start s : Text) : Option Text :=
  if start.isPrefixOf s then some (s.drop start.length) else none

/-- Is the ending of `s` the text `last`? -/
def endsWith (last s : Text) : Bool := last.reverse.isPrefixOf s.reverse

/-- Cuts at each occurrence of `sep`, from the left; `skip` characters of an
occurrence are still to be passed over. -/
def splitOnFrom (sep : Text) : Nat → Text → List Text
  | _, [] => [[]]
  | skip + 1, _ :: r => splitOnFrom sep skip r
  | 0, c :: r =>
    if sep.isPrefixOf (c :: r) then [] :: splitOnFrom sep (sep.length - 1) r
    else match splitOnFrom sep 0 r with
      | [] => [[c]]
      | h :: t => (c :: h) :: t

/-- The parts of `s` between the occurrences of `sep`. -/
def splitOn (sep s : Text) : List Text := splitOnFrom sep 0 s

/-- The parts with `sep` between each two of them. -/
def join (sep : Text) (parts : List Text) : Text := sep.intercalate parts

/-- Every occurrence of `old` becomes `new`. -/
def replaceAll (old new s : Text) : Text := join new (splitOn old s)

/-- ASCII letters in lower case. -/
def lower (s : Text) : Text := s.map Char.toLower

/-- Every line ends in a line feed. -/
def unifyLines : Text → Text
  | [] => []
  | '\r' :: '\n' :: r => '\n' :: unifyLines r
  | c :: r => (if c == '\r' then '\n' else c) :: unifyLines r

/-- A number in decimal digits. -/
def decimal (n : Nat) : Text := (Nat.toDigits 10 n)

/-- An integer in decimal digits, behind a minus sign if it is negative. -/
def signed : Int → Text
  | .ofNat n => decimal n
  | .negSucc n => '-' :: decimal (n + 1)

/-- A number in lower-case hexadecimal digits, at least `width` of them. -/
def hex (width n : Nat) : Text :=
  let digits := Nat.toDigits 16 n
  List.replicate (width - digits.length) '0' ++ digits

/-- The number written by decimal digits; other characters do not count. -/
def ofDecimal (s : Text) : Nat :=
  s.foldl (fun n c => n * 10 + (c.toNat - '0'.toNat)) 0

/-- The value of a hexadecimal digit. -/
def hexValue (c : Char) : Nat :=
  if c.isDigit then c.toNat - '0'.toNat
  else if 'a' ≤ c ∧ c ≤ 'f' then c.toNat - 'a'.toNat + 10
  else c.toNat - 'A'.toNat + 10

/-- The number written by hexadecimal digits. -/
def ofHex (s : Text) : Nat := s.foldl (fun n c => n * 16 + hexValue c) 0

/-- The text behind the first occurrence of `c`, and the text before it. -/
def cutAt? (c : Char) (s : Text) : Option (Text × Text) :=
  match s.dropWhile (· ≠ c) with
  | [] => none
  | _ :: r => some (s.takeWhile (· ≠ c), r)

end Text

end Locator

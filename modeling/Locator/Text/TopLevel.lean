/-
Splitting outside quotes and brackets

* `Text.Nesting`: how deep a place of a text lies in brackets, and in which
  quotation marks;
* `Text.splitTop`: the parts of a text between the separators that stand
  outside quotation marks, square brackets and parentheses.
-/
import Locator.Text.Class

namespace Locator.Text

/-- How a place of a text is enclosed. -/
structure Nesting where
  /-- The number of brackets that are open. -/
  depth : Nat := 0
  /-- The quotation mark that is open. -/
  quote : Option Char := none
  deriving Repr, DecidableEq

namespace Nesting

/-- Outside of all brackets and quotation marks. -/
def outside : Nesting := {}

/-- The nesting behind a character: between quotation marks only the same
mark counts, and a closing bracket without an opening one does nothing. -/
def next (opening closing : Text) (n : Nesting) (c : Char) : Nesting :=
  match n.quote with
  | some q => if c == q then { n with quote := none } else n
  | none =>
    if isQuote c then { n with quote := some c }
    else if opening.contains c then { n with depth := n.depth + 1 }
    else if closing.contains c then { n with depth := n.depth - 1 }
    else n

/-- Does a character stand outside, and is it neither a quotation mark nor a
bracket? -/
def isFree (opening closing : Text) (n : Nesting) (c : Char) : Bool :=
  n.quote.isNone && n.depth == 0 && !isQuote c && !opening.contains c &&
    !closing.contains c

end Nesting

/-- Square brackets and parentheses that open. -/
def opening : Text := ['[', '(']

/-- Square brackets and parentheses that close. -/
def closing : Text := [']', ')']

/-- Puts a character in front of the first part. -/
def consFirst (c : Char) : List Text → List Text
  | [] => [[c]]
  | h :: t => (c :: h) :: t

/-- The parts of the rest of a text; `skip` characters of a separator are
still to be passed over. -/
def splitTopFrom (sep : Text) : Nat → Nesting → Text → List Text
  | _, _, [] => [[]]
  | skip + 1, n, _ :: r => splitTopFrom sep skip n r
  | 0, n, c :: r =>
    if n.isFree opening closing c && sep.isPrefixOf (c :: r) then
      [] :: splitTopFrom sep (sep.length - 1) n r
    else consFirst c (splitTopFrom sep 0 (n.next opening closing c) r)

/-- The parts of a text between the separators outside quotation marks,
square brackets and parentheses. -/
def splitTop (sep s : Text) : List Text := splitTopFrom sep 0 .outside s

end Locator.Text

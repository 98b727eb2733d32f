/-
Strings and names of selectors

* `Css.escape`: a text as it stands between double quotation marks;
* `Css.isPlainIdent`: the ASCII identifiers that a selector may hold bare.
-/
import Locator.Text.Class

namespace Locator.Css

/-- A text as it stands between double quotation marks. -/
def escape (s : Text) : Text :=
  s.flatMap (fun c => if c == '\\' || c == '"' then ['\\', c] else [c])

/-- An ASCII letter, digit, underscore or hyphen. -/
def isPlainIdentChar (c : Char) : Bool := c.isAlphanum || c == '_' || c == '-'

/-- An ASCII identifier: a letter or underscore, perhaps behind one hyphen,
and then letters, digits, underscores and hyphens. -/
def isPlainIdent (s : Text) : Bool :=
  match (match s with | '-' :: r => r | r => r) with
  | [] => false
  | c :: r => Text.isIdentStart c && r.all isPlainIdentChar

/-- The test for an attribute with a value, as a selector. -/
def attributeTest (name value : Text) : Text :=
  '[' :: name ++ "=\"".toList ++ escape value ++ "\"]".toList

end Locator.Css

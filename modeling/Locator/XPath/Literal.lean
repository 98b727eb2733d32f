/-
String literals of XPath

* `XPath.literal`: an expression whose value is a given text. XPath has no
  escapes: a text with one kind of quotation mark is written between the
  other kind, and a text with both is put together by `concat`;
* `XPath.attributePath`: the path to all elements with a given attribute.
-/
import Locator.Text.Basic

namespace Locator.XPath

/-- A text between double quotation marks. -/
def inDouble (s : Text) : Text := '"' :: s ++ ['"']

/-- A text between single quotation marks. -/
def inSingle (s : Text) : Text := '\'' :: s ++ ['\'']

/-- The arguments of `concat` for the parts between double quotation marks:
the parts themselves, and the mark between each two of them. -/
def concatArguments (parts : List Text) : List Text :=
  (parts.map inDouble).intersperse (inSingle ['"'])

/-- An expression whose string value is `s`. -/
def literal (s : Text) : Text :=
  if !s.contains '"' then inDouble s
  else if !s.contains '\'' then inSingle s
  else "concat(".toList ++
    Text.join ", ".toList (concatArguments (Text.pieces (· == '"') s)) ++ [')']

/-- The path to every element whose attribute `name` is `value`. -/
def attributePath (name value : Text) : Text :=
  "//*[@".toList ++ name ++ ['='] ++ literal value ++ [']']

end Locator.XPath

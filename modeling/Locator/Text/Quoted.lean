/-
Texts quoted inside messages

* `Text.quoted`: the text between quotation marks with every character that
  has no printed form replaced by a code for it. Single quotation marks are
  used unless the text holds one and no double one.
-/
import Locator.Text.Class

namespace Locator.Text

/-- The form of one character between the quotation marks `q`. -/
def quotedChar (q c : Char) : Text :=
  if c == q || c == '\\' then ['\\', c]
  else if c == '\t' then ['\\', 't']
  else if c == '\n' then ['\\', 'n']
  else if c == '\r' then ['\\', 'r']
  else if isPrintable c then [c]
  else if c.toNat < 0x100 then '\\' :: 'x' :: hex 2 c.toNat
  else if c.toNat < 0x10000 then '\\' :: 'u' :: hex 4 c.toNat
  else '\\' :: 'U' :: hex 8 c.toNat

/-- The text between quotation marks, as messages show it. -/
def quoted (s : Text) : Text :=
  let q := if s.contains '\'' && !s.contains '"' then '"' else '\''
  q :: s.flatMap (quotedChar q) ++ [q]

end Locator.Text

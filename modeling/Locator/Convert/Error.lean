/-
Why a selector has no path

* `Unsupported`: what stands in the way in one group of a selector;
* `ConvertError`: why a whole selector has no path, with its message.
-/
import Locator.Text.Quoted

namespace Locator

/-- What stands in the way of a path for one group of a selector. -/
inductive Unsupported
  | emptyGroup (group : Text)
  | missingName (mark : Char) (compound : Text)
  | unclosedAttribute (compound : Text)
  | malformedAttribute (body : Text)
  | pseudoClass (compound : Text)
  | unexpected (c : Char) (compound : Text)
  deriving Repr, DecidableEq

/-- The message for a group that has no path. -/
def Unsupported.message : Unsupported → Text
  | .emptyGroup g => "Empty selector group: ".toList ++ Text.quoted g
  | .missingName c s =>
    "Missing name after ".toList ++ Text.quoted [c] ++ " in ".toList ++ Text.quoted s
  | .unclosedAttribute s => "Unclosed attribute selector in ".toList ++ Text.quoted s
  | .malformedAttribute b => "Malformed attribute selector [".toList ++ b ++ [']']
  | .pseudoClass s => "Unsupported pseudo-class in ".toList ++ Text.quoted s
  | .unexpected c s =>
    "Unsupported token ".toList ++ Text.quoted [c] ++ " in ".toList ++ Text.quoted s

/-- Why a selector has no path. -/
inductive ConvertError
  /-- Nothing but blanks was given. -/
  | empty
  /-- No group of the selector has a path. -/
  | noGroup (selector : Text)
  deriving Repr, DecidableEq

/-- The message for a selector that has no path. -/
def ConvertError.message : ConvertError → Text
  | .empty => "CSS selector cannot be empty.".toList
  | .noGroup s =>
    "Unable to convert CSS selector \"".toList ++ s ++ "\" to XPath.".toList

end Locator

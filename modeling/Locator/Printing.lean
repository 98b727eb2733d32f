/-
Values in the notation of JSON

* `Value.json`: a value on lines of its own for every item and field, each
  level two blanks further in; characters beyond ASCII stand for themselves.
-/
import Locator.Value

namespace Locator.Value

/-- A character in a text of JSON. -/
def jsonChar (c : Char) : Text :=
  if c == '"' then ['\\', '"']
  else if c == '\\' then ['\\', '\\']
  else if c == '\n' then ['\\', 'n']
  else if c == '\r' then ['\\', 'r']
  else if c == '\t' then ['\\', 't']
  else if c == '\x08' then ['\\', 'b']
  else if c == '\x0c' then ['\\', 'f']
  else if c.toNat < 32 then '\\' :: 'u' :: Text.hex 4 c.toNat
  else [c]

/-- A text of JSON. -/
def jsonText (s : Text) : Text := '"' :: s.flatMap jsonChar ++ ['"']

/-- The start of a line at a depth. -/
def lineStart (depth : Nat) : Text := '\n' :: List.replicate (2 * depth) ' '

/-- Items between two brackets, each on its line. -/
def bracketed (opening closing : Char) (depth : Nat) (items : List Text) : Text :=
  if items.isEmpty then [opening, closing]
  else
    opening :: lineStart (depth + 1) ++
      Text.join (',' :: lineStart (depth + 1)) items ++ lineStart depth ++ [closing]

mutual
/-- A value at a depth. -/
def jsonAt (depth : Nat) : Value → Text
  | .none => "null".toList
  | .bool true => "true".toList
  | .bool false => "false".toList
  | .int n => Text.signed n
  | .decimal m p => decimalForm m p
  | .text s => jsonText s
  | .list items => bracketed '[' ']' depth (jsonItems depth items)
  | .record fields => bracketed '\x7b' '\x7d' depth (jsonFields depth fields)
/-- The items of a list at a depth. -/
def jsonItems (depth : Nat) : List Value → List Text
  | [] => []
  | v :: vs => jsonAt (depth + 1) v :: jsonItems depth vs
/-- The fields of a record at a depth. -/
def jsonFields (depth : Nat) : List (Text × Value) → List Text
  | [] => []
  | (name, v) :: rest =>
    (jsonText name ++ ": ".toList ++ jsonAt (depth + 1) v) :: jsonFields depth rest
end

/-- A value in the notation of JSON. -/
def json (v : Value) : Text := jsonAt 0 v

end Locator.Value

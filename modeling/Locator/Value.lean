/-
Loosely typed values that stand where a text is expected

* `Value`: nothing, a truth value, a number, a text, a list or a record;
* `Value.isTruthy`: an empty value does not count as given;
* `Value.display`: the text of a value, and `Value.form`, its text inside
  another value, where texts are quoted.
-/
import Locator.Text.Quoted

namespace Locator

/-- A value without a fixed type. -/
inductive Value
  | none
  | bool (b : Bool)
  | int (n : Int)
  /-- `mantissa` divided by ten to the power `places`. -/
  | decimal (mantissa : Int) (places : Nat)
  | text (s : Text)
  | list (items : List Value)
  | record (fields : List (Text × Value))
  deriving Inhabited

namespace Value

/-- Does the value count as given? Empty and zero values do not. -/
def isTruthy : Value → Bool
  | .none => false
  | .bool b => b
  | .int n => n != 0
  | .decimal m _ => m != 0
  | .text s => !s.isEmpty
  | .list items => !items.isEmpty
  | .record fields => !fields.isEmpty

/-- The text of the value, if it is one. -/
def text? : Value → Option Text
  | .text s => some s
  | _ => Option.none

/-- A text without the zeros at its end. -/
def dropZeros (s : Text) : Text := Text.dropEnd (· == '0') s

/-- A decimal fraction without an exponent: the digits with a point before
the last `places` of them, at least one digit on either side. -/
def positional (digits : Text) (places : Nat) : Text :=
  let padded := List.replicate (places + 1 - digits.length) '0' ++ digits
  let whole := padded.take (padded.length - places)
  let fraction := dropZeros (padded.drop (padded.length - places))
  whole ++ '.' :: (if fraction.isEmpty then ['0'] else fraction)

/-- A decimal fraction with one digit before the point and an exponent of at
least two digits. -/
def scientific (digits : Text) (exponent : Int) : Text :=
  let kept := dropZeros digits
  let power := Text.decimal exponent.natAbs
  kept.take 1 ++ (if kept.length ≤ 1 then [] else '.' :: kept.drop 1) ++
    ['e', if exponent < 0 then '-' else '+'] ++
    List.replicate (2 - power.length) '0' ++ power

/-- The text of a decimal fraction: with an exponent from ten to the
sixteenth on and below one ten-thousandth. -/
def decimalForm (mantissa : Int) (places : Nat) : Text :=
  let digits := Text.decimal mantissa.natAbs
  let exponent : Int := (digits.length : Int) - 1 - places
  let body :=
    if mantissa == 0 then "0.0".toList
    else if exponent < -4 || 16 ≤ exponent then scientific digits exponent
    else positional digits places
  if mantissa < 0 then '-' :: body else body

mutual
/-- The text of a value inside another value. -/
def form : Value → Text
  | .none => "None".toList
  | .bool true => "True".toList
  | .bool false => "False".toList
  | .int n => Text.signed n
  | .decimal m p => decimalForm m p
  | .text s => Text.quoted s
  | .list items => '[' :: Text.join ", ".toList (forms items) ++ [']']
  | .record fields =>
    '\x7b' :: Text.join ", ".toList (fieldForms fields) ++ ['\x7d']
/-- The texts of the items of a list. -/
def forms : List Value → List Text
  | [] => []
  | v :: vs => form v :: forms vs
/-- The texts of the fields of a record. -/
def fieldForms : List (Text × Value) → List Text
  | [] => []
  | (name, v) :: rest =>
    (Text.quoted name ++ ": ".toList ++ form v) :: fieldForms rest
end

/-- The text of a value: a text stands for itself. -/
def display : Value → Text
  | .text s => s
  | v => v.form

/-- The text of a value that is given, and the empty text otherwise. -/
def textOrEmpty (v : Value) : Text := if v.isTruthy then v.display else []

end Value

end Locator

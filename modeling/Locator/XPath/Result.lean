/-
Results of expressions

* `Result`: a set of places in document order, a truth value, a number or a
  text, with the conversions between them;
* `Result.equal`, `Result.ordered`: comparisons; a set of places stands for
  each of its members.
-/
import Locator.XPath.Number
import Locator.Document.Basic

namespace Locator.XPath

/-- Why an expression has no result. -/
inductive EvalError
  | malformed
  | unboundPrefix (pfx : Text)
  | unknownFunction (name : Text)
  | unknownVariable (name : Text)
  /-- A set of places is needed where another value stands. -/
  | notNodes
  | wrongArity
  /-- A position is asked for outside of predicates. -/
  | noPredicate
  deriving Repr, DecidableEq

/-- The result of an expression. -/
inductive Result
  | nodes (set : List Place)
  | bool (b : Bool)
  | number (n : Number)
  | text (s : Text)
  deriving Repr

namespace Result

/-- The result as a truth value. -/
def toBool : Result → Bool
  | .nodes set => !set.isEmpty
  | .bool b => b
  | .number n => !(n == .nan || n.isZero)
  | .text s => !s.isEmpty

/-- The result as a text; a set of places gives the text of its first. -/
def toText (d : Document) : Result → Text
  | .nodes set => (set.head?.map d.textOf).getD []
  | .bool true => "true".toList
  | .bool false => "false".toList
  | .number n => n.toText
  | .text s => s

/-- The result as a number. -/
def toNumber (d : Document) : Result → Number
  | .nodes set => Number.ofText ((set.head?.map d.textOf).getD [])
  | .bool b => .ofNat (if b then 1 else 0)
  | .number n => n
  | .text s => Number.ofText s

/-- The result as a set of places. -/
def toNodes : Result → Except EvalError (List Place)
  | .nodes set => .ok set
  | _ => .error .notNodes

/-- Is the result a truth value? -/
def isBool : Result → Bool
  | .bool _ => true
  | _ => false

/-- Is the result a number? -/
def isNumber : Result → Bool
  | .number _ => true
  | _ => false

/-- Compares two single values: as truth values if one is such, else as
numbers if one is, else as texts. -/
def equalSingle (d : Document) (wanted : Bool) (a b : Result) : Bool :=
  if a.isBool || b.isBool then (a.toBool == b.toBool) == wanted
  else if a.isNumber || b.isNumber then
    (a.toNumber d).eq (b.toNumber d) == wanted
  else (a.toText d == b.toText d) == wanted

/-- Compares a set of places with a single value, member by member; with a
truth value as a whole. -/
def equalNodes (d : Document) (wanted : Bool) (set : List Place) (b : Result) : Bool :=
  match b with
  | .bool b => (!set.isEmpty == b) == wanted
  | .number n => set.any fun p => (Number.ofText (d.textOf p)).eq n == wanted
  | b => set.any fun p => (d.textOf p == b.toText d) == wanted

/-- Are two results equal (`wanted`), or are they different? Of two sets, any
two members count. -/
def equal (d : Document) (wanted : Bool) : Result → Result → Bool
  | .nodes a, .nodes b =>
    a.any fun p => b.any fun q => (d.textOf p == d.textOf q) == wanted
  | .nodes a, b => equalNodes d wanted a b
  | a, .nodes b => equalNodes d wanted b a
  | a, b => equalSingle d wanted a b

/-- Does `r` hold between the numbers of two results? Of a set of places any
member counts; beside a truth value it counts as a whole. -/
def ordered (d : Document) (r : Number → Number → Bool) : Result → Result → Bool
  | .nodes a, .nodes b =>
    a.any fun p => b.any fun q =>
      r (Number.ofText (d.textOf p)) (Number.ofText (d.textOf q))
  | .nodes a, .bool b => r ((Result.bool !a.isEmpty).toNumber d) ((Result.bool b).toNumber d)
  | .bool a, .nodes b => r ((Result.bool a).toNumber d) ((Result.bool !b.isEmpty).toNumber d)
  | .nodes a, b => a.any fun p => r (Number.ofText (d.textOf p)) (b.toNumber d)
  | a, .nodes b => b.any fun p => r (a.toNumber d) (Number.ofText (d.textOf p))
  | a, b => r (a.toNumber d) (b.toNumber d)

end Result

end Locator.XPath

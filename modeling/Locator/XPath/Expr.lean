/-
Path expressions

* `Axis`, `NodeTest`, `Operator`: the parts of a step and the signs between
  operands;
* `Expr`: an expression. A path is a chain of steps, each from the nodes of
  the one before, down to the document or the context node.
-/
import Locator.XPath.Number

namespace Locator.XPath

/-- The direction of a step. -/
inductive Axis
  | ancestor
  | ancestorOrSelf
  | attribute
  | child
  | descendant
  | descendantOrSelf
  | following
  | followingSibling
  | namespaces
  | parent
  | preceding
  | precedingSibling
  | self
  deriving Repr, DecidableEq

namespace Axis

/-- Every axis with its name. -/
def names : List (Text × Axis) :=
  [("ancestor".toList, .ancestor), ("ancestor-or-self".toList, .ancestorOrSelf),
   ("attribute".toList, .attribute), ("child".toList, .child),
   ("descendant".toList, .descendant),
   ("descendant-or-self".toList, .descendantOrSelf),
   ("following".toList, .following),
   ("following-sibling".toList, .followingSibling),
   ("namespace".toList, .namespaces), ("parent".toList, .parent),
   ("preceding".toList, .preceding),
   ("preceding-sibling".toList, .precedingSibling), ("self".toList, .self)]

/-- The axis of a name. -/
def ofName? (s : Text) : Option Axis := names.lookup s

end Axis

/-- What a step looks for on its axis. -/
inductive NodeTest
  /-- Any element or attribute, of one namespace if a prefix is given. -/
  | any (pfx : Option Text)
  /-- The elements or attributes of a name. -/
  | name (pfx : Option Text) (base : Text)
  | node
  | text
  | comment
  /-- The instructions, for one target if it is given. -/
  | instruction (target : Option Text)
  deriving Repr, DecidableEq

/-- The prefix of a test. -/
def NodeTest.pfx? : NodeTest → Option Text
  | .any p => p
  | .name p _ => p
  | _ => none

/-- The signs between two operands. -/
inductive Operator
  | or
  | and
  | eq
  | ne
  | lt
  | le
  | gt
  | ge
  | add
  | sub
  | mul
  | div
  | mod
  | union
  deriving Repr, DecidableEq

/-- A path expression. -/
inductive Expr
  /-- The document. -/
  | root
  /-- The context node. -/
  | here
  | number (n : Number)
  | literal (s : Text)
  | variable (pfx : Option Text) (name : Text)
  | call (pfx : Option Text) (name : Text) (arguments : List Expr)
  | binary (op : Operator) (left right : Expr)
  /-- The number of an operand, with the other sign if `minus` holds. -/
  | numeric (minus : Bool) (e : Expr)
  | step (start : Expr) (axis : Axis) (test : NodeTest) (predicates : List Expr)
  /-- The nodes of a whole set that pass a predicate. -/
  | filter (set : Expr) (predicate : Expr)
  deriving Repr

namespace Expr

/-- The nodes of a set and everything inside them. -/
def inside (e : Expr) : Expr := .step e .descendantOrSelf .node []

end Expr

end Locator.XPath

/-
Which attributes and expressions tell an element apart

* `countAttribute`: the elements with an attribute value, counted along the
  tree, perhaps up to a limit;
* `isAttributeUnique`: has no other element the value? The elements are
  looked up by a selector, and counted along the tree if it is none;
* `countMatches`, `check`: the elements that an expression selects,
  and whether it selects one element alone.
-/
import Locator.Css.Query
import Locator.XPath.Select

namespace Locator

/-- The namespace and the local part of an expanded name. -/
def splitExpanded (s : Text) : Outcome (Option Text × Text) :=
  match s with
  | [] => .error .emptyName
  | '\x7b' :: r =>
    match Text.cutAt? '\x7d' r with
    | none => .error .emptyName
    | some (_, []) => .error .emptyName
    | some (uri, base) => .ok (if uri.isEmpty then none else some uri, base)
  | _ => .ok (none, s)

/-- The value of an attribute, looked up by its expanded name. -/
def Node.lookUp (n : Node) (name : Text) : Outcome (Option Text) := do
  if !n.isElement then return none
  if !Text.isXmlText name then throw .forbiddenText
  let (uri, base) ← splitExpanded name
  return (n.attributes.find? fun a => a.name.uri == uri && a.name.base == base).map
    Attribute.value

/-- Is an attribute of an element equal to a value? Nothing equals a missing
attribute alone. -/
def hasValue (name : Text) (value : Option Text) (n : Node) : Outcome Bool := do
  return (← n.lookUp name) == value

/-- Has a count reached a limit? -/
def hasReached (limit : Option Int) (count : Nat) : Bool :=
  match limit with
  | some k => k ≤ (count : Int)
  | none => false

/-- Counts the elements with a value along a stack of elements whose insides
are still to be visited; `fuel` bounds the elements. -/
def countFrom (name : Text) (value : Option Text) (limit : Option Int) :
    Nat → List Node → Nat → Outcome Nat
  | 0, _, count => .ok count
  | _ + 1, [], count => .ok count
  | fuel + 1, n :: stack, count => do
    if ← hasValue name value n then
      if hasReached limit (count + 1) then return count + 1
      else countFrom name value limit fuel (n.elementChildren.reverse ++ stack) (count + 1)
    else countFrom name value limit fuel (n.elementChildren.reverse ++ stack) count

/-- The number of elements inside, the element itself included, whose
attribute has a value, counted until the limit is reached. Every element is
visited once, so that their number bounds the visits. -/
def countAttribute (scope : Option Node) (name : Text) (value : Option Text)
    (limit : Option Int) : Outcome Nat :=
  match scope with
  | none => .ok 0
  | some root => countFrom name value limit root.elements.length [root] 0

/-- The elements inside that a selector matches, the element itself
included. -/
def querySelector (root : Node) (selector : Text) : Outcome (List Node) := do
  let s ← (Css.queryPath selector).mapError .selector
  XPath.evaluateElements s (.node root) []

/-- The number of elements that the selector for an attribute value
matches. -/
def queryAttribute (root : Node) (name value : Text) : Outcome Nat := do
  return (← querySelector root (Css.attributeTest name value)).length

/-- Has no other element inside `scope` the same value of an attribute? -/
def isAttributeUnique (n : Node) (name : Text) (scope : Option Node) : Outcome Bool :=
  match scope with
  | none => .ok false
  | some root => do
    match ← n.lookUp name with
    | none => return false
    | some value =>
      match queryAttribute root name value with
      | .ok k => return k == 1
      | .error e =>
        if e.isSelector || e.isPath then
          return (← countAttribute (some root) name (some value) (some 2)) == 1
        else throw e

/-- The elements that an expression selects from what should be a context. -/
def evaluateAt (context : Thing) (s : Text) (namespaces : List (Text × Text)) :
    Outcome (List Node) :=
  match context.context? with
  | some c => XPath.evaluateElements s c namespaces
  | none => .error .notContext

/-- The number of elements that an expression selects; none if it has no
result. -/
def countMatches (context : Thing) (expression : Text) (namespaces : List (Text × Text)) :
    Outcome Nat :=
  match Text.strip expression with
  | [] => .ok 0
  | s =>
    match evaluateAt context s namespaces with
    | .ok ns => .ok ns.length
    | .error e => if e.isPath then .ok 0 else .error e

/-- What an expression says about a wanted element. -/
inductive Verdict
  | empty
  | unusable
  | notUnique (count : Nat)
  | otherElement
  | unique
  deriving Repr, DecidableEq

namespace Verdict

/-- Does the expression select one element alone, and the wanted one? -/
def isUnique (v : Verdict) : Bool := v == .unique

/-- The number of elements that the expression selects. -/
def count : Verdict → Nat
  | .empty => 0
  | .unusable => 0
  | .notUnique n => n
  | .otherElement => 1
  | .unique => 1

/-- The verdict in words. -/
def message : Verdict → Text
  | .empty => "Locator is empty.".toList
  | .unusable => "Locator could not be evaluated.".toList
  | .notUnique _ => "Locator is not unique in document.".toList
  | .otherElement => "Locator matches a different element.".toList
  | .unique => "Locator is unique.".toList

/-- The verdict on the elements that an expression selects. -/
def ofMatches (target : Thing) : List Node → Verdict
  | [n] =>
    if target.isNothing || target.same (.node n) then .unique else .otherElement
  | ns => .notUnique ns.length

end Verdict

/-- Does an expression select one element alone, and the wanted one if one is
given? -/
def check (context : Thing) (expression : Text) (target : Thing)
    (namespaces : List (Text × Text)) : Outcome Verdict :=
  match Text.strip expression with
  | [] => .ok .empty
  | s =>
    match evaluateAt context s namespaces with
    | .ok ns => .ok (.ofMatches target ns)
    | .error e => if e.isPath then .ok .unusable else .error e

end Locator

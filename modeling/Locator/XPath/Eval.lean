/-
Evaluating path expressions

* `Env`: a document and the namespaces of the prefixes;
* `eval`: the result of an expression in a frame. Only what is reached can
  fail: operands behind a decided `and` or `or`, and predicates that no node
  is tested with, are not evaluated;
* `Env.select`: the places that an expression selects from a context node.

How deep an evaluation goes and how many places it meets has no limit here; what is limited is
the depth of a text that is read. No variables are bound, and no functions stand behind a
prefix.
-/
import Locator.XPath.Axis
import Locator.XPath.Function
import Locator.XPath.Read

namespace Locator.XPath

/-- A document with the namespaces of the prefixes. -/
structure Env where
  document : Document
  namespaces : List (Text × Text) := []

namespace Env

variable (env : Env)

/-- The namespace of a prefix; `xml` is always bound. -/
def lookup? (pfx : Text) : Option Text :=
  if pfx == "xml".toList then some Scope.xmlUri else env.namespaces.lookup pfx

/-- The namespace that a test asks for; there is none without a prefix. -/
def testUri (test : NodeTest) : Except EvalError (Option Text) :=
  match test.pfx? with
  | none => .ok none
  | some p =>
    match env.lookup? p with
    | some u => .ok (some u)
    | none => .error (.unboundPrefix p)

/-- The places of a step from one place, the nearest first. -/
def onAxis (axis : Axis) (test : NodeTest) (uri : Option Text) (p : Place) :
    List Place :=
  ((axis.sites env.document p).filter (test.accepts axis uri ·.item)).map Site.place

end Env

/-- Does the result of a predicate hold at a position? A number holds at
the position that it is. -/
def holdsAt (position : Nat) : Result → Bool
  | .number n => n.eq (.ofNat position)
  | r => r.toBool

/-- The places at which a predicate holds; `position` counts the places that
have been tested, and `size` is the number of all. -/
def keepFrom (predicate : Frame → Except EvalError Result) (size : Nat) :
    Nat → List Place → Except EvalError (List Place)
  | _, [] => .ok []
  | position, p :: ps => do
    let r ← predicate ⟨p, some (position + 1), some size⟩
    let rest ← keepFrom predicate size (position + 1) ps
    return if holdsAt (position + 1) r then p :: rest else rest

/-- The places at which a predicate holds. -/
def keep (predicate : Frame → Except EvalError Result) (ps : List Place) :
    Except EvalError (List Place) :=
  keepFrom predicate ps.length 0 ps

/-- The result of a sign between two results. -/
def applyOperator (d : Document) (op : Operator) (a b : Result) :
    Except EvalError Result :=
  match op with
  | .or => .ok (.bool (a.toBool || b.toBool))
  | .and => .ok (.bool (a.toBool && b.toBool))
  | .eq => .ok (.bool (Result.equal d true a b))
  | .ne => .ok (.bool (Result.equal d false a b))
  | .lt => .ok (.bool (Result.ordered d Number.lt a b))
  | .le => .ok (.bool (Result.ordered d Number.le a b))
  | .gt => .ok (.bool (Result.ordered d (fun x y => y.lt x) a b))
  | .ge => .ok (.bool (Result.ordered d (fun x y => y.le x) a b))
  | .add => .ok (.number ((a.toNumber d).add (b.toNumber d)))
  | .sub => .ok (.number ((a.toNumber d).sub (b.toNumber d)))
  | .mul => .ok (.number ((a.toNumber d).mul (b.toNumber d)))
  | .div => .ok (.number ((a.toNumber d).div (b.toNumber d)))
  | .mod => .ok (.number ((a.toNumber d).mod (b.toNumber d)))
  | .union => do return .nodes (Place.inOrder ((← a.toNodes) ++ (← b.toNodes)))

/-- Is an `or` or an `and` decided by its first operand? -/
def isDecided (op : Operator) (a : Result) : Bool :=
  match op with
  | .or => a.toBool
  | .and => !a.toBool
  | _ => false

mutual
/-- The result of an expression in a frame. -/
def eval (env : Env) : Expr → Frame → Except EvalError Result
  | .root, _ => .ok (.nodes [.node []])
  | .here, f => .ok (.nodes [f.place])
  | .number n, _ => .ok (.number n)
  | .literal s, _ => .ok (.text s)
  | .variable _ name, _ => .error (.unknownVariable name)
  | .call pfx name args, f => do
    let values ← evalAll env args f
    match pfx, Function.ofName? name with
    | none, some g => g.apply env.document f values
    | _, _ => .error (.unknownFunction name)
  | .binary op l r, f => do
    let a ← eval env l f
    if isDecided op a then return .bool a.toBool
    let b ← eval env r f
    applyOperator env.document op a b
  | .numeric minus e, f => do
    let n := (← eval env e f).toNumber env.document
    return .number (if minus then n.neg else n)
  | .step start axis test predicates, f => do
    let set ← (← eval env start f).toNodes
    let uri ← env.testUri test
    let found ← set.mapM fun p => narrow env predicates (env.onAxis axis test uri p)
    return .nodes (Place.inOrder found.flatten)
  | .filter set predicate, f => do
    let ps ← (← eval env set f).toNodes
    return .nodes (← keep (eval env predicate) ps)
/-- The results of expressions, the first one first. -/
def evalAll (env : Env) : List Expr → Frame → Except EvalError (List Result)
  | [], _ => .ok []
  | e :: es, f => do
    let r ← eval env e f
    let rs ← evalAll env es f
    return r :: rs
/-- The places at which predicates hold, each applied to what the ones before
it have left. -/
def narrow (env : Env) : List Expr → List Place → Except EvalError (List Place)
  | [], ps => .ok ps
  | e :: es, ps => do narrow env es (← keep (eval env e) ps)
end

/-- The places that an expression selects from a context node, in document
order; the document itself and results of other kinds do not count. -/
def Env.select (env : Env) (e : Expr) (context : Place) :
    Except EvalError (List Place) := do
  match ← eval env e { place := context } with
  | .nodes set => return set.filter (· != .node [])
  | _ => return []

end Locator.XPath

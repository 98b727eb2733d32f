/-
Finding elements again

* `Plan`: how an expression is evaluated from a context. From an element, a
  path that starts at its own name is taken to start at the element itself;
* `Generator.resolve`: the element that an expression finds;
* `Generator.shortest`: the shortest spelling of the path of an element that
  finds this element alone.
-/
import Locator.Generator.Basic

namespace Locator

/-- How an expression is evaluated: it stands for a node, or another
expression is to be evaluated. -/
inductive Plan
  | node (n : Node)
  | expression (s : Text)

namespace Plan

/-- The plan for an expression in a context. -/
def of (path : Text) (context : Thing) : Outcome Plan :=
  match context.element? with
  | none => .ok (.expression path)
  | some n => do
    let tag ← Heuristic.stepName n
    if path == '/' :: tag then return .node n
    match Text.behind? ('/' :: tag ++ ['/']) path with
    | some rest => return .expression ('.' :: '/' :: rest)
    | none => return .expression path

end Plan

namespace Generator

/-- The first thing that is something. -/
def firstPresent (things : List Thing) : Thing :=
  (things.find? (fun t => !t.isNothing)).getD .nothing

/-- The prefixes of the settings, or those in force in the context. -/
def prefixes (s : Settings) (context : Thing) : List (Text × Text) :=
  match s.namespaces with
  | some (b :: bs) => b :: bs
  | _ => context.namespaces

/-- The element that comes first among the places an expression selects; what
comes first and is no element finds nothing. -/
def firstElement (s : Text) (context : Context) (namespaces : List (Text × Text)) :
    Outcome (Option Node) :=
  match XPath.evaluate s context namespaces with
  | .ok [] => .ok none
  | .ok (p :: _) => .ok (Thing.ofPlace context.source p).element?
  | .error e => if e.isPath then .ok none else .error e

/-- The element that an expression finds. -/
def resolve (g : Generator) (path : Text) (context : Thing) (o : Option Options) :
    Outcome (Option Node) :=
  match XPath.normalize path with
  | [] => .ok none
  | c :: r =>
    let s := g.settings o
    let start := firstPresent [s.root, context, g.document]
    match start.context? with
    | none => .ok none
    | some site => do
      match ← Plan.of (c :: r) start with
      | .node n => return some n
      | .expression e => firstElement e site (prefixes s start)

/-- Does an expression find a node? -/
def isMatch (g : Generator) (thing : Thing) (path : Text) (context : Thing)
    (o : Option Options) : Outcome Bool :=
  match thing.element? with
  | none => .ok false
  | some n => do
    let start := firstPresent [context, .document n.document]
    match ← g.resolve path start o with
    | some found => return found.same n
    | none => return false

/-- Does an expression find a node and no other? -/
def findsOnly (path : Text) (context : Thing) (namespaces : List (Text × Text))
    (n : Node) : Outcome Bool := do
  match ← Plan.of path context with
  | .node found => return found.same n
  | .expression e => return (← check context e (.node n) namespaces).isUnique

/-- The first spelling that finds a node alone. -/
def firstThatFinds (context : Thing) (namespaces : List (Text × Text)) (n : Node) :
    List Text → Outcome (Option Text)
  | [] => .ok none
  | c :: cs => do
    if ← findsOnly c context namespaces n then return some c
    else firstThatFinds context namespaces n cs

/-- The shortest spelling that finds an element alone, or its path if there
is none or a heuristic has answered the path. -/
def shortest (g : Generator) (thing : Thing) (o : Option Options) : Traced Text := do
  let made ← g.make thing o
  match made.steps, thing with
  | some steps, .node n =>
    let context := firstPresent [made.settings.root, .node made.root]
    let found ← Traced.lift
      (firstThatFinds context (prefixes made.settings context) n (XPath.candidates steps))
    return found.getD made.path
  | _, _ => return made.path

end Generator

end Locator

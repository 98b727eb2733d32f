/-
Paths for elements that are looked up by what they hold

* `byId`, `byClass`, `byTag`, `byLabel`, `byAttribute`, `bySelector`,
  `byText`: the elements of a document, or inside a node, with a property;
* `pathsFor`: the path of the first element found, or the paths of all;
* `select`, `selectOne`, `attributeValues`: what an expression selects.
-/
import Locator.Generator.Resolve

namespace Locator

/-- The path of one element, or the paths of several. -/
inductive Paths
  | one (path : Text)
  | all (paths : List Text)
  deriving Repr

namespace Lookup

/-- The paths of elements one after the other. -/
def pathsOf (g : Generator) (o : Option Options) : List Node → Traced (List Text)
  | [] => .pure []
  | n :: ns => do
    let p ← g.pathOf (.node n) o
    let ps ← pathsOf g o ns
    return p :: ps

/-- The path of the first element, or the paths of all; nothing if there is
no element. -/
def pathsFor (g : Generator) (o : Option Options) (all : Bool) :
    List Node → Traced (Option Paths)
  | [] => .pure none
  | n :: ns =>
    if all then do return some (.all (← pathsOf g o (n :: ns)))
    else do return some (.one (← g.pathOf (.node n) o))

/-- The elements that a selector matches in a document or below an
element. -/
def query (context : Context) (selector : Text) : Outcome (List Node) :=
  match context with
  | .document d =>
    match d.root? with
    | none => .ok []
    | some r => querySelector r selector
  | .node n => querySelector n selector

/-- The text of an element, without the blanks around it if `trim` holds.
Comments and instructions hold no texts. -/
def textOf (n : Option Node) (trim : Bool) : Outcome Text :=
  match n with
  | none => .ok []
  | some n =>
    if !n.isElement then .error .noText
    else .ok (if trim then Text.strip n.content else n.content)

/-- The trimmed text of an element. -/
def trimmed (n : Node) : Text := Text.strip n.content

/-- The expression for the elements with an identifier. -/
def idPath (id : Text) : Text := "//*[@id=".toList ++ XPath.literal id ++ [']']

/-- The elements with an identifier. -/
def byId (c : Context) (id : Text) : Outcome (List Node) :=
  XPath.evaluateElements (idPath id) c []

/-- The value of the attribute that has a plain name. -/
def plainAttribute (n : Node) (name : Text) : Text := (n.attribute? name).getD []

/-- The elements that have every class of a list; none for an empty list. -/
def byClass (c : Context) (classes : Text) : List Node :=
  match Text.words classes with
  | [] => []
  | wanted => c.elements.filter fun n =>
      let own := Text.words (plainAttribute n "class".toList)
      wanted.all own.contains

/-- The elements of a local name; the asterisk stands for any. -/
def byTag (c : Context) (tag : Text) : Outcome (List Node) :=
  let wanted := Text.strip tag
  if wanted == ['*'] then .ok c.elements
  else if c.elements.all (fun n => n.pathName?.isSome) then
    .ok (c.elements.filter fun n => (n.name?.map Name.base) == some wanted)
  else .error .unnameable

/-- Is an element a control of a form? -/
def isControl (n : Node) : Bool :=
  ["input".toList, "select".toList, "textarea".toList, "button".toList].contains n.tag

/-- The control that a label is for: the element it names, or the first
control inside it. -/
def controlOf (c : Context) (label : Node) : Outcome (Option Node) :=
  match plainAttribute label "for".toList with
  | [] => .ok (label.elements.find? isControl)
  | id => return (← byId c id).head?

/-- The controls of the labels with a text. -/
def byLabel (c : Context) (text : Text) : Outcome (List Node) := do
  let labels := c.elements.filter fun n => n.tag == "label".toList && trimmed n == text
  return (← labels.mapM (controlOf c)).filterMap id

/-- The elements with an attribute, with the given value if it is one; none
if the name cannot stand in a selector. -/
def byAttribute (c : Context) (name : Text) (value : Option Text) :
    Outcome (Option (List Node)) :=
  let selector := match value with
    | some (c :: r) => Css.attributeTest name (c :: r)
    | _ => '[' :: name ++ [']']
  match query c selector with
  | .ok ns => .ok (some ns)
  | .error e => if e.isSelector then .ok none else .error e

/-- The elements with a text, or with a text that holds it. -/
def byText (c : Context) (text : Text) (exact : Bool) : List Node :=
  c.elements.filter fun n =>
    if exact then trimmed n == text else Text.occursIn text (trimmed n)

/-- What an expression selects in a context; nothing if it has no result. -/
def select (expression : Text) (context : Thing) : Outcome (List Thing) :=
  match XPath.normalize expression, context.context? with
  | c :: r, some site =>
    match XPath.evaluate (c :: r) site site.namespaces with
    | .ok ps => .ok (ps.map (Thing.ofPlace site.source))
    | .error e => if e.isPath then .ok [] else .error e
  | _, _ => .ok []

/-- The first thing that an expression selects in a context. -/
def selectOne (expression : Text) (context : Thing) : Outcome (Option Thing) := do
  return (← select expression context).head?

/-- Is the text an expression? The prefixes in force in the context, if there is one, are bound
in front of it, though an expression needs none of them to be one. -/
def isValid (expression : Text) (context : Thing) : Outcome Bool :=
  match XPath.normalize expression with
  | [] => .ok false
  | s => do
    XPath.checkNamespaces context.namespaces
    XPath.isExpression s

/-- The value of an attribute. -/
def attributeValue? : Thing → Option Text
  | .attribute n name => some (plainAttribute n name)
  | _ => none

/-- The values of the attributes that an expression selects. -/
def attributeValues (expression : Text) (context : Thing) : Outcome (List Text) := do
  return (← select expression context).filterMap attributeValue?

end Lookup

end Locator

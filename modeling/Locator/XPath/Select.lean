/-
Evaluating expressions from documents and nodes

* `evaluate`: the places that the text of an expression selects from a
  context, with given namespaces; a document stands for its root element;
* `isExpression`: is a text an expression at all?
-/
import Locator.XPath.Eval
import Locator.Document.Thing
import Locator.Failure

namespace Locator.XPath

/-- The node where expressions start in a context. -/
def startNode : Context → Outcome Node
  | .document d =>
    match d.root? with
    | some n => .ok n
    | none => .error .emptyDocument
  | .node n => .ok n

/-- An expression is a text of XML characters. -/
def checkText (s : Text) : Outcome Unit :=
  if Text.isXmlText s then .ok () else .error .forbiddenText

/-- A prefix needs a name and a namespace, of XML characters both. -/
def checkBinding (b : Text × Text) : Outcome Unit := do
  if b.1.isEmpty then throw .emptyPrefix
  if b.2.isEmpty then throw .emptyNamespace
  checkText b.1
  checkText b.2

/-- All prefixes need names and namespaces; the first one that has not is
told. -/
def checkNamespaces (namespaces : List (Text × Text)) : Outcome Unit :=
  namespaces.forM checkBinding

/-- The places that an expression selects from a node. -/
def selectFrom (n : Node) (e : Expr) (namespaces : List (Text × Text)) :
    Outcome (List Place) :=
  ((Env.mk n.document namespaces).select e (.node n.address)).mapError .path

/-- The places that the text of an expression selects, in document order. -/
def evaluate (s : Text) (context : Context) (namespaces : List (Text × Text)) :
    Outcome (List Place) := do
  let n ← startNode context
  checkNamespaces namespaces
  checkText s
  match Expr.read? s with
  | none => .error (.path .malformed)
  | some e => selectFrom n e namespaces

/-- The elements among places. -/
def elementsOf (d : Document) (ps : List Place) : List Node :=
  ps.filterMap fun p =>
    match p with
    | .node a => if (⟨d, a⟩ : Node).isElement then some ⟨d, a⟩ else none
    | _ => none

/-- The elements that the text of an expression selects. -/
def evaluateElements (s : Text) (context : Context) (namespaces : List (Text × Text)) :
    Outcome (List Node) := do
  return elementsOf context.source (← evaluate s context namespaces)

/-- Is the text an expression? -/
def isExpression (s : Text) : Outcome Bool := do
  checkText s
  return isValid s

end Locator.XPath

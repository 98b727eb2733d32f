/-
What can stand where a node is expected

* `Thing`: nothing, a document, a node, a text or an attribute of a node, a
  fragment, or a plain value; `Thing.same` tells them apart;
* `Context`: a document or a node, where expressions start;
* `Thing.containing?`: the element that holds the boundary of a range.
-/
import Locator.Document.Node
import Locator.Value

namespace Locator

/-- What can stand where a node is expected. -/
inductive Thing
  | nothing
  | document (d : Document)
  /-- An element, a comment or an instruction. -/
  | node (n : Node)
  /-- The text in front of the first child of a node, or behind the node. -/
  | text (owner : Node) (isTail : Bool)
  /-- An attribute of an element, by its expanded name. -/
  | attribute (owner : Node) (name : Text)
  | fragment (items : List Thing)
  | plain (v : Value)
  deriving Inhabited

/-- A document or a node, where expressions start. -/
inductive Context
  | document (d : Document)
  | node (n : Node)

namespace Context

/-- The root element of a document, or the node itself if it is an element. -/
def element? : Context → Option Node
  | .document d => d.root?
  | .node n => if n.isElement then some n else none

/-- The document. -/
def source : Context → Document
  | .document d => d
  | .node n => n.document

/-- The prefixes in force at the element. -/
def namespaces (c : Context) : List (Text × Text) :=
  (c.element?.map Node.namespaces).getD []

/-- The elements inside, itself included, in document order. -/
def elements : Context → List Node
  | .document d => d.elements
  | .node n => n.elements

/-- The context as a thing. -/
def toThing : Context → Thing
  | .document d => .document d
  | .node n => .node n

end Context

namespace Thing

mutual
/-- Are two things the same one? -/
def same : Thing → Thing → Bool
  | .nothing, .nothing => true
  | .document d, .document e => d.key == e.key
  | .node n, .node m => n.same m
  | .text n s, .text m t => n.same m && s == t
  | .attribute n s, .attribute m t => n.same m && s == t
  | .fragment s, .fragment t => sameAll s t
  | .plain v, .plain w => v.form == w.form
  | _, _ => false
/-- Are two lists of things the same, item by item? -/
def sameAll : List Thing → List Thing → Bool
  | [], [] => true
  | a :: as, b :: bs => a.same b && sameAll as bs
  | _, _ => false
end

/-- Is it nothing? -/
def isNothing : Thing → Bool
  | .nothing => true
  | _ => false

/-- The document or node, if it is one. -/
def context? : Thing → Option Context
  | .document d => some (.document d)
  | .node n => some (.node n)
  | _ => none

/-- The element, if it is one. -/
def element? : Thing → Option Node
  | .node n => if n.isElement then some n else none
  | _ => none

/-- Is it a document? -/
def isDocument : Thing → Bool
  | .document _ => true
  | _ => false

/-- The prefixes in force at a document or node; none at anything else. -/
def namespaces (t : Thing) : List (Text × Text) := (t.context?.map Context.namespaces).getD []

/-- The document of a document or node. -/
def document? (t : Thing) : Option Document := t.context?.map Context.source

/-- The element around: the owner of a text or attribute, the parent of a
node. -/
def parentElement? : Thing → Option Node
  | .node n => n.parentElement?
  | .text n _ => if n.isElement then some n else none
  | .attribute n _ => if n.isElement then some n else none
  | _ => none

/-- The element that holds the boundary of a range: an element itself, the
root of a document, the first element of a fragment, the owner of a text in
front of children, and the parent of the owner of a text behind it. -/
def containing? : Thing → Option Node
  | .nothing => none
  | .document d => d.root?
  | .node n => if n.isElement then some n else n.parentElement?
  | .text n isTail =>
    if !n.isElement then none
    else if isTail then n.parentElement?
    else some n
  | .attribute _ _ => none
  | .fragment items => items.findSome? element?
  | .plain _ => none

/-- A place of a document as a thing. -/
def ofPlace (d : Document) : Place → Thing
  | .node [] => .document d
  | .node (i :: a) =>
    match d.get? (i :: a) with
    | some (.text _) =>
      let owner : Node := ⟨d, a⟩
      match (owner.children.filter (fun m => m.address.position < i)).getLast? with
      | some before => .text before true
      | none => .text owner false
    | _ => .node ⟨d, i :: a⟩
  | .binding a i =>
    .plain (((d.bindingsAt a)[i]?.map fun b =>
      .list [(b.pfx.map Value.text).getD .none, .text b.uri]).getD .none)
  | .attribute a i =>
    .attribute ⟨d, a⟩ (((d.attributesAt a)[i]?.map (·.name.expanded)).getD [])

end Thing

end Locator

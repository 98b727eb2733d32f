/-
Nodes of documents and their family

* `Node`: a document and an address in it; `Node.same` tells nodes apart by
  the key of the document and the address;
* `parentElement?`, `elementChildren`, `ancestors`, `contains`: the family of
  a node;
* `index`, `hasTwin`: the place among the elements of one name below one
  parent;
* `commonAncestor`: the nearest element that holds every given one;
* `namespaces`: the prefixes in force at an element.
-/
import Locator.Document.Basic
import Locator.Text.Class

namespace Locator

/-- A document and an address in it. -/
structure Node where
  document : Document
  address : Address
  deriving Repr

namespace Node

variable (n : Node)

/-- Are two nodes the same one? -/
def same (n m : Node) : Bool :=
  n.document.key == m.document.key && n.address == m.address

/-- The piece at the node. -/
def markup? : Option Markup := n.document.get? n.address

/-- The name of an element. -/
def name? : Option Name := n.markup?.bind Markup.name?

/-- Is the node an element? -/
def isElement : Bool := n.name?.isSome

/-- The name of an element with its namespace in braces; empty for others. -/
def tag : Text := (n.name?.map Name.expanded).getD []

/-- May a name stand in a path? It may not if it is no XML name. -/
def isPathName (s : Text) : Bool :=
  match Text.plainName? s with
  | some (_, []) => true
  | _ => false

/-- The name of an element as a path writes it: the prefix counts only where
there is a namespace. `none` for what a path cannot name. -/
def pathName? : Option Text := do
  let name ← n.name?
  if !isPathName name.base then none
  else if name.uri.isSome then return name.qualified
  else return name.base

/-- The attributes of an element. -/
def attributes : List Attribute := n.document.attributesAt n.address

/-- The value of the attribute with an expanded name. -/
def attribute? (expanded : Text) : Option Text :=
  (n.attributes.find? (fun a => a.name.expanded == expanded)).map Attribute.value

/-- The node at another address of the same document. -/
def moved (a : Address) : Node := { n with address := a }

/-- The element around the node. -/
def parentElement? : Option Node :=
  match n.address.parent? with
  | none => none
  | some a => if (n.moved a).isElement then some (n.moved a) else none

/-- The pieces below the node that are no texts. -/
def children : List Node :=
  let pieces := n.document.childrenAt n.address
  (pieces.zipIdx.filter (fun p => !p.1.isText)).map (fun p => n.moved (p.2 :: n.address))

/-- The elements directly below the node. -/
def elementChildren : List Node := n.children.filter isElement

/-- The node and the elements around it, the nearest first. -/
def ancestors : List Node :=
  n :: ((Address.above n.address).map n.moved).filter isElement

/-- Is the second node the first one, or inside it? -/
def contains (n m : Node) : Bool :=
  n.document.key == m.document.key && n.address.holds m.address

/-- The pieces next to the node and the node itself, with their positions. -/
def siblings : List Node :=
  match n.address.parent? with
  | none => [n]
  | some a => (n.moved a).children

/-- The number of the node among the elements of its name below its parent,
counted from one. -/
def index : Nat :=
  1 + (n.siblings.filter (fun m =>
    m.address.position < n.address.position && m.isElement && m.tag == n.tag)).length

/-- Is there another element of the same name below the same element? -/
def hasTwin : Bool :=
  n.parentElement?.isSome && n.siblings.any (fun m =>
    m.address != n.address && m.isElement && m.tag == n.tag)

/-- The texts in front of the first piece inside that is none. -/
def text : Text := Markup.leadingText (n.document.childrenAt n.address)

/-- The texts between the node and the next piece beside it. -/
def tail : Text :=
  match n.address.parent? with
  | none => []
  | some a =>
    Markup.leadingText ((n.document.childrenAt a).drop (n.address.position + 1))

/-- The texts inside an element, one after the other. -/
def content : Text := n.document.textOf (.node n.address)

/-- The elements inside the node and the node itself, in document order. -/
def elements : List Node :=
  match n.markup? with
  | some m => ((m.located n.address).filter (·.2.isElement)).map (fun p => n.moved p.1)
  | none => []

/-- Adds the bindings whose prefix is not bound yet. -/
def addBindings (found : List (Text × Text)) : List Binding → List (Text × Text)
  | [] => found
  | b :: bs =>
    match b.pfx with
    | some p =>
      if found.any (fun f => f.1 == p) then addBindings found bs
      else addBindings (found ++ [(p, b.uri)]) bs
    | none => addBindings found bs

/-- The bindings that an element declares itself. -/
def bindings : List Binding := (n.markup?.map Markup.bindings).getD []

/-- The prefixes in force at an element with their namespaces. -/
def namespaces : List (Text × Text) :=
  n.ancestors.foldl (fun found m => addBindings found m.bindings) []

/-- The nearest element around the first node, or itself, that holds all of
them. -/
def commonAncestor (nodes : List Node) : Option Node :=
  match nodes with
  | [] => none
  | first :: _ => first.ancestors.find? (fun a => nodes.all a.contains)

/-- The address at the end of a way down that does not count texts. -/
def addressAlong (a : Address) (m : Markup) : List Nat → Option Address
  | [] => some a
  | k :: way => do
    let places := m.children.zipIdx.filter (fun p => !p.1.isText)
    let (c, i) ← places[k]?
    addressAlong (i :: a) c way

end Node

namespace Document

variable (d : Document)

/-- The root element. -/
def root? : Option Node := d.rootAddress?.map (fun a => ⟨d, a⟩)

/-- The elements of the document, in document order. -/
def elements : List Node := (d.root?.map Node.elements).getD []

/-- The node at the end of a way from the root element that does not count
texts. -/
def locate? (way : List Nat) : Option Node := do
  let i ← d.rootPosition?
  let m ← d.content[i]?
  return ⟨d, ← Node.addressAlong [i] m way⟩

/-- Where a node of the document stands. -/
inductive Standing
  | before (i : Nat)
  | inside (way : List Nat)
  | after (i : Nat)
  deriving Repr, DecidableEq

/-- Where a node stands: inside the root element, or before or after it. -/
def standing : Address → Standing
  | [] => .inside []
  | [i] =>
    let r := d.rootPosition?.getD d.content.length
    if i < r then .before i
    else if i == r then .inside []
    else .after (i - r - 1)
  | i :: a =>
    let before := ((d.childrenAt a).take i).filter (fun m => !m.isText)
    match standing a with
    | .inside way => .inside (way ++ [before.length])
    | other => other

end Document

end Locator

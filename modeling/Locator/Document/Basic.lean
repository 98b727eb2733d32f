/-
Documents and the places in them

* `Address`: the way up from a piece to the document, by positions among
  children, texts included; the empty address is the document itself;
* `Document`: pieces at the top, one of them the root element, and a key that
  tells documents apart; there is no more in it than paths can count;
* `Place`: a node of a document in the sense of paths, an address, an
  attribute or a binding in force at an element; `Place.inOrder` lists a set
  of them in document order.

References to entities stand resolved in the texts, and document types are left out. Names and
bindings are any texts, also those that XML does not allow.
-/
import Locator.Document.Scope

namespace Locator

/-- The way up from a piece, by positions among children: its own position,
that of the piece around it, and so on. -/
abbrev Address := List Nat

namespace Address

/-- The addresses strictly above an address, the nearest first. -/
def above : Address → List Address
  | [] => []
  | _ :: a => a :: above a

/-- The address of the piece around. -/
def parent? : Address → Option Address
  | [] => none
  | _ :: a => some a

/-- The position among the children of the piece around. -/
def position (a : Address) : Nat := a.headD 0

/-- Is `b` the address `a` or one below it? -/
def holds (a b : Address) : Bool := b.drop (b.length - a.length) == a

/-- The order of two addresses with equally many positions. -/
def orderLevel : Address → Address → Ordering
  | i :: a, j :: b => (orderLevel a b).then (compare i j)
  | _, _ => .eq

/-- The document order: a piece comes before all that it holds. -/
def order (a b : Address) : Ordering :=
  let m := a.length
  let n := b.length
  (orderLevel (a.drop (m - n)) (b.drop (n - m))).then (compare m n)

/-- Does `a` come before `b` in document order? -/
def precedes (a b : Address) : Bool := a.order b == .lt

end Address

/-- The pieces at the top of a document, and a key of its own. -/
structure Document where
  key : Nat
  content : List Markup
  /-- In a document read from HTML the attribute `id` names elements. -/
  isHtml : Bool := false
  /-- All there is can be counted in the numbers of paths. -/
  isCountable : Markup.weights content < Nat.pow 2 53 := by decide
  deriving Repr

/-- The document of pieces, unless there is more than can be counted. -/
def Document.ofContent? (key : Nat) (content : List Markup) (isHtml : Bool) :
    Option Document :=
  if h : Markup.weights content < Nat.pow 2 53 then some ⟨key, content, isHtml, h⟩ else none

/-- A node of a document in the sense of paths. -/
inductive Place
  /-- The document itself or a piece of it. -/
  | node (a : Address)
  /-- The binding at a position among those in force at an element. -/
  | binding (a : Address) (i : Nat)
  /-- The attribute at a position of an element. -/
  | attribute (a : Address) (i : Nat)
  deriving Repr, DecidableEq

namespace Place

/-- The address of the node, or of the element of the binding or attribute. -/
def address : Place → Address
  | .node a => a
  | .binding a _ => a
  | .attribute a _ => a

/-- The rank of the kinds of nodes with one address: an element comes before
its bindings, and these before its attributes. -/
def rank : Place → Nat
  | .node _ => 0
  | .binding _ _ => 1
  | .attribute _ _ => 2

/-- The position of a binding or attribute among those of its element. -/
def index : Place → Nat
  | .node _ => 0
  | .binding _ i => i
  | .attribute _ i => i

/-- The document order: the bindings and attributes of an element come between
the element and what it holds. -/
def order (p q : Place) : Ordering :=
  ((p.address.order q.address).then (compare p.rank q.rank)).then
    (compare p.index q.index)

/-- Adds a place to places in document order, unless it is there already. -/
def insert (p : Place) : List Place → List Place
  | [] => [p]
  | q :: qs =>
    match p.order q with
    | .lt => p :: q :: qs
    | .eq => q :: qs
    | .gt => q :: insert p qs

/-- The members of a set of places, in document order and each once. -/
def inOrder (set : List Place) : List Place := set.foldr insert []

end Place

namespace Document

variable (d : Document)

/-- The pieces directly below an address. -/
def childrenAt : Address → List Markup
  | [] => d.content
  | i :: a =>
    match (childrenAt a)[i]? with
    | some m => m.children
    | none => []

/-- The piece at an address; the document itself is no piece. -/
def get? : Address → Option Markup
  | [] => none
  | i :: a => (d.childrenAt a)[i]?

/-- The attributes of the element at an address. -/
def attributesAt (a : Address) : List Attribute :=
  ((d.get? a).map Markup.attributes).getD []

/-- The bindings in force at the element at an address: the one that is there
from the start, and the others, the farthest first. -/
def bindingsAt (a : Address) : Scope :=
  match d.get? a with
  | some (.element _ _ _ _) =>
    let declared := (a :: Address.above a).flatMap fun b =>
      ((d.get? b).map Markup.bindings).getD []
    Scope.xmlBinding :: (Scope.firsts declared).reverse
  | _ => []

/-- All pieces with their addresses, in document order. -/
def pieces : List (Address × Markup) := Markup.locatedFrom [] 0 d.content

/-- All pieces inside the one at `a` with their addresses, in document order. -/
def piecesBelow (a : Address) : List (Address × Markup) :=
  Markup.locatedFrom a 0 (d.childrenAt a)

/-- The position of the root element at the top. -/
def rootPosition? : Option Nat := d.content.findIdx? Markup.isElement

/-- The address of the root element. -/
def rootAddress? : Option Address := d.rootPosition?.map ([·])

/-- The text of a place: the texts inside a piece, the value of an attribute,
the namespace of a binding, the text of a comment, the data of an
instruction. -/
def textOf : Place → Text
  | .node [] => Markup.contents d.content
  | .node a =>
    match d.get? a with
    | some (.comment s) => s
    | some (.instruction _ s) => s
    | some m => m.content
    | none => []
  | .binding a i => ((d.bindingsAt a)[i]?.map Binding.uri).getD []
  | .attribute a i => ((d.attributesAt a)[i]?.map Attribute.value).getD []

/-- What stands at a place. -/
inductive Item
  | document
  | piece (m : Markup)
  | binding (b : Binding)
  | attribute (t : Attribute)
  deriving Repr

/-- What stands at a place of the document. -/
def itemAt? : Place → Option Item
  | .node [] => some .document
  | .node a => (d.get? a).map .piece
  | .binding a i => (d.bindingsAt a)[i]?.map .binding
  | .attribute a i => (d.attributesAt a)[i]?.map .attribute

/-- The name of an element or attribute; a binding is named by its prefix. -/
def Item.name? : Item → Option Name
  | .document => none
  | .piece m => m.name?
  | .binding b => b.pfx.map fun p => { base := p }
  | .attribute t => some t.name

/-- The name of what stands at a place. -/
def nameOf? (p : Place) : Option Name := (d.itemAt? p).bind Item.name?

end Document

end Locator

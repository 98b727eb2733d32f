/-
Where the axes of a step lead

* `Site`: a place with what stands there;
* `Axis.sites`: the sites on an axis, the nearest first;
* `NodeTest.accepts`: does what stands at a site pass the test of a step?
-/
import Locator.XPath.Expr
import Locator.Document.Basic

namespace Locator.XPath

open Document (Item)

/-- A place with what stands there. -/
structure Site where
  place : Place
  item : Item
  deriving Repr

/-- A piece with its address as a site. -/
def Site.ofPiece (p : Address × Markup) : Site := ⟨.node p.1, .piece p.2⟩

/-- The sites at places. -/
def sitesAt (d : Document) (ps : List Place) : List Site :=
  ps.filterMap fun p => (d.itemAt? p).map (Site.mk p)

/-- The pieces directly below an address. -/
def childSites (d : Document) (a : Address) : List Site :=
  (d.childrenAt a).zipIdx.map fun (m, i) => .ofPiece (i :: a, m)

/-- The pieces beside an address and the one at it. -/
def siblingSites (d : Document) (a : Address) : List Site :=
  match a.parent? with
  | none => sitesAt d [.node a]
  | some p => childSites d p

/-- The places above an address, the nearest first. -/
def placesAbove (a : Address) : List Place := (Address.above a).map .node

/-- The pieces that start behind the end of the one at an address. -/
def sitesBehind (d : Document) (a : Address) : List Site :=
  (d.pieces.filter fun p => a.precedes p.1 && !a.holds p.1).map .ofPiece

/-- The pieces that end before the start of the one at an address, the nearest
first. -/
def sitesBefore (d : Document) (a : Address) : List Site :=
  ((d.pieces.filter fun p => p.1.precedes a && !p.1.holds a).map .ofPiece).reverse

/-- Is the position of a site among its siblings beyond that of an address? -/
def isLater (a : Address) (s : Site) : Bool := a.position < s.place.address.position

/-- Is the position of a site among its siblings short of that of an address? -/
def isEarlier (a : Address) (s : Site) : Bool := s.place.address.position < a.position

/-- The sites on an axis from the document or a piece, the nearest first. -/
def Axis.sitesFrom (d : Document) (a : Address) : Axis → List Site
  | .self => sitesAt d [.node a]
  | .child => childSites d a
  | .parent => sitesAt d (a.parent?.toList.map .node)
  | .descendant => (d.piecesBelow a).map .ofPiece
  | .descendantOrSelf => sitesAt d [.node a] ++ (d.piecesBelow a).map .ofPiece
  | .ancestor => sitesAt d (placesAbove a)
  | .ancestorOrSelf => sitesAt d (.node a :: placesAbove a)
  | .followingSibling => (siblingSites d a).filter (isLater a)
  | .precedingSibling => ((siblingSites d a).filter (isEarlier a)).reverse
  | .following => sitesBehind d a
  | .preceding => sitesBefore d a
  | .attribute =>
    (d.attributesAt a).zipIdx.map fun (t, i) => ⟨.attribute a i, .attribute t⟩
  | .namespaces =>
    (d.bindingsAt a).zipIdx.map fun (b, i) => ⟨.binding a i, .binding b⟩

/-- The sites on an axis from an attribute or a binding `p` of the element at
an address. It lies inside the element, but nothing is beside or below it;
what follows or precedes it is what follows or precedes the element. -/
def Axis.sitesWithin (d : Document) (p : Place) (a : Address) : Axis → List Site
  | .self => sitesAt d [p]
  | .descendantOrSelf => sitesAt d [p]
  | .parent => sitesAt d [.node a]
  | .ancestor => sitesAt d (.node a :: placesAbove a)
  | .ancestorOrSelf => sitesAt d (p :: .node a :: placesAbove a)
  | .following => sitesBehind d a
  | .preceding => sitesBefore d a
  | _ => []

/-- The sites on an axis, the nearest first. -/
def Axis.sites (d : Document) (axis : Axis) : Place → List Site
  | .node a => axis.sitesFrom d a
  | p => axis.sitesWithin d p p.address

/-- Is an item of the main kind of an axis, an attribute on the attribute axis,
a binding on the namespace axis and an element on the others? -/
def isMainKind (axis : Axis) : Item → Bool
  | .document => false
  | .piece m => axis != .attribute && axis != .namespaces && m.isElement
  | .binding _ => axis == .namespaces
  | .attribute _ => axis == .attribute

/-- Has an item a name that passes a test? -/
def isNamed (test : Name → Bool) (item : Item) : Bool :=
  match item.name? with
  | some n => test n
  | none => false

/-- Is an item in a namespace? Bindings are in every one. -/
def isIn (uri : Option Text) : Item → Bool
  | .binding _ => true
  | item => isNamed (fun n => n.uri == uri) item

/-- Does an item pass the test of a step? `uri` is the namespace of the
prefix of the test. -/
def NodeTest.accepts (axis : Axis) (uri : Option Text) (test : NodeTest) (item : Item) :
    Bool :=
  match test with
  | .any none => isMainKind axis item
  | .any (some _) => isMainKind axis item && isIn uri item
  | .name _ base =>
    isMainKind axis item && isNamed (fun n => n.base == base) item && isIn uri item
  | .node => true
  | .text =>
    match item with
    | .piece m => m.isText
    | _ => false
  | .comment =>
    match item with
    | .piece (.comment _) => true
    | _ => false
  | .instruction target =>
    match item with
    | .piece (.instruction t _) => target.isNone || target == some t
    | _ => false

end Locator.XPath

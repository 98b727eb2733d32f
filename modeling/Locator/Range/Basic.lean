/-
Ranges of a document

* `Boundary`: a container and an offset; `Range`: two boundaries;
* `Slot`: what an offset of an element counts, children and the texts that
  stand in front of and between them;
* `Mark`: the starts, texts and ends of a document one after the other;
* `Range.text`: the text between the boundaries, cut out of the marks.
-/
import Locator.Document.Thing

namespace Locator

/-- What an offset of an element counts. -/
inductive Slot
  | child (n : Node)
  /-- The text in front of the first child of a node, or behind it. -/
  | text (owner : Node) (isTail : Bool)

namespace Slot

/-- The slot as a thing. -/
def toThing : Slot → Thing
  | .child n => .node n
  | .text n t => .text n t

end Slot

namespace Node

/-- The text of a node that its first slot stands for: that of a comment or
an instruction, and the one in front of the children of an element. -/
def ownText (n : Node) : Text :=
  match n.markup? with
  | some (.comment s) => s
  | some (.instruction _ s) => s
  | _ => n.text

/-- The slots of a node: its own text, if there is one, and every child with
the text behind it, if there is one. -/
def slots (n : Node) : List Slot :=
  (if n.ownText.isEmpty then [] else [.text n false]) ++
    n.children.flatMap (fun c =>
      .child c :: (if c.tail.isEmpty then [] else [.text c true]))

end Node

/-- A start, a text or an end in a document. -/
inductive Mark
  | start (n : Node)
  | text (owner : Node) (isTail : Bool) (s : Text)
  | stop (n : Node)

namespace Mark

/-- The texts in front of and behind a node. -/
def textMark (owner : Node) (isTail : Bool) (s : Text) : List Mark :=
  if s.isEmpty then [] else [.text owner isTail s]

mutual
/-- The marks of the piece at the node `n` and of all inside; the text behind
it does not belong to it. -/
def ofMarkup (n : Node) : Markup → List Mark
  | .element _ _ _ cs =>
    .start n :: textMark n false (Markup.leadingText cs) ++ ofChildren n 0 cs ++ [.stop n]
  | _ => [.start n, .stop n]
/-- The marks of the children of `n` from position `i` on, with the texts
behind them. -/
def ofChildren (n : Node) : Nat → List Markup → List Mark
  | _, [] => []
  | i, m :: ms =>
    let c := n.moved (i :: n.address)
    (if m.isText then []
      else ofMarkup c m ++ textMark c true (Markup.leadingText ms)) ++
      ofChildren n (i + 1) ms
end

/-- The marks of a node and of all inside. -/
def ofNode (n : Node) : List Mark :=
  match n.markup? with
  | some m => ofMarkup n m
  | none => []

/-- Is it the start of a node? -/
def isStartOf (n : Node) : Mark → Bool
  | .start m => m.same n
  | _ => false

/-- Is it the end of a node? -/
def isStopOf (n : Node) : Mark → Bool
  | .stop m => m.same n
  | _ => false

/-- Is it the text in front of the children of a node, or behind the node? -/
def isTextOf (n : Node) (isTail : Bool) : Mark → Bool
  | .text m t _ => m.same n && t == isTail
  | _ => false

/-- The text of a mark. -/
def content : Mark → Text
  | .text _ _ s => s
  | _ => []

end Mark

/-- How a boundary came to its container: it was given, or it was put in front
of a node or behind it. -/
inductive Placing
  | given
  | before
  | behind
  deriving Repr, DecidableEq

/-- A container and an offset in it. -/
structure Boundary where
  container : Thing
  offset : Int
  placing : Placing

namespace Boundary

/-- The first mark that passes a test. -/
def find (marks : List Mark) (p : Mark → Bool) : Option (Nat × Nat) :=
  (marks.findIdx? p).map (fun i => (i, 0))

/-- The mark of a slot. -/
def findSlot (marks : List Mark) : Slot → Option (Nat × Nat)
  | .child n => find marks (Mark.isStartOf n)
  | .text n t => find marks (Mark.isTextOf n t)

/-- The mark where a boundary lies, and the number of characters of it in
front of the boundary. -/
def locate (marks : List Mark) (b : Boundary) : Option (Nat × Nat) :=
  match b.container with
  | .document d =>
    match d.root? with
    | none => none
    | some r => find marks (if b.offset ≤ 0 then Mark.isStartOf r else Mark.isStopOf r)
  | .text n t =>
    match marks.findIdx? (Mark.isTextOf n t) with
    | none => none
    | some i =>
      let size := ((marks[i]?.map Mark.content).getD []).length
      some (i, min b.offset.toNat size)
  | .attribute n _ =>
    match marks.findIdx? (Mark.isTextOf n false) with
    | none => none
    | some i =>
      let size := ((marks[i]?.map Mark.content).getD []).length
      some (i, min b.offset.toNat size)
  | .node n =>
    if !n.isElement then none
    else
      match (if b.offset < 0 then none else n.slots[b.offset.toNat]?) with
      | some slot => findSlot marks slot
      | none => find marks (Mark.isStopOf n)
  | _ => none

/-- The boundary at an offset of a container. -/
def of (container : Thing) (offset : Int) : Boundary := ⟨container, offset, .given⟩

/-- The container of a boundary beside a node and the position of the node in
it: its parent, or its document. -/
def around (n : Node) : Thing × Nat :=
  match n.parentElement? with
  | none => (.document n.document, 0)
  | some p =>
    (.node p, p.slots.findIdx (fun s => match s with
      | .child c => c.same n
      | .text _ _ => false))

/-- The boundary in front of a node. -/
def before (n : Node) : Boundary := ⟨(around n).1, (around n).2, .before⟩

/-- The boundary behind a node. -/
def behind (n : Node) : Boundary := ⟨(around n).1, (around n).2 + 1, .behind⟩

/-- Are two boundaries at one place? A document that was given and one that was
reached from a node do not count as one container. -/
def coincides (a b : Boundary) : Bool :=
  a.container.same b.container && a.offset == b.offset &&
    (!a.container.isDocument || a.placing == b.placing)

end Boundary

/-- Two boundaries. -/
structure Range where
  start : Boundary
  stop : Boundary

namespace Range

/-- The range between two boundaries. Without an end container the range ends
where it starts, or behind that. -/
def new (start : Thing) (startOffset : Int) (stop : Thing) (stopOffset : Int) : Range :=
  if stop.isNothing then ⟨.of start startOffset, .of start (max stopOffset startOffset)⟩
  else ⟨.of start startOffset, .of stop stopOffset⟩

/-- The range over everything inside a node. -/
def selectContents (n : Node) : Range :=
  ⟨.of (.node n) 0, .of (.node n) n.slots.length⟩

/-- The range that starts in front of a node. -/
def startBefore (r : Range) (n : Node) : Range :=
  { r with start := .before n }

/-- The range that ends behind a node. -/
def endAfter (r : Range) (n : Node) : Range :=
  { r with stop := .behind n }

/-- A range with the same boundaries; an end without a container is settled
anew. -/
def clone (r : Range) : Range :=
  if r.stop.container.isNothing then
    { r with stop := { r.start with offset := max r.stop.offset r.start.offset } }
  else r

/-- Do the boundaries coincide? -/
def isCollapsed (r : Range) : Bool := r.start.coincides r.stop

/-- The elements that hold the boundaries. -/
def holders (r : Range) : List Node :=
  [r.start.container, r.stop.container].filterMap Thing.containing?

/-- The nearest element around both boundaries. -/
def commonAncestor (r : Range) : Option Node := Node.commonAncestor r.holders

/-- The root element of the tree of a container. -/
def treeRoot? (t : Thing) : Option Node :=
  match t with
  | .document d => d.root?
  | _ => (t.containing?).bind (fun n => n.document.root?)

/-- The text of the marks from position `i` on, between two places among
them. -/
def cut (start stop : Nat × Nat) : Nat → List Mark → Text
  | _, [] => []
  | i, m :: ms =>
    let s := m.content
    let low := if i == start.1 then start.2 else 0
    let high := if i == stop.1 then stop.2 else s.length
    (if start.1 ≤ i && i ≤ stop.1 then (s.take high).drop low else []) ++
      cut start stop (i + 1) ms

/-- Does the first place come behind the second? -/
def isBehind (a b : Nat × Nat) : Bool := b.1 < a.1 || (a.1 == b.1 && b.2 < a.2)

/-- The text between the boundaries; empty if they are not both in the tree
of the first, or in the wrong order. -/
def text (r : Range) : Text :=
  match treeRoot? r.start.container with
  | none => []
  | some root =>
    let marks := Mark.ofNode root
    match r.start.locate marks, r.stop.locate marks with
    | some start, some stop => if isBehind start stop then [] else cut start stop 0 marks
    | _, _ => []

end Range

end Locator

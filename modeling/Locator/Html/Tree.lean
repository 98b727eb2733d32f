/-
Tokens as a tree

* `Frame`, `Builder`: the elements that are open, the innermost first, above
  the document, with what they hold so far;
* `implied`: the elements that markup may leave out and that are opened for it;
* `Builder.add`: what a token does to the open elements;
* `build`: the pieces of the document that a row of tokens makes, as deep as they may be.
-/
import Locator.Document.Markup
import Locator.Html.Token

namespace Locator.Html

/-- An open element with what it holds so far, the last piece first. The
document itself is the frame without a name. -/
structure Frame where
  name : Text
  attributes : List (Text × Text)
  held : List Markup

/-- The element that a frame becomes. -/
def Frame.toMarkup (f : Frame) : Markup :=
  .element ⟨none, none, f.name⟩ []
    (f.attributes.map fun a => ⟨⟨none, none, a.1⟩, a.2⟩) (Markup.joinTexts f.held.reverse)

/-- The frame of the document before anything has been read. -/
def Frame.document : Frame := ⟨[], [], []⟩

/-- A document that is being built. -/
structure Builder where
  /-- The open elements, the innermost first. -/
  opened : List Frame := []
  document : Frame := .document
  sawHead : Bool := false
  sawBody : Bool := false
  /-- How many starts have been passed over whose ends are to be, too. -/
  skipped : Nat := 0

namespace Builder

/-- The names of the open elements, the innermost first. -/
def names (b : Builder) : List Text := b.opened.map Frame.name

/-- The name of the innermost open element. -/
def current? (b : Builder) : Option Text := b.names.head?

/-- Adds a piece to the innermost open element, or to the document. -/
def hold (b : Builder) (m : Markup) : Builder :=
  match b.opened with
  | f :: rest => { b with opened := { f with held := m :: f.held } :: rest }
  | [] => { b with document := { b.document with held := m :: b.document.held } }

/-- Opens an element. -/
def push (b : Builder) (name : Text) (attributes : List (Text × Text)) : Builder :=
  { b with
    opened := ⟨name, attributes, []⟩ :: b.opened
    sawHead := b.sawHead || name == "head".toList || name == "body".toList
    sawBody := b.sawBody || name == "body".toList }

/-- Ends the innermost open element. -/
def pop (b : Builder) : Builder :=
  match b.opened with
  | f :: rest => { b with opened := rest }.hold f.toMarkup
  | [] => b

/-- Ends several elements, the innermost first. -/
def popMany : Nat → Builder → Builder
  | 0, b => b
  | n + 1, b => popMany n b.pop

/-- Ends the innermost elements that the start of an element ends. -/
def closeFor (b : Builder) (name : Text) : Builder :=
  popMany (b.names.takeWhile (closes name)).length b

/-- Opens the head if nothing but the root is open and there was none yet,
for an element that belongs there. -/
def impliedHead (b : Builder) : Builder :=
  if b.sawHead then b else b.push "head".toList []

/-- Opens the body if there was none yet and no head is open. -/
def impliedBody (b : Builder) : Builder :=
  if b.sawBody || b.names.contains "head".toList then b else b.push "body".toList []

/-- Opens the elements that are left out in front of an element. -/
def implied (b : Builder) (name : Text) : Builder :=
  if name == "html".toList then b
  else
    let b := if b.opened.isEmpty then b.push "html".toList [] else b
    if name == "body".toList || name == "head".toList then b
    else if b.opened.length ≤ 1 && headNames.contains name then b.impliedHead
    else if frameNames.contains name then b
    else b.impliedBody

/-- Does an element stand where it cannot: a second root or body, or a head
that is not directly in the root? -/
def isMisplaced (b : Builder) (name : Text) : Bool :=
  (name == "html".toList && !b.opened.isEmpty) ||
    (name == "head".toList && b.opened.length != 1) ||
    (name == "body".toList && b.names.contains name)

/-- The start of an element. -/
def start (b : Builder) (name : Text) (attributes : List (Text × Text)) (closed : Bool) :
    Builder :=
  let b := (b.closeFor name).implied name
  if b.isMisplaced name then { b with skipped := b.skipped + 1 }
  else
    let b := b.push name attributes
    if closed || isVoid name then b.pop else b

/-- How many open elements the end of an element ends: those down to the
first of its name, unless one that holds more firmly is open inside it. -/
def depthOf (name : Text) : List Text → Option Nat
  | [] => none
  | n :: ns =>
    if n == name then some 1
    else if rank name < rank n then none
    else (depthOf name ns).map (· + 1)

/-- Elements of which there is one in a document. -/
def isOutline (name : Text) : Bool :=
  name == "html".toList || name == "body".toList || name == "head".toList

/-- The end of an element. -/
def stop (b : Builder) (name : Text) : Builder :=
  if 0 < b.skipped && isOutline name then { b with skipped := b.skipped - 1 }
  else popMany ((depthOf name b.names).getD 0) b

/-- Is the innermost open element one that holds no text but blanks, or is
none open? -/
def needsBody (b : Builder) : Bool :=
  match b.current? with
  | none => true
  | some n => n == "html".toList || n == "head".toList

/-- Adds a text to an open element; outside all elements texts are nothing. -/
def holdText (b : Builder) (s : Text) : Builder :=
  if s.isEmpty || b.opened.isEmpty then b else b.hold (.text s)

/-- A text. Outside the body only the blanks in front stay where they are. -/
def text (b : Builder) (s : Text) : Builder :=
  if b.needsBody then
    let b := b.holdText (s.takeWhile isBlank)
    match s.dropWhile isBlank with
    | [] => b
    | rest =>
      let b := if b.current? == some "head".toList then b.closeFor ['p'] else b
      (b.implied ['p']).holdText rest
  else b.holdText s

/-- What a token does to the open elements. -/
def add (b : Builder) : Token → Builder
  | .start name attributes closed => b.start name attributes closed
  | .stop name => b.stop name
  | .text s => b.text s
  | .comment s => b.hold (.comment s)

/-- The pieces of the document, once everything is ended. -/
def finish (b : Builder) : List Markup :=
  (popMany b.opened.length b).document.held.reverse

end Builder

/-- The pieces of the document that a row of tokens makes. -/
def build (ts : List Token) : List Markup := (ts.foldl Builder.add {}).finish

end Locator.Html

/-
Markup: elements, texts, comments and instructions

* `Name`: a name with its prefix and namespace; `Name.expanded` is its
  spelling with the namespace in braces;
* `Markup`: a tree of elements with texts, comments and instructions;
* `Markup.content`: the text inside, comments and instructions left out;
* `Markup.weight`: how much there is to count in a piece;
* `Markup.leadingText`: the texts in front of the first other child.
-/
import Locator.Text.Basic

namespace Locator

/-- A name with its prefix and its namespace. -/
structure Name where
  pfx : Option Text := none
  uri : Option Text := none
  base : Text
  deriving Repr, DecidableEq

namespace Name

/-- The local part, behind the namespace in braces if there is one. -/
def expanded (n : Name) : Text :=
  match n.uri with
  | none => n.base
  | some u => '\x7b' :: u ++ '\x7d' :: n.base

/-- The local part, behind the prefix if there is one. -/
def qualified (n : Name) : Text :=
  match n.pfx with
  | none => n.base
  | some p => p ++ ':' :: n.base

end Name

/-- An attribute of an element. -/
structure Attribute where
  name : Name
  value : Text
  deriving Repr, DecidableEq

/-- A prefix, or none for unprefixed names, bound to a namespace. -/
structure Binding where
  pfx : Option Text
  uri : Text
  deriving Repr, DecidableEq

/-- A piece of a document. -/
inductive Markup
  | element (name : Name) (bindings : List Binding) (attributes : List Attribute)
      (children : List Markup)
  | text (s : Text)
  | comment (s : Text)
  | instruction (target data : Text)
  deriving Inhabited, Repr

namespace Markup

/-- The pieces inside an element; nothing is inside other pieces. -/
def children : Markup → List Markup
  | .element _ _ _ cs => cs
  | _ => []

/-- The attributes of an element. -/
def attributes : Markup → List Attribute
  | .element _ _ as _ => as
  | _ => []

/-- The bindings that an element declares. -/
def bindings : Markup → List Binding
  | .element _ bs _ _ => bs
  | _ => []

/-- The name of an element. -/
def name? : Markup → Option Name
  | .element n _ _ _ => some n
  | _ => none

/-- Is it an element? -/
def isElement (m : Markup) : Bool := m.name?.isSome

/-- Is it a text? -/
def isText : Markup → Bool
  | .text _ => true
  | _ => false

mutual
/-- The texts inside a piece, one after the other. -/
def content : Markup → Text
  | .element _ _ _ cs => contents cs
  | .text s => s
  | _ => []
/-- The texts inside pieces, one after the other. -/
def contents : List Markup → Text
  | [] => []
  | m :: ms => m.content ++ contents ms
end

mutual
/-- The number of pieces, bindings, attributes and characters of a piece and
of all inside it. -/
def weight : Markup → Nat
  | .element _ bs as cs =>
    1 + bs.length + as.foldr (fun a n => 1 + a.value.length + n) 0 + weights cs
  | .text s => 1 + s.length
  | .comment s => 1 + s.length
  | .instruction target data => 1 + target.length + data.length
/-- The number of pieces, bindings, attributes and characters of pieces and of
all inside them. -/
def weights : List Markup → Nat
  | [] => 0
  | m :: ms => m.weight + weights ms
end

/-- The texts in front of the first piece that is none. -/
def leadingText : List Markup → Text
  | .text s :: ms => s ++ leadingText ms
  | _ => []

/-- Texts that touch are one text, and empty ones are none. -/
def joinTexts : List Markup → List Markup
  | [] => []
  | .text s :: rest =>
    match joinTexts rest with
    | .text t :: others => .text (s ++ t) :: others
    | others => if s.isEmpty then others else .text s :: others
  | m :: rest => m :: joinTexts rest

mutual
/-- A piece at an address and all pieces inside it, each with its address, in
document order. -/
def located (a : List Nat) : Markup → List (List Nat × Markup)
  | .element n bs as cs => (a, .element n bs as cs) :: locatedFrom a 0 cs
  | m => [(a, m)]
/-- The pieces below an address and all inside them, from position `i` on. -/
def locatedFrom (a : List Nat) : Nat → List Markup → List (List Nat × Markup)
  | _, [] => []
  | i, m :: ms => m.located (i :: a) ++ locatedFrom a (i + 1) ms
end

end Markup

end Locator

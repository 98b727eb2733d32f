/-
Namespaces in scope

* `Scope`: the bindings in force at an element, the nearest first;
  `Scope.firsts` drops those that nearer ones hide;
* `Scope.enter`: the name, the bindings and the attributes of an element
  that is written with qualified names, and the scope inside it.
-/
import Locator.Document.Markup

namespace Locator

/-- The bindings in force, the nearest first. -/
abbrev Scope := List Binding

namespace Scope

/-- The namespace that is bound to the prefix `xml` from the start. -/
def xmlUri : Text := "http://www.w3.org/XML/1998/namespace".toList

/-- The binding that is there from the start. -/
def xmlBinding : Binding := ⟨some "xml".toList, xmlUri⟩

/-- The first binding of every prefix. -/
def firsts : Scope → Scope
  | [] => []
  | b :: bs => b :: (firsts bs).filter (fun c => c.pfx != b.pfx)

/-- The namespace of a prefix. An empty namespace is none. -/
def lookup (scope : Scope) (pfx : Option Text) : Option Text :=
  match scope.find? (fun b => b.pfx == pfx) with
  | some b => if b.uri.isEmpty then none else some b.uri
  | none => if pfx == some "xml".toList then some xmlUri else none

/-- The prefix and the local part of a qualified name. -/
def cut (s : Text) : Option Text × Text :=
  match Text.cutAt? ':' s with
  | some (p, base) => (some p, base)
  | none => (none, s)

/-- The binding that an attribute declares. -/
def binding? (name value : Text) : Option Binding :=
  if name == "xmlns".toList then some ⟨none, value⟩
  else (Text.behind? "xmlns:".toList name).map (fun p => ⟨some p, value⟩)

/-- A qualified name; without a prefix it is in the namespace `unprefixed`. Where the prefix
is bound to no namespace there is none, and the colon is part of the name. -/
def resolve (scope : Scope) (unprefixed : Option Text) (s : Text) : Name :=
  match cut s with
  | (some p, base) =>
    match scope.lookup (some p) with
    | some uri => ⟨some p, some uri, base⟩
    | none => ⟨none, none, s⟩
  | (none, base) => ⟨none, unprefixed, base⟩

/-- An element as it is written: its scope and the piece around `children`. -/
def enter (scope : Scope) (name : Text) (attributes : List (Text × Text)) :
    Scope × (List Markup → Markup) :=
  let own := attributes.filterMap (fun a => binding? a.1 a.2)
  let inner : Scope := own ++ scope
  let others := attributes.filter (fun a => (binding? a.1 a.2).isNone)
  (inner, .element (inner.resolve (inner.lookup none) name) own
    (others.map fun a => ⟨inner.resolve none a.1, a.2⟩))

end Scope

end Locator

/-
Options for making paths

* `Options`: what a caller may ask for, each part perhaps left open;
* `Options.merge`: the wishes of the first caller with those of the second
  above them;
* `Settings`: the wishes with every part settled (`Settings.of`).
-/
import Locator.Document.Thing

namespace Locator

/-- When a step gets a position. -/
inductive IndexStrategy
  /-- Where another element of the name stands beside. -/
  | auto
  | always
  | never
  deriving Repr, DecidableEq

namespace IndexStrategy

/-- The name of a strategy. -/
def name : IndexStrategy → Text
  | .auto => "auto".toList
  | .always => "always".toList
  | .never => "never".toList

/-- The strategy of a name, letter case and blanks around it apart; `auto`
for any other text. -/
def ofText (s : Text) : IndexStrategy :=
  let key := Text.lower (Text.strip s)
  if key == "always".toList then .always
  else if key == "never".toList then .never
  else .auto

end IndexStrategy

/-- What a caller asks for; what is left open has no value. -/
structure Options where
  preferId : Option Bool := none
  attributes : Option (List Text) := none
  strategy : Option Text := none
  root : Thing := .nothing
  namespaces : Option (List (Text × Text)) := none

/-- The options with every part settled. -/
structure Settings where
  preferId : Bool
  attributes : List Text
  strategy : IndexStrategy
  root : Thing
  namespaces : Option (List (Text × Text))

/-- The attributes that are tried when none are asked for. -/
def defaultAttributes : List Text :=
  ["data-testid".toList, "data-test".toList, "aria-label".toList,
   "aria-labelledby".toList, "name".toList, "class".toList]

namespace Options

/-- Two wishes for one part; an empty list of attributes is no wish. -/
def mergeAttributes (below above : Option (List Text)) : Option (List Text) :=
  match above with
  | some (a :: as) => some (a :: as)
  | _ => below

/-- Two wishes for one part; an empty text is no wish. -/
def mergeStrategy (below above : Option Text) : Option Text :=
  match above with
  | some (c :: r) => some (c :: r)
  | _ => below

/-- The second root, unless it is nothing. -/
def mergeRoot (below above : Thing) : Thing := if above.isNothing then below else above

/-- The wishes of the second caller above those of the first, part by
part. -/
def mergeParts (below above : Options) : Options where
  preferId := above.preferId.or below.preferId
  attributes := mergeAttributes below.attributes above.attributes
  strategy := mergeStrategy below.strategy above.strategy
  root := mergeRoot below.root above.root
  namespaces := above.namespaces.or below.namespaces

/-- The wishes of two callers, either of whom may have none. -/
def merge : Option Options → Option Options → Option Options
  | none, above => above
  | below, none => below
  | some below, some above => some (mergeParts below above)

end Options

namespace Settings

/-- The settings without any wishes. -/
def default : Settings := ⟨true, defaultAttributes, .auto, .nothing, none⟩

/-- The named attributes that are asked for, or the usual ones if there are
none. -/
def attributesOf (asked : Option (List Text)) : List Text :=
  match (asked.getD []).filter (fun a => !a.isEmpty) with
  | [] => defaultAttributes
  | as => as

/-- The settings of options. -/
def of : Option Options → Settings
  | none => default
  | some o =>
    { preferId := o.preferId.getD true
      attributes := attributesOf o.attributes
      strategy := .ofText (o.strategy.getD [])
      root := o.root
      namespaces := o.namespaces }

/-- The options that ask for these settings. -/
def toOptions (s : Settings) : Options :=
  ⟨some s.preferId, some s.attributes, some s.strategy.name, s.root, s.namespaces⟩

end Settings

end Locator

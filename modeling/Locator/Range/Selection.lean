/-
Selections and their paths

* `Selection`: ranges one behind the other;
* `Generator.describe`: the text of a selection with the paths of the
  elements around the first of its ranges.
-/
import Locator.Range.Basic
import Locator.Generator.Basic

namespace Locator

/-- Ranges one behind the other. -/
structure Selection where
  ranges : List Range := []

namespace Selection

/-- The number of ranges. -/
def size (s : Selection) : Nat := s.ranges.length

/-- The range at a position. -/
def range (s : Selection) (i : Int) : Outcome Range :=
  if i < 0 then .error (.noRange i)
  else
    match s.ranges[i.toNat]? with
    | some r => .ok r
    | none => .error (.noRange i)

/-- The selection with one more range. -/
def add (s : Selection) (r : Range) : Selection := ⟨s.ranges ++ [r]⟩

/-- The texts of the ranges, one after the other. -/
def text (s : Selection) : Text := s.ranges.flatMap Range.text

end Selection

/-- What is known of a selection: its text, a copy of its first range, and
the paths of the elements around the start, the end and both. -/
structure SelectionPaths where
  text : Text := []
  range : Option Range := none
  start : Option Text := none
  stop : Option Text := none
  common : Option Text := none

namespace Generator

/-- The path of an element, if there is one. -/
def pathOf? (g : Generator) (n : Option Node) (o : Option Options) : Traced (Option Text) :=
  match n with
  | none => .pure none
  | some n => do return some (← g.pathOf (.node n) o)

/-- The text of a selection and the paths around its first range. -/
def describe (g : Generator) (s : Option Selection) (o : Option Options) :
    Traced SelectionPaths :=
  match (s.map Selection.ranges).getD [] with
  | [] => .pure {}
  | first :: rest => do
    let r := first.clone
    let start := r.start.container.containing?
    let stop := r.stop.container.containing?
    let startPath ← g.pathOf? start o
    let stopPath ← g.pathOf? stop o
    let common ← g.commonPath (r.holders.map .node) o
    return ⟨(Selection.mk (first :: rest)).text, some r, startPath, stopPath, common⟩

end Generator

end Locator

/-
The journal of a program

* `Journal`: how much it records, and where the records go;
* `Journal.configure`: the journal for a run; what it writes to is set up
  once.
-/
namespace Locator

/-- How much is recorded, and where the records go. -/
structure Journal where
  /-- Records below this level are left out. -/
  level : Nat := 0
  /-- How many outlets write the records. -/
  outlets : Nat := 0
  /-- Do the records go to the journal around, too? -/
  propagates : Bool := true
  deriving Repr, DecidableEq

namespace Journal

/-- The level for details. -/
def detail : Nat := 10

/-- The level for what is of general interest. -/
def information : Nat := 20

/-- The journal for a run, in detail or not. -/
def configure (j : Journal) (verbose : Bool) : Journal :=
  let j := { j with level := if verbose then detail else information }
  if j.outlets == 0 then { j with outlets := 1, propagates := false } else j

/-- The journals of runs one after the other. -/
def configureAll (j : Journal) : List Bool → List Journal
  | [] => []
  | verbose :: rest =>
    let next := j.configure verbose
    next :: configureAll next rest

end Journal

end Locator

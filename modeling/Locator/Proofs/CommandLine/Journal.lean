/-
What the wish for details changes

* `Journal.outlets_configure`, `Journal.configure_configure`,
  `Journal.getElem?_configureAll`: **a journal is configured anew** by each run, and its outlet
  is set up by the first one;
* `answer_verbose`, `run_eq_of_verbose`: **the wish for details** changes nothing that the
  program writes itself;
* `foldl_journalBehind`: **behind several runs** the journal is that of the last one whose
  arguments were read.
-/
import Locator.CommandLine.Run
import Locator.Proofs.Outcome

namespace Locator

/-! ### Configurations -/

namespace Journal

/-- The first outlet is set up if there is none, and no further one. -/
lemma outlets_configure (j : Journal) (verbose : Bool) :
    (j.configure verbose).outlets = max 1 j.outlets := by
  cases h : j.outlets with
  | zero => simp [configure, h]
  | succ n => simp [configure, h]

/-- **Configured anew** it takes over the level alone. -/
theorem configure_configure (j : Journal) (first second : Bool) :
    (j.configure first).configure second = j.configure second := by
  cases h : j.outlets with
  | zero => simp [configure, h]
  | succ n => simp [configure, h]

/-- **Each journal** of several configurations is what one configuration makes of the first. -/
theorem getElem?_configureAll (j : Journal) (calls : List Bool) (i : Nat) :
    (j.configureAll calls)[i]? = calls[i]?.map j.configure := by
  induction calls generalizing j i with
  | nil => rfl
  | cons verbose calls ih =>
      cases i with
      | zero => rfl
      | succ i =>
          simp only [configureAll, List.getElem?_cons_succ, ih]
          exact congrArg (Option.map · _) (funext (j.configure_configure verbose))

end Journal

/-! ### Runs -/

namespace CommandLine

variable {w : World} {args args' : List Text} {g : Globals} {c : Command} {verbose : Bool}

/-- **The wish for details** leaves the answer to a command as it is. -/
theorem answer_verbose (w : World) (g : Globals) (c : Command) (verbose : Bool) :
    answer w { g with verbose := verbose } c = answer w g c := by
  cases c <;> rfl

/-- So arguments that differ in this wish alone make the program end alike. -/
theorem run_eq_of_verbose (h : readArguments args = .ok (g, c))
    (h' : readArguments args' = .ok ({ g with verbose := verbose }, c)) :
    run w args' = run w args := by
  simp only [run, h, h', answer_verbose]

/-- Is there a wish for details among arguments that are read? -/
def verbose? (args : List Text) : Option Bool :=
  (readArguments args).toOption.map fun p => p.1.verbose

/-- One run configures the journal if its arguments are read. -/
lemma journalBehind_eq (j : Journal) (args : List Text) :
    journalBehind j args = ((verbose? args).map j.configure).getD j := by
  rw [journalBehind, verbose?]
  cases readArguments args <;> rfl

/-- **Behind several runs** the journal is that of the last one whose arguments were read. -/
theorem foldl_journalBehind (j : Journal) (runs : List (List Text)) :
    runs.foldl journalBehind j =
      ((runs.filterMap verbose?).getLast?.map j.configure).getD j := by
  induction runs generalizing j with
  | nil => rfl
  | cons args runs ih =>
      rw [List.foldl_cons, ih, journalBehind_eq, List.filterMap_cons]
      cases verbose? args with
      | none => rfl
      | some v =>
          rw [List.getLast?_cons]
          cases (runs.filterMap verbose?).getLast? with
          | none => rfl
          | some last => exact j.configure_configure v last

end CommandLine

end Locator

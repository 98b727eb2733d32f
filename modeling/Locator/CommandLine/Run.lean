/-
Running the program

* `answer`: the result of a command, or why it has none;
* `Ending`, `run`: what the program writes and the status it ends with;
* `journalBehind`: the journal with which a command is run. What is recorded in it is no part
  of what the program writes.
-/
import Locator.CommandLine.Command
import Locator.Convert.ToCss
import Locator.Convert.ToXPath
import Locator.Journal
import Locator.Load.Basic
import Locator.Lookup
import Locator.Printing
import Locator.Range.Selection

namespace Locator.CommandLine

/-- A value of a record under its name. -/
def entry (name : String) (v : Value) : Text × Value := (name.toList, v)

/-- A text, if there is one. -/
def optional : Option Text → Value
  | some s => .text s
  | none => .none

/-- The first element that a selector matches in a document. -/
def firstMatch (d : Document) (selector : Text) (label : String) : Outcome Node := do
  match ← Lookup.query (.document d) selector with
  | n :: _ => return n
  | [] => .error (.noMatch label.toList selector)

/-- The request for a document that the options make. -/
def Globals.request (g : Globals) : Request where
  file := g.file
  url := g.url
  allowHttp := g.allowHttp

/-- The root that the options ask for. -/
def Globals.rootIn (g : Globals) (d : Document) : Outcome Thing :=
  match g.root with
  | some (c :: selector) => do
    return .node (← firstMatch d (c :: selector) "Root selector")
  | _ => .ok .nothing

/-- The wishes for paths that the options express. -/
def Globals.options (g : Globals) (d : Document) : Outcome Options := do
  let root ← g.rootIn d
  return {
    preferId := if g.noPreferId then some false else none
    attributes := if g.attributes.isEmpty then none else some g.attributes
    strategy := g.minIndex
    root := root }

/-- The path of the first element that a selector matches. -/
def pathAnswer (g : Globals) (d : Document) (selector : Text)
    (make : Generator → Node → Option Options → Traced Text) : Outcome Value := do
  let n ← firstMatch d selector "Selector"
  let options ← g.options d
  let path ← (make (.forDocument (.document d)) n options).outcome
  return .record [entry "selector" (.text selector), entry "xpath" (.text path)]

/-- What is known of an element that a path finds. -/
def foundAnswer (path : Text) (n : Node) : Value :=
  .record [
    entry "xpath" (.text path), entry "matched" (.bool true),
    entry "tag" (.text n.tag),
    entry "attributes" (.record (n.attributes.map fun a =>
      (a.name.expanded, .text a.value)))]

/-- The element that a path finds. -/
def resolveAnswer (g : Globals) (d : Document) (path : Text) : Outcome Value := do
  let options ← g.options d
  match ← (Generator.forDocument (.document d)).resolve path (.document d) options with
  | some n => return foundAnswer path n
  | none =>
    return .record [entry "xpath" (.text path), entry "matched" (.bool false)]

/-- The end of a selection: the first element that a selector matches, or the
start if there is no selector. -/
def selectionEnd (d : Document) (start : Node) : Option Text → Outcome Node
  | some (c :: selector) => firstMatch d (c :: selector) "End selector"
  | _ => .ok start

/-- The range from the content of an element up to the end of another. -/
def rangeOver (start stop : Node) : Range :=
  let r := Range.selectContents start
  if stop.same start then r else r.endAfter stop

/-- The text and the paths of a selection. -/
def inspectAnswer (g : Globals) (d : Document) (start : Text) (stop : Option Text) :
    Outcome Value := do
  let first ← firstMatch d start "Start selector"
  let last ← selectionEnd d first stop
  let options ← g.options d
  let generator := Generator.forDocument (.document d)
  let known ← (generator.describe (some ⟨[rangeOver first last]⟩) options).outcome
  let common ← match known.common with
    | some path => Except.ok (some path)
    | none => (generator.commonPath [.node first, .node last] options).outcome
  return .record [
    entry "text" (.text known.text), entry "startXPath" (optional known.start),
    entry "endXPath" (optional known.stop), entry "commonXPath" (optional common)]

/-- The result of a command. -/
def answer (w : World) (g : Globals) : Command → Outcome Value
  | .generate selector => do
    pathAnswer g (← load w g.request).document selector fun m n o => m.pathOf (.node n) o
  | .shortest selector => do
    pathAnswer g (← load w g.request).document selector fun m n o => m.shortest (.node n) o
  | .resolve path => do resolveAnswer g (← load w g.request).document path
  | .inspect start stop => do inspectAnswer g (← load w g.request).document start stop
  | .toXPath selector =>
    ((Css.toXPath (.text selector)).map Value.text).mapError .convert
  | .toCss path =>
    .ok (.record [entry "xpath" (.text path), entry "css" (optional (XPath.toCss path))])

/-- Failures that the program reports; others it does not expect. -/
def isReported : Failure → Bool
  | .selector (.malformed _) => true
  | .selector (.unknown _) => true
  | .convert _ => true
  | .unsupported _ => true
  | .load _ => true
  | .noRoot => true
  | .outsideRoot => true
  | .noMatch _ _ => true
  | _ => false

/-- A result as the program writes it: a text stands for itself unless
everything is to be JSON. -/
def written (asJson : Bool) : Value → Text
  | .text s => (if asJson then Value.jsonText s else s) ++ ['\n']
  | v => v.json ++ ['\n']

/-- How the program ends, apart from the records of the journal. -/
inductive Ending
  /-- The arguments ask for nothing to be done. -/
  | stopped (why : Stop)
  | done (output : Text)
  | failed (message : Text)
  /-- A failure that the program does not expect. -/
  | unexpected (why : Failure)

/-- What the program does with its arguments. -/
def run (w : World) (args : List Text) : Ending :=
  match readArguments args with
  | .error why => .stopped why
  | .ok (globals, command) =>
    match answer w globals command with
    | .ok v => .done (written globals.json v)
    | .error e => if isReported e then .failed (e.message ++ ['\n']) else .unexpected e

/-- The journal behind a run: it is configured once the arguments are read, in front of the
command, and arguments that are refused leave it as it is. -/
def journalBehind (before : Journal) (args : List Text) : Journal :=
  match readArguments args with
  | .error _ => before
  | .ok (globals, _) => before.configure globals.verbose

/-- The last line of the message about refused arguments. -/
def Stop.message : Stop → Text
  | .usage program m => program ++ ": error: ".toList ++ m
  | .help program => "usage: ".toList ++ program ++ " [options] command ...".toList
  | .version => programName

/-- The status that the program ends with; unexpected failures have none of
their own. -/
def Ending.status : Ending → Nat
  | .stopped (.usage _ _) => 2
  | .stopped _ => 0
  | .done _ => 0
  | .failed _ => 2
  | .unexpected _ => 1

end Locator.CommandLine

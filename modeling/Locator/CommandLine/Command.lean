/-
Commands and what is asked for beside them

* `Command`: what the program is to do;
* `Globals`: the options in front of the command;
* `readArguments`: both, from the arguments of the command line.
-/
import Locator.CommandLine.Arguments

namespace Locator.CommandLine

/-- What the program is to do. -/
inductive Command
  | generate (selector : Text)
  | shortest (selector : Text)
  | resolve (path : Text)
  | inspect (start : Text) (stop : Option Text)
  | toXPath (selector : Text)
  | toCss (path : Text)
  deriving Repr, DecidableEq

/-- Does a command work on a document? -/
def Command.needsDocument : Command → Bool
  | .toXPath _ | .toCss _ => false
  | _ => true

/-- The kinds of commands. -/
inductive Kind
  | generate | shortest | resolve | inspect | toXPath | toCss
  deriving Repr, DecidableEq

namespace Kind

/-- All kinds of commands. -/
def all : List Kind := [.generate, .shortest, .resolve, .inspect, .toXPath, .toCss]

/-- How a command is written. -/
def name : Kind → Text
  | .generate => "generate".toList
  | .shortest => "shortest".toList
  | .resolve => "resolve".toList
  | .inspect => "inspect-selection".toList
  | .toXPath => "css-to-xpath".toList
  | .toCss => "xpath-to-css".toList

/-- The kind of command that a text names. -/
def ofName? (s : Text) : Option Kind := all.find? fun k => k.name == s

/-- The operand of a command. -/
def operand : Kind → Operand
  | .resolve | .toCss => .one "xpath".toList
  | .inspect => .nothing
  | _ => .one "selector".toList

/-- The command of a kind with what has been read for it. -/
def command (k : Kind) (f : Found) : Command :=
  let operand := f.operand.getD []
  match k with
  | .generate => .generate operand
  | .shortest => .shortest operand
  | .resolve => .resolve operand
  | .inspect => .inspect ((f.value? .start).getD []) (f.value? .stop)
  | .toXPath => .toXPath operand
  | .toCss => .toCss operand

end Kind

/-- The name of the program. -/
def programName : Text := "domxpath".toList

/-- The level in front of the command. -/
def programLevel : Level where
  program := programName
  switches := [.help, .file, .url, .allowHttp, .json, .verbose, .noPreferId, .preferAttr,
    .minIndex, .root, .version]
  operand := .command

/-- The level of a command. -/
def Kind.level (k : Kind) : Level where
  program := programName ++ ' ' :: k.name
  switches := if k == .inspect then [.help, .start, .stop] else [.help]
  operand := k.operand
  required := if k == .inspect then [.start] else []

/-- The options in front of the command. -/
structure Globals where
  file : Option Text := none
  url : Option Text := none
  allowHttp : Bool := false
  json : Bool := false
  verbose : Bool := false
  noPreferId : Bool := false
  attributes : List Text := []
  minIndex : Option Text := none
  root : Option Text := none
  deriving Repr, DecidableEq

/-- The options that have been read in front of the command. -/
def Globals.of (f : Found) : Globals where
  file := f.value? .file
  url := f.value? .url
  allowHttp := f.has .allowHttp
  json := f.has .json
  verbose := f.has .verbose
  noPreferId := f.has .noPreferId
  attributes := f.values .preferAttr
  minIndex := f.value? .minIndex
  root := f.value? .root

/-- The kind of command that an argument names, or the refusal of it. -/
def readKind (s : Text) : Except Stop Kind :=
  match Kind.ofName? s with
  | some k => .ok k
  | none => programLevel.refuse ("argument command: invalid choice: ".toList ++
      Text.quoted s ++ " (choose from ".toList ++
      Text.join ", ".toList (Kind.all.map fun k => Text.quoted k.name) ++ [')'])

/-- The options and the command that the arguments ask for. -/
def readArguments (args : List Text) : Except Stop (Globals × Command) := do
  let found ← readLevel programLevel args
  let kind ← readKind (found.command.headD [])
  let inner ← readLevel kind.level found.command.tail
  match found.extras ++ inner.extras with
  | [] => return (Globals.of found, kind.command inner)
  | extras =>
    programLevel.refuse ("unrecognized arguments: ".toList ++ Text.join [' '] extras)

end Locator.CommandLine

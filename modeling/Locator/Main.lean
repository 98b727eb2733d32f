/-
The program

* `main`: reads what the arguments ask for, runs the command and writes what
  it has to say.
-/
import Locator.CommandLine.Run

open Locator

/-- All bytes of a stream. -/
partial def readAll (stream : IO.FS.Stream) (found : ByteArray) : IO ByteArray := do
  let more ← stream.read 65536
  if more.isEmpty then return found else readAll stream (found ++ more)

/-- The bytes of a file. -/
def readFileAt (path : Text) : IO (Except FileError ByteArray) := do
  try
    return .ok (← IO.FS.readBinFile (String.ofList path))
  catch e =>
    match e with
    | .noFileOrDirectory .. => return .error .missing
    | _ => return .error .isDirectory

/-- A world without a browser, where `file` is all that a path leads to. -/
def worldOf (file : Except FileError ByteArray) (input : Text) : World where
  read := fun _ => file
  render := fun _ => .error .noBrowser
  input := input

/-- The part of the world that a command needs. -/
def worldFor (globals : CommandLine.Globals) (command : CommandLine.Command) : IO World := do
  let nothing := worldOf (.error .missing) []
  if !command.needsDocument then return nothing
  else
    match Origin.of globals.request with
    | .ok (.file path) => return worldOf (← readFileAt (shownPath path)) []
    | .ok .input =>
      let bytes ← readAll (← IO.getStdin) ByteArray.empty
      let text := ((String.fromUTF8? bytes).map String.toList).getD []
      return worldOf (.error .missing) (Text.unifyLines text)
    | _ => return nothing

/-- Runs the program. -/
def main (args : List String) : IO UInt32 := do
  let args := args.map String.toList
  let world ← match CommandLine.readArguments args with
    | .ok (globals, command) => worldFor globals command
    | .error _ => pure (worldOf (.error .missing) [])
  let ending := CommandLine.run world args
  match ending with
  | .stopped why =>
    let line := String.ofList why.message
    if ending.status == 0 then IO.println line else IO.eprintln line
  | .done output => IO.print (String.ofList output)
  | .failed message => IO.eprint (String.ofList message)
  | .unexpected why => IO.eprintln (String.ofList why.message)
  return ending.status.toUInt32

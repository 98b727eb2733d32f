/-
Files below one directory

* `shownPath`: a path without steps that lead nowhere;
* `Files`: files by their paths below one directory;
* `Files.read`: the bytes of the file at a path, or why there are none.
-/
import Locator.Failure
import Locator.Text.Quoted

namespace Locator

/-- Why a file cannot be read. -/
inductive FileError
  | missing
  | notDirectory
  | isDirectory
  | nameTooLong
  deriving Repr, DecidableEq

namespace FileError

/-- The number of an error. -/
def number : FileError → Nat
  | .missing => 2
  | .notDirectory => 20
  | .isDirectory => 21
  | .nameTooLong => 36

/-- What an error says. -/
def reason : FileError → Text
  | .missing => "No such file or directory".toList
  | .notDirectory => "Not a directory".toList
  | .isDirectory => "Is a directory".toList
  | .nameTooLong => "File name too long".toList

/-- The message of an error at a path. -/
def message (e : FileError) (path : Text) : Text :=
  "[Errno ".toList ++ Text.decimal e.number ++ "] ".toList ++ e.reason ++ ": ".toList ++
    Text.quoted path

end FileError

/-- The steps of a path that lead somewhere. -/
def pathSteps (s : Text) : List Text :=
  (Text.splitOn ['/'] s).filter fun p => !p.isEmpty && p != ['.']

/-- The slashes in front of a path: two are kept, more count as one. -/
def pathRoot (s : Text) : Text :=
  match (s.takeWhile (· == '/')).length with
  | 0 => []
  | 2 => ['/', '/']
  | _ => ['/']

/-- A path without steps that lead nowhere. -/
def shownPath (s : Text) : Text :=
  match pathRoot s ++ Text.join ['/'] (pathSteps s) with
  | [] => ['.']
  | p => p

/-- Files by the steps of their paths below one directory. -/
abbrev Files := List (List Text × ByteArray)

namespace Files

/-- The number of bytes of a text. -/
def byteLength (s : Text) : Nat := s.foldl (fun n c => n + c.utf8Size) 0

/-- Is the directory `dir` there? -/
def hasDirectory (fs : Files) (dir : List Text) : Bool :=
  dir.isEmpty || fs.any fun f => dir.length < f.1.length && dir.isPrefixOf f.1

/-- Where a way along steps has come to: into the directory or below it, or
out of it. -/
inductive Stand
  | below (dir : List Text)
  | outside

/-- Follows the steps of a path. Nothing is known outside the directory. -/
def follow (fs : Files) : Stand → List Text → Except FileError ByteArray
  | _, [] => .error .isDirectory
  | .outside, step :: rest =>
    if step == "..".toList then follow fs .outside rest else .error .missing
  | .below dir, step :: rest =>
    if step == "..".toList then
      follow fs (if dir.isEmpty then .outside else .below dir.dropLast) rest
    else if 255 < byteLength step then .error .nameTooLong
    else
      match fs.find? fun f => f.1 == dir ++ [step] with
      | some f => if rest.isEmpty then .ok f.2 else .error .notDirectory
      | none =>
        if fs.hasDirectory (dir ++ [step]) then follow fs (.below (dir ++ [step])) rest
        else .error .missing

/-- The bytes of the file at a path. -/
def read (fs : Files) (path : Text) : Except FileError ByteArray :=
  if 4096 ≤ byteLength (shownPath path) then .error .nameTooLong
  else follow fs (if path.head? == some '/' then .outside else .below []) (pathSteps path)

end Files

end Locator

/-
The normal form of a path text

* `XPath.normalize`: no blanks in front, no blanks or slashes at the end,
  and never more than two slashes in a row;
* `XPath.dropIndex`: a step without the position at its end;
* `XPath.candidates`: the shorter spellings of a path, shortest first.
-/
import Locator.Text.Class

namespace Locator.XPath

/-- A slash or a blank. -/
def isSlashOrBlank (c : Char) : Bool := c == '/' || Text.isBlank c

/-- Shortens every run of slashes to two; `run` slashes of the present run
have been kept. -/
def squeezeFrom : Nat → Text → Text
  | _, [] => []
  | run, c :: r =>
    if c == '/' then
      if run < 2 then '/' :: squeezeFrom (run + 1) r else squeezeFrom run r
    else c :: squeezeFrom 0 r

/-- Shortens every run of slashes to two. -/
def squeeze (s : Text) : Text := squeezeFrom 0 s

/-- The normal form of a path text. -/
def normalize (s : Text) : Text :=
  squeeze (Text.dropEnd isSlashOrBlank (Text.strip s))

/-- The text before a position in brackets at its end, read backwards. -/
def dropIndexReversed? : Text → Option Text
  | ']' :: r =>
    match r.takeWhile Text.isDigit, r.dropWhile Text.isDigit with
    | _ :: _, '[' :: rest => some rest
    | _, _ => none
  | _ => none

/-- A step without the position at its end, a final line feed apart. -/
def dropIndex (s : Text) : Text :=
  match s.reverse with
  | '\n' :: r => ((dropIndexReversed? r).getD r).reverse ++ ['\n']
  | r => ((dropIndexReversed? r).getD r).reverse

/-- The steps as a path: `start` in front, and a slash between each two. -/
def path (start : Text) (steps : List Text) : Text :=
  start ++ Text.join ['/'] steps

/-- The non-empty endings of a list, longest first. -/
def suffixes {α : Type} : List α → List (List α)
  | [] => []
  | a :: as => (a :: as) :: suffixes as

/-- A list without its later repetitions. -/
def dedup : List Text → List Text
  | [] => []
  | a :: as => a :: (dedup as).filter (· ≠ a)

/-- All spellings in order of generation: the whole path with and without its
positions, then each of its endings behind a double slash, both ways. -/
def spellings (steps : List Text) : List Text :=
  let bare := steps.map dropIndex
  path ['/'] steps :: path ['/'] bare ::
    ((suffixes steps).zip (suffixes bare)).flatMap
      (fun s => [path ['/', '/'] s.1, path ['/', '/'] s.2])

/-- The distinct spellings in normal form, shortest first; those of one
length keep their order. -/
def candidates (steps : List Text) : List Text :=
  if steps.isEmpty then []
  else
    let forms := ((spellings steps).map normalize).filter (fun s => !s.isEmpty)
    (dedup forms).mergeSort (fun a b => a.length ≤ b.length)

end Locator.XPath

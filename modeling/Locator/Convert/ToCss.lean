/-
From paths back to selectors

* `XPath.segments`: the steps of a path with the axes in front of them;
* `XPath.predicates`: the predicates behind the name of a step;
* `XPath.testOf`: the test that a condition states, if a selector has it;
* `XPath.segmentToCss`, `XPath.toCss`: the selector of a step and of a union
  of paths; `none` if any part has no selector.
-/
import Locator.Text.TopLevel
import Locator.XPath.Normal
import Locator.Css.Compound

namespace Locator.XPath

open Locator.Css (Combinator Test Compound Step Chain)

/-- A step of a path as it is written. -/
structure Segment where
  combinator : Combinator
  text : Text
  deriving Repr, DecidableEq

/-- The nesting behind a character, where only square brackets nest. -/
def nextInStep (n : Text.Nesting) (c : Char) : Text.Nesting := n.next ['['] [']'] c

/-- The text up to the first slash outside quotation marks and brackets, and
the rest from that slash on. -/
def cutStep : Text.Nesting → Text → Text × Text
  | _, [] => ([], [])
  | n, c :: r =>
    if n.quote.isNone && n.depth == 0 && c == '/' then ([], c :: r)
    else
      let (head, rest) := cutStep (nextInStep n c) r
      (c :: head, rest)

/-- The axis written by the slashes in front of a text, and the rest; the
axis before stays if there are none. -/
def readAxis (before : Combinator) : Text → Combinator × Text
  | '/' :: '/' :: r => (.descendant, r)
  | '/' :: r => (.child, r)
  | s => (before, s)

/-- The steps of a text; `fuel` bounds the number of its slashes. -/
def segmentsFrom : Nat → Combinator → Text → List Segment
  | _, _, [] => []
  | 0, _, _ :: _ => []
  | fuel + 1, before, c :: r =>
    let (combinator, body) := readAxis before (c :: r)
    let (head, rest) := cutStep .outside body
    let others := segmentsFrom fuel combinator rest
    if head.isEmpty then others else ⟨combinator, head⟩ :: others

/-- The steps of a path. Each round takes a character at least, so that the
length of the text bounds the rounds. -/
def segments (path : Text) : List Segment :=
  segmentsFrom path.length .descendant path

/-- The text before the bracket that closes the first one, and what follows
it; `none` if it is never closed. -/
def cutPredicate : Text.Nesting → Text → Option (Text × Text)
  | _, [] => none
  | n, c :: r =>
    if n.quote.isNone && n.depth == 1 && c == ']' then some ([], r)
    else do
      let (head, rest) ← cutPredicate (nextInStep n c) r
      return (c :: head, rest)

/-- The predicates of a text, one behind the other. -/
def predicatesFrom : Nat → Text → Option (List Text)
  | _, [] => some []
  | fuel + 1, '[' :: r => do
    let (body, rest) ← cutPredicate ⟨1, none⟩ r
    let inner := Text.strip body
    if inner.isEmpty then none
    else return inner :: (← predicatesFrom fuel rest)
  | _, _ => none

/-- The predicates behind the name of a step; `none` if anything else stands
there, or a predicate is blank or not closed. -/
def predicates (s : Text) : Option (List Text) := predicatesFrom s.length s

/-- Passes over blanks. -/
def skip (s : Text) : Text := s.dropWhile Text.isBlank

/-- Passes over blanks, then `word`, then blanks. -/
def skipWord (word : Text) (s : Text) : Option Text :=
  (Text.behind? word (skip s)).map skip

/-- The text between quotation marks that is all that is left. -/
def quotedRest? : Text → Option Text
  | [] => none
  | q :: r =>
    if Text.isQuote q && r.getLast? == some q && !r.dropLast.contains q then
      some r.dropLast
    else none

/-- The name and the value of an attribute that is compared by `=`. -/
def attributeEquals? : Text → Option (Text × Text)
  | '@' :: s => do
    let (name, r) ← Text.ident? s
    let r ← skipWord ['='] r
    return (name, ← quotedRest? r)
  | _ => none

/-- The word that a condition looks for in the class attribute. -/
def classToken? (s : Text) : Option Text := do
  let r ← Text.behind? "contains(".toList s
  let r ← skipWord "concat(".toList r
  let r ← skipWord "' '".toList r
  let r ← skipWord [','] r
  let r ← skipWord "normalize-space(".toList r
  let r ← skipWord "@class".toList r
  let r ← skipWord [')'] r
  let r ← skipWord [','] r
  let r ← skipWord "' '".toList r
  let r ← skipWord [')'] r
  let r ← skipWord [','] r
  let r ← Text.behind? "' ".toList r
  let word := r.takeWhile (fun c => c != '\'' && !Text.isBlank c)
  let r ← Text.behind? " '".toList (r.drop word.length)
  if word.isEmpty then none
  else if skip r == [')'] then some word
  else none

/-- The digits that a condition compares the position with. -/
def position? (s : Text) : Option Text := do
  let r ← Text.behind? "position()".toList s
  let r ← skipWord ['='] r
  if !r.isEmpty && r.all Text.isDigit then some r else none

/-- The test that a condition states, if a selector has it. -/
def testOf (condition : Text) : Option Test :=
  match attributeEquals? condition with
  | some (name, value) =>
    if name == "id".toList && Css.isPlainIdent value then some (.id value)
    else some (.compare name .equals value)
  | none =>
    match classToken? condition with
    | some word =>
      if Css.isPlainIdent word then some (.classToken word)
      else some (.compare "class".toList .hasWord word)
    | none => (position? condition).map .nthOfType

/-- The conditions of a predicate, joined by `and`. -/
def conditions (predicate : Text) : List Text :=
  (Text.splitTop " and ".toList predicate).map Text.strip

/-- The name of a step, or the asterisk, and the rest. -/
def readName (s : Text) : Option (Text × Text) :=
  match s with
  | '*' :: r => some (['*'], r)
  | _ => Text.ident? s

/-- The compound of a step. -/
def compoundOf (segment : Text) : Option Compound := do
  let (tag, r) ← readName (Text.strip segment)
  let ps ← predicates r
  let tests ← (ps.flatMap conditions).mapM testOf
  return ⟨tag, tests⟩

/-- The selector of a step. -/
def segmentToCss (segment : Text) : Option Text :=
  (compoundOf segment).map Compound.toCss

/-- The steps of a path that has a selector. -/
def chainOf (path : Text) : Option Chain :=
  match segments path with
  | [] => none
  | ss => ss.mapM fun s => return ⟨s.combinator, ← compoundOf s.text⟩

/-- The selector of a union of paths. -/
def toCss (path : Text) : Option Text :=
  match normalize path with
  | [] => none
  | s => do
    let chains ← (Text.splitTop ['|'] s).mapM (fun b => chainOf (Text.strip b))
    return Text.join ", ".toList (chains.map Chain.toCss)

end Locator.XPath

/-
From selectors to paths

* `Css.compoundTexts`: the compounds of a group with their combinators;
* `Css.readAttribute`, `Css.readCompound`: the tests of a compound;
* `Css.groupToXPath`, `Css.toXPath`: the path of a group, and the union of
  the paths of all groups that have one.
-/
import Locator.Text.TopLevel
import Locator.Css.Compound
import Locator.Convert.Error
import Locator.Value

namespace Locator.Css

/-- The text of a compound and its combinator. -/
structure CompoundText where
  combinator : Combinator
  text : Text
  deriving Repr, DecidableEq

/-- What was collected, if it is more than blanks; `collected` is read
backwards. -/
def flush (pending : Combinator) (collected : Text) : List CompoundText :=
  let s := Text.strip collected.reverse
  if s.isEmpty then [] else [⟨pending, s⟩]

/-- The compound texts of the rest of a group, at `depth` open square brackets. -/
def compoundTextsFrom (pending : Combinator) (depth : Nat) (collected : Text) :
    Text → List CompoundText
  | [] => flush pending collected
  | c :: r =>
    if c == '[' then compoundTextsFrom pending (depth + 1) (c :: collected) r
    else if c == ']' then compoundTextsFrom pending (depth - 1) (c :: collected) r
    else if depth == 0 && c == '>' then
      flush pending collected ++ compoundTextsFrom .child 0 [] r
    else if depth == 0 && Text.isCssSpace c then
      if collected.isEmpty then compoundTextsFrom pending 0 [] r
      else flush pending collected ++ compoundTextsFrom .descendant 0 [] r
    else compoundTextsFrom pending depth (c :: collected) r

/-- The compound texts of a group. Blanks and `>` outside square brackets
part them, and `>` makes the next one a child. -/
def compoundTexts (group : Text) : List CompoundText := compoundTextsFrom .descendant 0 [] group

/-- The groups of a selector: its non-blank parts between the commas outside
quotation marks and brackets. -/
def groups (selector : Text) : List Text :=
  ((Text.splitTop [','] selector).map Text.strip).filter (fun s => !s.isEmpty)

/-- The value of an attribute test without its quotation marks: a pair of
them is taken off once, and marks that are no pair at both ends. -/
def unquote (s : Text) : Text :=
  let t := Text.strip s
  match t with
  | c :: (d :: r) =>
    if Text.isQuote c && (d :: r).getLast? == some c then (d :: r).dropLast
    else Text.stripBy Text.isQuote t
  | _ => Text.stripBy Text.isQuote t

/-- The comparison written by a sign, and the text behind the sign. -/
def comparison? : Text → Option (Comparison × Text)
  | '=' :: r => some (.equals, r)
  | '*' :: '=' :: r => some (.contains, r)
  | '^' :: '=' :: r => some (.startsWith, r)
  | '$' :: '=' :: r => some (.endsWith, r)
  | '|' :: '=' :: r => some (.dash, r)
  | '~' :: '=' :: r => some (.hasWord, r)
  | _ => none

/-- The test between the square brackets of an attribute selector. -/
def readAttribute (body : Text) : Except Unsupported Test :=
  match Text.ident? body with
  | none => .error (.malformedAttribute body)
  | some (name, r) =>
    match r.dropWhile Text.isBlank with
    | [] => .ok (.present name)
    | rest =>
      match comparison? rest with
      | some (how, value) =>
        .ok (.compare name how (unquote (value.dropWhile Text.isBlank)))
      | none => .error (.malformedAttribute body)

/-- Does a character end the name behind `#` or `.`? -/
def endsName (c : Char) : Bool := c == '.' || c == '#' || c == '[' || c == ':'

/-- The digits of `:nth-of-type(…)`, the colon left out, and the rest. -/
def nthOfType? (s : Text) : Option (Text × Text) := do
  let r ← Text.behind? "nth-of-type(".toList s
  let r := r.dropWhile Text.isBlank
  let digits := r.takeWhile Text.isDigit
  if digits.isEmpty then none
  else match (r.dropWhile Text.isDigit).dropWhile Text.isBlank with
    | ')' :: rest => some (digits, rest)
    | _ => none

/-- The first test of a text that starts with `c` and goes on with `r`, and
what stands behind the test; `whole` is the compound for messages. -/
def readTest (whole : Text) (c : Char) (r : Text) :
    Except Unsupported (Test × Text) :=
  if c == '#' || c == '.' then
    let name := r.takeWhile (fun d => !endsName d)
    let rest := r.dropWhile (fun d => !endsName d)
    if name.isEmpty then .error (.missingName c whole)
    else .ok (if c == '#' then .id name else .classToken name, rest)
  else if c == '[' then
    match Text.cutAt? ']' r with
    | none => .error (.unclosedAttribute whole)
    | some (body, rest) => (readAttribute (Text.strip body)).map (·, rest)
  else if c == ':' then
    match nthOfType? r with
    | some (digits, rest) => .ok (.nthOfType digits, rest)
    | none => .error (.pseudoClass whole)
  else .error (.unexpected c whole)

/-- The tests of a text; at most `fuel` of them. -/
def readTests (whole : Text) : Nat → Text → Except Unsupported (List Test)
  | _, [] => .ok []
  | 0, _ :: _ => .ok []
  | fuel + 1, c :: r => do
    let (test, rest) ← readTest whole c r
    let others ← readTests whole fuel rest
    return test :: others

/-- The element name in front of a compound, and the rest. -/
def readTag (s : Text) : Text × Text :=
  match Text.ident? s with
  | some (name, r) => (name, r)
  | none =>
    match s with
    | '*' :: r => (['*'], r)
    | _ => (['*'], s)

/-- The compound of a text. Each test takes a character at least, so that the
length of the text bounds their number. -/
def readCompound (s : Text) : Except Unsupported Compound := do
  let (tag, r) := readTag s
  let tests ← readTests s r.length r
  return ⟨tag, tests⟩

/-- The path of a compound alone. -/
def compoundToXPath (s : Text) : Except Unsupported Text :=
  (readCompound s).map Compound.toXPath

/-- The steps of a group. -/
def readGroup (group : Text) : Except Unsupported Chain :=
  match compoundTexts group with
  | [] => .error (.emptyGroup group)
  | ts => ts.mapM fun t => return ⟨t.combinator, ← readCompound t.text⟩

/-- The path of a group. -/
def groupToXPath (group : Text) : Except Unsupported Text :=
  (readGroup group).map Chain.toXPath

/-- The path of an attribute test alone. -/
def attributeToXPath (body : Text) : Except Unsupported Text :=
  (readAttribute body).map Test.toXPath

/-- The union of the paths of all groups that have one. -/
def toXPath (selector : Value) : Except ConvertError Text :=
  let trimmed := Text.strip selector.textOrEmpty
  if trimmed.isEmpty then .error .empty
  else
    match (groups trimmed).filterMap (fun g => (groupToXPath g).toOption) with
    | [] => .error (.noGroup selector.display)
    | paths => .ok (Text.join " | ".toList paths)

end Locator.Css

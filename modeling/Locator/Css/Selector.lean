/-
Selectors as queries understand them

* `Selector`: a selector as a tree, the innermost part first;
* `Reading.compoundAt`: a compound, and the selectors in the parentheses of
  its tests;
* `Selector.readAll`: the selectors of a list, each with its pseudo-element. They may stand in
  each other to any depth.
-/
import Locator.Css.Token

namespace Locator.Css

/-- How an attribute is tested in a query. -/
inductive AttributeTest
  | exists_
  | equals
  | different
  | includes
  | dash
  | startsWith
  | endsWith
  | contains
  deriving Repr, DecidableEq

/-- The namespace that a name is asked for in. -/
inductive Space
  /-- Nothing is said. -/
  | unsaid
  /-- No namespace, a bar without a prefix. -/
  | bare
  /-- Any namespace, the asterisk before the bar. -/
  | any
  /-- The namespace of a prefix. -/
  | named (pfx : Text)
  deriving Repr, DecidableEq

/-- How an element is bound to the one before it. -/
inductive Relation
  | descendant
  | child
  /-- The next element beside it. -/
  | next
  /-- Any element behind it and beside it. -/
  | later
  deriving Repr, DecidableEq

/-- A selector as a tree. Each test stands around the selector that it
narrows. -/
inductive Selector
  /-- The element that a selector in `:has(…)` starts from. -/
  | anchor
  /-- Elements of a name, or of any name. -/
  | element (space : Space) (name : Option Text)
  | hash (s : Selector) (id : Text)
  | className (s : Selector) (name : Text)
  /-- The test of an attribute; `anyCase` if capitals count as small letters. -/
  | attribute (s : Selector) (space : Space) (name : Text)
      (test : AttributeTest) (value : Text) (anyCase : Bool)
  | pseudo (s : Selector) (name : Text)
  | function (s : Selector) (name : Text) (arguments : List Token)
  /-- The elements that another selector does not select. -/
  | negation (s : Selector) (other : Selector)
  /-- The elements from which one of other selectors leads somewhere. -/
  | relation (s : Selector) (others : List Selector)
  /-- The elements that one of other selectors selects. -/
  | matching (s : Selector) (others : List Selector)
  | combined (s : Selector) (how : Relation) (other : Selector)
  deriving Repr

/-- A step in reading selectors: it takes tokens from those that are left. -/
abbrev Reading := StateT Tokens (Except SelectorError)

namespace Reading

/-- Stops with a message. -/
def fail {α : Type} (message : Text) : Reading α := throw (.malformed message)

/-- The next token, left where it is. -/
def peek : Reading Token := do
  let s ← get
  match s.tokens with
  | t :: _ => return t
  | [] => throw s.stop

/-- The next token. -/
def next : Reading Token := do
  let s ← get
  match s.tokens with
  | t :: r => set { s with tokens := r }; return t
  | [] => throw s.stop

/-- Passes over blanks; there are several of them around comments. -/
def skipSpace : Reading Unit :=
  modify fun s => { s with tokens := s.tokens.dropWhile (·.kind == .space) }

/-- The next token, which must be a name. -/
def nextIdent : Reading Text := do
  let t ← next
  if t.kind == .ident then return t.value
  else fail ("Expected ident, got ".toList ++ t.shown)

/-- The next token, which must be a name or the asterisk. -/
def nextIdentOrStar : Reading (Option Text) := do
  let t ← next
  if t.kind == .ident then return some t.value
  else if t.isDelim '*' then return none
  else fail ("Expected ident or '*', got ".toList ++ t.shown)

/-- The arguments of a function up to the closing parenthesis; at most
`fuel` of them. -/
def arguments : Nat → Reading (List Token)
  | 0 => throw nothingLeft
  | fuel + 1 => do
    skipSpace
    let t ← next
    if t.kind == .ident || t.kind == .string || t.kind == .number ||
        t.isAnyDelim ['+', '-'] then
      return t :: (← arguments fuel)
    else if t.isDelim ')' then return []
    else fail ("Expected an argument, got ".toList ++ t.shown)

/-- The attribute test of a sign that an equals sign follows. -/
def testBefore? (t : Token) : Option AttributeTest :=
  if t.isDelim '^' then some .startsWith
  else if t.isDelim '$' then some .endsWith
  else if t.isDelim '*' then some .contains
  else if t.isDelim '~' then some .includes
  else if t.isDelim '|' then some .dash
  else if t.isDelim '!' then some .different
  else none

/-- The attribute test at the token `t`, with the tokens of its sign. -/
def attributeSign (t : Token) : Reading AttributeTest := do
  if t.isDelim '=' then return .equals
  let refusal := "Operator expected, got ".toList ++ t.shown
  match testBefore? t with
  | none => fail refusal
  | some test =>
    if (← peek).isDelim '=' then
      let _ ← next
      return test
    else fail refusal

/-- Does the letter of a flag stand here? -/
def isFlag (t : Token) (c : Char) : Bool := t.kind == .ident && Text.lower t.value == [c]

/-- The value of an attribute test up to the closing bracket, and whether a
flag asks for capitals to count as small letters. -/
def attributeValue : Reading (Text × Bool) := do
  skipSpace
  let value ← next
  if value.kind != .ident && value.kind != .string then
    fail ("Expected string or ident, got ".toList ++ value.shown)
  skipSpace
  let t ← next
  let anyCase := isFlag t 'i'
  let t ← if anyCase || isFlag t 's' then do
      skipSpace
      next
    else pure t
  if !t.isDelim ']' then fail ("Expected ']', got ".toList ++ t.shown)
  return (value.value, anyCase)

/-- What follows the name of an attribute. -/
def attributeTest (s : Selector) (space : Space) (name : Text) : Reading Selector := do
  skipSpace
  let t ← next
  if t.isDelim ']' then return .attribute s space name .exists_ [] false
  let test ← attributeSign t
  let (value, anyCase) ← attributeValue
  return .attribute s space name test value anyCase

/-- An attribute test behind its opening bracket. -/
def bracketed (s : Selector) : Reading Selector := do
  skipSpace
  if (← peek).isDelim '|' then
    let _ ← next
    return ← attributeTest s .bare (← nextIdent)
  let first ← nextIdentOrStar
  if first.isNone && !(← peek).isDelim '|' then
    fail ("Expected '|', got ".toList ++ (← peek).shown)
  if !(← peek).isDelim '|' then return ← attributeTest s .unsaid (first.getD [])
  let _ ← next
  match first with
  | none => attributeTest s .any (← nextIdent)
  | some name =>
    if (← peek).isDelim '=' then
      let _ ← next
      let (value, anyCase) ← attributeValue
      return .attribute s .unsaid name .dash value anyCase
    else attributeTest s (.named name) (← nextIdent)

/-- What a compound starts with: a name, perhaps with a namespace. -/
def elementName : Reading Selector := do
  let t ← peek
  if t.isDelim '|' then
    let _ ← next
    return .element .bare (← nextIdentOrStar)
  if t.kind != .ident && !t.isDelim '*' then return .element .unsaid none
  let first ← nextIdentOrStar
  if (← peek).isDelim '|' then
    let _ ← next
    return .element ((first.map Space.named).getD .any) (← nextIdentOrStar)
  else return .element .unsaid first

/-- The pseudo-elements that may stand behind a single colon. -/
def oldPseudoElements : List Text :=
  ["first-line".toList, "first-letter".toList, "before".toList, "after".toList]

/-- Stops if something follows a pseudo-element. -/
def checkLast (pseudoElement : Option Text) : Reading Unit :=
  match pseudoElement with
  | some p =>
    fail ("Got pseudo-element ::".toList ++ p ++ " not at the end of a selector".toList)
  | none => return

/-- A pseudo-element behind its two colons. -/
def pseudoElement (fuel : Nat) : Reading Text := do
  let name ← nextIdent
  if (← peek).isDelim '(' then
    let _ ← next
    let values := (← arguments fuel).map (fun t => Text.quoted t.value)
    return "FunctionalPseudoElement[::".toList ++ Text.lower name ++ "([".toList ++
      Text.join ", ".toList values ++ "])]".toList
  else return name

/-- A selector with its pseudo-element. -/
abbrev Found := Selector × Option Text

/-- Where a compound stands. -/
inductive Spot
  /-- It starts a selector. -/
  | start
  /-- It stands behind other compounds of a selector. -/
  | behind
  /-- It stands in `:not(…)`. -/
  | negated
  /-- It stands in `:has(…)`. -/
  | related
  /-- It stands in `:is(…)` or what means the same. -/
  | matched
  deriving Repr, DecidableEq

/-- Does a closing parenthesis end the compounds there? -/
def Spot.isInner (p : Spot) : Bool := p != .start && p != .behind

/-- How a sign binds what stands behind it. -/
def relationOf? (t : Token) : Option Relation :=
  if t.isDelim '>' then some .child
  else if t.isDelim '+' then some .next
  else if t.isDelim '~' then some .later
  else none

/-- How the next compound is bound; without a sign it may stand anywhere
inside. -/
def boundBy : Reading Relation := do
  match relationOf? (← peek) with
  | none => return .descendant
  | some how =>
    let _ ← next
    skipSpace
    return how

/-- Further compounds behind `c`, each read by `compound`; at most `fuel` of
them. -/
def combinations (isInner : Bool) (compound : Reading Found) : Nat → Found → Reading Found
  | 0, c => return c
  | fuel + 1, (s, p) => do
    skipSpace
    let t ← peek
    if t.kind == .done || t.isDelim ',' || (isInner && t.isDelim ')') then
      return (s, p)
    checkLast p
    let how ← boundBy
    let (right, p) ← compound
    combinations isInner compound fuel (.combined s how right, p)

/-- The selector alone at the token behind it; it must have no
pseudo-element. -/
def plain (function : Text) (found : Found) (t : Token) : Reading Selector :=
  match found with
  | (s, none) => return s
  | (_, some p) =>
    fail ("Got pseudo-element ::".toList ++ p ++ " inside :".toList ++ function ++
      "() at ".toList ++ Text.decimal t.position)

/-- The compounds of `:is(…)`, at most `fuel` of them. -/
def matchedList (compound : Spot → Reading Found) : Nat → Reading (List Selector)
  | 0 => throw nothingLeft
  | fuel + 1 => do
    let (s, p) ← compound .matched
    match p with
    | some p =>
      fail ("Got pseudo-element ::".toList ++ p ++ " inside function".toList)
    | none => pure ()
    skipSpace
    let t ← next
    if t.isDelim ',' then return s :: (← matchedList compound fuel)
    else if t.isDelim ')' then return [s]
    else fail ("Expected an argument, got ".toList ++ t.shown)

/-- The selector of `:not(…)`. -/
def negated (compound : Spot → Reading Found) (fuel : Nat) : Reading Selector := do
  let found ← combinations true (compound .negated) fuel (← compound .negated)
  let t ← next
  let s ← plain "not".toList found t
  if !t.isDelim ')' then fail ("Expected ')', got ".toList ++ t.shown)
  return s

/-- The selectors of `:has(…)`, at most `fuel` of them. -/
def relatedList (compound : Spot → Reading Found) : Nat → Reading (List Selector)
  | 0 => throw nothingLeft
  | fuel + 1 => do
    skipSpace
    let how ← boundBy
    let (first, p) ← compound .related
    let found ← combinations true (compound .related) fuel
      (.combined .anchor how first, p)
    let t ← next
    let s ← plain "has".toList found t
    if t.isDelim ',' then return s :: (← relatedList compound fuel)
    else if t.isDelim ')' then return [s]
    else fail ("Expected ')', got ".toList ++ t.shown)

/-- A pseudo-class with its parenthesis open. -/
def functionCall (compound : Spot → Reading Found) (spot : Spot) (s : Selector)
    (name : Text) (fuel : Nat) : Reading Selector := do
  skipSpace
  let lower := Text.lower name
  if lower == "not".toList then
    if spot == .negated then fail "Got nested :not()".toList
    if spot == .matched then
      fail ":not() is not supported inside :is(), :where() and :matches()".toList
    return .negation s (← negated compound fuel)
  else if lower == "has".toList then return .relation s (← relatedList compound fuel)
  else if lower == "matches".toList || lower == "is".toList ||
      lower == "where".toList then
    return .matching s (← matchedList compound fuel)
  else return .function s lower (← arguments fuel)

/-- A pseudo-class or a pseudo-element behind a colon. -/
def pseudoClass (compound : Spot → Reading Found) (spot : Spot) (s : Selector)
    (fuel : Nat) : Reading Found := do
  if (← peek).isDelim ':' then
    let _ ← next
    return (s, some (← pseudoElement fuel))
  let name ← nextIdent
  let lower := Text.lower name
  if oldPseudoElements.contains lower then return (s, some name)
  if (← peek).isDelim '(' then
    let _ ← next
    return (← functionCall compound spot s name fuel, none)
  if lower == "scope".toList && spot != .start then
    fail "Got pseudo-class \":scope\" not at the start of a selector".toList
  return (.pseudo s lower, none)

/-- The tests of a compound, at most `fuel` of them; `compound` reads those
inside parentheses. -/
def tests (compound : Spot → Reading Found) (spot : Spot) : Nat → Found → Reading Found
  | 0, found => return found
  | fuel + 1, (s, p) => do
    let t ← peek
    if t.kind == .space || t.kind == .done || t.isAnyDelim [',', '+', '>', '~'] ||
        (spot.isInner && t.isDelim ')') then
      return (s, p)
    checkLast p
    if t.kind == .hash then
      let t ← next
      tests compound spot fuel (.hash s t.value, none)
    else if t.isDelim '.' then
      let _ ← next
      tests compound spot fuel (.className s (← nextIdent), none)
    else if t.isDelim '[' then
      let _ ← next
      tests compound spot fuel (← bracketed s, none)
    else if t.isDelim ':' then
      let _ ← next
      tests compound spot fuel (← pseudoClass compound spot s fuel)
    else fail ("Expected selector, got ".toList ++ t.shown)

/-- A compound; `depth` bounds the parentheses that may be open in it. -/
def compoundAt : Nat → Spot → Reading Found
  | 0, _ => throw nothingLeft
  | depth + 1, spot => do
    skipSpace
    let before := (← get).tokens.length
    let s ← elementName
    let found ← tests (compoundAt depth) spot (before + 1) (s, none)
    if (← get).tokens.length == before then
      fail ("Expected selector, got ".toList ++ (← peek).shown)
    return found

/-- The selectors of a list, at most `fuel` of them. -/
def list (compound : Spot → Reading Found) : Nat → Reading (List Found)
  | 0 => return []
  | fuel + 1 => do
    let first ← compound .start
    let found ← combinations false (compound .behind) ((← get).tokens.length + 1) first
    if (← peek).isDelim ',' then
      let _ ← next
      skipSpace
      return found :: (← list compound fuel)
    else return [found]

end Reading

/-- The selectors of a list, each with its pseudo-element. Parentheses are
at most as deep as the text is long. -/
def Selector.readAll (s : Text) : Except SelectorError (List (Selector × Option Text)) := do
  let ts := tokenize s
  let action : Reading (List (Selector × Option Text)) := do
    Reading.skipSpace
    Reading.list (Reading.compoundAt (s.length + 1)) (ts.tokens.length + 1)
  let (found, _) ← action.run ts
  return found

end Locator.Css

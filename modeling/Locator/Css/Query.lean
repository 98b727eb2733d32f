/-
Selectors as path expressions

* `Query.literal`: a text as an expression, in single quotation marks where
  it can be;
* `Draft`: an unfinished expression, the steps so far, an element name and a
  condition; `Draft.text` leads to the elements, `Draft.test` tells whether
  an element is one of them;
* `Selector.draft`: the expression of a selector;
* `queryPath`: the expression of a list of selectors, which selects among an
  element and everything inside.
-/
import Locator.Css.Selector

namespace Locator.Css

namespace Query

/-- The runs of characters that agree in being a single quotation mark. -/
def runs : Text → List Text
  | [] => []
  | c :: r =>
    match runs r with
    | (d :: run) :: others =>
      if (c == '\'') == (d == '\'') then (c :: d :: run) :: others
      else [c] :: (d :: run) :: others
    | others => [c] :: others

/-- An expression whose value is a text. -/
def literal (s : Text) : Text :=
  if !s.contains '\'' then '\'' :: s ++ ['\'']
  else if !s.contains '"' then '"' :: s ++ ['"']
  else
    let part := fun (run : Text) =>
      let q := if run.contains '\'' then '"' else '\''
      q :: run ++ [q]
    "concat(".toList ++ Text.join [','] ((runs s).map part) ++ [')']

/-- May a name stand in an expression as it is? -/
def isSafeName (s : Text) : Bool :=
  match s with
  | [] => false
  | c :: r =>
    (c.isAlpha || c == '_') &&
      (match r.reverse with
        | '\n' :: front => front
        | back => back).all (fun d => d.isAlphanum || d == '_' || d == '.' || d == '-')

end Query

/-- The conditions `a` and `b` with a word between them; an empty one holds
always. -/
def bothOf (a b : Text) (word : Text := "and".toList) : Text :=
  if a.isEmpty then b
  else if b.isEmpty then a
  else '(' :: a ++ ") ".toList ++ word ++ " (".toList ++ b ++ [')']

/-- A condition as a predicate. -/
def predicate (c : Text) : Text := if c.isEmpty then [] else '[' :: c ++ [']']

/-- An unfinished expression: the steps that lead to an element, its name and
what it must fulfil. -/
structure Draft where
  steps : Text := []
  element : Text := ['*']
  condition : Text := []
  /-- What the elements around it or beside it must fulfil, where the steps do
  not say so. -/
  outside : Text := []
  /-- The steps lead to the elements behind another one, and only the next one
  counts. -/
  isNext : Bool := false
  /-- The steps start from the context node alone. -/
  isScope : Bool := false
  deriving Repr

namespace Draft

/-- The expression with a further condition. -/
def withCondition (x : Draft) (new : Text) : Draft :=
  { x with condition := bothOf x.condition new }

/-- The condition of the element, its name included. -/
def named (x : Draft) : Text :=
  bothOf x.condition (if x.element == ['*'] then [] else "self::".toList ++ x.element)

/-- The condition that an element is among those that the expression selects;
empty if every element is. -/
def test (x : Draft) : Text := bothOf x.named x.outside

/-- The expression so far. -/
def text (x : Draft) : Text :=
  x.steps ++
    (if x.isNext then '*' :: predicate (bothOf x.named "position() = 1".toList)
    else x.element ++ predicate x.condition)

/-- The steps to what stands in a relation to an element. -/
def stepsBy : Relation → Text
  | .descendant => "//".toList
  | .child => ['/']
  | .next => "/following-sibling::".toList
  | .later => "/following-sibling::".toList

/-- The steps back to the elements to which an element stands in a relation. -/
def stepsBack : Relation → Text
  | .descendant => "ancestor::*".toList
  | .child => "parent::*".toList
  | .next => "preceding-sibling::*[1]".toList
  | .later => "preceding-sibling::*".toList

/-- The second expression from what the first one selects. -/
def combine (x : Draft) (how : Relation) (y : Draft) : Draft :=
  { y with
    steps := x.text ++ stepsBy how
    outside := stepsBack how ++ predicate x.test
    isNext := how == .next
    isScope := x.isScope }

/-- The name of an element that may be any one, perhaps in the namespace of a
prefix. -/
def anyName? (x : Draft) : Option Text :=
  match x.element.reverse with
  | ['*'] => some ['*']
  | '*' :: ':' :: p => some (p.reverse ++ "|*".toList)
  | _ => none

end Draft

namespace Query

/-- The condition of an attribute test with a value; `anyCase` if capitals
count as small letters. -/
def attributeCondition (name : Text) (test : AttributeTest) (wanted : Text)
    (anyCase : Bool := false) : Text :=
  let v := if anyCase then Text.lower wanted else wanted
  let found := if anyCase then
      "translate(".toList ++ name ++ ", 'ABCDEFGHIJKLMNOPQRSTUVWXYZ', ".toList ++
        "'abcdefghijklmnopqrstuvwxyz')".toList
    else name
  let value := literal v
  let never := ['0']
  let and := name ++ " and ".toList
  match test with
  | .exists_ => name
  | .equals => (if anyCase then and else []) ++ found ++ " = ".toList ++ value
  | .different =>
    if v.isEmpty then found ++ " != ".toList ++ value
    else "not(".toList ++ name ++ ") or ".toList ++ found ++ " != ".toList ++ value
  | .includes =>
    if v.isEmpty || (Text.dropEnd (· == '\n') v).any Text.isCssSpace then never
    else and ++ "contains(concat(' ', normalize-space(".toList ++ found ++
      "), ' '), ".toList ++ literal (' ' :: v ++ [' ']) ++ [')']
  | .dash =>
    and ++ ['('] ++ found ++ " = ".toList ++ value ++ " or starts-with(".toList ++
      found ++ ", ".toList ++ literal (v ++ ['-']) ++ "))".toList
  | .startsWith =>
    if v.isEmpty then never
    else and ++ "starts-with(".toList ++ found ++ ", ".toList ++ value ++ [')']
  | .endsWith =>
    if v.isEmpty then never
    else and ++ "substring(".toList ++ found ++ ", string-length(".toList ++ found ++
      ")-".toList ++ Text.decimal (v.length - 1) ++ ") = ".toList ++ value
  | .contains =>
    if v.isEmpty then never
    else and ++ "contains(".toList ++ found ++ ", ".toList ++ value ++ [')']

/-- The name of an attribute in a condition. -/
def attributeName (space : Space) (name : Text) : Text :=
  match space with
  | .any => "@*[local-name() = ".toList ++ literal name ++ [']']
  | .named p =>
    if isSafeName name && isSafeName p then '@' :: p ++ ':' :: name
    else "attribute::*[name() = ".toList ++ literal (p ++ ':' :: name) ++ [']']
  | _ =>
    if isSafeName name then '@' :: name
    else "attribute::*[name() = ".toList ++ literal name ++ [']']

/-- The numbers of a series such as `2n+1`. -/
def readSeries (arguments : List Token) : Option (Int × Int) := do
  if arguments.any (fun t => t.kind == .string) then none
  let s := Text.lower (Text.strip (arguments.flatMap Token.value))
  if s == "odd".toList then return (2, 1)
  if s == "even".toList then return (2, 0)
  match Text.cutAt? 'n' s with
  | none => return (0, ← Text.readInteger? s)
  | some (a, b) =>
    let a' ← if a.isEmpty then some 1
      else if a == ['-'] then some (-1)
      else if a == ['+'] then some 1
      else Text.readInteger? a
    let b' ← if b.isEmpty then some 0 else Text.readInteger? b
    return (a', b')

/-- The condition that an element is at a place of the series `a n + b`, its
siblings counted by `count`; `none` if every place is in the series. -/
def seriesCondition (a b : Int) (count : Text) : Option Text :=
  let before := b - 1
  if a == 1 && before ≤ 0 then none
  else if a < 0 && before < 0 then some ['0']
  else if a == 0 then some (count ++ " = ".toList ++ Text.signed before)
  else
    let bound := if 0 < a then
        (if 0 < before then [count ++ " >= ".toList ++ Text.signed before] else [])
      else [count ++ " <= ".toList ++ Text.signed before]
    let step := if a.natAbs == 1 then [] else
      let shift := (-before) % (a.natAbs : Int)
      let left := if shift == 0 then count
        else '(' :: count ++ " +".toList ++ Text.signed shift ++ [')']
      [left ++ " mod ".toList ++ Text.signed a ++ " = 0".toList]
    match bound ++ step with
    | [] => none
    | [one] => some one
    | all => some (Text.join " and ".toList (all.map fun e => '(' :: e ++ [')']))

/-- The number of siblings before, or after, that pass a test. -/
def siblingCount (after : Bool) (test : Text) : Text :=
  "count(".toList ++
    (if after then "following-sibling::".toList else "preceding-sibling::".toList) ++
    test ++ [')']

/-- Narrows to the places of a series among siblings of any name, or of the
same name. -/
def series (x : Draft) (arguments : List Token) (after sameName : Bool) :
    Except SelectorError Draft :=
  match readSeries arguments with
  | none =>
    .error (.unknown ("Invalid series: '".toList ++ Token.shownAll arguments ++ ['\'']))
  | some (a, b) =>
    let test := if sameName then x.element else ['*']
    match seriesCondition a b (siblingCount after test) with
    | none => .ok x
    | some c => .ok (x.withCondition c)

/-- Stops where the same name is asked for, but no name is given. -/
def needName (x : Draft) (what : Text) : Except SelectorError Unit :=
  match x.anyName? with
  | some name =>
    .error (.unknown (name ++ ':' :: what ++ " is not implemented".toList))
  | none => .ok ()

/-- The single text that a function needs. -/
def oneText (what : Text) (arguments : List Token) : Except SelectorError Text :=
  match arguments with
  | [t] =>
    if t.kind == .string || t.kind == .ident then .ok t.value else .error problem
  | _ => .error problem
where
  problem : SelectorError :=
    .unknown ("Expected a single string or ident for :".toList ++ what ++
      "(), got ".toList ++ Token.shownAll arguments)

/-- Underscores in the names of functions and classes stand for hyphens. -/
def withHyphens (name : Text) : Text := name.map fun c => if c == '_' then '-' else c

/-- The functions that are known. -/
def functionNames : List Text :=
  ["nth-child".toList, "nth-last-child".toList, "nth-of-type".toList,
   "nth-last-of-type".toList, "contains".toList, "lang".toList]

/-- Stops at an unknown function. -/
def checkFunction (name : Text) : Except SelectorError Unit :=
  if functionNames.contains (withHyphens name) then .ok ()
  else .error (.unknown ("The pseudo-class :".toList ++ name ++ "() is unknown".toList))

/-- Narrows by a known function. -/
def applyFunction (x : Draft) (name : Text) (arguments : List Token) :
    Except SelectorError Draft :=
  let key := withHyphens name
  if key == "nth-child".toList then series x arguments false false
  else if key == "nth-last-child".toList then series x arguments true false
  else if key == "nth-of-type".toList then do
    needName x "nth-of-type()".toList
    series x arguments false true
  else if key == "nth-last-of-type".toList then do
    needName x "nth-last-of-type()".toList
    series x arguments true true
  else if key == "contains".toList then do
    let s ← oneText "contains".toList arguments
    return x.withCondition ("contains(., ".toList ++ literal s ++ [')'])
  else do
    let s ← oneText "lang".toList arguments
    return x.withCondition ("lang(".toList ++ literal s ++ [')'])

/-- The pseudo-classes that no element of a document has. -/
def neverClasses : List Text :=
  ["link".toList, "visited".toList, "hover".toList, "active".toList,
   "focus".toList, "target".toList, "enabled".toList, "disabled".toList,
   "checked".toList]

/-- The pseudo-classes that are known. -/
def classNames : List Text :=
  ["root".toList, "scope".toList, "first-child".toList, "last-child".toList,
   "only-child".toList, "empty".toList, "first-of-type".toList,
   "last-of-type".toList, "only-of-type".toList] ++ neverClasses

/-- Stops at an unknown pseudo-class. -/
def checkClass (name : Text) : Except SelectorError Unit :=
  if classNames.contains (withHyphens name) then .ok ()
  else .error (.unknown ("The pseudo-class :".toList ++ name ++ " is unknown".toList))

/-- Narrows by a known pseudo-class. -/
def applyClass (x : Draft) (name : Text) : Except SelectorError Draft :=
  let key := withHyphens name
  let condition := fun (s : String) => Except.ok (x.withCondition s.toList)
  let count := siblingCount
  if key == "root".toList then condition "not(parent::*)"
  else if key == "scope".toList then .ok { x with isScope := true }
  else if key == "first-child".toList then condition "count(preceding-sibling::*) = 0"
  else if key == "last-child".toList then condition "count(following-sibling::*) = 0"
  else if key == "only-child".toList then
    condition "count(preceding-sibling::*) = 0 and count(following-sibling::*) = 0"
  else if key == "empty".toList then condition "not(*) and not(string-length())"
  else if key == "first-of-type".toList then do
    needName x key
    return x.withCondition (count false x.element ++ " = 0".toList)
  else if key == "last-of-type".toList then do
    needName x key
    return x.withCondition (count true x.element ++ " = 0".toList)
  else if key == "only-of-type".toList then do
    needName x key
    return x.withCondition (count false x.element ++ " = 0 and ".toList ++
      count true x.element ++ " = 0".toList)
  else condition "0"

/-- Elements of a name, or of any name. -/
def elementDraft : Space → Option Text → Draft
  | .unsaid, none => {}
  | .any, none => {}
  | .bare, none => { condition := "namespace-uri() = ''".toList }
  | .any, some n => { condition := "local-name() = ".toList ++ literal n }
  | .named p, none =>
    if isSafeName p then { element := p ++ ":*".toList }
    else { condition := "name() = ".toList ++ literal (p ++ ":*".toList) }
  | .named p, some n =>
    if isSafeName n && isSafeName p then { element := p ++ ':' :: n }
    else { condition := "name() = ".toList ++ literal (p ++ ':' :: n) }
  | _, some n =>
    if isSafeName n then { element := n }
    else { condition := "name() = ".toList ++ literal n }

/-- Narrows to what fulfils one of the conditions; an empty one holds
always. -/
def oneOf (x : Draft) (tests : List Text) : Draft :=
  if tests.any List.isEmpty then x
  else x.withCondition (tests.foldl (fun a b => bothOf a b "or".toList) [])

end Query

open Query

mutual
/-- The expression of a selector. Of two unknown names the one further out
is told. -/
def Selector.draft : Selector → Except SelectorError Draft
  | .anchor => .ok { element := ['.'] }
  | .element space name => .ok (elementDraft space name)
  | .hash s id => do
    return (← s.draft).withCondition (attributeCondition "@id".toList .equals id)
  | .className s name => do
    return (← s.draft).withCondition (attributeCondition "@class".toList .includes name)
  | .attribute s space name test value anyCase => do
    return (← s.draft).withCondition
      (attributeCondition (attributeName space name) test value anyCase)
  | .pseudo s name => do
    checkClass name
    applyClass (← s.draft) name
  | .function s name arguments => do
    checkFunction name
    applyFunction (← s.draft) name arguments
  | .negation s other => do
    let x ← s.draft
    let c := (← other.draft).test
    return x.withCondition (if c.isEmpty then ['0'] else "not(".toList ++ c ++ [')'])
  | .relation s others => do
    let x ← s.draft
    let ys ← Selector.drafts others
    return x.withCondition (Text.join " or ".toList (ys.map Draft.text))
  | .matching s others => do
    let x ← s.draft
    let ys ← Selector.drafts others
    return oneOf x (ys.map Draft.test)
  | .combined s how other => do
    let x ← s.draft
    let y ← other.draft
    return x.combine how y
/-- The expressions of selectors. -/
def Selector.drafts : List Selector → Except SelectorError (List Draft)
  | [] => .ok []
  | s :: rest => do
    let x ← s.draft
    let xs ← Selector.drafts rest
    return x :: xs
end

/-- The expression of a selector with its pseudo-element, which must be
none. -/
def draftWithout (s : Selector × Option Text) : Except SelectorError Draft := do
  let x ← s.1.draft
  if s.2.isSome then .error (.unknown "Pseudo-elements are not supported.".toList)
  else return x

/-- The expression from a context node: it selects among the node and
everything inside, or from the node alone. -/
def Draft.path (x : Draft) : Text :=
  (if x.isScope then "self::".toList else "descendant-or-self::".toList) ++ x.text

/-- The expression of a list of selectors. -/
def queryPath (s : Text) : Except SelectorError Text := do
  let drafts ← (← Selector.readAll s).mapM draftWithout
  return Text.join " | ".toList (drafts.map Draft.path)

end Locator.Css

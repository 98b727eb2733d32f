/-
Reading path expressions

* `Reader`: takes something from the start of a text and leaves the rest;
* `chain`: operands and signs of one level, read from the left;
* `step?`, `relativePath?`, `absolutePath?`, `primary?`, `pathExpr?`: the
  parts of a path;
* `exprAt?`: an expression at most so deep in others, `Expr.read?` one that
  is a whole text. No more than five hundred may be open at a time.
-/
import Locator.XPath.Expr

namespace Locator.XPath

/-- Takes something from the start of a text and leaves the rest; `none` if
the text starts otherwise. -/
abbrev Reader (α : Type) := Text → Option (α × Text)

/-- Passes over blanks. -/
def blanks (s : Text) : Text := s.dropWhile Text.isSpace

/-- The sign of a level at the start of a text, and the rest. -/
def sign? (signs : List (Text × Operator)) (s : Text) : Option (Operator × Text) :=
  signs.findSome? fun p => (Text.behind? p.1 s).map (p.2, ·)

/-- Further operands behind the sign of a level; at most `fuel` of them. -/
def chainFrom (signs : List (Text × Operator)) (operand : Reader Expr) :
    Nat → Expr → Reader Expr
  | 0, left, s => some (left, s)
  | fuel + 1, left, s =>
    match sign? signs (blanks s) with
    | none => some (left, blanks s)
    | some (op, r) => do
      let (right, r) ← operand (blanks r)
      chainFrom signs operand fuel (.binary op left right) r

/-- Operands with the signs of a level between them, bound from the left. -/
def chain (signs : List (Text × Operator)) (operand : Reader Expr) : Reader Expr :=
  fun s => do
    let (left, r) ← operand s
    chainFrom signs operand (r.length + 1) left r

/-- Minus signs and the blanks behind them: were there any, is their number
odd, and the rest. -/
def minusSigns (any odd : Bool) : Text → Bool × Bool × Text
  | [] => (any, odd, [])
  | c :: r =>
    if c == '-' then minusSigns true (!odd) r
    else if any && Text.isSpace c then minusSigns any odd r
    else (any, odd, c :: r)

/-- An operand behind minus signs. -/
def unary (operand : Reader Expr) : Reader Expr := fun s => do
  let (any, odd, r) := minusSigns false false (blanks s)
  let (e, r) ← operand r
  return (if any then .numeric odd e else e, r)

/-- A text between quotation marks. -/
def literal? : Reader Text
  | [] => none
  | q :: r => if Text.isQuote q then Text.cutAt? q r else none

/-- The test for a kind of nodes, behind its opening parenthesis. -/
def kindTest? (kind : Text) : Reader NodeTest := fun s => do
  let s := blanks s
  let (test, r) ←
    if kind == "node".toList then some (.node, s)
    else if kind == "text".toList then some (.text, s)
    else if kind == "comment".toList then some (.comment, s)
    else if kind == "processing-instruction".toList then
      match s with
      | ')' :: _ => some (.instruction none, s)
      | _ => (literal? s).map fun (target, r) => (.instruction (some target), blanks r)
    else none
  match r with
  | ')' :: r => return (test, r)
  | _ => none

/-- What follows the first name of a test. -/
def nameTest? (name : Text) : Reader NodeTest := fun s =>
  match blanks s with
  | '(' :: r => kindTest? name r
  | _ =>
    match s with
    | ':' :: '*' :: r => some (.any (some name), r)
    | ':' :: r => do
      let (base, r) ← Text.plainName? r
      return (.name (some name) base, r)
    | _ => some (.name none name, s)

/-- A test. -/
def nodeTest? : Reader NodeTest := fun s =>
  match blanks s with
  | '*' :: r => some (.any none, r)
  | s => do
    let (name, r) ← Text.plainName? s
    nameTest? name r

/-- The axis of a step with the test behind it. -/
def axisAndTest? : Reader (Axis × NodeTest) := fun s =>
  match s with
  | '@' :: r => (nodeTest? r).map fun (t, r) => ((.attribute, t), r)
  | _ =>
    match Text.plainName? s with
    | none => (nodeTest? s).map fun (t, r) => ((.child, t), r)
    | some (name, r) =>
      match Axis.ofName? name, blanks r with
      | some axis, ':' :: ':' :: r => (nodeTest? r).map fun (t, r) => ((axis, t), r)
      | some _, _ => (nameTest? name (blanks r)).map fun (t, r) => ((.child, t), r)
      | none, _ => (nameTest? name r).map fun (t, r) => ((.child, t), r)

/-- An expression between square brackets. -/
def predicate? (sub : Reader Expr) : Reader Expr
  | '[' :: r => do
    match ← sub (blanks r) with
    | (e, ']' :: r) => return (e, blanks r)
    | _ => none
  | _ => none

/-- Predicates one behind the other; at most `fuel` of them. -/
def predicates? (sub : Reader Expr) : Nat → Reader (List Expr)
  | 0, s => some ([], s)
  | fuel + 1, s =>
    match s with
    | '[' :: _ => do
      let (e, r) ← predicate? sub s
      let (es, r) ← predicates? sub fuel r
      return (e :: es, r)
    | _ => some ([], s)

/-- A step from `start`. -/
def step? (sub : Reader Expr) (start : Expr) : Reader Expr := fun s =>
  match blanks s with
  | '.' :: '.' :: r => some (.step start .parent .node [], blanks r)
  | '.' :: r => some (start, blanks r)
  | s => do
    let ((axis, test), r) ← axisAndTest? s
    let r := blanks r
    let (es, r) ← predicates? sub (r.length + 1) r
    return (.step start axis test es, r)

/-- Further steps behind slashes; at most `fuel` of them. -/
def stepsFrom (sub : Reader Expr) : Nat → Expr → Reader Expr
  | 0, e, s => some (e, s)
  | fuel + 1, e, s =>
    match blanks s with
    | '/' :: '/' :: r => do
      let (e, r) ← step? sub e.inside (blanks r)
      stepsFrom sub fuel e r
    | '/' :: r => do
      let (e, r) ← step? sub e (blanks r)
      stepsFrom sub fuel e r
    | s => some (e, s)

/-- Steps from `start`, the first one perhaps behind slashes. -/
def relativePath? (sub : Reader Expr) (start : Expr) : Reader Expr := fun s => do
  let (e, r) ← match blanks s with
    | '/' :: '/' :: r => step? sub start.inside (blanks r)
    | '/' :: r => step? sub start (blanks r)
    | s => step? sub start s
  stepsFrom sub (r.length + 1) e r

/-- Can a step follow a lone slash with this character? Beyond ASCII every
character can start one, whether or not it starts a name. -/
def startsStep (c : Char) : Bool :=
  c.isAlpha || c == '_' || c == '.' || c == '@' || c == '*' || 128 ≤ c.toNat

/-- Slashes and the steps behind them; at most `fuel` slashes. -/
def absolutePath? (sub : Reader Expr) : Nat → Expr → Reader Expr
  | 0, e, s => some (e, s)
  | fuel + 1, e, s =>
    match s with
    | '/' :: '/' :: r => do
      let (e, r) ← relativePath? sub e.inside (blanks r)
      absolutePath? sub fuel e r
    | '/' :: r =>
      match blanks r with
      | c :: r =>
        if startsStep c then do
          let (e, r) ← relativePath? sub e (c :: r)
          absolutePath? sub fuel e r
        else absolutePath? sub fuel e (c :: r)
      | [] => some (e, [])
    | _ => some (e, s)

/-- A path of steps alone. -/
def locationPath? (sub : Reader Expr) : Reader Expr := fun s =>
  match blanks s with
  | '/' :: r => absolutePath? sub (r.length + 1) .root ('/' :: r)
  | s => relativePath? sub .here s

/-- A name, perhaps behind a prefix. -/
def qualifiedName? : Reader (Option Text × Text) := fun s => do
  let (name, r) ← Text.plainName? s
  match r with
  | ':' :: r => do
    let (base, r) ← Text.plainName? r
    return ((some name, base), r)
  | _ => return ((none, name), r)

/-- The arguments of a call behind its opening parenthesis; at most `fuel`
of them. The end of the text closes a call that has just been opened and one
that ends in a comma. -/
def arguments? (sub : Reader Expr) : Nat → Reader (List Expr)
  | 0, s => some ([], s)
  | fuel + 1, s =>
    match s with
    | [] => some ([], [])
    | _ => do
      let (e, r) ← sub s
      match r with
      | ')' :: r => return ([e], r)
      | ',' :: r => do
        let (es, r) ← arguments? sub fuel (blanks r)
        return (e :: es, r)
      | _ => none

/-- A call of a function. -/
def call? (sub : Reader Expr) : Reader Expr := fun s => do
  let ((pfx, name), r) ← qualifiedName? s
  match blanks r with
  | '(' :: r =>
    match blanks r with
    | ')' :: r => return (.call pfx name [], blanks r)
    | r => do
      let (es, r) ← arguments? sub (r.length + 1) r
      return (.call pfx name es, blanks r)
  | _ => none

/-- A variable, an expression in parentheses, a number, a text or a call. -/
def primary? (sub : Reader Expr) : Reader Expr := fun s =>
  if Number.startsHere s then
    let (n, r) := Number.read s
    some (.number n, blanks r)
  else match s with
    | '$' :: r => do
      let ((pfx, name), r) ← qualifiedName? r
      return (.variable pfx name, blanks r)
    | '(' :: r => do
      match ← sub (blanks r) with
      | (e, ')' :: r) => return (e, blanks r)
      | _ => none
    | '"' :: _ => (literal? s).map fun (t, r) => (.literal t, blanks r)
    | '\'' :: _ => (literal? s).map fun (t, r) => (.literal t, blanks r)
    | _ => call? sub s

/-- A set that predicates have been applied to as a whole. -/
def filterAll (e : Expr) (predicates : List Expr) : Expr := predicates.foldl .filter e

/-- The names of the kinds of nodes. -/
def kinds : List Text :=
  ["node".toList, "text".toList, "comment".toList, "processing-instruction".toList]

/-- Is there a double colon in a text? -/
def hasDoubleColon (s : Text) : Bool := Text.occursIn [':', ':'] s

/-- Does a name, colons included, that is no kind of nodes stand before a
parenthesis? `none` if no name stands at the start. -/
def startsCall? (s : Text) : Option Bool :=
  match s with
  | [] => none
  | c :: r =>
    if Text.isNameStart c || c == ':' then
      let inName := fun d => Text.isNameChar d || d == ':'
      let name := c :: r.takeWhile inName
      match blanks (r.dropWhile inName) with
      | '(' :: _ => some (!hasDoubleColon name && !kinds.contains name)
      | _ => some false
    else none

/-- Does an expression that is no path of steps alone start here? -/
def startsPrimary? (s : Text) : Option Bool :=
  match s with
  | [] => none
  | c :: _ =>
    if Number.startsHere s || c == '$' || c == '(' || Text.isQuote c then some true
    else if c == '*' || c == '/' || c == '@' || c == '.' then some false
    else startsCall? s

/-- A path, perhaps from the nodes of another expression. -/
def pathExpr? (sub : Reader Expr) : Reader Expr := fun s => do
  let s := blanks s
  if ← startsPrimary? s then
    let (e, r) ← primary? sub s
    let (es, r) ← predicates? sub (r.length + 1) r
    let e := filterAll e es
    match r with
    | '/' :: '/' :: r => do
      let (e, r) ← relativePath? sub e.inside (blanks r)
      return (e, blanks r)
    | '/' :: _ => do
      let (e, r) ← relativePath? sub e r
      return (e, blanks r)
    | _ => return (e, r)
  else do
    let (e, r) ← locationPath? sub s
    return (e, blanks r)

/-- The levels of signs, the loosest first, with the minus signs between the
products and the unions. -/
def expr? (sub : Reader Expr) : Reader Expr :=
  chain [("or".toList, .or)] <|
  chain [("and".toList, .and)] <|
  chain [("=".toList, .eq), ("!=".toList, .ne)] <|
  chain [("<=".toList, .le), (">=".toList, .ge), ("<".toList, .lt), (">".toList, .gt)] <|
  chain [("+".toList, .add), ("-".toList, .sub)] <|
  chain [("*".toList, .mul), ("div".toList, .div), ("mod".toList, .mod)] <|
  unary <|
  chain [("|".toList, .union)] (pathExpr? sub)

/-- An expression, if no more than `depth` are open at a time. -/
def exprAt? : Nat → Reader Expr
  | 0 => fun _ => none
  | depth + 1 => expr? (exprAt? depth)

/-- The number of expressions that may be open at a time. -/
def maxDepth : Nat := 500

/-- The expression that a whole text is. -/
def Expr.read? (s : Text) : Option Expr := do
  match ← exprAt? maxDepth s with
  | (e, []) => return e
  | _ => none

/-- Is the text an expression? -/
def isValid (s : Text) : Bool := (Expr.read? s).isSome

end Locator.XPath

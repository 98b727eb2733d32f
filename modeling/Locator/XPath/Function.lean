/-
The functions of path expressions

* `Frame`: the context node, inside a predicate with its position among the
  nodes it is tested with, and their number;
* `Function`: the functions, found by their names;
* `Function.apply`: the value of a function for its arguments.
-/
import Locator.XPath.Result
import Locator.Document.Scope

namespace Locator.XPath

/-- The context node, and inside a predicate its position among the nodes that
are tested, and their number. -/
structure Frame where
  place : Place
  position : Option Nat := none
  size : Option Nat := none
  deriving Repr

/-- The words of a text between the four blanks of XML. -/
def spaceWords (s : Text) : List Text :=
  (Text.pieces Text.isSpace s).filter (fun w => !w.isEmpty)

/-- The text with single blanks between its words. -/
def singleBlanks (s : Text) : Text := Text.join [' '] (spaceWords s)

/-- Every character of `old` becomes the one at its position in `new`, or is
left out. -/
def replaceChars (old new s : Text) : Text :=
  s.filterMap fun c =>
    match old.findIdx? (· == c) with
    | none => some c
    | some i => new[i]?

/-- The text before the first occurrence of `needle`; empty if there is
none. -/
def textBefore (needle s : Text) : Text :=
  match Text.splitOn needle s with
  | before :: _ :: _ => if needle.isEmpty then [] else before
  | _ => []

/-- The text behind the first occurrence of `needle`; empty if there is
none. -/
def textAfter (needle : Text) : Text → Text
  | [] => []
  | c :: r =>
    match Text.behind? needle (c :: r) with
    | some rest => rest
    | none => textAfter needle r

/-- The characters from `start` on, and in front of `stop` if it is given;
both are counted from one. -/
def cutOut (s : Text) (start : Number) (length : Option Number) : Text :=
  let from? : Option Nat := match start with
    | .finite q => some (if q < 1 then 1 else (Number.roundUp q).toNat)
    | .minusZero => some 1
    | .infinite true => some 1
    | _ => none
  let stop : Option Nat := match length with
    | none => none
    | some n => match start.round.add n.round with
      | .finite q => some (if q < 1 then 1 else q.floor.toNat)
      | .infinite false => none
      | _ => some 1
  match from? with
  | none => []
  | some i =>
    match stop with
    | none => s.drop (i - 1)
    | some j => (s.drop (i - 1)).take (j - i)

/-- The language in force at an address, the nearest first. -/
def languageAt (d : Document) (a : Address) : Option Text :=
  (a :: Address.above a).findSome? fun b =>
    ((d.attributesAt b).find? fun t =>
      t.name.uri == some Scope.xmlUri && t.name.base == "lang".toList).map
      Attribute.value

/-- Is a language the given one, or a form of it? -/
def speaks (wanted : Text) (language : Option Text) : Bool :=
  match language with
  | none => false
  | some s =>
    let upper := fun (t : Text) => t.map Char.toUpper
    match Text.behind? (upper wanted) (upper s) with
    | some [] => true
    | some (c :: _) => c == '-'
    | none => false

/-- Does an attribute give its element a name for the whole document? In
HTML that is `id`, and `name` on `a`; elsewhere `id` in the namespace of XML. -/
def isIdentity (d : Document) (a : Address) (t : Attribute) : Bool :=
  if d.isHtml then
    t.name.base == "id".toList || (t.name.base == "name".toList &&
      ((d.get? a).bind Markup.name?).map Name.base == some ['a'])
  else t.name.uri == some Scope.xmlUri && t.name.base == "id".toList

/-- The first element that has the given name for the whole document. -/
def byIdentity? (d : Document) (id : Text) : Option Place :=
  (d.pieces.find? fun (a, m) =>
    m.attributes.any fun t => isIdentity d a t && t.value == id).map (.node ·.1)

/-- The elements named by the words of texts. -/
def byIdentities (d : Document) (texts : List Text) : List Place :=
  Place.inOrder ((texts.flatMap spaceWords).filterMap (byIdentity? d))

/-- The target of an instruction. -/
def targetOf? (d : Document) : Place → Option Text
  | .node a => match d.get? a with
    | some (.instruction t _) => some t
    | _ => none
  | _ => none

/-- The functions of path expressions. -/
inductive Function
  | last
  | position
  | count
  | id
  | localName
  | namespaceUri
  | name
  | string
  | concat
  | startsWith
  | contains
  | substringBefore
  | substringAfter
  | substring
  | stringLength
  | normalizeSpace
  | translate
  | boolean
  | not
  | always
  | never
  | lang
  | number
  | sum
  | floor
  | ceiling
  | round
  deriving Repr, DecidableEq

namespace Function

/-- Every function with its name. -/
def names : List (Text × Function) :=
  [("last".toList, .last),
   ("position".toList, .position),
   ("count".toList, .count),
   ("id".toList, .id),
   ("local-name".toList, .localName),
   ("namespace-uri".toList, .namespaceUri),
   ("name".toList, .name),
   ("string".toList, .string),
   ("concat".toList, .concat),
   ("starts-with".toList, .startsWith),
   ("contains".toList, .contains),
   ("substring-before".toList, .substringBefore),
   ("substring-after".toList, .substringAfter),
   ("substring".toList, .substring),
   ("string-length".toList, .stringLength),
   ("normalize-space".toList, .normalizeSpace),
   ("translate".toList, .translate),
   ("boolean".toList, .boolean),
   ("not".toList, .not),
   ("true".toList, .always),
   ("false".toList, .never),
   ("lang".toList, .lang),
   ("number".toList, .number),
   ("sum".toList, .sum),
   ("floor".toList, .floor),
   ("ceiling".toList, .ceiling),
   ("round".toList, .round)]

/-- The function of a name. -/
def ofName? (s : Text) : Option Function := names.lookup s

/-- What `shown` makes of the name of the first place of a set, or of the
context node if there is no argument. -/
def ofName (f : Frame) (shown : Place → Text) :
    List Result → Except EvalError Result
  | [] => .ok (.text (shown f.place))
  | [.nodes set] => .ok (.text ((set.head?.map shown).getD []))
  | [_] => .error .notNodes
  | _ => .error .wrongArity

/-- The name of a place as `shown` writes it; an instruction is named by its
target. -/
def nameOrTarget (d : Document) (shown : Name → Text) (p : Place) : Text :=
  match d.nameOf? p with
  | some n => shown n
  | none => (targetOf? d p).getD []

/-- The namespace of the name of a place. -/
def uriOf (d : Document) (p : Place) : Text := ((d.nameOf? p).bind Name.uri).getD []

/-- The argument, or the context node if there is none. -/
def argumentOr (f : Frame) : List Result → Except EvalError Result
  | [] => .ok (.nodes [f.place])
  | [a] => .ok a
  | _ => .error .wrongArity

/-- The value for no arguments. -/
def nullary (r : Result) : List Result → Except EvalError Result
  | [] => .ok r
  | _ => .error .wrongArity

/-- A number that is only known inside a predicate. -/
def counted (n : Option Nat) (args : List Result) : Except EvalError Result :=
  match args, n with
  | [], some n => .ok (.number (.ofNat n))
  | [], none => .error .noPredicate
  | _, _ => .error .wrongArity

/-- The value for one argument. -/
def unary (g : Result → Result) : List Result → Except EvalError Result
  | [a] => .ok (g a)
  | _ => .error .wrongArity

/-- The value for a set of places. -/
def onNodes (g : List Place → Result) : List Result → Except EvalError Result
  | [.nodes set] => .ok (g set)
  | [_] => .error .notNodes
  | _ => .error .wrongArity

/-- The value for two texts. -/
def onTexts (d : Document) (g : Text → Text → Result) :
    List Result → Except EvalError Result
  | [a, b] => .ok (g (a.toText d) (b.toText d))
  | _ => .error .wrongArity

/-- The elements named by an argument. -/
def identified (d : Document) : Result → Result
  | .nodes set => .nodes (byIdentities d (set.map d.textOf))
  | a => .nodes (byIdentities d [a.toText d])

/-- The value of a function for its arguments. -/
def apply (d : Document) (f : Frame) (g : Function) (args : List Result) :
    Except EvalError Result :=
  match g with
  | .last => counted f.size args
  | .position => counted f.position args
  | .count => onNodes (fun set => .number (.ofNat set.length)) args
  | .id => unary (identified d) args
  | .localName => ofName f (nameOrTarget d Name.base) args
  | .name => ofName f (nameOrTarget d Name.qualified) args
  | .namespaceUri => ofName f (uriOf d) args
  | .string => (argumentOr f args).map (fun a => .text (a.toText d))
  | .concat =>
    if args.length < 2 then .error .wrongArity
    else .ok (.text (args.flatMap (Result.toText d)))
  | .startsWith => onTexts d (fun a b => .bool (b.isPrefixOf a)) args
  | .contains => onTexts d (fun a b => .bool (Text.occursIn b a)) args
  | .substringBefore => onTexts d (fun a b => .text (textBefore b a)) args
  | .substringAfter => onTexts d (fun a b => .text (textAfter b a)) args
  | .substring =>
    match args with
    | [a, b] => .ok (.text (cutOut (a.toText d) (b.toNumber d) none))
    | [a, b, c] =>
      .ok (.text (cutOut (a.toText d) (b.toNumber d) (some (c.toNumber d))))
    | _ => .error .wrongArity
  | .stringLength =>
    (argumentOr f args).map (fun a => .number (.ofNat (a.toText d).length))
  | .normalizeSpace =>
    (argumentOr f args).map (fun a => .text (singleBlanks (a.toText d)))
  | .translate =>
    match args with
    | [a, b, c] => .ok (.text (replaceChars (b.toText d) (c.toText d) (a.toText d)))
    | _ => .error .wrongArity
  | .boolean => unary (fun a => .bool a.toBool) args
  | .not => unary (fun a => .bool !a.toBool) args
  | .always => nullary (.bool true) args
  | .never => nullary (.bool false) args
  | .lang => unary (fun a => .bool (speaks (a.toText d) (languageAt d f.place.address))) args
  | .number => (argumentOr f args).map (fun a => .number (a.toNumber d))
  | .sum =>
    onNodes (fun set => .number
      (set.foldl (fun n p => n.add (Number.ofText (d.textOf p))) (.ofNat 0))) args
  | .floor => unary (fun a => .number (a.toNumber d).floor) args
  | .ceiling => unary (fun a => .number (a.toNumber d).ceiling) args
  | .round => unary (fun a => .number (a.toNumber d).round) args

end Function

end Locator.XPath

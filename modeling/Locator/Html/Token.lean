/-
Markup as a row of tokens

* `Token`: the start or the end of an element, a text or a comment;
* `attributes?`, `tag?`: what stands between the angle brackets of a tag;
* `tokens`: the tokens of a whole text.
-/
import Locator.Html.Element
import Locator.Html.Reference

namespace Locator.Html

/-- A piece of markup as it is written. -/
inductive Token
  /-- The start of an element; `closed` if the element ends at once. -/
  | start (name : Text) (attributes : List (Text × Text)) (closed : Bool)
  | stop (name : Text)
  | text (s : Text)
  | comment (s : Text)
  deriving Repr

/-- The blanks of HTML. -/
def isBlank (c : Char) : Bool :=
  c == ' ' || c == '\t' || c == '\n' || c == '\x0c' || c == '\r'

/-- Passes over blanks. -/
def blanks (s : Text) : Text := s.dropWhile isBlank

/-- The replacement character for the character zero. -/
def visible (c : Char) : Char := if c == '\x00' then '\ufffd' else c

/-- Does a character end the name of an element? -/
def endsName (c : Char) : Bool := isBlank c || c == '/' || c == '>'

/-- The name of an element and the rest. -/
def tagName (s : Text) : Text × Text :=
  (Text.lower (s.takeWhile fun c => !endsName c), s.dropWhile fun c => !endsName c)

/-- The name of an attribute and the rest; the first character always counts. -/
def attributeName : Text → Text × Text
  | [] => ([], [])
  | c :: r =>
    let inName := fun d => !(endsName d || d == '=')
    (Text.lower (c :: r.takeWhile inName), r.dropWhile inName)

/-- The value of an attribute behind its equals sign, and the rest; `none` if
the text ends in it. -/
def attributeValue? (s : Text) : Option (Text × Text) :=
  match blanks s with
  | '"' :: r => (Text.cutAt? '"' r).map fun (v, r) => (decode true v, r)
  | '\'' :: r => (Text.cutAt? '\'' r).map fun (v, r) => (decode true v, r)
  | r =>
    let inValue := fun c => !(isBlank c || c == '>')
    some (decode true (r.takeWhile inValue), r.dropWhile inValue)

/-- The value of an attribute that has none. -/
def impliedValue (name : Text) : Text := if isFlag name then name else []

/-- Adds an attribute unless there is one of its name already. -/
def addAttribute (found : List (Text × Text)) (name value : Text) : List (Text × Text) :=
  if found.any fun a => a.1 == name then found else found ++ [(name, value)]

/-- The attributes of a tag up to its end, whether a slash stands there, and
the rest; `none` if the text ends in the tag. At most `fuel` steps. -/
def attributes? : Nat → List (Text × Text) → Text → Option (List (Text × Text) × Bool × Text)
  | 0, _, _ => none
  | fuel + 1, found, s =>
    match blanks s with
    | [] => none
    | '>' :: r => some (found, false, r)
    | '/' :: '>' :: r => some (found, true, r)
    | '/' :: r => attributes? fuel found r
    | s =>
      let (name, r) := attributeName s
      match blanks r with
      | '=' :: r =>
        match attributeValue? r with
        | some (value, r) => attributes? fuel (addAttribute found name value) r
        | none => none
      | _ => attributes? fuel (addAttribute found name (impliedValue name)) r

/-- A tag behind its opening bracket: name, attributes, whether it ends in a
slash, and the rest. -/
def tag? (s : Text) : Option (Text × List (Text × Text) × Bool × Text) :=
  let (name, r) := tagName s
  (attributes? (r.length + 1) [] r).map fun (attributes, closed, r) =>
    (name, attributes, closed, r)

/-- The text before the first end of a comment, and the rest. -/
def commentBody : Text → Text × Text
  | [] => ([], [])
  | c :: r =>
    match Text.behind? "-->".toList (c :: r), Text.behind? "--!>".toList (c :: r) with
    | some rest, _ => ([], rest)
    | none, some rest => ([], rest)
    | none, none =>
      let (body, rest) := commentBody r
      (c :: body, rest)

/-- The text of a comment behind its opening, and the rest. -/
def comment : Text → Text × Text
  | '>' :: r => ([], r)
  | '-' :: '>' :: r => ([], r)
  | s => commentBody s

/-- The text up to the next closing bracket, and the rest behind it. -/
def upToBracket (s : Text) : Text × Text :=
  (Text.cutAt? '>' s).getD (s, [])

/-- Does the tag that ends an element stand here? -/
def isEndOf (name : Text) (s : Text) : Bool :=
  match s with
  | '<' :: '/' :: r =>
    Text.lower (r.take name.length) == name &&
      match r.drop name.length with
      | c :: _ => endsName c
      | [] => false
  | _ => false

/-- The text before the tag that ends an element, and the rest. -/
def upToEnd (name : Text) : Text → Text × Text
  | [] => ([], [])
  | c :: r =>
    if isEndOf name (c :: r) then ([], c :: r)
    else
      let (body, rest) := upToEnd name r
      (c :: body, rest)

/-- The content of an element that holds no markup, and the rest. -/
def textContent (name : Text) (s : Text) : Text × Text :=
  match contentOf name with
  | .markup => ([], s)
  | .referenced => let (body, rest) := upToEnd name s; (decode false body, rest)
  | .raw => upToEnd name s
  | .endless => (s, [])

/-- Does markup start behind an opening bracket with this character? -/
def startsMarkup (c : Char) : Bool := c.isAlpha || c == '/' || c == '!' || c == '?'

/-- The text before the next piece of markup, and the rest. -/
def upToMarkup : Text → Text × Text
  | [] => ([], [])
  | '<' :: c :: r =>
    if startsMarkup c then ([], '<' :: c :: r)
    else
      let (body, rest) := upToMarkup (c :: r)
      ('<' :: body, rest)
  | c :: r =>
    let (body, rest) := upToMarkup r
    (c :: body, rest)

/-- A declaration behind its opening bracket and exclamation mark: a comment,
a document type, which is no token, or a comment of another form. -/
def declaration (s : Text) : List Token × Text :=
  match s with
  | '-' :: '-' :: r =>
    let (body, rest) := comment r
    ([.comment body], rest)
  | s =>
    if Text.lower (s.take 7) == "doctype".toList then ([], (upToBracket s).2)
    else
      let (body, rest) := upToBracket s
      ([.comment body], rest)

/-- The end of an element behind its opening bracket and slash; what starts
with no letter is a comment. -/
def endTag (s : Text) : List Token × Text :=
  match s with
  | [] => ([.text ['<', '/']], [])
  | '>' :: r => ([], r)
  | c :: r =>
    if c.isAlpha then
      match tag? (c :: r) with
      | some (name, _, _, rest) => ([.stop name], rest)
      | none => ([], [])
    else
      let (body, rest) := upToBracket (c :: r)
      ([.comment body], rest)

/-- The start of an element behind its opening bracket, with its content if
that is no markup. A tag that the text ends in is nothing. -/
def startTag (s : Text) : List Token × Text :=
  match tag? s with
  | none => ([], [])
  | some (name, attributes, closed, r) =>
    if closed then ([.start name attributes true], r)
    else
      let (body, rest) := textContent name r
      (.start name attributes false :: (if body.isEmpty then [] else [.text body]), rest)

/-- The tokens at the start of a text, and the rest. -/
def next (s : Text) : List Token × Text :=
  match s with
  | '<' :: '/' :: r => endTag r
  | '<' :: '!' :: r => declaration r
  | '<' :: '?' :: r =>
    let (body, rest) := upToBracket ('?' :: r)
    ([.comment body], rest)
  | '<' :: c :: r =>
    if c.isAlpha then startTag (c :: r)
    else
      let (body, rest) := upToMarkup ('<' :: c :: r)
      ([.text (decode false body)], rest)
  | s =>
    let (body, rest) := upToMarkup s
    ([.text (decode false body)], rest)

/-- The tokens of a text; at most `fuel` steps. -/
def tokensFrom : Nat → Text → List Token
  | 0, _ => []
  | _ + 1, [] => []
  | fuel + 1, c :: r =>
    let (found, rest) := next (c :: r)
    found ++ tokensFrom fuel rest

/-- The text without the mark of its byte order, if that stands in front. -/
def dropByteMark : Text → Text
  | '\ufeff' :: r => r
  | s => s

/-- The tokens of a whole text. -/
def tokens (s : Text) : List Token :=
  let s := (Text.unifyLines (dropByteMark s)).map visible
  tokensFrom s.length s

end Locator.Html

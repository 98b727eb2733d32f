/-
Loading documents

* `Request`, `Origin`: what is asked for, and where it is to be had;
* `World`: the files, the pages and the input that can be read;
* `load`: the document at an origin with its text and its name.
-/
import Locator.Html.Read
import Locator.Load.Address
import Locator.Load.Browser
import Locator.Load.File

namespace Locator

/-- What is asked for. -/
structure Request where
  file : Option Text := none
  url : Option Text := none
  /-- May a page come over an open line? -/
  allowHttp : Bool := false

/-- Where a document is to be had. -/
inductive Origin
  | file (path : Text)
  | page (url : Text)
  | input
  deriving Repr, DecidableEq

/-- What can be read. -/
structure World where
  read : Text → Except FileError ByteArray
  render : Text → Except LoadError Page
  input : Text

/-- A document with its text and the name of its origin. -/
structure Loaded where
  document : Document
  html : Text
  source : Text

namespace Origin

/-- The origin of a page, if its address may be visited. -/
def ofUrl (url : Text) (allowHttp : Bool) : Outcome Origin := do
  let scheme ← Url.schemeOf url
  if scheme != "http".toList && scheme != "https".toList then
    .error (.load (.scheme scheme))
  else if scheme != "https".toList && !allowHttp then .error (.load .insecure)
  else return .page url

/-- The origin that a request means: a file before a page, and the input if
neither is asked for. -/
def of (r : Request) : Outcome Origin :=
  match r.file, r.url with
  | some (c :: path), _ => .ok (.file (c :: path))
  | _, some (c :: url) => ofUrl (c :: url) r.allowHttp
  | _, _ => .ok .input

/-- The text of a file: UTF-8, with lines that end in a line feed. -/
def fileText (w : World) (path : Text) : Outcome Text :=
  if path.contains '\x00' then .error .unnamedFile
  else
    let shown := shownPath path
    match w.read shown with
    | .error e => .error (.load (.unreadable shown (e.message shown)))
    | .ok bytes =>
      match String.fromUTF8? bytes with
      | some s => .ok (Text.unifyLines s.toList)
      | none => .error .undecodable

/-- The text at an origin and the name of the origin. -/
def fetch (w : World) : Origin → Outcome (Text × Text)
  | .file path => do return (← fileText w path, shownPath path)
  | .page url => do
    let page ← (w.render url).mapError .load
    return (page.html, page.url)
  | .input =>
    if (Text.strip w.input).isEmpty then .error (.load .noInput)
    else .ok (w.input, "<stdin>".toList)

end Origin

/-- The document that a request means. -/
def load (w : World) (r : Request) : Outcome Loaded := do
  let origin ← Origin.of r
  let (html, source) ← origin.fetch w
  return ⟨← readHtml 0 html, html, source⟩

end Locator

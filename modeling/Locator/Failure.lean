/-
Why an operation fails

* `LoadError`: why a document cannot be loaded;
* `Failure`: everything that can go wrong with paths, selectors, nodes,
  ranges and documents, with its message.
-/
import Locator.Convert.Error
import Locator.Css.Token
import Locator.XPath.Result

namespace Locator

/-- Why a document cannot be loaded. -/
inductive LoadError
  | blank
  | noInput
  | unparsable (reason : Text)
  | unreadable (path reason : Text)
  | scheme (scheme : Text)
  | insecure
  | status (status : Int)
  | noBrowser
  | browser (url reason : Text)
  /-- A message from elsewhere. -/
  | other (message : Text)
  deriving Repr, DecidableEq

/-- The message for a document that cannot be loaded. -/
def LoadError.message : LoadError → Text
  | .blank => "Document is empty.".toList
  | .noInput =>
    "No input provided. Supply --file, --url, or pipe HTML via stdin.".toList
  | .unparsable r => "Unable to parse HTML: ".toList ++ r
  | .unreadable p r => "Unable to read ".toList ++ p ++ ": ".toList ++ r
  | .scheme s =>
    "Unsupported URL scheme: ".toList ++ (if s.isEmpty then "(none)".toList else s)
  | .insecure =>
    "Refusing to fetch non-HTTPS resource without --allow-http flag.".toList
  | .status n =>
    "Failed to fetch URL (status ".toList ++ Text.signed n ++ ").".toList
  | .noBrowser =>
    "Chromium is not installed for Playwright. Run \x60playwright install chromium\x60.".toList
  | .browser u r => "Browser failed to load ".toList ++ u ++ ": ".toList ++ r
  | .other m => m

/-- Why an operation fails. -/
inductive Failure
  /-- An expression has no result. -/
  | path (why : XPath.EvalError)
  /-- A selector is none, or asks for something unknown. -/
  | selector (why : Css.SelectorError)
  /-- A selector has no path. -/
  | convert (why : ConvertError)
  /-- A group of a selector has no path. -/
  | unsupported (why : Unsupported)
  | load (why : LoadError)
  /-- A text holds a character that XML does not allow. -/
  | forbiddenText
  /-- An attribute without a name was asked for. -/
  | emptyName
  /-- An element has a name that is no XML name. -/
  | unnameable
  /-- A piece that is no element has no texts inside. -/
  | noText
  /-- The bytes of a file are no text. -/
  | undecodable
  /-- A path holds a character that no file has in its name. -/
  | unnamedFile
  /-- An address of the network cannot be taken apart. -/
  | malformedUrl
  /-- A prefix without a name was bound. -/
  | emptyPrefix
  /-- A prefix was bound to no namespace. -/
  | emptyNamespace
  /-- An expression needs a document with a root element. -/
  | emptyDocument
  /-- An expression cannot start at what is neither a document nor a node. -/
  | notContext
  | notElement
  | noRoot
  | outsideRoot
  /-- Nothing matches a selector that is called `label`. -/
  | noMatch (label selector : Text)
  /-- A hook of a heuristic failed. -/
  | hook (message : Text)
  | noRange (index : Int)
  deriving Repr

namespace Failure

/-- Does an expression have no result? -/
def isPath : Failure → Bool
  | .path _ => true
  | _ => false

/-- Is a selector none, or does it ask for something unknown? -/
def isSelector : Failure → Bool
  | .selector _ => true
  | _ => false

/-- The message of a failure; empty where the text is not fixed. -/
def message : Failure → Text
  | .selector e => e.message
  | .convert e => e.message
  | .unsupported e => e.message
  | .load e => e.message
  | .emptyPrefix => "empty namespace prefix is not supported in XPath".toList
  | .emptyNamespace => "setting default namespace is not supported in XPath".toList
  | .notElement => "Expected an element to compute XPath.".toList
  | .noRoot => "Unable to determine a document root for XPath computation.".toList
  | .outsideRoot => "The provided node does not belong to the configured root.".toList
  | .noMatch label s => label ++ " did not match any elements: ".toList ++ s
  | .hook m => m
  | .noRange i =>
    "Selection has no range at index ".toList ++ Text.signed i ++ ['.']
  | _ => []

end Failure

/-- The result of an operation that can fail. -/
abbrev Outcome (α : Type) := Except Failure α

end Locator

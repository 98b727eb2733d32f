/-
Reading HTML

* `declaresEncoding`: does a text start with a declaration of its encoding?
* `readHtml`: the document that a text is, or why it is none.
-/
import Locator.Document.Basic
import Locator.Failure
import Locator.Html.Tree

namespace Locator

namespace Html

/-- Does an equals sign and a text between quotation marks stand here? -/
def isQuotedValue (s : Text) : Bool :=
  match s.dropWhile Text.isBlank with
  | '=' :: r =>
    match r.dropWhile Text.isBlank with
    | q :: r =>
      Text.isQuote q && !(r.dropWhile fun c => !Text.isQuote c).isEmpty
    | [] => false
  | _ => false

/-- Does the word `encoding` with a value stand in a declaration behind a
blank, before the declaration is closed? `inside` says whether anything stands
in front of the blank. -/
def mentionsEncoding (inside : Bool) : Text → Bool
  | [] => false
  | c :: r =>
    c != '>' &&
      ((inside && Text.isBlank c &&
        match Text.behind? "encoding".toList r with
        | some rest => isQuotedValue rest
        | none => false) || mentionsEncoding true r)

/-- Does a text start with a declaration of its encoding? -/
def declaresEncoding (s : Text) : Bool :=
  match Text.behind? "<?xml".toList s with
  | some r => mentionsEncoding false r
  | none => false

/-- What is wrong with a text that declares an encoding. -/
def encodingReason : Text :=
  ("Unicode strings with encoding declaration are not supported. " ++
    "Please use bytes input or XML fragments without declaration.").toList

/-- What is wrong with a text without any element. -/
def emptyReason : Text := "Document is empty".toList

/-- What is wrong with a text that has more pieces than can be counted. -/
def hugeReason : Text := "Document is too large".toList

end Html

/-- The document that a text of HTML is. -/
def readHtml (key : Nat) (s : Text) : Outcome Document :=
  if (Text.strip s).isEmpty then .error (.load .blank)
  else if Html.declaresEncoding s then .error (.load (.unparsable Html.encodingReason))
  else
    let pieces := Html.build (Html.tokens s)
    if !pieces.any Markup.isElement then
      .error (.load (.unparsable Html.emptyReason))
    else match Document.ofContent? key pieces true with
      | some d => .ok d
      | none => .error (.load (.unparsable Html.hugeReason))

end Locator

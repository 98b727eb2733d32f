/-
What is known of the elements of HTML

* `isVoid`, `isFlag`: elements without content, attributes without value;
* `contentOf`: elements whose content is no markup;
* `closes`: the start of one element ends another that is still open;
* `rank`: which open elements the end of an element may end with it.
-/
import Locator.Text.Basic

namespace Locator.Html

/-- The names in a line of names. -/
def namesIn (line : String) : List Text := Text.words line.toList

/-- Elements that never hold anything. -/
def voidNames : List Text :=
  namesIn "area base basefont br col frame hr img input isindex link meta param"

/-- Does an element never hold anything? -/
def isVoid (name : Text) : Bool := voidNames.contains name

/-- Attributes that stand for their own name when they have no value. -/
def flagNames : List Text :=
  namesIn ("checked compact declare defer disabled ismap multiple nohref " ++
    "noresize noshade nowrap readonly selected")

/-- Does an attribute without a value stand for its own name? -/
def isFlag (name : Text) : Bool := flagNames.contains name

/-- What the content of an element is made of. -/
inductive Content
  | markup
  /-- Text with character references. -/
  | referenced
  /-- Text as it stands. -/
  | raw
  /-- Text as it stands, up to the end of the document. -/
  | endless
  deriving Repr, DecidableEq

/-- Elements that hold text as it stands. -/
def rawNames : List Text := namesIn "iframe noembed noframes script style xmp"

/-- What the content of an element is made of. -/
def contentOf (name : Text) : Content :=
  if name == "title".toList || name == "textarea".toList then .referenced
  else if rawNames.contains name then .raw
  else if name == "plaintext".toList then .endless
  else .markup

/-- Open elements, each with the elements whose start ends it. -/
def closedBy : List (String × String) := [
  ("a", "a fieldset table td th"),
  ("address", "dd dl dt form li ul"),
  ("b", "center p td th"),
  ("big", "p"),
  ("caption", "col colgroup tbody tfoot thead tr"),
  ("col", "col colgroup tbody tfoot thead tr"),
  ("colgroup", "colgroup tbody tfoot thead tr"),
  ("dd", "dt"),
  ("dir", "dd dl dt form ul"),
  ("dl", "form li"),
  ("dt", "dd dl"),
  ("font", "center td th"),
  ("form", "form"),
  ("h1", "fieldset form li p table"),
  ("h2", "fieldset form li p table"),
  ("h3", "fieldset form li p table"),
  ("h4", "fieldset form li p table"),
  ("h5", "fieldset form li p table"),
  ("h6", "fieldset form li p table"),
  ("head",
    "a abbr acronym address b bdo big blockquote body br center cite code dd dfn dir " ++
    "div dl dt em fieldset font form frameset h1 h2 h3 h4 h5 h6 hr i iframe img kbd " ++
    "li listing map menu ol p pre q s samp small span strike strong sub sup table tt " ++
    "u ul var xmp"),
  ("hr", "form"),
  ("i", "center p td th"),
  ("legend", "fieldset"),
  ("li", "li"),
  ("link", "body frameset"),
  ("listing", "dd dl dt fieldset form li table ul"),
  ("menu", "dd dl dt form ul"),
  ("ol", "form"),
  ("option", "optgroup option"),
  ("p",
    "address blockquote body caption center col colgroup dd dir div dl dt fieldset form " ++
    "frameset h1 h2 h3 h4 h5 h6 head hr li listing menu multicol ol p pre table tbody " ++
    "td tfoot th title tr ul xmp"),
  ("pre", "dd dl dt fieldset form li table ul"),
  ("s", "p"),
  ("script", "noscript"),
  ("small", "p"),
  ("span", "td th"),
  ("strike", "p"),
  ("style", "body frameset"),
  ("tbody", "tbody tfoot"),
  ("td", "tbody td tfoot th tr"),
  ("tfoot", "tbody"),
  ("th", "tbody td tfoot th tr"),
  ("thead", "tbody tfoot"),
  ("title", "body frameset"),
  ("tr", "tbody tfoot tr"),
  ("tt", "p"),
  ("u", "p td th"),
  ("ul", "address form menu pre"),
  ("xmp", "dd dl dt fieldset form li table ul")]

/-- Does the start of an element end the open element `opened`? -/
def closes (name opened : Text) : Bool :=
  closedBy.any fun row => row.1.toList == opened && (namesIn row.2).contains name

/-- How firmly an element holds against the ends of elements around it. -/
def ranks : List (String × Nat) :=
  [("div", 150), ("td", 160), ("th", 160), ("tr", 170), ("thead", 180), ("tbody", 180),
   ("tfoot", 180), ("table", 190), ("head", 200), ("body", 200), ("html", 220)]

/-- How firmly an element holds against the ends of elements around it. -/
def rank (name : Text) : Nat :=
  ((ranks.find? fun row => row.1.toList == name).map (·.2)).getD 100

/-- Elements that stand in the head of a document when nothing is open but
its root. -/
def headNames : List Text := namesIn "script style meta link title base"

/-- Elements that stand in place of a body. -/
def frameNames : List Text := namesIn "noframes frame frameset"

end Locator.Html

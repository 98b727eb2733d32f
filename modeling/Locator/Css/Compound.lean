/-
The selectors that have a path, and the paths that have a selector

* `Test`, `Compound`, `Step`: a test of one element, an element name with
  tests, and compounds joined by child and descendant combinators;
* `Compound.toXPath`, `Chain.toXPath`: the path of a compound and of a chain;
* `Compound.toCss`, `Chain.toCss`: the selector of a compound and of a chain.
-/
import Locator.XPath.Literal
import Locator.Css.Literal

namespace Locator.Css

/-- How a compound is bound to the one before it. -/
inductive Combinator
  | descendant
  | child
  deriving Repr, DecidableEq

/-- How an attribute is compared with a value. -/
inductive Comparison
  /-- The whole value, `=`. -/
  | equals
  /-- The start of the value, `^=`. -/
  | startsWith
  /-- The end of the value, `$=`. -/
  | endsWith
  /-- Any part of the value, `*=`. -/
  | contains
  /-- One of the words of the value, `~=`. -/
  | hasWord
  /-- The whole value, or its part before a hyphen, `|=`. -/
  | dash
  deriving Repr, DecidableEq

/-- A test of one element. -/
inductive Test
  | id (value : Text)
  | classToken (value : Text)
  | present (name : Text)
  | compare (name : Text) (how : Comparison) (value : Text)
  | nthOfType (digits : Text)
  deriving Repr, DecidableEq

/-- An element name, or the asterisk for any, and tests. -/
structure Compound where
  tag : Text
  tests : List Test
  deriving Repr, DecidableEq

/-- A compound and how it is bound to the one before it. -/
structure Step where
  combinator : Combinator
  compound : Compound
  deriving Repr, DecidableEq

/-- The class attribute with one blank around each of its words. -/
def paddedClass : Text := "concat(' ', normalize-space(@class), ' ')".toList

/-- The attribute `a` with one blank around each of its words. -/
def paddedWords (a : Text) : Text :=
  "concat(' ', normalize-space(@".toList ++ a ++ "), ' ')".toList

/-- A value between blanks, as a literal. -/
def paddedLiteral (v : Text) : Text :=
  if v.contains '\'' then XPath.literal (' ' :: v ++ [' '])
  else "' ".toList ++ v ++ " '".toList

namespace Test

/-- The condition of a comparison. -/
def comparisonToXPath (a : Text) (how : Comparison) (v : Text) : Text :=
  let value := XPath.literal v
  match how with
  | .equals => '@' :: a ++ '=' :: value
  | .startsWith => "starts-with(@".toList ++ a ++ ", ".toList ++ value ++ [')']
  | .endsWith =>
    "substring(@".toList ++ a ++ ", string-length(@".toList ++ a ++
      ") - string-length(".toList ++ value ++ ") + 1) = ".toList ++ value
  | .contains => "contains(@".toList ++ a ++ ", ".toList ++ value ++ [')']
  | .hasWord =>
    "contains(".toList ++ paddedWords a ++ ", ".toList ++ paddedLiteral v ++ [')']
  | .dash =>
    "(@".toList ++ a ++ '=' :: value ++ " or starts-with(@".toList ++ a ++
      ", ".toList ++ XPath.literal (v ++ ['-']) ++ "))".toList

/-- The condition of a test, as it stands in a predicate. -/
def toXPath : Test → Text
  | .id v => "@id=".toList ++ XPath.literal v
  | .classToken v =>
    "contains(".toList ++ paddedClass ++ ", ' ".toList ++ v ++ " ')".toList
  | .present a => '@' :: a
  | .compare a how v => comparisonToXPath a how v
  | .nthOfType digits => "position()=".toList ++ digits

/-- The sign of a comparison. -/
def sign : Comparison → Text
  | .equals => ['=']
  | .startsWith => ['^', '=']
  | .endsWith => ['$', '=']
  | .contains => ['*', '=']
  | .hasWord => ['~', '=']
  | .dash => ['|', '=']

/-- A test in a selector. -/
def toCss : Test → Text
  | .id v => '#' :: v
  | .classToken v => '.' :: v
  | .present a => '[' :: a ++ [']']
  | .compare a how v => '[' :: a ++ sign how ++ '"' :: escape v ++ ['"', ']']
  | .nthOfType digits => ":nth-of-type(".toList ++ digits ++ [')']

end Test

namespace Compound

/-- A compound as a step of a path: all tests stand in one predicate. -/
def toXPath (c : Compound) : Text :=
  if c.tests.isEmpty then c.tag
  else c.tag ++ '[' :: Text.join " and ".toList (c.tests.map Test.toXPath) ++ [']']

/-- A compound in a selector: the asterisk only where nothing else stands. -/
def toCss (c : Compound) : Text :=
  let body := (if c.tag == ['*'] then [] else c.tag) ++ c.tests.flatMap Test.toCss
  if body.isEmpty then ['*'] else body

end Compound

/-- Compounds joined by combinators; the first combinator does not count. -/
abbrev Chain := List Step

namespace Chain

/-- The axis in front of a compound that is not the first. -/
def axis : Combinator → Text
  | .child => ['/']
  | .descendant => ['/', '/']

/-- The path of a chain. -/
def toXPath : Chain → Text
  | [] => []
  | first :: rest =>
    "//".toList ++ first.compound.toXPath ++
      rest.flatMap (fun s => axis s.combinator ++ s.compound.toXPath)

/-- The sign between two compounds of a selector. -/
def glue : Combinator → Text
  | .child => " > ".toList
  | .descendant => [' ']

/-- The selector of a chain. -/
def toCss : Chain → Text
  | [] => []
  | first :: rest =>
    first.compound.toCss ++ rest.flatMap (fun s => glue s.combinator ++ s.compound.toCss)

end Chain

end Locator.Css

/-
Addresses of the network

* `scheme`: the scheme of an address, empty if it has none;
* `isHost`: what may stand between the brackets of a host;
* `schemeOf`: the scheme of an address whose parts are sound.
-/
import Locator.Failure
import Locator.Text.Class

namespace Locator.Url

/-- Control characters and the space. -/
def isControl (c : Char) : Bool := c.toNat ≤ 32

/-- Tabulators and the ends of lines count for nothing in an address. -/
def isIgnored (c : Char) : Bool := c == '\t' || c == '\r' || c == '\n'

/-- An address without what counts for nothing in it. -/
def tidy (s : Text) : Text := (s.dropWhile isControl).filter fun c => !isIgnored c

/-- The characters of a scheme. -/
def isSchemeChar (c : Char) : Bool :=
  c.isAlphanum || c == '+' || c == '-' || c == '.'

/-- The scheme of a tidy address in lower case, and the rest. -/
def cutScheme (s : Text) : Text × Text :=
  match Text.cutAt? ':' s with
  | some (c :: name, rest) =>
    if c.isAlpha && name.all isSchemeChar then (Text.lower (c :: name), rest) else ([], s)
  | _ => ([], s)

/-- Where the host with its surroundings ends. -/
def endsHost (c : Char) : Bool := c == '/' || c == '?' || c == '#'

/-- The host with its surroundings, if the rest of an address has one. -/
def host (rest : Text) : Text :=
  match Text.behind? "//".toList rest with
  | some r => r.takeWhile fun c => !endsHost c
  | none => []

/-- A hexadecimal digit. -/
def isHexDigit (c : Char) : Bool :=
  c.isDigit || ('a' ≤ c && c ≤ 'f') || ('A' ≤ c && c ≤ 'F')

/-- One of the four numbers of an older numeric host. -/
def isOctet (s : Text) : Bool :=
  !s.isEmpty && s.all Char.isDigit && s.length ≤ 3 && Text.ofDecimal s ≤ 255 &&
    (s.length == 1 || s.head? != some '0')

/-- Four numbers with points between them. -/
def isDotted (s : Text) : Bool :=
  let parts := Text.splitOn ['.'] s
  parts.length == 4 && parts.all isOctet

/-- One of the groups of a newer numeric host. -/
def isGroup (s : Text) : Bool := !s.isEmpty && s.length ≤ 4 && s.all isHexDigit

/-- The groups of a numeric host; four numbers at the end make two groups. -/
def groups? (s : Text) : Option (List Text) :=
  let parts := Text.splitOn [':'] s
  let last := parts.getLast?.getD []
  if parts.length < 3 then none
  else if last.contains '.' then
    if isDotted last then some (parts.dropLast ++ [['0'], ['0']]) else none
  else some parts

/-- Are all groups written out? -/
def isFull (parts : List Text) : Bool := parts.length == 8 && parts.all isGroup

/-- Does an empty group stand for at least one that is left out? At the ends
of the host its colon is written twice. -/
def isShortened (parts : List Text) : Bool :=
  let inner := (parts.drop 1).dropLast
  let before := parts.takeWhile (fun p => !p.isEmpty)
  let front := if (parts.head?.getD []).isEmpty then [] else before
  let back := (parts.reverse.takeWhile fun p => !p.isEmpty)
  let gap := parts.length - front.length - back.length
  (inner.filter List.isEmpty).length == 1 && front.all isGroup && back.all isGroup &&
    front.length + back.length ≤ 7 && parts.length ≤ 9 &&
    gap == 1 + (if front.isEmpty then 1 else 0) + (if back.isEmpty then 1 else 0)

/-- Groups of a numeric host between colons, with an optional name of a zone
behind a percent sign. -/
def isNumericHost (s : Text) : Bool :=
  let (plain, zoneSound) :=
    match Text.cutAt? '%' s with
    | some (plain, zone) => (plain, !zone.isEmpty && !zone.contains '%')
    | none => (s, true)
  zoneSound && !plain.contains '/' &&
    match groups? plain with
    | some parts => isFull parts || isShortened parts
    | none => false

/-- A host of a form still to come: a version and anything behind a point. -/
def isFutureHost (s : Text) : Bool :=
  match s with
  | 'v' :: r =>
    match r.dropWhile isHexDigit with
    | '.' :: rest => !(r.takeWhile isHexDigit).isEmpty && !rest.isEmpty &&
        !rest.contains '\n'
    | _ => false
  | _ => false

/-- What may stand between the brackets of a host. -/
def isHost (s : Text) : Bool :=
  if s.head? == some 'v' then isFutureHost s else isNumericHost s

/-- Are the brackets of a host sound? -/
def hasSoundBrackets (h : Text) : Bool :=
  match h.contains '[', h.contains ']' with
  | false, false => true
  | true, true =>
    let inner := ((Text.cutAt? '[' h).map Prod.snd).getD []
    isHost (((Text.cutAt? ']' inner).map Prod.fst).getD inner)
  | _, _ => false

/-- Characters that stand for others which would end the host or divide it. -/
def disguises : List Nat :=
  [0x2047, 0x2048, 0x2049, 0x2100, 0x2101, 0x2105, 0x2106, 0x2A74, 0xFE13, 0xFE16,
   0xFE55, 0xFE56, 0xFE5F, 0xFE6B, 0xFF03, 0xFF0F, 0xFF1A, 0xFF1F, 0xFF20]

/-- Can a host be told from what is around it? -/
def isSound (h : Text) : Bool :=
  hasSoundBrackets h && h.all fun c => !disguises.contains c.toNat

/-- The scheme of an address, empty if it has none; an address whose host
cannot be taken apart has no parts at all. -/
def schemeOf (s : Text) : Outcome Text :=
  let (scheme, rest) := cutScheme (tidy s)
  if isSound (host rest) then .ok scheme else .error .malformedUrl

end Locator.Url

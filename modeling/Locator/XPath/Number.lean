/-
Numbers of paths

* `Number`: a rational, the negative zero, an infinity or no number at all.
  A rational has no more binary digits than a double keeps: `Number.ofRat`
  takes the nearest one, and whole numbers of no more than fifty-three binary
  digits as they are;
* `add`, `sub`, `mul`, `div`, `mod`, `floor`, `ceiling`, `round`: arithmetic,
  each result the nearest number to the exact one;
* `Number.read`: the number at the start of a text, `Number.ofText` the number
  that a text is;
* `Number.toText`: a whole number in digits, a fraction to fifteen of them.
-/
import Locator.Text.Class

namespace Locator.XPath

/-- A rational, the negative zero, an infinity, or no number. -/
inductive Number
  | finite (q : Rat)
  | minusZero
  | infinite (negative : Bool)
  | nan
  deriving Repr, DecidableEq

namespace Number

/-- Two to an integer power. -/
def twoPow (e : Int) : Rat :=
  if 0 ≤ e then (Nat.pow 2 e.toNat : Rat) else 1 / (Nat.pow 2 (-e).toNat : Rat)

/-- The nearest whole number; of two the even one. -/
def nearestEven (q : Rat) : Int :=
  let f := q.floor
  let rest := q - (f : Rat)
  if rest < 1 / 2 then f
  else if 1 / 2 < rest then f + 1
  else if f % 2 == 0 then f else f + 1

/-- A rational without its sign. -/
def size (q : Rat) : Rat := if q < 0 then -q else q

/-- The place of the first binary digit of a rational other than zero. -/
def firstPlace (q : Rat) : Int :=
  let guess : Int := (Nat.log2 q.num.natAbs : Int) - (Nat.log2 q.den : Int)
  if twoPow guess ≤ size q then guess else guess - 1

/-- The place of the last binary digit that is kept: the fifty-third one, but
none beyond the smallest there is. -/
def lastPlace (q : Rat) : Int := max (-1074) (firstPlace q - 52)

/-- The nearest rational among those with the binary digits that are kept. -/
def nearest (q : Rat) : Rat :=
  (nearestEven (q * twoPow (-lastPlace q)) : Rat) * twoPow (lastPlace q)

/-- Up to here every whole number has few enough binary digits. -/
def exactLimit : Nat := Nat.pow 2 53

/-- A zero with a sign. -/
def zero (negative : Bool) : Number := if negative then .minusZero else .finite 0

/-- The nearest number to a rational; `negative` is the sign of a zero. -/
def ofRat (q : Rat) (negative : Bool := false) : Number :=
  if q == 0 then zero negative
  else if q.den == 1 && q.num.natAbs ≤ exactLimit then .finite q
  else
    let r := nearest q
    if r == 0 then zero (q < 0)
    else if twoPow 1024 ≤ size r then .infinite (q < 0)
    else .finite r

/-- A natural number as a number. -/
def ofNat (n : Nat) : Number := ofRat (n : Rat)

/-- The rational of a finite number. -/
def amount : Number → Rat
  | .finite q => q
  | _ => 0

/-- Has the number a minus sign? -/
def isNegative : Number → Bool
  | .finite q => q < 0
  | .minusZero => true
  | .infinite negative => negative
  | .nan => false

/-- Is it the number zero? -/
def isZero : Number → Bool
  | .finite q => q == 0
  | .minusZero => true
  | _ => false

/-- Is it an infinity? -/
def isInfinite : Number → Bool
  | .infinite _ => true
  | _ => false

/-- The number with the other sign. -/
def neg : Number → Number
  | .finite q => if q == 0 then .minusZero else .finite (-q)
  | .minusZero => .finite 0
  | .infinite s => .infinite (!s)
  | .nan => .nan

/-- The sum. Only two negative zeros have a negative zero as their sum. -/
def add : Number → Number → Number
  | .nan, _ => .nan
  | _, .nan => .nan
  | .infinite s, .infinite t => if s == t then .infinite s else .nan
  | .infinite s, _ => .infinite s
  | _, .infinite s => .infinite s
  | .minusZero, .minusZero => .minusZero
  | a, b => ofRat (a.amount + b.amount)

/-- The difference. -/
def sub (a b : Number) : Number := add a b.neg

/-- The product. -/
def mul : Number → Number → Number
  | .nan, _ => .nan
  | _, .nan => .nan
  | a, b =>
    let negative := a.isNegative != b.isNegative
    if a.isInfinite || b.isInfinite then
      (if a.isZero || b.isZero then .nan else .infinite negative)
    else ofRat (a.amount * b.amount) negative

/-- The quotient. -/
def div : Number → Number → Number
  | .nan, _ => .nan
  | _, .nan => .nan
  | a, b =>
    let negative := a.isNegative != b.isNegative
    if a.isInfinite then (if b.isInfinite then .nan else .infinite negative)
    else if b.isInfinite then zero negative
    else if b.isZero then (if a.isZero then .nan else .infinite negative)
    else ofRat (a.amount / b.amount) negative

/-- The whole part, toward zero. -/
def truncate (q : Rat) : Int := if q < 0 then q.ceil else q.floor

/-- What a division toward zero leaves over; it has the sign of the first
number. -/
def mod : Number → Number → Number
  | .nan, _ => .nan
  | _, .nan => .nan
  | a, b =>
    if b.isZero || a.isInfinite then .nan
    else if b.isInfinite then a
    else ofRat (a.amount - b.amount * (truncate (a.amount / b.amount) : Rat)) a.isNegative

/-- Are the numbers equal? What is no number equals nothing. -/
def eq : Number → Number → Bool
  | .nan, _ => false
  | _, .nan => false
  | .infinite s, b => b == .infinite s
  | _, .infinite _ => false
  | a, b => a.amount == b.amount

/-- Is the first number the smaller one? -/
def lt : Number → Number → Bool
  | .nan, _ => false
  | _, .nan => false
  | .infinite s, b => s && b != .infinite true
  | a, .infinite t => !t && a != .infinite false
  | a, b => a.amount < b.amount

/-- Is the first number not the larger one? -/
def le (a b : Number) : Bool := a.lt b || a.eq b

/-- Applies a rule to a finite number; a zero has the sign of the number. -/
def onFinite (f : Rat → Int) : Number → Number
  | .nan => .nan
  | .infinite s => .infinite s
  | n => ofRat (f n.amount : Rat) n.isNegative

/-- The largest whole number not above. -/
def floor : Number → Number := onFinite Rat.floor

/-- The smallest whole number not below. -/
def ceiling : Number → Number := onFinite Rat.ceil

/-- The nearest whole number; of two the larger one. -/
def roundUp (q : Rat) : Int := (q + 1 / 2).floor

/-- The nearest whole number; of two the larger one. -/
def round : Number → Number := onFinite roundUp

/-- The exponents of the two powers of ten so near the middle between two
numbers that the larger one is taken. -/
def middlePowers : List Int := [23, 210]

/-- Ten to an integer power, out of range from four hundred on. -/
def tenPow (e : Int) : Number :=
  if 400 < e then .infinite false
  else if e < -400 then .finite 0
  else if 0 ≤ e then
    let q : Rat := (Nat.pow 10 e.toNat : Rat)
    ofRat (if middlePowers.contains e then q + q * twoPow (-60) else q)
  else ofRat (1 / (Nat.pow 10 (-e).toNat : Rat))

/-- The number that digits write, taken in one by one. -/
def ofDigits (s : Text) : Number :=
  s.foldl (fun n c => (n.mul (ofNat 10)).add (ofNat (c.toNat - '0'.toNat))) (ofNat 0)

/-- The number that the digits of an exponent write; digits behind a million
do not count. -/
def ofExponent (s : Text) : Nat :=
  s.foldl (fun n c => if n < 1000000 then n * 10 + (c.toNat - '0'.toNat) else n) 0

/-- The exponent at the start of a text, and the rest. -/
def readExponent? : Text → Option (Int × Text)
  | [] => none
  | c :: r =>
    if c == 'e' || c == 'E' then
      let (negative, r) := match r with
        | '-' :: r => (true, r)
        | '+' :: r => (false, r)
        | r => (false, r)
      let n : Int := ofExponent (r.takeWhile Char.isDigit)
      some (if negative then -n else n, r.dropWhile Char.isDigit)
    else none

/-- The fraction at the start of a text, and the rest; of its digits twenty
behind the zeros count. -/
def readFraction? : Text → Option (Number × Text)
  | '.' :: r =>
    let digits := r.takeWhile Char.isDigit
    let zeros := (digits.takeWhile (· == '0')).length
    let kept := (digits.drop zeros).take 20
    some ((ofDigits kept).div (tenPow (zeros + kept.length)), r.dropWhile Char.isDigit)
  | _ => none

/-- The unsigned number at the start of a text, and the rest. There must be
a digit or a point. -/
def read (s : Text) : Number × Text :=
  let n := ofDigits (s.takeWhile Char.isDigit)
  let r := s.dropWhile Char.isDigit
  let (n, r) := match readFraction? r with
    | some (fraction, r) => (n.add fraction, r)
    | none => (n, r)
  match readExponent? r with
  | some (e, r) => (n.mul (tenPow e), r)
  | none => (n, r)

/-- Does an unsigned number start here: a digit, perhaps behind a point? -/
def startsHere : Text → Bool
  | '.' :: c :: _ => c.isDigit
  | c :: _ => c.isDigit
  | [] => false

/-- The number that a text is, blanks at its ends apart. -/
def ofText (s : Text) : Number :=
  let (negative, r) := match s.dropWhile Text.isSpace with
    | '-' :: r => (true, r)
    | r => (false, r)
  let (n, rest) := read r
  if !startsHere r || !(rest.dropWhile Text.isSpace).isEmpty then .nan
  else if negative then n.neg else n

/-- A rational that is not negative, rounded to `places` behind the point. -/
def fixed (places : Nat) (q : Rat) : Text :=
  let digits := Text.decimal (nearestEven (q * (Nat.pow 10 places : Rat))).toNat
  let padded := List.replicate (places + 1 - digits.length) '0' ++ digits
  let whole := padded.take (padded.length - places)
  let fraction := Text.dropEnd (· == '0') (padded.drop (padded.length - places))
  if fraction.isEmpty then whole else whole ++ '.' :: fraction

/-- The number of decimal digits in front of the point, less one; below one,
the negative number of zeros behind the point. `fuel` bounds the zeros. -/
def magnitude : Nat → Rat → Int
  | 0, _ => 0
  | fuel + 1, q =>
    if 1 ≤ q then ((Text.decimal q.floor.toNat).length : Int) - 1
    else magnitude fuel (q * 10) - 1

/-- A positive rational scaled down by a power of ten. -/
def scaledBy (m : Int) (q : Rat) : Rat :=
  if 0 ≤ m then q / (Nat.pow 10 m.toNat : Rat) else q * (Nat.pow 10 (-m).toNat : Rat)

/-- A positive rational with fifteen digits and an exponent. -/
def scientific (q : Rat) : Text :=
  let m := magnitude 400 q
  let short := fixed 14 (scaledBy m q)
  let (short, m) := if short == "10".toList then (['1'], m + 1) else (short, m)
  let power := Text.decimal m.natAbs
  short ++ ['e', if m < 0 then '-' else '+'] ++
    List.replicate (2 - power.length) '0' ++ power

/-- The powers of ten that a rational to be written can be near to, each with
how near it must be for its decimal logarithm to be taken for whole, in parts
of `exactLimit` of the power. -/
def logarithmSlack : List (Int × Nat) :=
  [(-5, 9), (-4, 5), (-3, 5), (-2, 2), (-1, 1),
   (1, 1), (2, 2), (3, 6), (4, 4), (5, 8), (6, 10), (7, 9), (8, 9), (9, 20)]

/-- Is the decimal logarithm of a positive rational taken for `k`? -/
def isNearPower (k : Int) (q : Rat) : Bool :=
  size (scaledBy k q - 1) * (exactLimit : Rat) ≤ (((logarithmSlack.lookup k).getD 0 : Nat) : Rat)

/-- The decimal logarithm of a positive rational to the digits of a double,
without its fraction. -/
def logarithm (q : Rat) : Int :=
  let m := magnitude 400 q
  if 1 ≤ q then (if isNearPower (m + 1) q then m + 1 else m)
  else if isNearPower m q then m else m + 1

/-- A positive rational to fifteen digits, with an exponent above a thousand
million and below one hundred-thousandth. -/
def fractionText (q : Rat) : Text :=
  if q < 1 / 100000 || 1000000000 < q then scientific q
  else
    let m := logarithm q
    fixed (if 0 < m then 14 - m else 15 - m).toNat q

/-- A number as a text. -/
def toText : Number → Text
  | .nan => "NaN".toList
  | .infinite false => "Infinity".toList
  | .infinite true => "-Infinity".toList
  | .minusZero => ['0']
  | .finite q =>
    if q.den == 1 && -2147483648 < q.num && q.num < 2147483647 then Text.signed q.num
    else if q < 0 then '-' :: fractionText (-q)
    else fractionText q

end Number

end Locator.XPath

import Charter.Number.Binary64
import Charter.Text.Letters

/-!
Decimal text of binary64 numbers. Writing takes the fewest digits that read back, the nearest of
those to the value, and lays them out as a `Layout` says; reading rounds the exact decimal value once.
-/

namespace Charter.Decimal
open Binary64 Text

-- Significant digits and the place of the point: the value is `0.digits * 10 ^ point`.
structure Digits where
  digits : List Char
  point : Int
  deriving DecidableEq

-- What two decimals at the same distance from the value are decided by.
inductive Tie where
  | even
  | up
  deriving DecidableEq

-- The reals that round to `mantissa * 2 ^ exponent`, as ratios with one denominator.
structure Interval where
  low : Nat
  value : Nat
  high : Nat
  denominator : Nat
  closed : Bool

def Interval.around (mantissa : Nat) (exponent : Int) : Interval :=
  -- The gap below a power of two is half the gap above it, except at the smallest exponent.
  let narrow := mantissa == mantissaPlace && exponent != -1074
  let (factor, denominator) := scaled 1 1 (2 - exponent)
  { low := (4 * mantissa - (if narrow then 1 else 2)) * factor
    value := 4 * mantissa * factor
    high := (4 * mantissa + 2) * factor
    denominator
    closed := mantissa % 2 == 0 }

def powerOfTen (exponent : Int) : Nat × Nat :=
  if 0 ≤ exponent then (Nat.pow 10 exponent.toNat, 1) else (1, Nat.pow 10 (-exponent).toNat)

-- Whether the decimal `count * 10 ^ place` rounds to the value that the interval is around.
def Interval.readsBack (i : Interval) (count : Nat) (place : Int) : Bool :=
  let (up, down) := powerOfTen place
  let decimal := count * up * i.denominator
  if i.closed then i.low * down ≤ decimal && decimal ≤ i.high * down
  else i.low * down < decimal && decimal < i.high * down

-- The neighbour of the value on the grid of `10 ^ place` that reads back and is the nearer one.
def Interval.onGrid? (i : Interval) (tie : Tie) (place : Int) : Option Nat :=
  let (up, down) := powerOfTen place
  let below := i.value * down / (up * i.denominator)
  let above := below + 1
  match i.readsBack below place, i.readsBack above place with
  | false, false => none
  | true, false => some below
  | false, true => some above
  | true, true =>
    let twice := 2 * i.value * down
    let middle := (2 * below + 1) * up * i.denominator
    if twice < middle then some below
    else if middle < twice then some above
    else match tie with
      | .even => some (below + below % 2)
      | .up => some above

-- The least power of ten above the value; the guess from the binary logarithm is at most three short.
def Interval.magnitude (i : Interval) : Int :=
  let bits : Int := (i.value.log2 : Int) - i.denominator.log2 - 1
  let guess := (bits * 30103).fdiv 100000
  let exceeds (k : Int) : Bool :=
    let (up, down) := powerOfTen k
    i.value * down < up * i.denominator
  match (List.range 4).find? fun (more : Nat) => exceeds (guess + more) with
  | some more => guess + more
  | none => guess + 4

def Digits.ofCount (count : Nat) (place : Int) : Digits :=
  let digits := (toString count).toList
  { digits := (digits.reverse.dropWhile (· == '0')).reverse
    point := digits.length + place }

-- All digits of `mantissa * 2 ^ exponent`.
def Digits.exact (mantissa : Nat) (exponent : Int) : Digits :=
  if 0 ≤ exponent then .ofCount (mantissa <<< exponent.toNat) 0
  else .ofCount (mantissa * Nat.pow 5 (-exponent).toNat) exponent

-- The fewest digits that read back to a positive finite value, nearest to it among those.
def shortest (tie : Tie) (mantissa : Nat) (exponent : Int) : Digits :=
  let interval := Interval.around mantissa exponent
  let magnitude := interval.magnitude
  let attempt (index : Nat) : Option Digits :=
    let place := magnitude - (index + 1)
    (interval.onGrid? tie place).map fun count => .ofCount count place
  ((List.range 17).findSome? attempt).getD (.exact mantissa exponent)

-- How digits are laid out.
structure Layout where
  tie : Tie
  -- Exponents of the first digit, from the first bound to below the second, that are written positionally;
  -- without bounds every number is.
  positional : Option (Int × Int)
  -- What follows an integral number in positional form.
  wholeEnding : String
  nan : String
  infinity : String
  negativeInfinity : String

def zeros (count : Int) : List Char := List.replicate count.toNat '0'

def Layout.positionalText (layout : Layout) (d : Digits) : List Char :=
  if d.point ≤ 0 then '0' :: '.' :: zeros (-d.point) ++ d.digits
  else if d.digits.length ≤ d.point then
    d.digits ++ zeros (d.point - d.digits.length) ++ layout.wholeEnding.toList
  else d.digits.take d.point.toNat ++ '.' :: d.digits.drop d.point.toNat

def scientificText (d : Digits) : List Char :=
  let exponent := d.point - 1
  let head := match d.digits with
    | first :: second :: rest => first :: '.' :: second :: rest
    | digits => digits
  let sign := if exponent < 0 then '-' else '+'
  head ++ 'e' :: sign :: (toString exponent.natAbs).toList

def Layout.magnitudeText (layout : Layout) (mantissa : Nat) (exponent : Int) : List Char :=
  if mantissa == 0 then '0' :: layout.wholeEnding.toList
  else
    let d := shortest layout.tie mantissa exponent
    match layout.positional with
    | none => layout.positionalText d
    | some (low, high) =>
      if low ≤ d.point - 1 && d.point - 1 < high then layout.positionalText d else scientificText d

def Layout.write (layout : Layout) (x : Float) : String :=
  match read x with
  | .nan => layout.nan
  | .infinite negative => if negative then layout.negativeInfinity else layout.infinity
  | .finite negative mantissa exponent =>
    let text := layout.magnitudeText mantissa exponent
    String.ofList (if negative then '-' :: text else text)

-- The decimal value of a run of ASCII digits.
def ofDigits (digits : List Char) : Nat :=
  digits.foldl (fun value c => 10 * value + (c.toNat - 48)) 0

-- The number nearest to `mantissa * 10 ^ exponent`. Beyond four hundred places the answer is infinite or
-- zero, whatever the digits.
def nearest (negative : Bool) (mantissa : Nat) (exponent : Int) : Float :=
  let top := (toString mantissa).length + exponent
  if mantissa == 0 || top < -400 then ofMagnitude negative 0
  else if 400 < top then ofMagnitude negative infinityPattern
  else
    let (up, down) := powerOfTen exponent
    ofRatio negative (mantissa * up) down

def splitSign : List Char → Bool × List Char
  | '-' :: rest => (true, rest)
  | '+' :: rest => (false, rest)
  | rest => (false, rest)

-- The exponent part of a decimal, which may be absent.
def exponent? : List Char → Option Int
  | [] => some 0
  | mark :: rest =>
    let (negative, digits) := splitSign rest
    if (mark == 'e' || mark == 'E') && !digits.isEmpty && digits.all isDigit then
      some (if negative then -(ofDigits digits : Int) else ofDigits digits)
    else none

-- An unsigned decimal: digits with an optional fraction and exponent, where the digits may be missing on
-- one side of the point only.
def unsigned? (negative : Bool) (text : List Char) : Option Float :=
  let whole := text.takeWhile isDigit
  let rest := text.dropWhile isDigit
  let (fraction, rest) := match rest with
    | '.' :: rest => (rest.takeWhile isDigit, rest.dropWhile isDigit)
    | _ => ([], rest)
  if whole.isEmpty && fraction.isEmpty then none
  else (exponent? rest).map fun exponent =>
    nearest negative (ofDigits (whole ++ fraction)) (exponent - fraction.length)

-- A decimal with an optional sign, or one of the words for the values that have no digits.
def parse? (text : String) : Option Float :=
  let (negative, magnitude) := splitSign text.toList
  match (String.ofList magnitude).toLower with
  | "inf" | "infinity" => some (ofMagnitude negative infinityPattern)
  | "nan" => some nan
  | _ => unsigned? negative magnitude

-- The largest natural number that is read: it has 64 bits.
def maxNatural : Nat := 0xFFFFFFFFFFFFFFFF

-- A natural number in ASCII digits, perhaps behind a plus sign.
def natural? (text : String) : Option Nat :=
  let digits := match text.toList with
    | '+' :: rest => rest
    | chars => chars
  if digits.isEmpty || !digits.all isDigit then none
  else
    let value := ofDigits digits
    if value ≤ maxNatural then some value else none

end Charter.Decimal

/-!
Binary floating point numbers of 64 bits as exact dyadic values: taking a bit pattern apart,
rounding a ratio of naturals to the nearest pattern, and the operations that are exact on values
(integral part, remainder).
-/

namespace Charter.Binary64

-- What a bit pattern stands for; a finite magnitude is `mantissa * 2 ^ exponent`.
inductive Reading where
  | nan
  | infinite (negative : Bool)
  | finite (negative : Bool) (mantissa : Nat) (exponent : Int)
  deriving DecidableEq

def signPlace : Nat := 0x8000000000000000
def mantissaPlace : Nat := 0x10000000000000
def infinityPattern : Nat := 2047 * mantissaPlace

def read (x : Float) : Reading :=
  let bits := x.toBits.toNat
  let negative := signPlace ≤ bits
  let magnitude := bits % signPlace
  let scale := magnitude / mantissaPlace
  let fraction := magnitude % mantissaPlace
  if scale == 2047 then if fraction == 0 then .infinite negative else .nan
  -- Subnormal patterns share the exponent of the smallest normal ones and lack the leading bit.
  else if scale == 0 then .finite negative fraction (-1074)
  else .finite negative (mantissaPlace + fraction) ((scale : Int) - 1075)

def ofMagnitude (negative : Bool) (magnitude : Nat) : Float :=
  Float.ofBits (UInt64.ofNat (if negative then signPlace + magnitude else magnitude))

def nan : Float := Float.ofBits (UInt64.ofNat (infinityPattern + mantissaPlace / 2))

-- The quotient rounded to the nearest natural; a half goes to the even neighbour.
def roundQuotient (num den : Nat) : Nat :=
  let floor := num / den
  let twice := 2 * (num % den)
  if twice < den then floor
  else if den < twice then floor + 1
  else floor + floor % 2

-- Numerator and denominator of `num / den / 2 ^ exponent`.
def scaled (num den : Nat) (exponent : Int) : Nat × Nat :=
  if 0 ≤ exponent then (num, den <<< exponent.toNat) else (num <<< (-exponent).toNat, den)

-- The magnitude pattern nearest to `num / den`, for a positive denominator.
def nearestMagnitude (num den : Nat) : Nat :=
  if num == 0 then 0
  else
    -- At the guess the quotient lies between 2^52 and 2^54, so at most one more halving is needed.
    let guess : Int := (num.log2 : Int) - den.log2 - 53
    let (n, d) := scaled num den guess
    let exponent := max (if n / d < 2 * mantissaPlace then guess else guess + 1) (-1074)
    let (n, d) := scaled num den exponent
    -- A mantissa that rounds up to 2^53 carries into the exponent field by itself.
    min ((exponent + 1074).toNat * mantissaPlace + roundQuotient n d) infinityPattern

def ofRatio (negative : Bool) (num den : Nat) : Float :=
  ofMagnitude negative (nearestMagnitude num den)

def ofInt (n : Int) : Float := ofRatio (n < 0) n.natAbs 1

def ofDyadic (negative : Bool) (mantissa : Nat) (exponent : Int) : Float :=
  let (n, d) := scaled mantissa 1 (-exponent)
  ofRatio negative n d

def isNaN (x : Float) : Bool := read x == .nan

def isFinite (x : Float) : Bool :=
  match read x with
  | .finite .. => true
  | _ => false

-- The integer that a finite value is, if it is one.
def integral? (x : Float) : Option Int :=
  match read x with
  | .finite negative mantissa exponent =>
    let (n, d) := scaled mantissa 1 (-exponent)
    if n % d == 0 then some (if negative then -((n / d : Nat) : Int) else (n / d : Nat)) else none
  | _ => none

-- The integer that a value is, if its magnitude is below 2^53: those convert without loss.
def safeInteger? (x : Float) : Option Int :=
  match integral? x with
  | some n => if n.natAbs < 2 * mantissaPlace then some n else none
  | none => none

-- The exact remainder of a division that truncates; it has the sign of the dividend.
def remainder (x y : Float) : Float :=
  match read x, read y with
  | .finite negative m p, .finite _ k q =>
    if k == 0 then nan
    else
      let low := min p q
      ofDyadic negative ((m <<< (p - low).toNat) % (k <<< (q - low).toNat)) low
  | .finite .., .infinite _ => x
  | _, _ => nan

end Charter.Binary64

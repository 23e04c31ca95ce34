/-!
The SHA-256 digest of a byte string, and its text in lower-case hexadecimal digits.
-/

namespace Charter.Sha256

-- The first 32 bits of the fractional part of the root of that degree of a natural: the low bits of the
-- largest `r` below `2 ^ 37` with `r ^ degree ≤ n * 2 ^ (32 * degree)`.
def fractionBits (degree n : Nat) : UInt32 :=
  let target := n <<< (32 * degree)
  let root := (List.range 37).foldr (fun place root =>
    let wider := root + (1 <<< place)
    if Nat.pow wider degree ≤ target then wider else root) 0
  UInt32.ofNat root

def primes : List Nat := [
  2, 3, 5, 7, 11, 13, 17, 19, 23, 29, 31, 37, 41, 43, 47, 53, 59, 61, 67, 71, 73, 79, 83, 89, 97, 101,
  103, 107, 109, 113, 127, 131, 137, 139, 149, 151, 157, 163, 167, 173, 179, 181, 191, 193, 197, 199,
  211, 223, 227, 229, 233, 239, 241, 251, 257, 263, 269, 271, 277, 281, 283, 293, 307, 311]

-- The round constants come from the cube roots of the first 64 primes.
def roundConstants : List UInt32 := primes.map (fractionBits 3)

structure State where
  a : UInt32
  b : UInt32
  c : UInt32
  d : UInt32
  e : UInt32
  f : UInt32
  g : UInt32
  h : UInt32

-- The start is the fractional part of the square roots of the first eight primes.
def State.start : State where
  a := fractionBits 2 2
  b := fractionBits 2 3
  c := fractionBits 2 5
  d := fractionBits 2 7
  e := fractionBits 2 11
  f := fractionBits 2 13
  g := fractionBits 2 17
  h := fractionBits 2 19

def rotate (x : UInt32) (places : UInt32) : UInt32 := (x >>> places) ||| (x <<< (32 - places))

-- The message with a one bit, zeros and its length in bits, up to a multiple of 64 bytes.
def padded (bytes : List UInt8) : List UInt8 :=
  let size := bytes.length
  let blanks := (119 - size % 64) % 64
  let length := 8 * size
  let lengthBytes := (List.range 8).map fun index => UInt8.ofNat (length >>> (8 * (7 - index)))
  bytes ++ 0x80 :: List.replicate blanks 0 ++ lengthBytes

def wordsOf : List UInt8 → List UInt32
  | a :: b :: c :: d :: rest =>
    ((a.toUInt32 <<< 24) ||| (b.toUInt32 <<< 16) ||| (c.toUInt32 <<< 8) ||| d.toUInt32) :: wordsOf rest
  | _ => []

-- The sixteen words before a round; the next word of the schedule joins at the end.
def nextWord (window : List UInt32) : UInt32 :=
  match window with
  | [w0, w1, _, _, _, _, _, _, _, w9, _, _, _, _, w14, _] =>
    let s0 := rotate w1 7 ^^^ rotate w1 18 ^^^ (w1 >>> 3)
    let s1 := rotate w14 17 ^^^ rotate w14 19 ^^^ (w14 >>> 10)
    w0 + s0 + w9 + s1
  | _ => 0

def State.round (s : State) (constant word : UInt32) : State :=
  let s1 := rotate s.e 6 ^^^ rotate s.e 11 ^^^ rotate s.e 25
  let choice := (s.e &&& s.f) ^^^ (~~~s.e &&& s.g)
  let t1 := s.h + s1 + choice + constant + word
  let s0 := rotate s.a 2 ^^^ rotate s.a 13 ^^^ rotate s.a 22
  let majority := (s.a &&& s.b) ^^^ (s.a &&& s.c) ^^^ (s.b &&& s.c)
  { a := t1 + s0 + majority, b := s.a, c := s.b, d := s.c, e := s.d + t1, f := s.e, g := s.f, h := s.g }

def State.rounds : State → List UInt32 → List UInt32 → State
  | s, _, [] => s
  | s, window, constant :: constants =>
    (s.round constant (window.headD 0)).rounds (window.tail ++ [nextWord window]) constants

def State.absorb (s : State) (constants block : List UInt32) : State :=
  let t := s.rounds block constants
  { a := s.a + t.a, b := s.b + t.b, c := s.c + t.c, d := s.d + t.d
    e := s.e + t.e, f := s.f + t.f, g := s.g + t.g, h := s.h + t.h }

def State.absorbAll (constants : List UInt32) (s : State) : Nat → List UInt32 → State
  | 0, _ => s
  | blocks + 1, words => (s.absorb constants (words.take 16)).absorbAll constants blocks (words.drop 16)

def State.words (s : State) : List UInt32 := [s.a, s.b, s.c, s.d, s.e, s.f, s.g, s.h]

def digest (bytes : List UInt8) : List UInt32 :=
  let words := wordsOf (padded bytes)
  (State.start.absorbAll roundConstants (words.length / 16) words).words

def hexDigits (word : UInt32) : List Char :=
  (List.range 8).map fun index =>
    let digit := (word.toNat >>> (4 * (7 - index))) % 16
    Char.ofNat (if digit < 10 then 48 + digit else 87 + digit)

-- The digest of the UTF-8 bytes of a text, as 64 hexadecimal digits.
def hex (text : String) : String :=
  String.ofList ((digest text.toUTF8.toList).flatMap hexDigits)

end Charter.Sha256

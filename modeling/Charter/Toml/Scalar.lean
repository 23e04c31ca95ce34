import Charter.Number.Decimal
import Charter.Toml

/-!
Words of TOML that stand for a single value: truth values, integers in four bases, decimals, dates and
times. Digits may be grouped by single underscores.
-/

namespace Charter.Toml.Scalar
open Text (isDigit)

-- Digits without the underscores between them.
def ungrouped? (valid : Char → Bool) : List Char → Option (List Char)
  | [] => none
  | [digit] => if valid digit then some [digit] else none
  | digit :: '_' :: rest => if valid digit then (ungrouped? valid rest).map (digit :: ·) else none
  | digit :: rest => if valid digit then (ungrouped? valid rest).map (digit :: ·) else none

-- Decimal digits without a leading zero.
def whole? (text : List Char) : Option (List Char) :=
  match ungrouped? isDigit text with
  | some ('0' :: _ :: _) => none
  | digits => digits

def digitValue (c : Char) : Nat :=
  let code := c.toNat
  if code ≤ 57 then code - 48 else if code ≤ 70 then code - 55 else code - 87

def isHexDigit (c : Char) : Bool :=
  let code := c.toNat
  isDigit c || 65 ≤ code && code ≤ 70 || 97 ≤ code && code ≤ 102

def based? (base : Nat) (text : List Char) : Option Nat :=
  (ungrouped? (fun c => isHexDigit c && digitValue c < base) text).map fun digits =>
    digits.foldl (fun value c => value * base + digitValue c) 0

-- An integer of a document. Only a decimal one has a sign.
def integer? (word : List Char) : Option Int := do
  let value : Int ← match word with
    | '0' :: 'x' :: digits => based? 16 digits
    | '0' :: 'o' :: digits => based? 8 digits
    | '0' :: 'b' :: digits => based? 2 digits
    | _ =>
      let (negative, digits) := Decimal.splitSign word
      let magnitude := Decimal.ofDigits (← whole? digits)
      pure (if negative then -magnitude else magnitude)
  if -maxInteger - 1 ≤ value && value ≤ maxInteger then some value else none

def isGrouped (c : Char) : Bool := isDigit c || c == '_'

-- A decimal with a fraction or an exponent, or one of the words for what has no digits. Digits that stand
-- for no finite number are refused, unless the number is negative.
def float? (word : List Char) : Option Float := do
  let (negative, magnitude) := Decimal.splitSign word
  if magnitude == "inf".toList || magnitude == "nan".toList then Decimal.parse? (String.ofList word)
  else
    let whole ← whole? (magnitude.takeWhile isGrouped)
    let rest := magnitude.dropWhile isGrouped
    if rest.isEmpty then none
    let (fraction, rest) ← match rest with
      | '.' :: rest => do pure (← ungrouped? isDigit (rest.takeWhile isGrouped), rest.dropWhile isGrouped)
      | rest => pure ([], rest)
    let exponent : Int ← match rest with
      | [] => pure 0
      | mark :: rest =>
        if mark == 'e' || mark == 'E' then
          let (negative, digits) := Decimal.splitSign rest
          let size := Decimal.ofDigits (← ungrouped? isDigit digits)
          pure (if negative then -size else size)
        else none
    let value := Decimal.nearest negative (Decimal.ofDigits (whole ++ fraction)) (exponent - fraction.length)
    if !Binary64.isFinite value && !negative then none else some value

-- Some digits, and a bound on their value.
def digits? (count low high : Nat) (text : List Char) : Option (Nat × List Char) :=
  let digits := text.take count
  let value := Decimal.ofDigits digits
  if digits.length == count && digits.all isDigit && low ≤ value && value ≤ high then
    some (value, text.drop count)
  else none

def mark? (c : Char) : List Char → Option (List Char)
  | first :: rest => if first == c then some rest else none
  | [] => none

def daysIn (year month : Nat) : Nat :=
  let leap := year % 4 == 0 && (year % 100 != 0 || year % 400 == 0)
  match month with
  | 2 => if leap then 29 else 28
  | 4 | 6 | 9 | 11 => 30
  | _ => 31

-- What follows a date.
def date? (text : List Char) : Option (List Char) := do
  let (year, rest) ← digits? 4 0 9999 text
  let (month, rest) ← digits? 2 1 12 (← mark? '-' rest)
  let (_, rest) ← digits? 2 1 (daysIn year month) (← mark? '-' rest)
  return rest

-- What follows a time of day. A minute may have sixty-one seconds.
def time? (text : List Char) : Option (List Char) := do
  let (_, rest) ← digits? 2 0 23 text
  let (_, rest) ← digits? 2 0 59 (← mark? ':' rest)
  let (_, rest) ← digits? 2 0 60 (← mark? ':' rest)
  match rest with
  | '.' :: c :: fraction => if isDigit c then some (fraction.dropWhile isDigit) else none
  | rest => some rest

def isOffset (text : List Char) : Bool :=
  match text with
  | [c] => c == 'Z' || c == 'z'
  | sign :: rest =>
    (sign == '+' || sign == '-') && (do
      let (_, rest) ← digits? 2 0 23 rest
      let (_, rest) ← digits? 2 0 59 (← mark? ':' rest)
      return rest.isEmpty) == some true
  | [] => false

-- Whether a word is a date, a time of day, or both, then perhaps with an offset.
def isMoment (word : List Char) : Bool :=
  match date? word with
  | some [] => true
  | some (gap :: rest) =>
    (gap == 'T' || gap == 't' || gap == ' ') &&
      match time? rest with
      | some last => last.isEmpty || isOffset last
      | none => false
  | none => time? word == some []

def value? (word : List Char) : Option Toml :=
  match String.ofList word with
  | "true" => some (.boolean true)
  | "false" => some (.boolean false)
  | _ =>
    if isMoment word then some .moment
    else ((integer? word).map .integer) <|> ((float? word).map .float)

end Charter.Toml.Scalar

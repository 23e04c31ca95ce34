import Charter.Fields
import Charter.Number.Decimal

/-!
JSON documents. Integers and binary64 numbers are different numbers here: `1` and `1.0` are told
apart in keys and in text. The canonical form has the keys of every object in increasing order, and
one text for each document.
-/

namespace Charter

inductive Json where
  | null
  | boolean (value : Bool)
  | integer (value : Int)
  | double (value : Float)
  | string (value : String)
  | array (items : List Json)
  | object (fields : List (String × Json))
  deriving Inhabited

-- The data of one entity instance, with its keys in increasing order.
abbrev Record := Fields Json

namespace Json

-- The document of a number; what is not finite has none but null.
def ofNumber (x : Float) : Json := if Binary64.isFinite x then .double x else .null

-- Positional from five places after the point up to sixteen before it; what is not finite has no JSON text
-- and is written as null.
def numberLayout : Decimal.Layout where
  tie := .even
  positional := some (-5, 16)
  wholeEnding := ".0"
  nan := "null"
  infinity := "null"
  negativeInfinity := "null"

def hexDigit (n : Nat) : Char := Char.ofNat (if n < 10 then 48 + n else 87 + n)

-- A character inside a string: the two marks, and the control characters below the blank, are escaped.
def escape (c : Char) : List Char :=
  match c.toNat with
  | 0x22 => ['\\', '\x22']
  | 0x5C => ['\\', '\\']
  | 0x08 => ['\\', 'b']
  | 0x09 => ['\\', 't']
  | 0x0A => ['\\', 'n']
  | 0x0C => ['\\', 'f']
  | 0x0D => ['\\', 'r']
  | code =>
    if code < 0x20 then ['\\', 'u', '0', '0', hexDigit (code / 16), hexDigit (code % 16)] else [c]

def quoted (text : String) : List Char := '\x22' :: text.toList.flatMap escape ++ ['\x22']

-- The text of a document in front of other text: without blanks, fields in the order in which they stand.
def onto : Json → List Char → List Char
  | .null, rest => "null".toList ++ rest
  | .boolean value, rest => (if value then "true" else "false").toList ++ rest
  | .integer value, rest => (toString value).toList ++ rest
  | .double value, rest => (numberLayout.write value).toList ++ rest
  | .string value, rest => quoted value ++ rest
  | .array items, rest => '[' :: elements items (']' :: rest)
  | .object fields, rest => '\x7b' :: members fields ('\x7d' :: rest)
where
  elements : List Json → List Char → List Char
    | [], rest => rest
    | [item], rest => onto item rest
    | item :: others, rest => onto item (',' :: elements others rest)
  members : List (String × Json) → List Char → List Char
    | [], rest => rest
    | [(key, value)], rest => quoted key ++ ':' :: onto value rest
    | (key, value) :: others, rest => quoted key ++ ':' :: onto value (',' :: members others rest)

def characters (document : Json) : List Char := document.onto []

def text (document : Json) : String := String.ofList document.characters

mutual

theorem onto_append (document : Json) (first rest : List Char) :
    document.onto (first ++ rest) = document.onto first ++ rest := by
  cases document with
  | array items => simpa [onto] using elements_append items (']' :: first) rest
  | object fields => simpa [onto] using members_append fields ('\x7d' :: first) rest
  | _ => simp [onto]

theorem elements_append (items : List Json) (first rest : List Char) :
    onto.elements items (first ++ rest) = onto.elements items first ++ rest := by
  cases items with
  | nil => rfl
  | cons item others =>
      cases others with
      | nil => exact onto_append item first rest
      | cons next others =>
          simp only [onto.elements, elements_append (next :: others) first rest]
          exact onto_append item (',' :: onto.elements (next :: others) first) rest

theorem members_append (fields : List (String × Json)) (first rest : List Char) :
    onto.members fields (first ++ rest) = onto.members fields first ++ rest := by
  cases fields with
  | nil => rfl
  | cons field others =>
      obtain ⟨key, value⟩ := field
      cases others with
      | nil => simp [onto.members, onto_append value first rest]
      | cons next others =>
          simp only [onto.members, members_append (next :: others) first rest]
          simpa using onto_append value (',' :: onto.members (next :: others) first) rest

end

-- Writing a document in front of a text is writing it alone and putting the text behind.
theorem onto_eq (document : Json) (rest : List Char) :
    document.onto rest = document.characters ++ rest := document.onto_append [] rest

-- The document with the keys of every object in increasing order.
def canonical : Json → Json
  | .array items => .array (elements items)
  | .object fields => .object (members fields)
  | other => other
where
  elements : List Json → List Json
    | [] => []
    | item :: rest => canonical item :: elements rest
  members : List (String × Json) → List (String × Json)
    | [] => []
    | (key, value) :: rest =>
      let tail := members rest
      -- The last value of a repeated key counts, and here it is already in place.
      if Fields.has tail key then tail else Fields.place tail key (canonical value)

def canonicalText (document : Json) : String := document.canonical.text

def get? : Json → String → Option Json
  | .object fields, key => Fields.get? fields key
  | _, _ => none

end Json
end Charter

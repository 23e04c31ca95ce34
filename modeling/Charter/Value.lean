import Charter.Ir
import Charter.Json
import Charter.Text.Letters

/-!
Values of expressions, and their conversion to and from the data of instances.
-/

namespace Charter

-- A lambda carries its identity and the scopes that it was made in, the innermost first.
inductive Value where
  | undefined
  | null
  | boolean (value : Bool)
  | number (value : Float)
  | string (value : String)
  | array (items : List Value)
  -- Keys in the order of insertion.
  | object (entries : List (String × Value))
  | lambda (identity : Nat) (params : List String) (body : Ir.Expression)
      (scopes : List (List (String × Value)))
  deriving Inhabited

namespace Value

def typeName : Value → String
  | undefined => "undefined"
  | null => "null"
  | boolean _ => "boolean"
  | number _ => "number"
  | string _ => "string"
  | array _ => "array"
  | object _ => "object"
  | lambda .. => "function"

def isNullish : Value → Bool
  | undefined | null => true
  | _ => false

def isTruthy : Value → Bool
  | undefined | null => false
  | boolean value => value
  | number value => value != 0 && !Binary64.isNaN value
  | string value => !value.isEmpty
  | array _ | object _ | lambda .. => true

-- The number that arithmetic takes a value for. A blank text counts as zero.
def toNumber : Value → Float
  | null => Binary64.ofInt 0
  | boolean value => Binary64.ofInt (if value then 1 else 0)
  | number value => value
  | string value =>
    let trimmed := Text.trim value
    if trimmed.isEmpty then Binary64.ofInt 0 else (Decimal.parse? trimmed).getD Binary64.nan
  | undefined | array _ | object _ | lambda .. => Binary64.nan

-- Numbers in text are always positional, and whole ones have no point.
def numberLayout : Decimal.Layout where
  tie := .up
  positional := none
  wholeEnding := ""
  nan := "NaN"
  infinity := "inf"
  negativeInfinity := "-inf"

def numberText (x : Float) : String :=
  match Binary64.safeInteger? x with
  | some n => toString n
  | none => numberLayout.write x

-- Whole numbers become integers where that is exact.
def numberJson (x : Float) : Json :=
  match Binary64.safeInteger? x with
  | some n => .integer n
  | none => .ofNumber x

-- The data of a value, with keys in increasing order. What has no data form becomes null.
def toJson : Value → Json
  | undefined | null | lambda .. => .null
  | boolean value => .boolean value
  | number value => numberJson value
  | string value => .string value
  | array items => .array (elements items)
  | object entries => .object (Fields.sorted (members entries))
where
  elements : List Value → List Json
    | [] => []
    | item :: rest => toJson item :: elements rest
  members : List (String × Value) → List (String × Json)
    | [] => []
    | (key, value) :: rest => (key, toJson value) :: members rest

def ofJson : Json → Value
  | .null => null
  | .boolean value => boolean value
  | .integer value => number (Binary64.ofInt value)
  | .double value => number value
  | .string value => string value
  | .array items => array (elements items)
  | .object fields => object (members fields)
where
  elements : List Json → List Value
    | [] => []
    | item :: rest => ofJson item :: elements rest
  members : List (String × Json) → List (String × Value)
    | [] => []
    | (key, value) :: rest => (key, ofJson value) :: members rest

def ofConstant : Ir.Constant → Value
  | .string value => string value
  | .number value => number value
  | .boolean value => boolean value
  | .null => null
  | .array items => array (elements items)
  | .object entries => object (members entries)
where
  elements : List Ir.Constant → List Value
    | [] => []
    | item :: rest => ofConstant item :: elements rest
  members : List (String × Ir.Constant) → List (String × Value)
    | [] => []
    | (key, value) :: rest => (key, ofConstant value) :: members rest

-- The text of a value in a concatenation: items joined by commas, objects as JSON.
def text : Value → String
  | undefined => "undefined"
  | null => "null"
  | boolean value => if value then "true" else "false"
  | number value => numberText value
  | string value => value
  | array items => String.intercalate "," (texts items)
  | object entries => (toJson (object entries)).text
  | lambda _ params _ _ =>
    let names := String.intercalate ", " params
    s!"({names}) => ..."
where
  texts : List Value → List String
    | [] => []
    | item :: rest => text item :: texts rest

-- The member of a value under a key of its own. Lists and texts have a length and numbered parts.
def member (target : Value) (key : String) : Value :=
  match target with
  | object entries => (Fields.get? entries key).getD undefined
  | array items =>
    if key == "length" then number (Binary64.ofInt items.length)
    else ((Decimal.natural? key).bind fun index => items[index]?).getD undefined
  | string value =>
    if key == "length" then number (Binary64.ofInt value.length)
    else
      match (Decimal.natural? key).bind fun index => value.toList[index]? with
      | some c => string (String.singleton c)
      | none => undefined
  | undefined | null | boolean _ | number _ | lambda .. => undefined

end Value

-- The fields of a record as bindings.
def Record.values (record : Record) : Fields Value := record.map fun (key, value) => (key, .ofJson value)

end Charter

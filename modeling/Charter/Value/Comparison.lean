import Charter.Value

/-!
Comparing values: equality of structure, the looser equality of expressions, order, and membership.
-/

namespace Charter.Value

-- Equality of structure. The order of keys does not count; lambdas are equal if they are the same.
def equals : Value → Value → Bool
  | undefined, undefined => true
  | null, null => true
  | boolean a, boolean b => a == b
  | number a, number b => a == b
  | string a, string b => a == b
  | array a, array b => a.length == b.length && items a b
  | object a, object b => a.length == b.length && entries a b
  | lambda a _ _ _, lambda b _ _ _ => a == b
  | _, _ => false
where
  items : List Value → List Value → Bool
    | a :: as, b :: bs => equals a b && items as bs
    | _, _ => true
  entries : List (String × Value) → List (String × Value) → Bool
    | [], _ => true
    | (key, value) :: rest, others =>
      (match Fields.get? others key with
        | some other => equals value other
        | none => false) && entries rest others

-- The equality of expressions: `undefined` is `null`, a number equals a text or truth value of that number,
-- lists and objects are compared part by part, and all else by structure.
def looselyEquals : Value → Value → Bool
  | undefined, b => b.isNullish
  | null, b => b.isNullish
  | number a, string b => a == (string b).toNumber
  | number a, boolean b => a == (boolean b).toNumber
  | string a, number b => (string a).toNumber == b
  | boolean a, number b => (boolean a).toNumber == b
  | array a, array b => a.length == b.length && items a b
  | object a, object b => a.length == b.length && entries a b
  | a, b => a.equals b
where
  items : List Value → List Value → Bool
    | a :: as, b :: bs => looselyEquals a b && items as bs
    | _, _ => true
  entries : List (String × Value) → List (String × Value) → Bool
    | [], _ => true
    | (key, value) :: rest, others =>
      (match Fields.get? others key with
        | some other => looselyEquals value other
        | none => false) && entries rest others

inductive Comparison where
  | less
  | greater
  | lessOrEqual
  | greaterOrEqual
  deriving DecidableEq

-- Texts are ordered by code points; everything else is compared as numbers.
def compares (comparison : Comparison) (a b : Value) : Bool :=
  match a, b with
  | string a, string b =>
    match comparison with
    | .less => a < b
    | .greater => b < a
    | .lessOrEqual => !(b < a)
    | .greaterOrEqual => !(a < b)
  | a, b =>
    let (x, y) := (a.toNumber, b.toNumber)
    match comparison with
    | .less => x < y
    | .greater => y < x
    | .lessOrEqual => x ≤ y
    | .greaterOrEqual => y ≤ x

-- Whether `part` stands somewhere in a text.
def isPartOf (part : List Char) : List Char → Bool
  | [] => part.isEmpty
  | c :: rest => part.isPrefixOf (c :: rest) || isPartOf part rest

-- Membership: an element of a list, a key of an object, a part of a text.
def contains (whole part : Value) : Bool :=
  match whole with
  | array items => items.any (·.looselyEquals part)
  | object entries =>
    match part with
    | string key => Fields.has entries key
    | _ => false
  | string text => isPartOf part.text.toList text.toList
  | _ => false

end Charter.Value

import Charter.Ir

/-!
The names that an expression reads of the instance it is evaluated on.
-/

namespace Charter.Ir

-- Names with a meaning of their own.
def reservedNames : List String := ["self", "this", "user", "context", "true", "false", "null"]

def isInstance (name : String) : Bool := name == "self" || name == "this"

-- Every reading of a field, in order: bare names, and members of the instance. Names bound by a lambda
-- around them and the names of called functions are no readings.
def Expression.readings (bound : List String) : Expression → List String
  | .literal _ => []
  | .identifier name => free name
  | .member (.identifier owner) property => if isInstance owner then free property else free owner
  | .member target _ => readings bound target
  | .binary _ left right => readings bound left ++ readings bound right
  | .unary _ operand => readings bound operand
  | .call (.identifier _) arguments => ofList arguments
  | .call callee arguments => readings bound callee ++ ofList arguments
  | .conditional condition consequent alternate =>
    readings bound condition ++ readings bound consequent ++ readings bound alternate
  | .array elements => ofList elements
  | .object properties => ofPairs properties
  | .lambda params body => readings (bound ++ params) body
where
  free (name : String) : List String :=
    if reservedNames.contains name || bound.contains name then [] else [name]
  ofList : List Expression → List String
    | [] => []
    | item :: rest => readings bound item ++ ofList rest
  ofPairs : List (String × Expression) → List String
    | [] => []
    | (_, value) :: rest => readings bound value ++ ofPairs rest

-- The fields that an expression reads, each once, in the order of first use.
def Expression.dependencies (e : Expression) : List String := (e.readings []).eraseDups

end Charter.Ir

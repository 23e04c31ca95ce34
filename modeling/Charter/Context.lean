import Charter.Evaluation

/-!
The context of a request, and the scope that expressions about a record are evaluated in: the fields of
the record, and over them `self`, `this`, `user` and `context`.
-/

namespace Charter

-- Who makes a request, if anyone, and what else is known about it.
structure RequestContext where
  user : Option Json := none
  values : Record := []

namespace RequestContext

-- In a document a null user is no user.
def ofRecord (record : Record) : RequestContext where
  user := match Fields.get? record "user" with
    | none | some .null => none
    | some user => some user
  values := Fields.erase record "user"

-- A value that is named `user` hides the user here, and only here.
def record (context : RequestContext) : Record :=
  let user : Record := context.user.toList.map fun user => ("user", user)
  Fields.overlay user context.values

def userValue (context : RequestContext) : Value :=
  match context.user with
  | some user => .ofJson user
  | none => .null

-- The values of the context; a user stands among them under that name.
def value (context : RequestContext) : Value :=
  let values := Record.values context.values
  match context.user with
  | some user => .object (Fields.put values "user" (.ofJson user))
  | none => .object values

-- The names that every scope has, bound over what a record calls so.
def bindReserved (context : RequestContext) (env : Environment) (self : Value) : Environment :=
  (((env.define "self" self).define "this" self).define "user" context.userValue).define
    "context" context.value

-- The scope about some fields, or about none.
def scope (context : RequestContext) (fields : Option (Fields Value)) : Environment :=
  match fields with
  | some fields => context.bindReserved (.ofFields fields) (.object fields)
  | none => context.bindReserved (.ofFields []) .null

end RequestContext
end Charter

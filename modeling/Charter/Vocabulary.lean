/-!
The words that declarations are made of, shared by the source tree and the compiled form.
-/

namespace Charter

-- A type as it is written: a name, perhaps with one argument, perhaps nullable.
structure TypeRef where
  name : String
  generic : Option TypeRef
  nullable : Bool
  deriving Inhabited

def TypeRef.named (name : String) : TypeRef := ⟨name, none, false⟩

inductive Modifier where
  | required
  | unique
  | indexed
  | isPrivate
  | readonly
  | optional
  deriving DecidableEq

namespace Modifier

def all : List Modifier := [required, unique, indexed, isPrivate, readonly, optional]

def word : Modifier → String
  | required => "required"
  | unique => "unique"
  | indexed => "indexed"
  | isPrivate => "private"
  | readonly => "readonly"
  | optional => "optional"

def ofWord? (text : String) : Option Modifier := all.find? (·.word == text)

end Modifier

inductive RelationshipKind where
  | hasMany
  | hasOne
  | belongsTo
  | ref
  deriving DecidableEq

namespace RelationshipKind

def all : List RelationshipKind := [hasMany, hasOne, belongsTo, ref]

def word : RelationshipKind → String
  | hasMany => "hasMany"
  | hasOne => "hasOne"
  | belongsTo => "belongsTo"
  | ref => "ref"

def ofWord? (text : String) : Option RelationshipKind := all.find? (·.word == text)

end RelationshipKind

-- What a violated constraint does: nothing, a warning, or a refusal of the write.
inductive Enforcement where
  | ok
  | warn
  | block
  deriving DecidableEq

namespace Enforcement

def all : List Enforcement := [ok, warn, block]

def word : Enforcement → String
  | ok => "ok"
  | warn => "warn"
  | block => "block"

def ofWord? (text : String) : Option Enforcement := all.find? (·.word == text)

end Enforcement

inductive ActionKind where
  | mutate
  | compute
  | effect
  | publish
  | persist
  deriving DecidableEq

namespace ActionKind

def all : List ActionKind := [mutate, compute, effect, publish, persist]

def word : ActionKind → String
  | mutate => "mutate"
  | compute => "compute"
  | effect => "effect"
  | publish => "publish"
  | persist => "persist"

def ofWord? (text : String) : Option ActionKind := all.find? (·.word == text)

end ActionKind

inductive PolicyAction where
  | read
  | write
  | delete
  | execute
  | all
  | override
  deriving DecidableEq

namespace PolicyAction

def values : List PolicyAction := [read, write, delete, execute, all, override]

def word : PolicyAction → String
  | read => "read"
  | write => "write"
  | delete => "delete"
  | execute => "execute"
  | all => "all"
  | override => "override"

def ofWord? (text : String) : Option PolicyAction := values.find? (·.word == text)

-- Whether a policy with this action is asked before a command runs.
def guardsExecution (action : PolicyAction) : Bool := action == execute || action == all

end PolicyAction
end Charter

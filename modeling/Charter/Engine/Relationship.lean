import Charter.Engine
import Charter.Text.Lowercase

/-!
Following relationships between records, through the fields that hold ids. Where no key is declared, it is
named for the relationship or for the entity that it points to.
-/

namespace Charter

namespace Record

-- The id that a field of a record holds.
def reference? (record : Record) (field : String) : Option String :=
  (Fields.get? record field).bind Json.reference?

-- Whether a field of a record holds an id.
def refersTo (record : Record) (field id : String) : Bool := reference? record field == some id

end Record

namespace Ir

-- The field in which records name one of an entity.
def keyOf (entity : String) : String := Text.lowerFirst entity ++ "Id"

namespace Relationship

-- The field of the record itself that holds the id of the one it belongs to.
def ownKey (relationship : Relationship) : String :=
  relationship.foreignKey.getD (relationship.name ++ "Id")

-- The field of the other records that holds the id of an owner.
def ownerKey (relationship : Relationship) (owner : String) : String :=
  relationship.foreignKey.getD (keyOf owner)

-- The field of the joining records that holds the id of a target.
def targetKey (relationship : Relationship) : String :=
  relationship.foreignKey.getD (keyOf relationship.target)

end Relationship
end Ir

namespace Transaction

-- The records of an entity with the given ids, without those that do not exist.
def existing (entity : String) : List String → Transaction (List Record)
  | [] => return []
  | id :: rest => do return (← record? entity id).toList ++ (← existing entity rest)

end Transaction

namespace Engine

-- The one record that a record names as its owner.
def owner (relationship : Ir.Relationship) (record : Record) : Transaction (List Record) :=
  Transaction.existing relationship.target (Record.reference? record relationship.ownKey).toList

-- The records that an owner has, in the order of their store, or of the joining records.
def owned (name id : String) (relationship : Ir.Relationship) : Transaction (List Record) :=
  match relationship.through with
  | none => do
    let records ← Transaction.records relationship.target
    return records.filter (Record.refersTo · (relationship.ownerKey name) id)
  | some join => do
    let rows ← Transaction.records join
    Transaction.existing relationship.target
      ((rows.filter (Record.refersTo · (Ir.keyOf name) id)).filterMap
        (Record.reference? · relationship.targetKey))

-- The records that a relationship of a record leads to; none if the record does not exist.
def related (engine : Engine) (name id property : String) : Transaction (List Record) := do
  let entity ← engine.entity name
  let relationship ← .need (entity.relationship? property) (.unknownRelationship name property)
  match ← Transaction.record? name id with
  | none => return []
  | some record =>
    match relationship.kind with
    | .belongsTo | .ref => owner relationship record
    | .hasMany => owned name id relationship
    | .hasOne => return (← owned name id relationship).take 1

end Engine
end Charter

import Charter.Evaluation

/-!
Stores: the records of one entity, each under its id. A shelf keeps records in the order in which their
ids came to it. A store is a shelf behind requests, which it may refuse.
-/

namespace Charter

-- What a value says when it names a record: a text, or the text of a number.
def Json.reference? : Json → Option String
  | .string name => some name
  | .integer n => some (Json.integer n).text
  | .double x => some (Json.double x).text
  | _ => none

namespace Record

def id? (record : Record) : Option String := (Fields.get? record "id").bind Json.reference?

-- A record and its id. One that has none gets a fresh id.
def identified (around : Surroundings) (record : Record) (usage : Usage) : (String × Record) × Usage :=
  match id? record with
  | some id => ((id, record), usage)
  | none =>
    let id := around.id usage.ids
    ((id, Fields.place record "id" (.string id)), { usage with ids := usage.ids + 1 })

-- A record with the fields of a patch over its own. Its id stays.
def patched (record patch : Record) : Record :=
  Fields.overlay record (patch.filter fun field => field.1 != "id")

end Record

-- Records by id.
structure Shelf where
  records : Fields Record := []

namespace Shelf

def all (shelf : Shelf) : List Record := shelf.records.map (·.2)

def get? (shelf : Shelf) (id : String) : Option Record := Fields.get? shelf.records id

-- Keeps a record under an id, in the place of the one that was there.
def insert (shelf : Shelf) (id : String) (record : Record) : Shelf := ⟨Fields.put shelf.records id record⟩

def update? (shelf : Shelf) (id : String) (patch : Record) : Option (Record × Shelf) :=
  (shelf.get? id).map fun record =>
    let record := Record.patched record patch
    (record, shelf.insert id record)

def erase (shelf : Shelf) (id : String) : Shelf := ⟨Fields.erase shelf.records id⟩

-- A shelf with each record in turn kept under its id.
def fill (around : Surroundings) (records : List Record) (usage : Usage) : Shelf × Usage :=
  records.foldl (fun (shelf, usage) record =>
    let ((id, record), usage) := Record.identified around record usage
    (shelf.insert id record, usage)) ({}, usage)

end Shelf

inductive StoreRequest where
  | getAll
  | getById
  | create
  | update
  | delete
  | clear
  deriving DecidableEq

def StoreRequest.word : StoreRequest → String
  | getAll => "getAll"
  | getById => "getById"
  | create => "create"
  | update => "update"
  | delete => "delete"
  | clear => "clear"

-- What a store does with requests: it serves them, refuses them all, or serves all but never finds the
-- record that an update is for.
inductive StoreConduct where
  | serving
  | refusing
  | losing
  deriving DecidableEq

structure Store where
  conduct : StoreConduct := .serving
  shelf : Shelf := {}

namespace Store

-- A request is refused by its name.
abbrev Reply (α : Type) := Except StoreRequest α

def permit (store : Store) (request : StoreRequest) : Reply Unit :=
  if store.conduct = .refusing then .error request else .ok ()

def all (store : Store) : Reply (List Record) := do
  store.permit .getAll
  return store.shelf.all

def get? (store : Store) (id : String) : Reply (Option Record) := do
  store.permit .getById
  return store.shelf.get? id

-- The updated record, unless there is none of the id.
def update (store : Store) (id : String) (patch : Record) : Reply (Option Record × Store) := do
  store.permit .update
  match store.conduct, store.shelf.update? id patch with
  | .serving, some (record, shelf) => return (some record, { store with shelf })
  | _, _ => return (none, store)

-- Whether there was a record of the id.
def delete (store : Store) (id : String) : Reply (Bool × Store) := do
  store.permit .delete
  return ((store.shelf.get? id).isSome, { store with shelf := store.shelf.erase id })

def clear (store : Store) : Reply Store := do
  store.permit .clear
  return { store with shelf := {} }

end Store
end Charter

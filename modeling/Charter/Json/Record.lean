import Charter.Json

/-!
Records in JSON. A record is an object, or a list of its fields in the order of their names. A word from
a list of choices is a text, or the only key of an object over nothing. What a record holds is smaller
than the record, which lets readers go down into it.
-/

namespace Charter.Json

theorem sizeOf_get? {fields : List (String × Json)} {key : String} {value : Json}
    (found : Fields.get? fields key = some value) : sizeOf value < sizeOf fields := by
  induction fields with
  | nil => simp [Fields.get?] at found
  | cons head rest ih =>
      obtain ⟨name, old⟩ := head
      unfold Fields.get? at found
      split at found
      · cases found
        simp
        omega
      · have := ih found
        simp
        omega

-- A part of a document, which is smaller than the document.
abbrev Part (whole : Json) := { part : Json // sizeOf part < sizeOf whole }

def member? (document : Json) (key : String) : Option (Part document) :=
  match document with
  | .object fields =>
    match found : Fields.get? fields key with
    | some value => some ⟨value, by have := sizeOf_get? found; simp; omega⟩
    | none => none
  | _ => none

def items? (document : Json) : Option (List (Part document)) :=
  match document with
  | .array items =>
    some (items.attach.map fun ⟨item, member⟩ =>
      ⟨item, by have := List.sizeOf_lt_of_mem member; simp; omega⟩)
  | _ => none

def members? (document : Json) : Option (List (String × Part document)) :=
  match document with
  | .object fields =>
    some (fields.attach.map fun ⟨(key, value), member⟩ =>
      (key, ⟨value, by have := List.sizeOf_lt_of_mem member; simp at this ⊢; omega⟩))
  | _ => none

-- The part of a record that tells its kind: a list begins with it.
def tag? (document : Json) (key : String) : Option (Part document) :=
  match document.items? with
  | some items => items.head?
  | none => document.member? key

-- A field of a record, by its name or, in a list, by its place among the names. A list that is longer than
-- the names is no record.
def part? (names : List String) (document : Json) (key : String) : Option (Part document) :=
  match document.items? with
  | some items => if items.length ≤ names.length then items[names.idxOf key]? else none
  | none => document.member? key

-- The fields of a record, for readers that do not go down into the record itself.
def field? (names : List String) (document : Json) (key : String) : Option Json :=
  (document.part? names key).map (·.1)

-- What a field may hold.

def string? : Json → Option String
  | .string value => some value
  | _ => none

def boolean? : Json → Option Bool
  | .boolean value => some value
  | _ => none

def number? : Json → Option Float
  | .double value => some value
  | .integer value => some (Binary64.ofInt value)
  | _ => none

def natural? : Json → Option Nat
  | .integer (.ofNat value) => some value
  | _ => none

-- A word from a list of choices. Where `lenient` is set, an empty object counts as nothing too.
def word? (lenient : Bool) : Json → Option String
  | .string word => some word
  | .object [(word, .null)] => some word
  | .object [(word, .object [])] => if lenient then some word else none
  | _ => none

def choice? {α : Type} (ofWord? : String → Option α) (document : Json) : Option α :=
  word? false document >>= ofWord?

-- A field that may be left out or null.
def optional? {α : Type} (read : Json → Option α) : Option Json → Option (Option α)
  | none | some .null => some none
  | some value => (read value).map some

-- A list or map that may be left out, but not be null.
def orEmpty? {α : Type} (read : Json → Option (List α)) : Option Json → Option (List α)
  | none => some []
  | some value => read value

def list? {α : Type} (read : Json → Option α) : Json → Option (List α)
  | .array items => items.mapM read
  | _ => none

def map? {α : Type} (read : Json → Option α) : Json → Option (Fields α)
  | .object fields => fields.mapM fun (key, value) => (read value).map (key, ·)
  | _ => none

def names? : Json → Option (List String) := list? string?

end Charter.Json

/-!
Named values in a fixed order. `put` keeps the order of first insertion, `place` keeps keys in
increasing order; both replace the value of a key that is present. `get?` sees the same map either way.
-/

namespace Charter

abbrev Fields (α : Type) := List (String × α)

namespace Fields
variable {α β : Type}

def get? : Fields α → String → Option α
  | [], _ => none
  | (name, value) :: rest, key => if name = key then some value else get? rest key

def has (fields : Fields α) (key : String) : Bool := (fields.get? key).isSome

-- Replaces the value of a present key where it stands; a new key goes to the end.
def put : Fields α → String → α → Fields α
  | [], key, value => [(key, value)]
  | (name, old) :: rest, key, value =>
    if name = key then (key, value) :: rest else (name, old) :: put rest key value

-- Replaces the value of a present key; a new key goes before the first greater one.
def place : Fields α → String → α → Fields α
  | [], key, value => [(key, value)]
  | (name, old) :: rest, key, value =>
    if name = key then (key, value) :: rest
    else if key < name then (key, value) :: (name, old) :: rest
    else (name, old) :: place rest key value

def erase : Fields α → String → Fields α
  | [], _ => []
  | (name, value) :: rest, key => if name = key then rest else (name, value) :: erase rest key

def ofList (pairs : List (String × α)) : Fields α :=
  pairs.foldl (fun fields pair => fields.put pair.1 pair.2) []

def sorted (pairs : List (String × α)) : Fields α :=
  pairs.foldl (fun fields pair => fields.place pair.1 pair.2) []

-- Sorted fields with the values of `patch` over those of `fields`.
def overlay (fields patch : Fields α) : Fields α :=
  patch.foldl (fun fields pair => fields.place pair.1 pair.2) fields

-- The pairs whose key no earlier pair has.
def firsts (pairs : List (String × α)) : Fields α :=
  pairs.foldl (fun kept pair => if kept.has pair.1 then kept else kept ++ [pair]) []

def keys (fields : Fields α) : List String := fields.map (·.1)

theorem get?_put (fields : Fields α) (key : String) (value : α) (name : String) :
    (fields.put key value).get? name = if key = name then some value else fields.get? name := by
  induction fields with
  | nil => simp [put, get?]
  | cons head rest ih =>
      obtain ⟨first, old⟩ := head
      unfold put
      split <;> grind [get?]

theorem get?_place (fields : Fields α) (key : String) (value : α) (name : String) :
    (fields.place key value).get? name = if key = name then some value else fields.get? name := by
  induction fields with
  | nil => simp [place, get?]
  | cons head rest ih =>
      obtain ⟨first, old⟩ := head
      unfold place
      repeat' split
      all_goals grind [get?]

end Fields
end Charter

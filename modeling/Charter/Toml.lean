import Charter.Fields

/-!
TOML documents as trees. A table may come into being in several ways, and these decide what later lines
may still do to it: a table is opened by one header only, and only tables that dotted keys brought into
being take further dotted keys.
-/

namespace Charter

-- How a table came into being: by its own header, by a longer header, by a dotted key, or between braces,
-- where it is complete.
inductive Toml.Origin where
  | header
  | implied
  | dotted
  | inline
  deriving DecidableEq

-- A value of a document. Of a date or time it is only kept that there is one.
inductive Toml where
  | string (value : String)
  | integer (value : Int)
  | float (value : Float)
  | boolean (value : Bool)
  | moment
  | array (items : List Toml)
  | table (origin : Toml.Origin) (fields : List (String × Toml))
  -- The tables of a repeated header, the latest last.
  | tables (items : List (List (String × Toml)))
  deriving Inhabited

namespace Toml

-- The largest integer of a document; the least one is one further from zero.
def maxInteger : Int := 0x7FFFFFFFFFFFFFFF

-- A key of one or more parts; the last one names the value.
structure Path where
  parents : List String
  name : String

-- Sets the value of a dotted key, which must be new.
def setKey (fields : Fields Toml) (name : String) (value : Toml) : List String → Option (Fields Toml)
  | [] => if fields.has name then none else some (fields.put name value)
  | parent :: rest =>
    match fields.get? parent with
    | none => do
      let inner ← setKey [] name value rest
      return fields.put parent (.table .dotted inner)
    | some (.table .dotted inner) => do
      let inner ← setKey inner name value rest
      return fields.put parent (.table .dotted inner)
    | some (.table .implied inner) => do
      -- Such a table may be passed through, but not be given values of its own.
      if rest.isEmpty then none
      let inner ← setKey inner name value rest
      return fields.put parent (.table .implied inner)
    | some (.tables items) => do
      if rest.isEmpty then none
      let inner ← setKey (← items.getLast?) name value rest
      return fields.put parent (.tables (items.dropLast ++ [inner]))
    | some _ => none

-- Changes the table that the parts of a header lead to; those that are missing are implied.
def within (change : Fields Toml → Option (Fields Toml)) (fields : Fields Toml) :
    List String → Option (Fields Toml)
  | [] => change fields
  | part :: rest =>
    match fields.get? part with
    | none => do return fields.put part (.table .implied (← within change [] rest))
    | some (.table .inline _) => none
    | some (.table origin inner) => do return fields.put part (.table origin (← within change inner rest))
    | some (.tables items) => do
      let inner ← within change (← items.getLast?) rest
      return fields.put part (.tables (items.dropLast ++ [inner]))
    | some _ => none

-- Opens a table; one that was only implied before is opened now.
def openTable (name : String) (fields : Fields Toml) : Option (Fields Toml) :=
  match fields.get? name with
  | none => some (fields.put name (.table .header []))
  | some (.table .implied inner) => some (fields.put name (.table .header inner))
  | some _ => none

-- Opens the next table of a repeated header.
def openNext (name : String) (fields : Fields Toml) : Option (Fields Toml) :=
  match fields.get? name with
  | none => some (fields.put name (.tables [[]]))
  | some (.tables items) => some (fields.put name (.tables (items ++ [[]])))
  | some _ => none

-- The lines of a document that say something.
inductive Line where
  | value (path : Path) (value : Toml)
  | header (path : Path)
  | repeatedHeader (path : Path)

-- A document in the making, and the header that its last lines stand under.
structure Draft where
  root : Fields Toml := []
  current : List String := []

def Draft.add (draft : Draft) : Line → Option Draft
  | .value path value => do
    let root ← within (setKey · path.name value path.parents) draft.root draft.current
    return { draft with root }
  | .header path => do
    return ⟨← within (openTable path.name) draft.root path.parents, path.parents ++ [path.name]⟩
  | .repeatedHeader path => do
    return ⟨← within (openNext path.name) draft.root path.parents, path.parents ++ [path.name]⟩

def ofLines? (lines : List Line) : Option (Fields Toml) :=
  (lines.foldlM Draft.add {}).map (·.root)

-- The table between two braces.
def inlineTable? (entries : List (Path × Toml)) : Option Toml :=
  (entries.foldlM (fun fields (entry : Path × Toml) =>
    setKey fields entry.1.name entry.2 entry.1.parents) []).map (.table .inline)

end Toml
end Charter

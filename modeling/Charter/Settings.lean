import Charter.Engine
import Charter.Toml.Document

/-!
Settings of the compiler and the engine. They are read from a TOML document, in which everything may be
left out, and single settings are overridden by variables. Written settings read back.
-/

namespace Charter

structure Settings where
  compiler : CompileOptions := {}
  engine : EngineOptions := {}
  deriving DecidableEq

namespace Settings

def compilerSection : String := "compiler"
def engineSection : String := "runtime"

-- Reading a document.

-- The entries of a section by their names, given in order. A section may also be a list of its first
-- entries in that order; a date is a section without entries.
def sectionEntries? (names : List String) : Option Toml → Option (Fields Toml)
  | none | some .moment => some []
  | some (.table _ fields) => some fields
  | some (.array items) => some (names.zip items)
  | some (.tables items) => some (names.zip (items.map (.table .header)))
  | some _ => none

-- The value of an entry, or what holds if there is none.
def entry? {α : Type} (entries : Fields Toml) (name : String) (otherwise : α) (read : Toml → Option α) :
    Option α :=
  match entries.get? name with
  | none => some otherwise
  | some value => read value

def boolean? : Toml → Option Bool
  | .boolean value => some value
  | _ => none

def text? : Toml → Option String
  | .string value => some value
  | _ => none

def natural? : Toml → Option Nat
  | .integer (.ofNat value) => some value
  | _ => none

-- A word of a list of choices. It may also stand as the only key of a table, over something empty.
def choice? {α : Type} (ofWord? : String → Option α) : Toml → Option α
  | .string word => ofWord? word
  | .table _ [(word, inner)] =>
    match inner with
    | .array [] | .table _ [] => ofWord? word
    | _ => none
  | _ => none

def compiler? (value : Option Toml) : Option CompileOptions := do
  let standard : CompileOptions := {}
  let entries ← sectionEntries? ["use_cache", "unknown_characters", "max_nesting_depth"] value
  return {
    useCache := ← entry? entries "use_cache" standard.useCache boolean?
    anomalies := ← entry? entries "unknown_characters" standard.anomalies (choice? AnomalyPolicy.ofWord?)
    maxNesting := ← entry? entries "max_nesting_depth" standard.maxNesting natural? }

def engine? (value : Option Toml) : Option EngineOptions := do
  let standard : EngineOptions := {}
  let entries ← sectionEntries?
    ["require_valid_provenance", "expected_ir_hash", "computed_cycles", "enforce_versions"] value
  return {
    requireValidProvenance :=
      ← entry? entries "require_valid_provenance" standard.requireValidProvenance boolean?
    expectedIrHash :=
      ← entry? entries "expected_ir_hash" standard.expectedIrHash fun value => (text? value).map some
    computedCycles :=
      ← entry? entries "computed_cycles" standard.computedCycles (choice? CycleMode.ofWord?)
    enforceVersions := ← entry? entries "enforce_versions" standard.enforceVersions boolean? }

-- The settings of a document. What it does not name keeps its standard value, and what is not a setting is
-- passed over.
def ofToml? (text : String) : Option Settings := do
  let document ← Toml.ofText? text
  return {
    compiler := ← compiler? (document.get? compilerSection)
    engine := ← engine? (document.get? engineSection) }

-- Writing a document.

def flag (value : Bool) : String := if value then "true" else "false"

def line (name value : String) : String := name ++ " = " ++ value ++ "\n"

-- The document of settings. A depth that is no integer of the format cannot be written.
def toml? (settings : Settings) : Option String :=
  let (compiler, engine) := (settings.compiler, settings.engine)
  if Toml.maxInteger < compiler.maxNesting then none
  else
    let hash := match engine.expectedIrHash with
      | some hash => line "expected_ir_hash" (Toml.Quoted.write hash)
      | none => ""
    some (
      "[" ++ compilerSection ++ "]\n" ++
      line "use_cache" (flag compiler.useCache) ++
      line "unknown_characters" (Toml.Quoted.write compiler.anomalies.word) ++
      line "max_nesting_depth" (toString compiler.maxNesting) ++
      "\n[" ++ engineSection ++ "]\n" ++
      line "require_valid_provenance" (flag engine.requireValidProvenance) ++
      hash ++
      line "computed_cycles" (Toml.Quoted.write engine.computedCycles.word) ++
      line "enforce_versions" (flag engine.enforceVersions))

-- Overriding by variables.

-- A variable with a value that it cannot have.
structure InvalidVariable where
  name : String
  value : String
  deriving DecidableEq

def InvalidVariable.message (invalid : InvalidVariable) : String :=
  let value := invalid.value
  let name := invalid.name
  s!"invalid value '{value}' for {name}"

-- The word that a value is read as: blanks around it and the case of ASCII letters do not count.
def wordOf (value : String) : String := (Text.trim value).toLower

def flag? (value : String) : Option Bool :=
  match wordOf value with
  | "1" | "true" | "yes" | "on" => some true
  | "0" | "false" | "no" | "off" => some false
  | _ => none

def depth? (value : String) : Option Nat :=
  (Decimal.natural? (Text.trim value)).filter (0 < ·)

def hash? (value : String) : Option (Option String) :=
  let hash := Text.trim value
  some (if hash.isEmpty then none else some hash)

-- One override: a variable, and what its value does to the settings if it is valid.
structure Override where
  name : String
  set? : Settings → String → Option Settings

-- The overrides, in the order in which they are made.
def overrides : List Override := [
  ⟨"MANIFEST_USE_CACHE", fun s value =>
    (flag? value).map fun useCache => { s with compiler := { s.compiler with useCache } }⟩,
  ⟨"MANIFEST_UNKNOWN_CHARACTERS", fun s value =>
    (AnomalyPolicy.ofWord? (wordOf value)).map fun anomalies =>
      { s with compiler := { s.compiler with anomalies } }⟩,
  ⟨"MANIFEST_MAX_NESTING_DEPTH", fun s value =>
    (depth? value).map fun maxNesting => { s with compiler := { s.compiler with maxNesting } }⟩,
  ⟨"MANIFEST_REQUIRE_VALID_PROVENANCE", fun s value =>
    (flag? value).map fun requireValidProvenance =>
      { s with engine := { s.engine with requireValidProvenance } }⟩,
  ⟨"MANIFEST_EXPECTED_IR_HASH", fun s value =>
    (hash? value).map fun expectedIrHash => { s with engine := { s.engine with expectedIrHash } }⟩,
  ⟨"MANIFEST_COMPUTED_CYCLES", fun s value =>
    (CycleMode.ofWord? (wordOf value)).map fun computedCycles =>
      { s with engine := { s.engine with computedCycles } }⟩,
  ⟨"MANIFEST_ENFORCE_VERSIONS", fun s value =>
    (flag? value).map fun enforceVersions => { s with engine := { s.engine with enforceVersions } }⟩]

-- Makes one override, if its variable has a value.
def Override.make (lookup : String → Option String) (override : Override) :
    Step Settings InvalidVariable Unit := fun settings =>
  match lookup override.name with
  | none => (.ok (), settings)
  | some value =>
    match override.set? settings value with
    | some settings => (.ok (), settings)
    | none => (.error ⟨override.name, value⟩, settings)

-- Overrides settings by variables, up to the first that has an invalid value.
def override (lookup : String → Option String) : Step Settings InvalidVariable Unit := do
  let _ ← Step.each (Override.make lookup) overrides

end Settings
end Charter

import Charter.Engine

/-!
Computed properties. Those that a property depends on are resolved first, depth first, and stand over the
fields of the record while the property itself is evaluated.

A property is never entered again while it is being resolved, so resolution ends: its measure is the
number of computed properties that are not being resolved.
-/

namespace Charter

namespace Ir.Entity

def computedNames (entity : Entity) : List String := entity.computed.map (·.name)

theorem mem_computedNames {entity : Entity} {name : String} {computed : Computed}
    (found : entity.computed? name = some computed) : name ∈ entity.computedNames := by
  have named := List.find?_some found
  simp only [beq_iff_eq] at named
  exact named ▸ List.mem_map_of_mem (List.mem_of_find?_eq_some found)

-- The computed properties that are not yet being resolved.
def unvisited (entity : Entity) (visiting : List String) : List String :=
  entity.computedNames.filter fun name => !visiting.contains name

theorem length_unvisited_cons_lt {entity : Entity} {visiting : List String} {name : String}
    (known : name ∈ entity.computedNames) (fresh : name ∉ visiting) :
    (entity.unvisited (name :: visiting)).length < (entity.unvisited visiting).length := by
  have split : entity.unvisited (name :: visiting) = (entity.unvisited visiting).filter (· != name) := by
    simp only [unvisited, List.filter_filter]
    congr 1
    funext other
    simp [bne, Bool.beq_eq_decide_eq]
  rw [split]
  exact List.length_filter_lt_length_iff_exists.mpr ⟨name, by simp [unvisited, known, fresh], by simp⟩

end Ir.Entity

namespace Engine

mutual

-- The value of a computed property of a record, while the properties of `visiting` wait for it. What is not
-- a computed property is undefined.
def computedValue (engine : Engine) (entity : Ir.Entity) (record : Record) (visiting : List String)
    (name : String) : Evaluation Value :=
  match _found : entity.computed? name with
  | none => return .undefined
  | some computed =>
    if _waiting : name ∈ visiting then
      match engine.options.computedCycles with
      | .strict => Step.fail (.computedCycle entity.name name)
      | .permissive => return .undefined
    else do
      let fields ← engine.withDependencies entity record (name :: visiting) (Record.values record)
        computed.dependencies
      engine.evaluate (engine.context.scope (some fields)) computed.expression
  termination_by ((entity.unvisited visiting).length, 0)
  decreasing_by
    exact Prod.Lex.left _ _ (Ir.Entity.length_unvisited_cons_lt (Ir.Entity.mem_computedNames _found) _waiting)

-- Fields with the values of those dependencies over them that are computed properties.
def withDependencies (engine : Engine) (entity : Ir.Entity) (record : Record) (visiting : List String)
    (fields : Fields Value) (dependencies : List String) : Evaluation (Fields Value) :=
  match dependencies with
  | [] => return fields
  | name :: rest =>
    if (entity.computed? name).isSome then do
      let value ← engine.computedValue entity record visiting name
      engine.withDependencies entity record visiting (fields.put name value) rest
    else engine.withDependencies entity record visiting fields rest
  termination_by ((entity.unvisited visiting).length, dependencies.length)

end

-- The value of one computed property.
def computed (engine : Engine) (name : String) (record : Record) (property : String) :
    Transaction Value := do
  let entity ← engine.entity name
  let _ ← Transaction.need (entity.computed? property) (.unknownComputed name property)
  .evaluate (engine.computedValue entity record [] property)

-- A record with all computed properties of its entity.
def withComputed (engine : Engine) (name : String) (record : Record) : Transaction Record := do
  let entity ← engine.entity name
  let values ← .evaluate (Step.each (fun property => do
    return (property, (← engine.computedValue entity record [] property).toJson)) entity.computedNames)
  return Fields.overlay record values

end Engine
end Charter

import Charter.Proofs.Acceptance

/-!
What the names of entities and of their commands mean in a compiled program. Modules may declare entities of
one name, and nothing refuses it: an entity's name means the first entity that was declared under it, and a
command of an entity the first command that was declared under both names.
-/

namespace Charter
namespace Source

-- An entity as it was declared: in a module, or outside of every module.
structure Declared where
  module : Option String
  entity : Entity

-- The entities of a program, in the order of its scopes.
def Program.declared (p : Program) : List Declared := p.scopes.flatMap fun s => s.entities.map (⟨s.module, ·⟩)

namespace Declared

def record (declared : Declared) : Ir.Entity := declared.entity.lower declared.module

def commands (declared : Declared) : List Ir.Command :=
  declared.entity.commands.map (Command.lower declared.module (some declared.entity.name))

theorem commands_record (declared : Declared) : declared.record.commands = declared.commands.map (·.name) := by
  simp only [record, Entity.lower, commands, List.map_map]
  rfl

-- All commands of an entity are marked with its name.
theorem find?_commands (declared : Declared) (name owner : String) :
    declared.commands.find? (fun command => command.name == name && command.entity == some owner) =
      if declared.entity.name = owner then declared.commands.find? (·.name == name) else none := by
  have marked : ∀ command ∈ declared.commands, command.entity = some declared.entity.name := by
    intro command member
    obtain ⟨_, _, rfl⟩ := List.mem_map.mp member
    rfl
  split
  · next same =>
    rw [← List.head?_filter, ← List.head?_filter]
    refine congrArg List.head? (List.filter_congr fun command member => ?_)
    simp [marked command member, same]
  · next other =>
    refine List.find?_eq_none.mpr fun command member => ?_
    simp [marked command member, other]

end Declared

namespace Program
variable (p : Program) (provenance : Ir.Provenance)

theorem entities_lower : (p.lower provenance).entities = p.declared.map Declared.record := by
  simp only [lower, declared, List.map_flatMap, List.map_map]
  rfl

-- What stands outside of entities is no command of any.
theorem command?_lower (name owner : String) : (p.lower provenance).command? name (some owner) =
    p.declared.findSome? fun declared =>
      if declared.entity.name = owner then declared.commands.find? (·.name == name) else none := by
  let wanted (command : Ir.Command) : Bool := command.name == name && command.entity == some owner
  have inside (s : Scope) : s.loweredCommands.find? wanted =
      (s.entities.flatMap fun e => Declared.commands ⟨s.module, e⟩).find? wanted := by
    have outside : (s.commands.map (Command.lower s.module none)).find? wanted = none := by
      refine List.find?_eq_none.mpr fun command member => ?_
      obtain ⟨_, _, rfl⟩ := List.mem_map.mp member
      simp [wanted, Command.lower]
    rw [Scope.loweredCommands, List.find?_append, outside, Option.or_none]
    rfl
  calc (p.lower provenance).command? name (some owner)
      = p.scopes.findSome? fun s => s.loweredCommands.find? wanted := List.find?_flatMap ..
    _ = (p.scopes.flatMap fun s => s.entities.flatMap fun e => Declared.commands ⟨s.module, e⟩).find? wanted := by
        rw [List.find?_flatMap]
        exact congrArg p.scopes.findSome? (funext inside)
    _ = (p.declared.flatMap Declared.commands).find? wanted := by
        simp only [declared, List.flatMap_assoc, List.flatMap_map]
    _ = _ := by
        rw [List.find?_flatMap]
        exact congrArg p.declared.findSome? (funext fun declared => declared.find?_commands name owner)

end Program
end Source

open Source

section
variable {program : Program} {provenance : Ir.Provenance} {before behind : List Declared} {owner : Declared}

theorem entity?_of_first (parted : program.declared = before ++ owner :: behind)
    (first : ∀ earlier ∈ before, earlier.entity.name ≠ owner.entity.name) :
    (program.lower provenance).entity? owner.record.name = some owner.record := by
  have none : (before.map Declared.record).find? (·.name == owner.record.name) = none := by
    refine List.find?_eq_none.mpr fun record member => ?_
    obtain ⟨earlier, among, rfl⟩ := List.mem_map.mp member
    exact fun same => first earlier among (eq_of_beq same)
  rw [Ir.entity?, Program.entities_lower, parted, List.map_append, List.find?_append, none, Option.none_or,
    List.map_cons, List.find?_cons, beq_self_eq_true]

theorem command?_of_first {name : String} (parted : program.declared = before ++ owner :: behind)
    (declares : name ∈ owner.record.commands)
    (first : ∀ earlier ∈ before, earlier.entity.name = owner.entity.name → name ∉ earlier.record.commands) :
    ∃ command ∈ owner.commands, command.name = name ∧
      (program.lower provenance).command? name (some owner.record.name) = some command := by
  rw [Declared.commands_record] at declares
  obtain ⟨own, member, named⟩ := List.mem_map.mp declares
  obtain ⟨command, found⟩ := Option.isSome_iff_exists.mp
    (List.find?_isSome.mpr ⟨own, member, beq_iff_eq.mpr named⟩ : (owner.commands.find? (·.name == name)).isSome)
  have none : (before.findSome? fun declared =>
      if declared.entity.name = owner.entity.name then declared.commands.find? (·.name == name) else none) = none := by
    refine List.findSome?_eq_none_iff.mpr fun earlier among => ?_
    split
    · next same =>
      refine List.find?_eq_none.mpr fun other present => ?_
      have missing := first earlier among same
      rw [Declared.commands_record] at missing
      exact fun equal => missing (List.mem_map.mpr ⟨other, present, eq_of_beq equal⟩)
    · rfl
  have meant : (program.lower provenance).command? name (some owner.entity.name) = some command := by
    rw [Program.command?_lower, parted, List.findSome?_append, none, Option.none_or, List.findSome?_cons, if_pos rfl,
      found]
  have same := List.find?_some found
  exact ⟨command, List.mem_of_find?_eq_some found, eq_of_beq same, meant⟩

end

-- The records of a compiled program are its entities, in the order in which they were declared. Where no entity
-- of its name was declared before, the name of an entity means its own record; where none of them has a command
-- of the same name, the name of a command means the one that was declared with it, in the same module.
theorem names_mean_first_declared {options : CompileOptions} {time source : String} {ir : Ir}
    (compiled : (compile options time source).ir = some ir) :
    let program := (Document.ofSource options.anomalies options.maxNesting source).program
    ir.entities = program.declared.map Declared.record ∧
    ∀ before owner behind, program.declared = before ++ owner :: behind →
      ((∀ earlier ∈ before, earlier.entity.name ≠ owner.entity.name) →
        ir.entity? owner.record.name = some owner.record) ∧
      ∀ name ∈ owner.record.commands,
        (∀ earlier ∈ before, earlier.entity.name = owner.entity.name → name ∉ earlier.record.commands) →
          ∃ command ∈ owner.commands, command.name = name ∧ command.module = owner.record.module ∧
            ir.command? name (some owner.record.name) = some command := by
  intro program
  obtain ⟨_, _, _, rfl⟩ := compile_ir_eq_some_iff.mp compiled
  have read : program = (Program.ofTokens options.maxNesting (Lexed.ofSource source).tokens).1 := rfl
  rw [← read]
  refine ⟨program.entities_lower _, fun before owner behind parted => ⟨entity?_of_first parted, ?_⟩⟩
  intro name declares first
  obtain ⟨command, member, named, meant⟩ := command?_of_first parted declares first
  obtain ⟨_, _, rfl⟩ := List.mem_map.mp member
  exact ⟨_, member, named, rfl, meant⟩

-- The command of the second record is found, though its entity is not: the first record of the name has no
-- command of that name.
theorem command_behind_repeated_entity :
    let source := "module a \x7b entity Task \x7b command open() \x7b effect 1 \x7d \x7d \x7d " ++
      "module b \x7b entity Task \x7b command done() \x7b effect 2 \x7d \x7d \x7d"
    ∃ ir, (compile {} "noon" source).ir = some ir ∧
      ir.entities.map (fun entity => (entity.module, entity.name, entity.commands)) =
        [(some "a", "Task", ["open"]), (some "b", "Task", ["done"])] ∧
      (ir.entity? "Task").map (·.module) = some (some "a") ∧
      (ir.command? "done" (some "Task")).map (·.module) = some (some "b") := by
  intro source
  obtain ⟨ir, compiled⟩ : ∃ ir, (compile {} "noon" source).ir = some ir :=
    Option.isSome_iff_exists.mp (by decide +kernel)
  have read : (Document.ofSource .warn defaultNesting source).program.declared.map (fun declared =>
      (declared.module, declared.entity.name, declared.record.commands)) =
        [(some "a", "Task", ["open"]), (some "b", "Task", ["done"])] := by decide +kernel
  obtain ⟨records, meant⟩ := names_mean_first_declared compiled
  obtain ⟨one, rest, parted, first, later⟩ := List.map_eq_cons_iff.mp read
  obtain ⟨two, behind, rfl, second, ended⟩ := List.map_eq_cons_iff.mp later
  cases List.map_eq_nil_iff.mp ended
  obtain ⟨home, name, opens⟩ : one.module = some "a" ∧ one.entity.name = "Task" ∧ one.record.commands = ["open"] := by
    simpa using first
  obtain ⟨away, name', does⟩ : two.module = some "b" ∧ two.entity.name = "Task" ∧ two.record.commands = ["done"] := by
    simpa using second
  have entity : ir.entity? one.entity.name = some one.record := (meant [] one [two] parted).1 nofun
  have other : ∀ earlier ∈ [one], earlier.entity.name = two.entity.name → "done" ∉ earlier.record.commands := by
    intro earlier member _
    cases List.mem_singleton.mp member
    simp [opens]
  obtain ⟨command, _, _, module, found⟩ := (meant [one] two [] parted).2 "done" (by simp [does]) other
  change ir.command? "done" (some two.entity.name) = some command at found
  rw [name] at entity
  rw [name'] at found
  refine ⟨ir, compiled, ?_, ?_, ?_⟩
  · rw [records, List.map_map]
    exact read
  · rw [entity]
    exact congrArg some home
  · rw [found]
    exact congrArg some (module.trans away)

-- Two modules declare an entity of one name with a command of one name. Both names mean what the first module
-- declared, also for the record of the second.
theorem repeated_entity_hidden :
    let source := "module a \x7b entity Task \x7b command done() \x7b effect 1 \x7d \x7d \x7d " ++
      "module b \x7b entity Task \x7b command done() \x7b effect 2 \x7d \x7d \x7d"
    ∃ ir entity, (compile {} "noon" source).ir = some ir ∧ entity ∈ ir.entities ∧
      ir.entity? entity.name ≠ some entity ∧
      ∃ name ∈ entity.commands, ∃ command, ir.command? name (some entity.name) = some command ∧
        command.module ≠ entity.module := by
  intro source
  have hidden : (compile {} "noon" source).ir.any (fun ir => ir.entities.any fun entity =>
      (ir.entity? entity.name).all (·.module != entity.module) &&
        entity.commands.any fun name =>
          (ir.command? name (some entity.name)).any (·.module != entity.module)) = true := by decide +kernel
  simp only [Option.any_eq_true, List.any_eq_true, Bool.and_eq_true, bne_iff_ne] at hidden
  obtain ⟨ir, compiled, entity, member, other, name, declares, command, found, apart⟩ := hidden
  refine ⟨ir, entity, compiled, member, fun same => ?_, name, declares, command, found, apart⟩
  rw [same] at other
  simp at other

end Charter

import Charter.Compiler
import Charter.Proofs.Constant

/-!
Which texts compile: those whose form is without fault, whose constraints have different codes in every
list, and whose defaults and configurations are constants. Each check stands in one place of the walk
over the declarations; here is every place that a declaration can stand in.
-/

namespace Charter
open Source Compile

namespace Source

-- Declarations by where they may stand, whatever order they are gone through in.

def Program.HasEntity (p : Program) (entity : Entity) : Prop :=
  entity ∈ p.entities ∨ ∃ module ∈ p.modules, entity ∈ module.entities

def Program.HasCommand (p : Program) (command : Command) : Prop :=
  command ∈ p.commands ∨ (∃ module ∈ p.modules, command ∈ module.commands) ∨
    ∃ entity, p.HasEntity entity ∧ command ∈ entity.commands

def Program.HasStore (p : Program) (store : Store) : Prop :=
  store ∈ p.stores ∨ (∃ module ∈ p.modules, store ∈ module.stores) ∨
    ∃ entity, p.HasEntity entity ∧ entity.store = some store

def DistinctCodes (constraints : List Constraint) : Prop := (constraints.map (·.resolvedCode)).Nodup

def Command.Sound (command : Command) : Prop :=
  DistinctCodes command.constraints ∧
    ∀ parameter ∈ command.parameters, ∀ value, parameter.default? = some value → value.IsConstant

def Store.Sound (store : Store) : Prop := ∀ option ∈ store.config, option.2.IsConstant

structure Program.Sound (p : Program) : Prop where
  entityCodes : ∀ entity, p.HasEntity entity → DistinctCodes entity.constraints
  commandCodes : ∀ command, p.HasCommand command → DistinctCodes command.constraints
  properties : ∀ entity, p.HasEntity entity → ∀ property ∈ entity.properties, ∀ value,
    property.default? = some value → value.IsConstant
  parameters : ∀ command, p.HasCommand command → ∀ parameter ∈ command.parameters, ∀ value,
    parameter.default? = some value → value.IsConstant
  configurations : ∀ store, p.HasStore store → ∀ option ∈ store.config, option.2.IsConstant

end Source

namespace Compile

-- No finding is an error.
def Harmless (findings : List Finding) : Prop := ∀ finding ∈ findings, finding.cause.severity ≠ .error

variable {α : Type}

theorem harmless_append {findings others : List Finding} :
    Harmless (findings ++ others) ↔ Harmless findings ∧ Harmless others := List.forall_mem_append

theorem harmless_flatMap {items : List α} {search : α → List Finding} :
    Harmless (items.flatMap search) ↔ ∀ item ∈ items, Harmless (search item) := by
  constructor
  · intro harmless item member finding found
    exact harmless finding (List.mem_flatMap.mpr ⟨item, member, found⟩)
  · intro each finding found
    obtain ⟨item, member, within⟩ := List.mem_flatMap.mp found
    exact each item member finding within

theorem harmless_constantFindings {what : String} {position : Position} {default? : Option Expression} :
    Harmless (constantFindings what position default?) ↔ ∀ value, default? = some value → value.IsConstant := by
  cases default? with
  | none => exact ⟨fun _ _ => nofun, fun _ _ => nofun⟩
  | some value =>
      have isConstant := @Expression.constant?_isSome_iff value
      by_cases constant : value.constant?.isSome = true
      · rw [constantFindings, if_pos constant]
        exact ⟨fun _ _ same => Option.some.inj same ▸ isConstant.mp constant, fun _ _ => nofun⟩
      · rw [constantFindings, if_neg constant]
        constructor
        · intro harmless
          exact absurd rfl (harmless _ List.mem_cons_self)
        · intro each
          exact absurd (isConstant.mpr (each value rfl)) constant

theorem distinctCodes_iff {constraints : List Constraint} : DistinctCodes constraints ↔
    ∀ entry ∈ constraints.zipIdx, ∀ earlier ∈ constraints.take entry.2,
      earlier.resolvedCode ≠ entry.1.resolvedCode := by
  unfold DistinctCodes List.Nodup
  rw [List.pairwise_map, List.pairwise_iff_getElem]
  constructor
  · rintro distinct ⟨c, index⟩ member earlier before
    obtain ⟨here, same⟩ := List.getElem?_eq_some_iff.mp (List.mem_zipIdx_iff_getElem?.mp member)
    obtain ⟨place, within, found⟩ := List.mem_take_iff_getElem.mp before
    have less := distinct place index (by omega) here (by omega)
    rwa [found, same] at less
  · intro each place index _ here less
    have member : (constraints[index], index) ∈ constraints.zipIdx :=
      List.mem_zipIdx_iff_getElem?.mpr (List.getElem?_eq_getElem here)
    exact each _ member _ (List.mem_take_iff_getElem.mpr ⟨place, by omega, rfl⟩)

-- Every repeated code is an error of its own.
theorem harmless_codeFindings {scope : String} {constraints : List Constraint} :
    Harmless (codeFindings scope constraints) ↔ DistinctCodes constraints := by
  rw [distinctCodes_iff]
  constructor
  · intro harmless entry member earlier before same
    cases held : (constraints.take entry.2).find? (·.resolvedCode == entry.1.resolvedCode) with
    | none => exact absurd (by simpa using same) (List.find?_eq_none.mp held earlier before)
    | some first =>
        refine absurd rfl (harmless ⟨.duplicateCode entry.1.resolvedCode scope entry.1.name first.name,
          entry.1.position⟩ (List.mem_filterMap.mpr ⟨entry, member, ?_⟩))
        exact Option.map_eq_some_iff.mpr ⟨first, held, rfl⟩
  · intro each finding found
    obtain ⟨entry, member, told⟩ := List.mem_filterMap.mp found
    obtain ⟨first, held, _⟩ := Option.map_eq_some_iff.mp told
    have same := List.find?_some held
    exact absurd (by simpa using same) (each entry member first (List.mem_of_find?_eq_some held))

theorem harmless_cycleFindings (entity : Entity) : Harmless (cycleFindings entity) := by
  intro finding found
  obtain ⟨cycle, _, told⟩ := List.mem_filterMap.mp found
  obtain ⟨_, _, rfl⟩ := Option.map_eq_some_iff.mp told
  nofun

theorem harmless_unloweredFindings (p : Program) : Harmless (unloweredFindings p) := by
  intro finding found
  simp only [unloweredFindings, List.mem_append, List.mem_map] at found
  rcases found with ((⟨_, _, rfl⟩ | ⟨_, _, rfl⟩) | ⟨_, _, rfl⟩) | ⟨_, _, rfl⟩ <;> nofun

theorem harmless_commandFindings {command : Command} : Harmless (commandFindings command) ↔ command.Sound := by
  rw [commandFindings, harmless_append, harmless_codeFindings, harmless_flatMap]
  exact and_congr_right fun _ => forall₂_congr fun _ _ => harmless_constantFindings

theorem harmless_storeFindings {store : Store} : Harmless (storeFindings store) ↔ store.Sound := by
  rw [storeFindings, harmless_flatMap]
  refine forall₂_congr fun option _ => ?_
  rw [harmless_constantFindings]
  exact ⟨fun each => each _ rfl, fun constant _ same => Option.some.inj same ▸ constant⟩

theorem harmless_properties {entity : Entity} : Harmless (entity.properties.flatMap fun p =>
      constantFindings s!"property '{p.name}'" p.position p.default?) ↔
    ∀ property ∈ entity.properties, ∀ value, property.default? = some value → value.IsConstant :=
  harmless_flatMap.trans (forall₂_congr fun _ _ => harmless_constantFindings)

theorem harmless_entityFindings {entity : Entity} : Harmless (entityFindings entity) ↔
    (∀ property ∈ entity.properties, ∀ value, property.default? = some value → value.IsConstant) ∧
    DistinctCodes entity.constraints ∧ (∀ command ∈ entity.commands, command.Sound) ∧
    ∀ store, entity.store = some store → store.Sound := by
  rw [entityFindings, harmless_append, harmless_append, harmless_append, harmless_append,
    harmless_properties, harmless_codeFindings, harmless_flatMap, harmless_flatMap]
  constructor
  · rintro ⟨⟨⟨⟨properties, _⟩, codes⟩, commands⟩, stores⟩
    refine ⟨properties, codes, fun command member => harmless_commandFindings.mp (commands command member), ?_⟩
    exact fun store kept => harmless_storeFindings.mp (stores store (Option.mem_toList.mpr kept))
  · rintro ⟨properties, codes, commands, stores⟩
    refine ⟨⟨⟨⟨properties, harmless_cycleFindings entity⟩, codes⟩, ?_⟩, ?_⟩
    · exact fun command member => harmless_commandFindings.mpr (commands command member)
    · exact fun store kept => harmless_storeFindings.mpr (stores store (Option.mem_toList.mp kept))

theorem harmless_scopeFindings {scope : Scope} : Harmless (scopeFindings scope) ↔
    (∀ entity ∈ scope.entities, Harmless (entityFindings entity)) ∧
    (∀ command ∈ scope.commands, command.Sound) ∧ ∀ store ∈ scope.stores, store.Sound := by
  rw [scopeFindings, harmless_append, harmless_append, harmless_flatMap, harmless_flatMap, harmless_flatMap,
    and_assoc]
  refine and_congr_right fun _ => and_congr ?_ ?_
  · exact forall₂_congr fun _ _ => harmless_commandFindings
  · exact forall₂_congr fun _ _ => harmless_storeFindings

end Compile

namespace Source
variable {p : Program} {scope : Scope}

/-! The scopes of a program hold what stands in its modules and outside of them. -/

theorem Program.mem_scopes : scope ∈ p.scopes ↔ scope = p.outerScope ∨ ∃ module ∈ p.modules, module.scope = scope := by
  rw [Program.scopes, List.mem_append, List.mem_singleton, List.mem_map, or_comm]

theorem Program.hasEntity_iff {entity : Entity} :
    p.HasEntity entity ↔ ∃ scope ∈ p.scopes, entity ∈ scope.entities := by
  constructor
  · rintro (outside | ⟨module, member, inside⟩)
    · exact ⟨p.outerScope, Program.mem_scopes.mpr (.inl rfl), outside⟩
    · exact ⟨module.scope, Program.mem_scopes.mpr (.inr ⟨module, member, rfl⟩), inside⟩
  · rintro ⟨scope, member, within⟩
    obtain rfl | ⟨module, present, rfl⟩ := Program.mem_scopes.mp member
    · exact .inl within
    · exact .inr ⟨module, present, within⟩

-- What stands in a scope of its own, or under an entity.
theorem Program.anywhere_iff (own : Scope → Prop) (under : Entity → Prop) :
    (own p.outerScope ∨ (∃ module ∈ p.modules, own module.scope) ∨ ∃ entity, p.HasEntity entity ∧ under entity) ↔
      ∃ scope ∈ p.scopes, own scope ∨ ∃ entity ∈ scope.entities, under entity := by
  constructor
  · rintro (outside | ⟨module, member, inside⟩ | ⟨entity, declared, within⟩)
    · exact ⟨p.outerScope, Program.mem_scopes.mpr (.inl rfl), .inl outside⟩
    · exact ⟨module.scope, Program.mem_scopes.mpr (.inr ⟨module, member, rfl⟩), .inl inside⟩
    · obtain ⟨scope, member, inside⟩ := Program.hasEntity_iff.mp declared
      exact ⟨scope, member, .inr ⟨entity, inside, within⟩⟩
  · rintro ⟨scope, member, alone | ⟨entity, inside, within⟩⟩
    · obtain rfl | ⟨module, present, rfl⟩ := Program.mem_scopes.mp member
      · exact .inl alone
      · exact .inr (.inl ⟨module, present, alone⟩)
    · exact .inr (.inr ⟨entity, Program.hasEntity_iff.mpr ⟨scope, member, inside⟩, within⟩)

theorem Program.hasCommand_iff {command : Command} : p.HasCommand command ↔
    ∃ scope ∈ p.scopes, command ∈ scope.commands ∨ ∃ entity ∈ scope.entities, command ∈ entity.commands :=
  anywhere_iff (command ∈ ·.commands) (command ∈ ·.commands)

theorem Program.hasStore_iff {store : Store} : p.HasStore store ↔
    ∃ scope ∈ p.scopes, store ∈ scope.stores ∨ ∃ entity ∈ scope.entities, entity.store = some store :=
  anywhere_iff (store ∈ ·.stores) (·.store = some store)

end Source

namespace Compile

theorem harmless_findings {p : Program} : Harmless (findings p) ↔ p.Sound := by
  rw [findings, harmless_append, harmless_flatMap]
  constructor
  · rintro ⟨scopes, _⟩
    have checked := fun scope member => harmless_scopeFindings.mp (scopes scope member)
    have entities : ∀ entity, p.HasEntity entity → Harmless (entityFindings entity) := by
      intro entity declared
      obtain ⟨scope, member, inside⟩ := Program.hasEntity_iff.mp declared
      exact (checked scope member).1 entity inside
    have commands : ∀ command, p.HasCommand command → command.Sound := by
      intro command declared
      obtain ⟨scope, member, own | ⟨entity, inside, within⟩⟩ := Program.hasCommand_iff.mp declared
      · exact (checked scope member).2.1 command own
      · have sound := harmless_entityFindings.mp ((checked scope member).1 entity inside)
        exact sound.2.2.1 command within
    have stores : ∀ store, p.HasStore store → store.Sound := by
      intro store declared
      obtain ⟨scope, member, own | ⟨entity, inside, kept⟩⟩ := Program.hasStore_iff.mp declared
      · exact (checked scope member).2.2 store own
      · have sound := harmless_entityFindings.mp ((checked scope member).1 entity inside)
        exact sound.2.2.2 store kept
    exact ⟨fun entity declared => (harmless_entityFindings.mp (entities entity declared)).2.1,
      fun command declared => (commands command declared).1,
      fun entity declared => (harmless_entityFindings.mp (entities entity declared)).1,
      fun command declared => (commands command declared).2, stores⟩
  · intro sound
    refine ⟨fun scope member => harmless_scopeFindings.mpr ⟨fun entity inside => ?_, ?_, ?_⟩,
      harmless_unloweredFindings p⟩
    · have declared := Program.hasEntity_iff.mpr ⟨scope, member, inside⟩
      refine harmless_entityFindings.mpr
        ⟨sound.properties entity declared, sound.entityCodes entity declared, ?_, ?_⟩
      · intro command within
        have declared := Program.hasCommand_iff.mpr ⟨scope, member, .inr ⟨entity, inside, within⟩⟩
        exact ⟨sound.commandCodes command declared, sound.parameters command declared⟩
      · intro store kept
        exact sound.configurations store (Program.hasStore_iff.mpr ⟨scope, member, .inr ⟨entity, inside, kept⟩⟩)
    · intro command own
      have declared := Program.hasCommand_iff.mpr ⟨scope, member, .inl own⟩
      exact ⟨sound.commandCodes command declared, sound.parameters command declared⟩
    · intro store own
      exact sound.configurations store (Program.hasStore_iff.mpr ⟨scope, member, .inl own⟩)

end Compile
/-! Faults of form are errors always, anomalies of characters as the policy says. -/

theorem harmless_reports {reports : List Report} :
    (∀ diagnostic ∈ reports.map Report.diagnostic, diagnostic.severity ≠ .error) ↔ reports = [] := by
  constructor
  · intro harmless
    cases reports with
    | nil => rfl
    | cons report rest => exact absurd rfl (harmless report.diagnostic List.mem_cons_self)
  · rintro rfl
    exact fun _ => nofun

theorem harmless_anomalies {lexed : Lexed} {policy : AnomalyPolicy} :
    (∀ diagnostic ∈ lexed.diagnostics policy, diagnostic.severity ≠ .error) ↔
      (policy = .error → lexed.anomalies = []) := by
  cases policy with
  | skip => exact ⟨fun _ => nofun, fun _ _ => nofun⟩
  | warn =>
      refine ⟨fun _ => nofun, fun _ diagnostic found => ?_⟩
      obtain ⟨_, _, rfl⟩ := List.mem_map.mp found
      nofun
  | error =>
      constructor
      · intro harmless _
        cases anomalies : lexed.anomalies with
        | nil => rfl
        | cons anomaly rest =>
            refine absurd rfl (harmless _ (List.mem_map.mpr ⟨anomaly, ?_, rfl⟩))
            rw [anomalies]
            exact List.mem_cons_self
      · intro none diagnostic found
        obtain ⟨anomaly, present, _⟩ := List.mem_map.mp found
        rw [none rfl] at present
        cases present

theorem harmless_ofSource (policy : AnomalyPolicy) (limit : Nat) (source : String) :
    (∀ diagnostic ∈ (Document.ofSource policy limit source).diagnostics, diagnostic.severity ≠ .error) ↔
      (Program.ofTokens limit (Lexed.ofSource source).tokens).2 = [] ∧
        (policy = .error → (Lexed.ofSource source).anomalies = []) := by
  unfold Document.ofSource
  rw [List.forall_mem_append, harmless_anomalies, harmless_reports, and_comm]

theorem harmless_diagnostics {findings : List Finding} :
    (∀ diagnostic ∈ findings.map Finding.diagnostic, diagnostic.severity ≠ .error) ↔ Harmless findings :=
  List.forall_mem_map

theorem hasErrors_eq_false {diagnostics : List Diagnostic} :
    Diagnostic.hasErrors diagnostics = false ↔ ∀ diagnostic ∈ diagnostics, diagnostic.severity ≠ .error := by
  simp [Diagnostic.hasErrors, Diagnostic.isError]

-- Findings are looked for behind a reading without error only.
theorem compile_cases (options : CompileOptions) (time source : String) {document : Document}
    (read : Document.ofSource options.anomalies options.maxNesting source = document) :
    (Diagnostic.hasErrors document.diagnostics = true ∧
      compile options time source = ⟨none, document.diagnostics⟩) ∨
    Diagnostic.hasErrors document.diagnostics = false ∧ ∃ diagnostics,
      diagnostics = document.diagnostics ++ (findings document.program).map Finding.diagnostic ∧
      ((Diagnostic.hasErrors diagnostics = true ∧ compile options time source = ⟨none, diagnostics⟩) ∨
        Diagnostic.hasErrors diagnostics = false ∧ ∃ ir, compile options time source = ⟨some ir, diagnostics⟩) := by
  unfold compile
  rw [read]
  cases faulty : Diagnostic.hasErrors document.diagnostics with
  | true => exact .inl ⟨rfl, if_pos faulty⟩
  | false =>
      refine .inr ⟨rfl, _, rfl, ?_⟩
      have clean : ¬ document.hasErrors = true := Bool.eq_false_iff.mp faulty
      simp only [if_neg clean]
      split
      · rename_i unsound
        exact .inl ⟨unsound, rfl⟩
      · rename_i sound
        exact .inr ⟨Bool.eq_false_iff.mpr sound, _, rfl⟩

-- The program of a text that is read without error and has no finding that is one.
theorem compile_ir_eq_some_iff {options : CompileOptions} {time source : String} {ir : Ir} :
    (compile options time source).ir = some ir ↔
      let read := Program.ofTokens options.maxNesting (Lexed.ofSource source).tokens
      let provenance : Ir.Provenance :=
        ⟨contentHash source, "", Ir.compilerVersion, Ir.schemaVersion, time⟩
      (options.anomalies = .error → (Lexed.ofSource source).anomalies = []) ∧ read.2 = [] ∧
        Harmless (findings read.1) ∧ ir = (read.1.lower provenance).sealed := by
  have form := harmless_ofSource options.anomalies options.maxNesting source
  unfold compile
  dsimp only
  split
  · next errors =>
    refine ⟨nofun, fun ⟨anomalies, reports, _⟩ => ?_⟩
    have clean := hasErrors_eq_false.mpr (form.mpr ⟨reports, anomalies⟩)
    cases errors.symm.trans clean
  · next clean =>
    obtain ⟨reports, anomalies⟩ := form.mp (hasErrors_eq_false.mp (Bool.eq_false_iff.mpr clean))
    split
    · next errors =>
      refine ⟨nofun, fun ⟨_, _, harmless, _⟩ => ?_⟩
      have sound := hasErrors_eq_false.mpr
        (List.forall_mem_append.mpr ⟨form.mpr ⟨reports, anomalies⟩, harmless_diagnostics.mpr harmless⟩)
      cases errors.symm.trans sound
    · next sound =>
      have each := hasErrors_eq_false.mp (Bool.eq_false_iff.mpr sound)
      have harmless := harmless_diagnostics.mp (List.forall_mem_append.mp each).2
      refine ⟨fun same => ⟨anomalies, reports, harmless, (Option.some.inj same).symm⟩, fun ⟨_, _, _, same⟩ => ?_⟩
      rw [same]
      rfl

-- A text compiles if and only if no diagnostic is an error. That is so if and only if it is read without
-- error, the codes of the constraints differ in each list, and every default and configuration is constant.
theorem compiles_iff_sound (options : CompileOptions) (time source : String) :
    let compiled := compile options time source
    let document := Document.ofSource options.anomalies options.maxNesting source
    (compiled.ir.isSome ↔ ∀ diagnostic ∈ compiled.diagnostics, diagnostic.severity ≠ .error) ∧
    (compiled.ir.isSome ↔
      (∀ diagnostic ∈ document.diagnostics, diagnostic.severity ≠ .error) ∧ document.program.Sound) ∧
    ((∀ diagnostic ∈ document.diagnostics, diagnostic.severity ≠ .error) ↔
      (Program.ofTokens options.maxNesting (Lexed.ofSource source).tokens).2 = [] ∧
        (options.anomalies = .error → (Lexed.ofSource source).anomalies = [])) := by
  intro compiled document
  have form := harmless_ofSource options.anomalies options.maxNesting source
  have whole : (∀ diagnostic ∈ document.diagnostics ++ (findings document.program).map Finding.diagnostic,
      diagnostic.severity ≠ .error) ↔
      (∀ diagnostic ∈ document.diagnostics, diagnostic.severity ≠ .error) ∧ document.program.Sound := by
    rw [List.forall_mem_append, harmless_diagnostics, harmless_findings]
  have failed : ∀ {diagnostics : List Diagnostic}, Diagnostic.hasErrors diagnostics = true →
      ¬ ∀ diagnostic ∈ diagnostics, diagnostic.severity ≠ .error := fun errors harmless =>
    Bool.noConfusion (errors.symm.trans (hasErrors_eq_false.mpr harmless))
  obtain ⟨errors, same⟩ | ⟨clean, diagnostics, rfl, ⟨errors, same⟩ | ⟨harmless, ir, same⟩⟩ :=
    compile_cases options time source (rfl : _ = document)
  · rw [show compiled = _ from same]
    exact ⟨⟨nofun, fun harmless => absurd harmless (failed errors)⟩,
      ⟨nofun, fun sound => absurd sound.1 (failed errors)⟩, form⟩
  · rw [show compiled = _ from same]
    exact ⟨⟨nofun, fun harmless => absurd harmless (failed errors)⟩,
      ⟨nofun, fun sound => absurd (whole.mpr sound) (failed errors)⟩, form⟩
  · have accepted := hasErrors_eq_false.mp harmless
    rw [show compiled = _ from same]
    exact ⟨⟨fun _ => accepted, fun _ => rfl⟩, ⟨fun _ => whole.mp accepted, fun _ => rfl⟩, form⟩

end Charter

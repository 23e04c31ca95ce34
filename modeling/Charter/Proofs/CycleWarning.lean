import Charter.Proofs.Acceptance
import Charter.Proofs.ComputedCycle
import Charter.Proofs.CycleSearch
import Mathlib.Data.List.Nodup

/-!
The warnings about cycles and the loops that an engine meets. Both follow what computed properties depend on,
but of a repeated name the compiler takes the last declaration and the engine the first; where the two read
the same, an entity has a warning exactly if some property of it has no value in strict mode.
-/

namespace Charter
open Source Compile Relation

namespace Compile

def Cause.tellsCycle (cause : Cause) : Prop := ∃ entity cycle, cause = .computedCycle entity cycle

theorem Cause.code_eq_iff {cause : Cause} : cause.code = DiagnosticCode.computedCycle ↔ cause.tellsCycle := by
  cases cause with
  | computedCycle entity cycle => exact ⟨fun _ => ⟨entity, cycle, rfl⟩, fun _ => rfl⟩
  | duplicateCode | notLowered | notConstant =>
      refine ⟨fun same => ?_, nofun⟩
      simp [Cause.code, DiagnosticCode.computedCycle, DiagnosticCode.duplicateConstraintCode,
        DiagnosticCode.notLowered, DiagnosticCode.nonConstantDefault] at same

-- No finding tells of a cycle.
def Silent (findings : List Finding) : Prop := ∀ finding ∈ findings, ¬ finding.cause.tellsCycle

variable {α : Type} {finding : Finding}

theorem Silent.append {findings others : List Finding} (first : Silent findings) (second : Silent others) :
    Silent (findings ++ others) := List.forall_mem_append.mpr ⟨first, second⟩

theorem Silent.flatMap {items : List α} {search : α → List Finding} (each : ∀ item, Silent (search item)) :
    Silent (items.flatMap search) := by
  intro finding found
  obtain ⟨item, member, within⟩ := List.mem_flatMap.mp found
  exact each item finding within

theorem silent_constantFindings (what : String) (position : Position) (default? : Option Expression) :
    Silent (constantFindings what position default?) := by
  intro finding found
  unfold constantFindings at found
  split at found
  · split at found
    · cases found
    · cases List.mem_singleton.mp found
      rintro ⟨_, _, same⟩
      cases same
  · cases found

theorem silent_codeFindings (scope : String) (constraints : List Constraint) :
    Silent (codeFindings scope constraints) := by
  intro finding found
  obtain ⟨_, _, told⟩ := List.mem_filterMap.mp found
  obtain ⟨_, _, rfl⟩ := Option.map_eq_some_iff.mp told
  rintro ⟨_, _, same⟩
  cases same

theorem silent_commandFindings (command : Command) : Silent (commandFindings command) :=
  Silent.append (silent_codeFindings _ _) (.flatMap fun _ => silent_constantFindings _ _ _)

theorem silent_storeFindings (store : Source.Store) : Silent (storeFindings store) :=
  .flatMap fun _ => silent_constantFindings _ _ _

theorem silent_unloweredFindings (p : Program) : Silent (unloweredFindings p) := by
  intro finding found
  simp only [unloweredFindings, List.mem_append, List.mem_map] at found
  rintro ⟨entity, cycle, same⟩
  rcases found with ((⟨_, _, rfl⟩ | ⟨_, _, rfl⟩) | ⟨_, _, rfl⟩) | ⟨_, _, rfl⟩ <;> cases same

-- A list between silent ones tells what it tells.
theorem mem_between {before middle behind : List Finding} (tells : finding.cause.tellsCycle)
    (first : Silent before) (last : Silent behind) : finding ∈ before ++ middle ++ behind ↔ finding ∈ middle := by
  have out : finding ∉ before := fun member => first finding member tells
  have out' : finding ∉ behind := fun member => last finding member tells
  simp [out, out']

theorem mem_entityFindings {entity : Entity} (tells : finding.cause.tellsCycle) :
    finding ∈ entityFindings entity ↔ finding ∈ cycleFindings entity := by
  unfold entityFindings
  rw [List.append_assoc, List.append_assoc]
  refine mem_between tells (.flatMap fun _ => silent_constantFindings _ _ _) ?_
  refine (silent_codeFindings _ _).append (Silent.append (.flatMap fun _ => silent_commandFindings _) ?_)
  exact .flatMap fun _ => silent_storeFindings _

theorem mem_scopeFindings {scope : Scope} (tells : finding.cause.tellsCycle) :
    finding ∈ scopeFindings scope ↔ ∃ entity ∈ scope.entities, finding ∈ cycleFindings entity := by
  unfold scopeFindings
  rw [List.append_assoc, ← List.nil_append (scope.entities.flatMap entityFindings),
    mem_between tells (List.forall_mem_nil _), List.mem_flatMap]
  · exact exists_congr fun entity => and_congr_right fun _ => mem_entityFindings tells
  · exact Silent.append (.flatMap fun _ => silent_commandFindings _) (.flatMap fun _ => silent_storeFindings _)

theorem mem_findings {p : Program} (tells : finding.cause.tellsCycle) :
    finding ∈ findings p ↔ ∃ entity, p.HasEntity entity ∧ finding ∈ cycleFindings entity := by
  unfold findings
  rw [← List.nil_append (p.scopes.flatMap scopeFindings), mem_between tells (List.forall_mem_nil _)
    (silent_unloweredFindings p), List.mem_flatMap]
  constructor
  · rintro ⟨scope, member, found⟩
    obtain ⟨entity, inside, told⟩ := (mem_scopeFindings tells).mp found
    exact ⟨entity, Program.hasEntity_iff.mpr ⟨scope, member, inside⟩, told⟩
  · rintro ⟨entity, declared, told⟩
    obtain ⟨scope, member, inside⟩ := Program.hasEntity_iff.mp declared
    exact ⟨scope, member, (mem_scopeFindings tells).mpr ⟨entity, inside, told⟩⟩

theorem cycleFindings_tell {entity : Entity} (found : finding ∈ cycleFindings entity) : finding.cause.tellsCycle := by
  obtain ⟨_, _, told⟩ := List.mem_filterMap.mp found
  obtain ⟨_, _, rfl⟩ := Option.map_eq_some_iff.mp told
  exact ⟨_, _, rfl⟩

end Compile

-- What is wrong with the form of a text has codes of its own.
theorem document_code {policy : AnomalyPolicy} {limit : Nat} {source : String} {diagnostic : Diagnostic}
    (present : diagnostic ∈ (Document.ofSource policy limit source).diagnostics) :
    diagnostic.code ≠ some DiagnosticCode.computedCycle := by
  obtain anomaly | fault := List.mem_append.mp present
  · unfold Lexed.diagnostics at anomaly
    split at anomaly
    · cases anomaly
    · obtain ⟨⟨kind, position⟩, _, rfl⟩ := List.mem_map.mp anomaly
      intro same
      have code : kind.code = DiagnosticCode.computedCycle := Option.some.inj same
      unfold Anomaly.code at code
      split at code <;> exact absurd code (by decide)
  · obtain ⟨report, _, rfl⟩ := List.mem_map.mp fault
    intro same
    have code : report.fault.code = DiagnosticCode.computedCycle := Option.some.inj same
    unfold Fault.code at code
    split at code <;> exact absurd code (by decide)

-- A program that compiled has the lowered declarations, and every finding is reported.
theorem compile_lowers {options : CompileOptions} {time source : String} {ir : Ir}
    (compiled : (compile options time source).ir = some ir) :
    let document := Document.ofSource options.anomalies options.maxNesting source
    (∃ provenance, ir.entities = (document.program.lower provenance).entities) ∧
      (compile options time source).diagnostics =
        document.diagnostics ++ (findings document.program).map Finding.diagnostic := by
  intro document
  unfold compile at compiled ⊢
  dsimp only at compiled ⊢
  split at compiled
  · cases compiled
  · next sound =>
    rw [if_neg sound]
    split at compiled
    · cases compiled
    · next harmless =>
      rw [if_neg harmless]
      cases compiled
      exact ⟨⟨_, rfl⟩, rfl⟩

namespace Ir.Entity

-- Of each name the first declaration and the last one read the same computed properties.
def DeclaresAlike (entity : Entity) : Prop :=
  ∀ name first last, entity.computed? name = some first →
    entity.computed.reverse.find? (·.name == name) = some last →
    ∀ other ∈ entity.computedNames, other ∈ first.dependencies ↔ other ∈ last.dependencies

variable {entity : Entity} {a b name : String}

theorem computed?_isSome_iff : (entity.computed? name).isSome ↔ name ∈ entity.computedNames := by
  simp [computed?, computedNames]

theorem declaresAlike_of_nodup (distinct : entity.computedNames.Nodup) : entity.DeclaresAlike := by
  intro name first last found found' other _
  have named : first.name = name := by simpa using List.find?_some found
  have named' : last.name = name := by simpa using List.find?_some found'
  have same : first = last := List.inj_on_of_nodup_map distinct (List.mem_of_find?_eq_some found)
    (List.mem_reverse.mp (List.mem_of_find?_eq_some found')) (named.trans named'.symm)
  rw [same]

theorem mem_computedEdges : b ∈ computedEdges entity.computed a ↔ b ∈ entity.computedNames ∧
    ∃ last, entity.computed.reverse.find? (·.name == a) = some last ∧ b ∈ last.dependencies := by
  unfold computedEdges computedNames
  dsimp only
  cases entity.computed.reverse.find? (·.name == a) with
  | none => simp
  | some last => simp [and_comm]

theorem leads_iff_reads (alike : entity.DeclaresAlike) : Leads (computedEdges entity.computed) a b ↔ entity.Reads a b := by
  rw [Leads, mem_computedEdges]
  constructor
  · rintro ⟨known, last, found', member⟩
    have declared : a ∈ entity.computedNames := by
      refine List.mem_map.mpr ⟨last, List.mem_reverse.mp (List.mem_of_find?_eq_some found'), ?_⟩
      simpa using List.find?_some found'
    obtain ⟨first, found⟩ := Option.isSome_iff_exists.mp (computed?_isSome_iff.mpr declared)
    exact ⟨first, found, (alike a first last found found' b known).mpr member, computed?_isSome_iff.mpr known⟩
  · rintro ⟨first, found, member, known⟩
    have known := computed?_isSome_iff.mp known
    cases found' : entity.computed.reverse.find? (·.name == a) with
    | none =>
        have missing := List.find?_eq_none.mp found' first (List.mem_reverse.mpr (List.mem_of_find?_eq_some found))
        exact absurd (List.find?_some found) missing
    | some last => exact ⟨known, last, rfl, (alike a first last found found' b known).mp member⟩

-- Where a search takes the last declaration of a name and an engine the first, they follow the same ways.
theorem cycleFindings_ne_nil_iff_cyclic {origin : Source.Entity} (alike : entity.DeclaresAlike)
    (lowered : entity.computed = origin.computed.map Source.Computed.lower) :
    cycleFindings origin ≠ [] ↔ entity.Cyclic := by
  rw [cycleFindings_ne_nil_iff, ← lowered]
  have same : Leads (computedEdges entity.computed) = entity.Reads :=
    funext fun a => funext fun b => propext (leads_iff_reads alike)
  rw [same]
  rfl

end Ir.Entity

-- The warnings with the code for cycles are those of the searches through the entities. An entity whose names
-- are declared alike has none exactly if in strict mode no property of it leads back to itself: then no
-- resolution ends in a cycle, and else some property cannot be resolved for any record.
theorem cycles_warned {options : CompileOptions} {time source name : String} {ir : Ir} {entity : Ir.Entity}
    (compiled : (compile options time source).ir = some ir) (declared : ir.entity? name = some entity) :
    let program := (Document.ofSource options.anomalies options.maxNesting source).program
    (∀ diagnostic : Diagnostic, diagnostic ∈ (compile options time source).diagnostics ∧
        diagnostic.code = some DiagnosticCode.computedCycle ↔
      ∃ origin, program.HasEntity origin ∧ diagnostic ∈ (cycleFindings origin).map Finding.diagnostic) ∧
    ∃ origin, program.HasEntity origin ∧ origin.name = name ∧
      entity.computed = origin.computed.map Source.Computed.lower ∧
      (entity.DeclaresAlike →
        (cycleFindings origin = [] → ∀ engine : Engine, engine.ir = ir → engine.options.computedCycles = .strict →
          ∀ record, (engine.withComputed name record).FailsOnlyIn EngineError.NoCycle ∧
            ∀ property, (engine.computed name record property).FailsOnlyIn EngineError.NoCycle) ∧
        (cycleFindings origin ≠ [] → ∃ property ∈ entity.computedNames, ∀ engine : Engine, engine.ir = ir →
          engine.options.computedCycles = .strict → ∀ record, (engine.computed name record property).Fails)) := by
  intro program
  obtain ⟨⟨provenance, entities⟩, diagnostics⟩ := compile_lowers compiled
  refine ⟨fun diagnostic => ?_, ?_⟩
  · rw [diagnostics, List.mem_append, List.mem_map]
    constructor
    · rintro ⟨form | ⟨finding, found, rfl⟩, code⟩
      · exact absurd code (document_code form)
      · obtain ⟨origin, held, told⟩ := (mem_findings (Cause.code_eq_iff.mp (Option.some.inj code))).mp found
        exact ⟨origin, held, List.mem_map_of_mem told⟩
    · rintro ⟨origin, held, told⟩
      obtain ⟨finding, found, rfl⟩ := List.mem_map.mp told
      have tells := cycleFindings_tell found
      exact ⟨.inr ⟨finding, (mem_findings tells).mpr ⟨origin, held, found⟩, rfl⟩,
        congrArg some (Cause.code_eq_iff.mpr tells)⟩
  · have listed := List.mem_of_find?_eq_some declared
    rw [entities] at listed
    obtain ⟨scope, member, lowered⟩ := List.mem_flatMap.mp listed
    obtain ⟨origin, inside, rfl⟩ := List.mem_map.mp lowered
    have named : origin.name = name := by
      have held := List.find?_some declared
      exact beq_iff_eq.mp held
    refine ⟨origin, Program.hasEntity_iff.mpr ⟨scope, member, inside⟩, named, rfl, fun alike => ?_⟩
    have warned := Ir.Entity.cycleFindings_ne_nil_iff_cyclic alike (rfl : _ = origin.computed.map Computed.lower)
    constructor
    · intro silent engine same strict record
      have acyclic : ¬ (origin.lower scope.module).Cyclic := fun cyclic => warned.mpr cyclic silent
      rw [← same] at declared
      exact ⟨Engine.withComputed_cycleFree declared acyclic record, Engine.computed_cycleFree declared acyclic record⟩
    · intro some
      obtain ⟨property, loop⟩ := warned.mp some
      obtain ⟨_, ⟨computed, found, _⟩, _⟩ := TransGen.head'_iff.mp loop
      refine ⟨property, Ir.Entity.mem_computedNames found, fun engine same strict record => ?_⟩
      rw [← same] at declared
      exact Engine.computed_fails strict declared loop record

-- A program of entities that declare nothing but computed properties.
def Source.Program.isComputedOnly (p : Program) : Bool :=
  p.scopes.all fun scope => scope.commands.isEmpty && scope.stores.isEmpty && scope.entities.all fun entity =>
    entity.properties.isEmpty && entity.constraints.isEmpty && entity.commands.isEmpty && entity.store.isNone

theorem Source.Program.harmless_of_isComputedOnly {p : Program} (only : p.isComputedOnly = true) :
    Harmless (findings p) := by
  refine harmless_append.mpr ⟨harmless_flatMap.mpr fun scope member => ?_, harmless_unloweredFindings p⟩
  have declared := List.all_eq_true.mp only scope member
  simp only [Bool.and_eq_true, List.isEmpty_iff, List.all_eq_true, Option.isNone_iff_eq_none] at declared
  obtain ⟨⟨commands, stores⟩, entities⟩ := declared
  refine harmless_scopeFindings.mpr ⟨fun entity inside => harmless_entityFindings.mpr ?_, ?_, ?_⟩
  · obtain ⟨⟨⟨properties, constraints⟩, commands⟩, store⟩ := entities entity inside
    rw [properties, constraints, commands, store]
    exact ⟨nofun, List.nodup_nil, nofun, nofun⟩
  · rw [commands]; nofun
  · rw [stores]; nofun

-- Two properties that need each other: the compiler warns, and one of them has no value for any record.
theorem mutual_needs_warned :
    let source := "entity Loop \x7b\n computed a: number = b\n computed b: number = a\n\x7d\n"
    ∃ ir entity, (compile {} "noon" source).ir = some ir ∧ ir.entity? "Loop" = some entity ∧ entity.DeclaresAlike ∧
      ∃ property ∈ entity.computedNames, ∀ engine : Engine, engine.ir = ir →
        engine.options.computedCycles = .strict → ∀ record, (engine.computed "Loop" record property).Fails := by
  intro source
  let document := Document.ofSource .warn defaultNesting source
  let entities := document.program.scopes.flatMap fun scope => scope.entities.map (Source.Entity.lower scope.module)
  have read : document.diagnostics = [] ∧ document.program.isComputedOnly = true ∧
      ((entities.find? (·.name == "Loop")).any fun entity => decide entity.computedNames.Nodup &&
        (entity.computed? "a").any (·.dependencies.contains "b") &&
        (entity.computed? "b").any (·.dependencies.contains "a")) = true := by decide +kernel
  obtain ⟨clean, only, checks⟩ := read
  have harmless := hasErrors_eq_false.mpr (harmless_diagnostics.mpr (Source.Program.harmless_of_isComputedOnly only))
  obtain ⟨errors, _⟩ | ⟨_, diagnostics, rfl, ⟨errors, _⟩ | ⟨_, ir, same⟩⟩ :=
    compile_cases {} "noon" source (rfl : _ = document)
  · rw [clean] at errors; cases errors
  · rw [clean, List.nil_append, harmless] at errors; cases errors
  have compiled : (compile {} "noon" source).ir = some ir := by rw [same]
  obtain ⟨⟨_, lowered⟩, _⟩ := compile_lowers compiled
  obtain ⟨entity, found, checks⟩ := (Option.any_eq_true ..).mp checks
  have declared : ir.entity? "Loop" = some entity := by
    unfold Ir.entity?
    rw [lowered]
    exact found
  simp only [Bool.and_eq_true, decide_eq_true_eq, Option.any_eq_true, List.contains_iff_mem] at checks
  obtain ⟨⟨distinct, a, first, needs⟩, b, second, needs'⟩ := checks
  have alike := Ir.Entity.declaresAlike_of_nodup distinct
  have there : entity.Reads "a" "b" := ⟨a, first, needs, Option.isSome_of_eq_some second⟩
  have back : entity.Reads "b" "a" := ⟨b, second, needs', Option.isSome_of_eq_some first⟩
  have cyclic : entity.Cyclic := ⟨"a", (TransGen.single there).tail back⟩
  obtain ⟨_, origin, _, _, same, agree⟩ := cycles_warned compiled declared
  exact ⟨ir, entity, compiled, declared, alike,
    (agree alike).2 ((Ir.Entity.cycleFindings_ne_nil_iff_cyclic alike same).mpr cyclic)⟩

end Charter

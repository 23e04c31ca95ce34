import Charter.Proofs.ComputedCycle

/-!
The two ways to treat a loop of computed properties. Where strict resolution has a value, permissive resolution has the
same one and takes the same from the surroundings. They come apart at properties that lead to a loop, and there
strict resolution never has a value.
-/

namespace Charter

namespace Step
variable {σ ε α β : Type} {run other : Step σ ε α} {next next' : α → Step σ ε β}

-- Where the one run has a value, the other has the same, and leaves the same state.
def Yields (run other : Step σ ε α) : Prop := ∀ s value t, run s = (.ok value, t) → other s = (.ok value, t)

theorem Yields.refl (run : Step σ ε α) : run.Yields run := fun _ _ _ ran => ran

theorem Yields.fail (error : ε) (other : Step σ ε α) : (Step.fail error : Step σ ε α).Yields other := by
  intro s value t ran
  cases ran

theorem Yields.bind (first : run.Yields other) (behind : ∀ value, (next value).Yields (next' value)) :
    (run >>= next).Yields (other >>= next') := by
  intro s value t ran
  obtain ⟨one, middle, began, went⟩ := bind_eq_ok.mp ran
  exact bind_eq_ok.mpr ⟨one, middle, first s one middle began, behind one middle value t went⟩

end Step

theorem Transaction.evaluate_yields {α : Type} {evaluation other : Evaluation α} (yields : evaluation.Yields other) :
    (evaluate evaluation).Yields (evaluate other) := by
  intro s value t ran
  cases outcome : evaluation s.usage with
  | mk result usage =>
      cases result with
      | error error => rw [evaluate_of_error outcome] at ran; cases ran
      | ok found =>
          rw [evaluate_of_ok outcome] at ran
          rw [evaluate_of_ok (yields _ _ _ outcome)]
          exact ran

namespace Engine
variable {engine : Engine} {entity : Ir.Entity} {record : Record} {visiting : List String} {name : String}

-- The same engine with another way to treat loops.
def withCycles (engine : Engine) (mode : CycleMode) : Engine :=
  { engine with options := { engine.options with computedCycles := mode } }

theorem withDependencies_yields {mode : CycleMode} {fields : Fields Value} {dependencies : List String}
    (each : ∀ other ∈ dependencies, (entity.computed? other).isSome →
      (engine.computedValue entity record visiting other).Yields
        ((engine.withCycles mode).computedValue entity record visiting other)) :
    (engine.withDependencies entity record visiting fields dependencies).Yields
      ((engine.withCycles mode).withDependencies entity record visiting fields dependencies) := by
  induction dependencies generalizing fields with
  | nil =>
      unfold withDependencies
      exact .refl _
  | cons other rest ih =>
      have later := fun fields => @ih fields fun next member => each next (List.mem_cons_of_mem _ member)
      unfold withDependencies
      split
      · next known => exact (each other List.mem_cons_self known).bind fun _ => later _
      · exact later _

-- By induction on what is left to visit: a name that waits is where strict resolution fails, and all else is the same.
theorem computedValue_yields (strict : engine.options.computedCycles = .strict) (mode : CycleMode) :
    (engine.computedValue entity record visiting name).Yields
      ((engine.withCycles mode).computedValue entity record visiting name) := by
  induction left : (entity.unvisited visiting).length using Nat.strongRecOn
    generalizing visiting name with
  | ind count ih =>
  subst left
  cases found : entity.computed? name with
  | none =>
      rw [computedValue_of_none found, computedValue_of_none found]
      exact .refl _
  | some computed =>
      by_cases waiting : name ∈ visiting
      · rw [computedValue_of_visited found waiting, strict]
        exact .fail _ _
      · have shorter := Ir.Entity.length_unvisited_cons_lt (Ir.Entity.mem_computedNames found) waiting
        rw [computedValue_of_fresh found waiting, computedValue_of_fresh found waiting]
        exact (withDependencies_yields fun _ _ _ => ih _ shorter rfl).bind fun _ => .refl _

theorem computed_yields (strict : engine.options.computedCycles = .strict) (mode : CycleMode) (record : Record)
    (property : String) :
    (engine.computed name record property).Yields ((engine.withCycles mode).computed name record property) := by
  refine Step.Yields.bind (.refl _) fun _ => Step.Yields.bind (.refl _) fun _ => ?_
  exact Transaction.evaluate_yields (computedValue_yields strict mode)

-- A value that is computed in strict mode is computed in permissive mode as well, and takes the same from the clock and
-- the ids. Strict mode reports a loop only for a property that leads to one, and for such a property it has no value.
theorem strict_cycles_agree (strict : engine.options.computedCycles = .strict) (name : String) (record : Record)
    (property : String) (s : EngineState) :
    (∀ value t, engine.computed name record property s = (.ok value, t) →
        (engine.withCycles .permissive).computed name record property s = (.ok value, t)) ∧
      (∀ place looping t,
        engine.computed name record property s = (.error (.evaluation (.computedCycle place looping)), t) →
        ∃ entity, engine.ir.entity? name = some entity ∧ entity.LeadsToCycle property) ∧
      ∀ entity, engine.ir.entity? name = some entity → entity.LeadsToCycle property →
        ∃ error t, engine.computed name record property s = (.error error, t) := by
  refine ⟨computed_yields strict .permissive record property s, fun place looping t ran => ?_, ?_⟩
  · cases declared : engine.ir.entity? name with
    | none =>
        have unknown : engine.computed name record property s = (.error (.unknownEntity name), s) := by
          refine Step.bind_of_error ?_
          unfold Engine.entity
          rw [declared]
          rfl
        rw [unknown] at ran
        cases ran
    | some entity =>
        refine ⟨entity, rfl, ?_⟩
        refine Classical.byContradiction fun acyclic => ?_
        exact computed_cycleFree_of declared acyclic record s _ t ran place looping rfl
  · exact fun entity declared cyclic => computed_fails_of strict declared cyclic record s

-- A label that reads a tag, which takes a fresh id, beside a property that needs itself.
def labelled : Engine where
  ir := {
    version := Ir.formatVersion
    provenance := ⟨"", "", Ir.compilerVersion, Ir.schemaVersion, ""⟩
    entities := [{
      name := "Note", module := none, properties := [], relationships := [], commands := [], constraints := []
      policies := [], versionProperty := none, versionAtProperty := none, transitions := []
      computed := [
        ⟨"tag", .named "string", .call (.identifier "uuid") [], []⟩,
        ⟨"label", .named "string", .identifier "tag", ["tag"]⟩,
        ⟨"loop", .named "string", .identifier "loop", ["loop"]⟩]
    }]
  }
  around := ⟨fun reading => reading, fun _ => "fresh"⟩

theorem labelled_agrees :
    let label := (.ok (.string "fresh"), { usage := { ids := 1 } })
    labelled.options.computedCycles = .strict ∧ labelled.computed "Note" [] "label" {} = label ∧
      (labelled.withCycles .permissive).computed "Note" [] "label" {} = label ∧
      ∃ error t, labelled.computed "Note" [] "loop" {} = (.error error, t) := by
  intro label
  have told : labelled.computed "Note" [] "label" {} = label := by cbv
  have agree := @strict_cycles_agree labelled rfl "Note" []
  refine ⟨rfl, told, (agree "label" {}).1 _ _ told, (agree "loop" {}).2.2 _ rfl ⟨"loop", .refl, .single ?_⟩⟩
  exact ⟨_, rfl, List.mem_singleton_self _, rfl⟩

end Engine
end Charter

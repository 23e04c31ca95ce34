import Charter.Engine.Computed
import Charter.Proofs.Evaluation
import Charter.Proofs.Transaction
import Mathlib.Logic.Relation

/-!
What resolving a computed property does where properties depend on each other in a loop. Without a loop no
evaluation ends in one, whatever the expressions are; in strict mode a property that leads back to itself has
no value for any record.
-/

namespace Charter
open Relation

namespace Step
variable {σ ε α β : Type} {P : ε → Prop} {first : Step σ ε α} {next : α → Step σ ε β}

-- Whatever the step fails with, from whatever state, is such an error.
def FailsOnlyIn (step : Step σ ε α) (P : ε → Prop) : Prop := ∀ s error t, step s = (.error error, t) → P error

-- The step fails from every state.
def Fails (step : Step σ ε α) : Prop := ∀ s, ∃ error t, step s = (.error error, t)

theorem FailsOnlyIn.pure (value : α) : (Pure.pure value : Step σ ε α).FailsOnlyIn P := by
  intro s error t ran
  cases ran

theorem FailsOnlyIn.total (run : σ → α × σ) : (Step.total run : Step σ ε α).FailsOnlyIn P := by
  intro s error t ran
  cases ran

theorem FailsOnlyIn.fail {error : ε} (allowed : P error) : (Step.fail error : Step σ ε α).FailsOnlyIn P := by
  intro s other t ran
  cases ran
  exact allowed

theorem FailsOnlyIn.bind (before : first.FailsOnlyIn P) (behind : ∀ value, (next value).FailsOnlyIn P) :
    (first >>= next).FailsOnlyIn P := by
  intro s error t ran
  obtain ⟨_, failed, same⟩ | ⟨value, middle, _, went⟩ := bind_cases ran
  · cases same
    exact before s _ t failed
  · exact behind value middle error t went

theorem FailsOnlyIn.each {step : α → Step σ ε β} {items : List α}
    (one : ∀ item ∈ items, (step item).FailsOnlyIn P) : (Step.each step items).FailsOnlyIn P := by
  induction items with
  | nil => exact .pure []
  | cons item rest ih =>
      refine (one item List.mem_cons_self).bind fun _ => ?_
      exact (ih fun other later => one other (List.mem_cons_of_mem _ later)).bind fun _ => .pure _

theorem Fails.bind (fails : first.Fails) : (first >>= next).Fails := by
  intro s
  obtain ⟨error, t, failed⟩ := fails s
  exact ⟨error, t, bind_of_error failed⟩

theorem Fails.behind (fails : ∀ value, (next value).Fails) : (first >>= next).Fails := by
  intro s
  cases ran : first s with
  | mk result middle =>
      cases result with
      | error error => exact ⟨error, middle, bind_of_error ran⟩
      | ok value =>
          obtain ⟨error, t, failed⟩ := fails value middle
          exact ⟨error, t, (bind_of_ok ran).trans failed⟩

end Step

-- Errors that report no loop of computed properties.
def EvaluationError.NoCycle (error : EvaluationError) : Prop :=
  ∀ entity property, error ≠ .computedCycle entity property

def EngineError.NoCycle (error : EngineError) : Prop :=
  ∀ entity property, error ≠ .evaluation (.computedCycle entity property)

def Evaluation.CycleFree {α : Type} (evaluation : Evaluation α) : Prop := evaluation.FailsOnlyIn EvaluationError.NoCycle

-- An expression by itself knows nothing of computed properties.
theorem Evaluation.closed_cycleFree (around : Surroundings) :
    Evaluation.Closed around fun _ evaluation => evaluation.CycleFree where
  pure value := .pure value
  fail reported := .fail fun _ _ same => by
    cases same
    cases reported
  readClock := .total _
  freshId := .total _
  freshLambda := .total _
  bind first behind := first.bind behind

namespace Ir.Entity

-- One computed property depends on another. Of a repeated name the first declaration counts.
def Reads (entity : Entity) (a b : String) : Prop :=
  ∃ computed, entity.computed? a = some computed ∧ b ∈ computed.dependencies ∧ (entity.computed? b).isSome

def Cyclic (entity : Entity) : Prop := ∃ name, TransGen entity.Reads name name

-- What the property depends on, by itself or through others, depends on itself.
def LeadsToCycle (entity : Entity) (name : String) : Prop :=
  ∃ other, ReflTransGen entity.Reads name other ∧ TransGen entity.Reads other other

theorem LeadsToCycle.cyclic {entity : Entity} {name : String} : entity.LeadsToCycle name → entity.Cyclic
  | ⟨other, _, loop⟩ => ⟨other, loop⟩

end Ir.Entity

namespace Engine
variable {engine : Engine} {entity : Ir.Entity} {record : Record} {visiting : List String} {name : String}
  {computed : Ir.Computed}

/-! The three ways to resolve a name. -/

theorem computedValue_of_none (unknown : entity.computed? name = none) :
    engine.computedValue entity record visiting name = pure .undefined := by
  unfold computedValue
  split
  · rfl
  · next found => cases unknown.symm.trans found

theorem computedValue_of_visited (found : entity.computed? name = some computed) (waiting : name ∈ visiting) :
    engine.computedValue entity record visiting name = match engine.options.computedCycles with
      | .strict => Step.fail (.computedCycle entity.name name)
      | .permissive => pure .undefined := by
  unfold computedValue
  split
  · next unknown => cases unknown.symm.trans found
  · exact dif_pos waiting

theorem computedValue_of_fresh (found : entity.computed? name = some computed) (fresh : name ∉ visiting) :
    engine.computedValue entity record visiting name = (do
      let fields ← engine.withDependencies entity record (name :: visiting) (Record.values record)
        computed.dependencies
      engine.evaluate (engine.context.scope (some fields)) computed.expression) := by
  conv => lhs; unfold computedValue
  split
  · next unknown => cases unknown.symm.trans found
  · next other found' =>
      cases found.symm.trans found'
      rw [dif_neg fresh]

theorem evaluate_cycleFree (engine : Engine) (env : Environment) (e : Ir.Expression) :
    (engine.evaluate env e).CycleFree :=
  (Evaluation.closed_cycleFree engine.around).evaluate env e

theorem withDependencies_cycleFree {fields : Fields Value} {dependencies : List String}
    (each : ∀ other ∈ dependencies, (entity.computed? other).isSome →
      (engine.computedValue entity record visiting other).CycleFree) :
    (engine.withDependencies entity record visiting fields dependencies).CycleFree := by
  induction dependencies generalizing fields with
  | nil => unfold withDependencies; exact .pure _
  | cons other rest ih =>
      have later := fun fields => @ih fields fun next member => each next (List.mem_cons_of_mem _ member)
      unfold withDependencies
      split
      · next known => exact (each other List.mem_cons_self known).bind fun _ => later _
      · exact later _

-- By induction on what is left to visit. All that waits leads to the name that is resolved, so a name that
-- waits itself would lead to itself.
theorem computedValue_cycleFree (acyclic : ¬ entity.LeadsToCycle name)
    (waiting : ∀ other ∈ visiting, TransGen entity.Reads other name) :
    (engine.computedValue entity record visiting name).CycleFree := by
  induction left : (entity.unvisited visiting).length using Nat.strongRecOn
    generalizing visiting name with
  | ind count ih =>
  subst left
  cases found : entity.computed? name with
  | none => rw [computedValue_of_none found]; exact .pure _
  | some computed =>
      have fresh : name ∉ visiting := fun member => acyclic ⟨name, .refl, waiting name member⟩
      have shorter := Ir.Entity.length_unvisited_cons_lt (Ir.Entity.mem_computedNames found) fresh
      rw [computedValue_of_fresh found fresh]
      refine (withDependencies_cycleFree fun other member known => ?_).bind fun _ => evaluate_cycleFree engine _ _
      have edge : entity.Reads name other := ⟨computed, found, member, known⟩
      have onward : ¬ entity.LeadsToCycle other :=
        fun ⟨looping, leads, loop⟩ => acyclic ⟨looping, leads.head edge, loop⟩
      refine ih _ shorter onward (fun before visited => ?_) rfl
      rcases List.mem_cons.mp visited with same | earlier
      · exact same ▸ .single edge
      · exact (waiting before earlier).tail edge

theorem withDependencies_fails {fields : Fields Value} {dependencies : List String} {other : String}
    (member : other ∈ dependencies) (known : (entity.computed? other).isSome)
    (fails : (engine.computedValue entity record visiting other).Fails) :
    (engine.withDependencies entity record visiting fields dependencies).Fails := by
  induction dependencies generalizing fields with
  | nil => cases member
  | cons first rest ih =>
      unfold withDependencies
      rcases List.mem_cons.mp member with rfl | later
      · rw [if_pos known]
        exact fails.bind
      · split
        · exact .behind fun _ => ih later
        · exact ih later

-- A name that leads to one that waits, or to a loop.
inductive Doomed (entity : Ir.Entity) (visiting : List String) (name : String) : Prop
  | waits {other : String} (leads : ReflTransGen entity.Reads name other) (visited : other ∈ visiting)
  | loops {other : String} (leads : ReflTransGen entity.Reads name other) (loop : TransGen entity.Reads other other)

-- A doomed name that does not wait itself depends on one that is doomed when it waits too.
theorem Doomed.next (doomed : Doomed entity visiting name) (fresh : name ∉ visiting) :
    ∃ other, entity.Reads name other ∧ Doomed entity (name :: visiting) other := by
  cases doomed with
  | waits leads visited =>
      obtain rfl | ⟨other, edge, rest⟩ := leads.cases_head
      · exact absurd visited fresh
      · exact ⟨other, edge, .waits rest (List.mem_cons_of_mem _ visited)⟩
  | loops leads loop =>
      obtain rfl | ⟨other, edge, rest⟩ := leads.cases_head
      · obtain ⟨other, edge, rest⟩ := TransGen.head'_iff.mp loop
        exact ⟨other, edge, .waits rest List.mem_cons_self⟩
      · exact ⟨other, edge, .loops rest loop⟩

theorem computedValue_fails (strict : engine.options.computedCycles = .strict)
    (known : (entity.computed? name).isSome) (doomed : Doomed entity visiting name) :
    (engine.computedValue entity record visiting name).Fails := by
  induction left : (entity.unvisited visiting).length using Nat.strongRecOn
    generalizing visiting name with
  | ind count ih =>
  subst left
  obtain ⟨computed, found⟩ := Option.isSome_iff_exists.mp known
  by_cases waiting : name ∈ visiting
  · rw [computedValue_of_visited found waiting, strict]
    exact fun usage => ⟨_, usage, rfl⟩
  · have shorter := Ir.Entity.length_unvisited_cons_lt (Ir.Entity.mem_computedNames found) waiting
    obtain ⟨other, ⟨same, declared, member, known⟩, doomed⟩ := doomed.next waiting
    cases found.symm.trans declared
    rw [computedValue_of_fresh found waiting]
    exact (withDependencies_fails member known (ih _ shorter known doomed rfl)).bind

end Engine

/-! The two operations of an engine that resolve computed properties. -/

namespace Transaction
variable {α : Type} {evaluation : Evaluation α}

theorem evaluate_cycleFree (free : evaluation.CycleFree) : (evaluate evaluation).FailsOnlyIn EngineError.NoCycle := by
  intro s error t ran entity property same
  cases outcome : evaluation s.usage with
  | mk result usage =>
      cases result with
      | ok value => rw [evaluate_of_ok outcome] at ran; cases ran
      | error failure =>
          rw [evaluate_of_error outcome] at ran
          cases ran
          cases same
          exact free _ _ _ outcome entity property rfl

theorem evaluate_fails (fails : evaluation.Fails) : (evaluate evaluation).Fails := by
  intro s
  obtain ⟨error, usage, failed⟩ := fails s.usage
  exact ⟨_, _, evaluate_of_error failed⟩

theorem need_cycleFree {value : Option α} {error : EngineError} (harmless : error.NoCycle) :
    (need value error).FailsOnlyIn EngineError.NoCycle := by
  cases value with
  | none => exact .fail harmless
  | some value => exact .pure value

end Transaction

namespace Engine
variable {engine : Engine} {entity : Ir.Entity} {name property : String}

theorem entity_bind {β : Type} {next : Ir.Entity → Transaction β} (declared : engine.ir.entity? name = some entity) :
    (engine.entity name >>= next) = next entity := by
  unfold Engine.entity
  rw [declared]
  rfl

theorem computed_cycleFree_of (declared : engine.ir.entity? name = some entity)
    (acyclic : ¬ entity.LeadsToCycle property) (record : Record) :
    (engine.computed name record property).FailsOnlyIn EngineError.NoCycle := by
  unfold computed
  rw [entity_bind declared]
  refine Step.FailsOnlyIn.bind (Transaction.need_cycleFree fun _ _ => nofun) fun _ => ?_
  exact Transaction.evaluate_cycleFree (computedValue_cycleFree acyclic (List.forall_mem_nil _))

theorem computed_cycleFree (declared : engine.ir.entity? name = some entity) (acyclic : ¬ entity.Cyclic)
    (record : Record) (property : String) :
    (engine.computed name record property).FailsOnlyIn EngineError.NoCycle :=
  computed_cycleFree_of declared (mt (·.cyclic) acyclic) record

theorem withComputed_cycleFree (declared : engine.ir.entity? name = some entity) (acyclic : ¬ entity.Cyclic)
    (record : Record) : (engine.withComputed name record).FailsOnlyIn EngineError.NoCycle := by
  unfold withComputed
  rw [entity_bind declared]
  refine (Transaction.evaluate_cycleFree (.each fun property _ => ?_)).bind fun _ => .pure _
  have free : (engine.computedValue entity record [] property).CycleFree :=
    computedValue_cycleFree (mt (·.cyclic) acyclic) (List.forall_mem_nil _)
  exact free.bind fun _ => .pure _

theorem computed_fails_of (strict : engine.options.computedCycles = .strict)
    (declared : engine.ir.entity? name = some entity) (cyclic : entity.LeadsToCycle property) (record : Record) :
    (engine.computed name record property).Fails := by
  obtain ⟨other, leads, loop⟩ := cyclic
  obtain ⟨_, ⟨computed, found, _⟩, _⟩ := TransGen.head'_iff.mp (TransGen.trans_right leads loop)
  unfold Engine.computed
  rw [entity_bind declared]
  refine .behind fun _ => Transaction.evaluate_fails ?_
  exact computedValue_fails strict (Option.isSome_of_eq_some found) (.loops leads loop)

theorem computed_fails (strict : engine.options.computedCycles = .strict)
    (declared : engine.ir.entity? name = some entity) (loop : TransGen entity.Reads property property)
    (record : Record) : (engine.computed name record property).Fails :=
  computed_fails_of strict declared ⟨property, .refl, loop⟩ record

end Engine
end Charter

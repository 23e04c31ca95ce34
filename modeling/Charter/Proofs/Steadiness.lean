import Charter.Engine.Command
import Charter.Proofs.Coupling
import Charter.Proofs.Evaluation
import Charter.Proofs.Independence

/-!
Evaluations that cannot tell when they are made. Where the clock stands still, what an evaluation in a scope of data
ends in depends on the next fresh id alone: not on how often the clock was read before, nor on how many lambdas were
made.
-/

namespace Charter

-- The clock gives the same time to every reading.
def Surroundings.Standing (around : Surroundings) : Prop := ∀ k l, around.time k = around.time l

def Usage.SameIds (u w : Usage) : Prop := u.ids = w.ids

namespace Evaluation
variable {α β : Type} {around : Surroundings} {env : Environment}

-- Readings that were taken before do not matter, but are counted.
def Timeless (evaluation : Evaluation α) : Prop :=
  ∀ usage readings, ∃ taken, evaluation { usage with readings } =
    ((evaluation usage).1, { (evaluation usage).2 with readings := taken })

theorem Timeless.bind {first : Evaluation α} {next : α → Evaluation β} (before : first.Timeless)
    (behind : ∀ value, (next value).Timeless) : Timeless (first >>= next) := by
  intro usage readings
  obtain ⟨taken, same⟩ := before usage readings
  cases ran : first usage with
  | mk result after =>
      rw [ran] at same
      cases result with
      | error error =>
          rw [Step.bind_of_error ran, Step.bind_of_error same]
          exact ⟨taken, rfl⟩
      | ok value =>
          rw [Step.bind_of_ok ran, Step.bind_of_ok same]
          exact behind value after taken

theorem closed_timeless (standing : around.Standing) : Closed around fun _ evaluation => evaluation.Timeless where
  pure _ _ readings := ⟨readings, rfl⟩
  fail _ _ readings := ⟨readings, rfl⟩
  readClock usage readings :=
    ⟨readings + 1, congrArg (fun time => (Except.ok time, _)) (standing readings usage.readings)⟩
  freshId _ readings := ⟨readings, rfl⟩
  freshLambda _ readings := ⟨readings, rfl⟩
  bind first behind := first.bind behind

-- From any two usages with one next fresh id the evaluation ends in the same, and with one next fresh id.
def Steady (evaluation : Evaluation α) : Prop := Step.Coupled Usage.SameIds Eq evaluation evaluation

end Evaluation

-- Data holds no lambda, so it is alike itself whatever two runs share.
def Value.Data (value : Value) : Prop := ∀ pairing, Alike pairing value value

def Environment.Data (env : Environment) : Prop := ∀ name value, env.lookup? name = some value → value.Data

-- Everything may be read.
theorem within_everything {view : View} (everything : ∀ root keys, view root keys) (e : Ir.Expression) :
    Within True view e := by
  induction e using Ir.Expression.induction generalizing view with
  | literal value => exact .literal value
  | identifier name => exact .path rfl (everything name [])
  | member target property ih => exact .member property (ih everything)
  | binary operator left right first second => exact .binary operator (first everything) (second everything)
  | unary operator operand ih => exact .unary operator (ih everything)
  | call callee arguments called each =>
      have read : ∀ argument ∈ arguments, Within True view argument :=
        fun argument member => each argument member everything
      cases callee with
      | identifier name => exact .named (fun _ _ => .inr trivial) (fun _ => everything name []) read
      | literal | member | binary | unary | call | conditional | array | object | lambda =>
          exact .call (fun _ => nofun) (called everything) read
  | conditional condition consequent alternate decided first second =>
      exact .conditional (decided everything) (first everything) (second everything)
  | array elements each => exact .array fun element member => each element member everything
  | object properties each => exact .object fun property member => each property member everything
  | lambda params body ih => exact .lambda (ih fun root keys => .inr (everything root keys))

namespace Environment.Data
variable {env : Environment} {value : Value} {bindings : Fields Value}

theorem resolve (data : env.Data) (name : String) : (env.resolve name).Data := by
  intro pairing
  unfold Environment.resolve
  cases found : env.lookup? name with
  | some value => exact data name value found pairing
  | none =>
      dsimp only
      split
      · exact .boolean true
      · exact .boolean false
      · exact .null
      · exact .undefined

theorem shown {pairing : Pairing} {view : View} (data : env.Data) : Shown pairing view env env :=
  fun root keys _ => (data.resolve root pairing).follow keys

theorem define (data : env.Data) (name : String) (bound : value.Data) : (env.define name value).Data := by
  intro key found looked
  rw [Environment.lookup?_define] at looked
  split at looked
  · cases looked
    exact bound
  · exact data key found looked

theorem defineAll (data : env.Data) (bound : ∀ binding ∈ bindings, binding.2.Data) : (env.defineAll bindings).Data := by
  induction bindings generalizing env with
  | nil => exact data
  | cons binding rest ih =>
      exact ih (data.define binding.1 (bound binding List.mem_cons_self))
        fun other later => bound other (List.mem_cons_of_mem _ later)

theorem ofFields (bound : ∀ binding ∈ bindings, binding.2.Data) : (Environment.ofFields bindings).Data := by
  intro key found looked
  rw [Environment.lookup?_ofFields] at looked
  exact bound _ (Fields.mem_of_get? looked)

end Environment.Data

theorem Record.values_data (record : Record) : ∀ binding ∈ Record.values record, binding.2.Data := by
  intro binding member pairing
  obtain ⟨_, _, rfl⟩ := List.mem_map.mp member
  exact .ofJson _

theorem Value.object_data {entries : Fields Value} (each : ∀ entry ∈ entries, entry.2.Data) : (object entries).Data :=
  fun pairing => .object_self fun entry member => each entry member pairing

theorem RequestContext.bindReserved_data {env : Environment} {self : Value} (context : RequestContext)
    (data : env.Data) (own : self.Data) : (context.bindReserved env self).Data := by
  have user : context.userValue.Data := by
    intro pairing
    unfold userValue
    split
    · exact .ofJson _
    · exact .null
  have whole : context.value.Data := by
    unfold value
    split
    · refine Value.object_data fun entry member => ?_
      rcases Fields.mem_put member with rfl | old
      · exact fun pairing => .ofJson _
      · exact Record.values_data _ entry old
    · exact Value.object_data (Record.values_data _)
  exact (((data.define "self" own).define "this" own).define "user" user).define "context" whole

-- One leaf of a condition, with its value if it has one.
def resolveLeaf (around : Surroundings) (env : Environment) (start : List ResolvedValue × Usage)
    (leaf : String × Ir.Expression) : List ResolvedValue × Usage :=
  match evaluate around env leaf.2 start.2 with
  | (.ok value, usage) => (start.1 ++ [⟨leaf.1, value.toJson⟩], usage)
  | (.error _, usage) => (start.1, usage)

theorem resolveLeaves_foldl (around : Surroundings) (env : Environment) (e : Ir.Expression) (usage : Usage) :
    resolveLeaves around env e usage = e.distinctLeaves.foldl (resolveLeaf around env) ([], usage) := rfl

namespace Engine
variable {engine : Engine} {env : Environment}

theorem scope_data (context : RequestContext) (record : Record) : (context.scope (some (Record.values record))).Data :=
  context.bindReserved_data (.ofFields (Record.values_data record)) (Value.object_data (Record.values_data record))

theorem refreshed_data (data : env.Data) (record : Record) : (engine.refreshed env record).Data :=
  engine.context.bindReserved_data (data.defineAll (Record.values_data record))
    (Value.object_data (Record.values_data record))

-- The scope of a command binds the context over data that the context has no part in.
theorem commandScope_bound (engine : Engine) (command : Ir.Command) (record : Option Record) (input : Record) :
    ∃ env self, env.Data ∧ self.Data ∧ ∀ context : RequestContext,
      { engine with context }.commandScope command record input = context.bindReserved env self := by
  have fields : ∀ binding ∈ (record.map Record.values).getD [], binding.2.Data := by
    cases record with
    | none => exact fun _ => nofun
    | some record => exact Record.values_data record
  refine ⟨_, _, ((Environment.Data.ofFields fields).defineAll ?_).defineAll (Record.values_data input), ?_,
    fun _ => rfl⟩
  · intro binding member
    obtain ⟨parameter, _, default⟩ := List.mem_filterMap.mp member
    split at default
    · cases default
    · obtain ⟨constant, _, rfl⟩ := Option.map_eq_some_iff.mp default
      exact fun pairing => .ofConstant constant
  · cases record with
    | none => exact fun pairing => .null
    | some record => exact Value.object_data (Record.values_data record)

theorem commandScope_data (command : Ir.Command) (record : Option Record) (input : Record) :
    (engine.commandScope command record input).Data := by
  obtain ⟨env, self, data, own, bound⟩ := engine.commandScope_bound command record input
  exact bound engine.context ▸ engine.context.bindReserved_data data own

/-! What an engine evaluates in a scope of data is steady. -/

variable (standing : engine.around.Standing)
include standing

-- The values may differ in the lambdas that they hold, which no outcome tells.
theorem evaluate_coupled (data : env.Data) (e : Ir.Expression) :
    Step.Coupled Usage.SameIds (fun v w => ∃ pairing, Alike pairing v w) (engine.evaluate env e)
      (engine.evaluate env e) := by
  intro u w same
  let pairing : Pairing := ⟨True, u.lambdas, w.lambdas⟩
  have aligned : Aligned pairing u { w with readings := u.readings } :=
    ⟨Nat.le_refl _, Nat.add_comm .., fun _ => ⟨rfl, same⟩⟩
  have ended := evaluate_together engine.around (@within_everything (fun _ _ => True) (fun _ _ => trivial) e)
    data.shown u _ aligned
  obtain ⟨taken, again⟩ := (Evaluation.closed_timeless standing).evaluate env e w u.readings
  rw [again] at ended
  unfold evaluate
  match Charter.evaluate engine.around env e u, Charter.evaluate engine.around env e w, ended with
  | (.ok _, _), (.ok _, _), .ok related aligned => exact .ok ⟨pairing, related⟩ (aligned.taken trivial).2
  | (.error _, _), (.error _, _), .error aligned => exact .error (aligned.taken trivial).2

theorem holds_steady (data : env.Data) (e : Ir.Expression) : (engine.holds env e).Steady :=
  (evaluate_coupled standing data e).bind fun _ _ ⟨_, alike⟩ => .pure alike.isTruthy

theorem resolveLeaf_same (data : env.Data) (leaf : String × Ir.Expression) {start start' : List ResolvedValue × Usage}
    (same : start.1 = start'.1 ∧ start.2.SameIds start'.2) :
    (resolveLeaf engine.around env start leaf).1 = (resolveLeaf engine.around env start' leaf).1 ∧
      (resolveLeaf engine.around env start leaf).2.SameIds (resolveLeaf engine.around env start' leaf).2 := by
  unfold resolveLeaf
  have met := evaluate_coupled standing data leaf.2 _ _ same.2
  unfold evaluate at met
  match Charter.evaluate engine.around env leaf.2 start.2, Charter.evaluate engine.around env leaf.2 start'.2, met with
  | _, _, .ok ⟨_, alike⟩ kept =>
      exact ⟨congrArg₂ (fun found json => found ++ [⟨leaf.1, json⟩]) same.1 alike.toJson, kept⟩
  | _, _, .error kept => exact ⟨same.1, kept⟩

theorem leaves_steady (data : env.Data) (e : Ir.Expression) : (engine.leaves env e).Steady := by
  refine .total fun u w same => ?_
  rw [resolveLeaves_foldl, resolveLeaves_foldl]
  exact List.foldl_rel
    (r := fun one other : List ResolvedValue × Usage => one.1 = other.1 ∧ one.2.SameIds other.2) ⟨rfl, same⟩
    fun leaf _ _ _ same => resolveLeaf_same standing data leaf same

theorem details_steady (data : env.Data) (details : Fields Ir.Expression) : (engine.details env details).Steady := by
  refine Step.Coupled.each fun detail _ => ?_
  refine (evaluate_coupled standing data detail.2).attempt.bind fun one other met => ?_
  cases met with
  | none => exact .pure rfl
  | some related =>
      obtain ⟨_, alike⟩ := related
      exact .pure (congrArg (detail.1, ·) alike.toJson)

theorem isOverridden_steady (data : env.Data) (scope : PolicyScope) (overrides : List String)
    (constraint : Ir.Constraint) (passed : Bool) :
    (engine.isOverridden env scope overrides constraint passed).Steady := by
  unfold isOverridden allowsOverride
  split
  · split
    · exact .pure rfl
    · split
      · exact .pure rfl
      · split
        · exact holds_steady standing data _
        · exact .pure rfl
  · exact .pure rfl

theorem judge_steady (data : env.Data) (scope : PolicyScope) (overrides : List String) (constraint : Ir.Constraint) :
    (engine.judge env scope overrides constraint).Steady := by
  refine (holds_steady standing data _).after fun passed => ?_
  refine (details_steady standing data _).after fun details => ?_
  refine (isOverridden_steady standing data scope overrides constraint passed).after fun overridden => ?_
  cases passed with
  | true => exact .pure rfl
  | false => exact (leaves_steady standing data _).after fun resolved => .pure rfl

theorem judgeAll_steady (data : env.Data) (scope : PolicyScope) (overrides : List String)
    (constraints : List Ir.Constraint) : (engine.judgeAll env scope overrides constraints).Steady :=
  .each fun constraint _ => judge_steady standing data scope overrides constraint

theorem denial?_steady (data : env.Data) (policies : List Ir.Policy) : (engine.denial? env policies).Steady := by
  induction policies with
  | nil => exact .pure rfl
  | cons policy rest ih =>
      refine (holds_steady standing data _).after fun held => ?_
      cases held with
      | true => exact ih
      | false => exact (leaves_steady standing data _).after fun resolved => .pure rfl

theorem guardFailure?_steady (data : env.Data) (index : Nat) (guards : List Ir.Expression) :
    (engine.guardFailure? env index guards).Steady := by
  induction guards generalizing index with
  | nil => exact .pure rfl
  | cons guard rest ih =>
      refine (holds_steady standing data _).after fun held => ?_
      cases held with
      | true => exact ih (index + 1)
      | false => exact (leaves_steady standing data _).after fun resolved => .pure rfl

theorem gates_steady (data : env.Data) (command : Ir.Command) (entity : Option String) (overrides : List String) :
    (engine.gates command entity overrides env).Steady := by
  refine (denial?_steady standing data _).after fun denial => ?_
  cases denial with
  | some denial => exact .pure rfl
  | none =>
      refine (guardFailure?_steady standing data 1 _).after fun failure => ?_
      cases failure with
      | some failure => exact .pure rfl
      | none =>
          refine (judgeAll_steady standing data _ _ _).after fun outcomes => ?_
          split
          · exact .pure rfl
          · exact .pure rfl

theorem readClock_steady : (Evaluation.readClock engine.around).Steady :=
  .total fun u w same => ⟨standing u.readings w.readings, same⟩

theorem stamped_steady (entity : Ir.Entity) (fields : Record) : (engine.stamped entity fields).Steady := by
  unfold stamped
  split
  · exact .pure rfl
  · exact (readClock_steady standing).after fun time => .pure rfl

theorem nextVersion_steady (entity : Ir.Entity) (existing patch : Record) :
    (engine.nextVersion entity existing patch).Steady := by
  unfold nextVersion
  split
  · exact .pure rfl
  · split
    · exact .pure rfl
    · exact (stamped_steady standing entity _).after fun plan => .pure rfl

theorem violations_steady (entity : Ir.Entity) (record : Record) : (engine.violations entity record).Steady :=
  (judgeAll_steady standing (scope_data engine.context record) _ _ _).after fun _ => .pure rfl

theorem planUpdate_steady (entity : Ir.Entity) (existing patch : Record) :
    (engine.planUpdate entity existing patch).Steady := by
  refine (nextVersion_steady standing entity existing patch).after fun versioned => ?_
  cases versioned with
  | error rejection => exact .pure rfl
  | ok plan =>
      dsimp only
      split
      · exact .pure rfl
      · refine (violations_steady standing entity _).after fun violations => ?_
        split
        · exact .pure rfl
        · exact .pure rfl

end Engine
end Charter

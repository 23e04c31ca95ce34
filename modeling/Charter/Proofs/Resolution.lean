import Charter.Proofs.ComputedCycle
import Mathlib.Data.List.Dedup
import Mathlib.Data.List.Perm.Subperm

/-!
Resolution of computed properties with the path as a stack that is pushed and popped, and with a limit on how deep
it may go. The stack never holds a name twice, so a limit of one more than there are distinct computed properties is
never reached, and the run does what `computedValue` does. Wherever a property has a value, the stack is again what
it was.
-/

namespace Charter

namespace Ir.Entity

-- How many computed properties can be told apart by name.
def distinctComputed (entity : Entity) : Nat := entity.computedNames.dedup.length

-- Properties that can wait for each other: computed ones, each at most once, the innermost first.
structure Path (entity : Entity) where
  names : List String
  distinct : names.Nodup
  known : ∀ name ∈ names, name ∈ entity.computedNames

namespace Path
variable {entity : Entity} {path : Path entity} {name : String}

def push (path : Path entity) (name : String) (known : name ∈ entity.computedNames) (fresh : name ∉ path.names) :
    Path entity where
  names := name :: path.names
  distinct := path.distinct.cons fresh
  known := List.forall_mem_cons.mpr ⟨known, path.known⟩

theorem length_le (path : Path entity) : path.names.length ≤ entity.distinctComputed :=
  (path.distinct.subperm fun name waits => List.mem_dedup.mpr (path.known name waits)).length_le

end Path
end Ir.Entity

namespace Engine

-- What a resolution does to its path: it asks for a property while others wait, or has found its value.
inductive Visit where
  | entered (visiting : List String) (name : String)
  | left (before after : List String)

structure Resolving where
  visiting : List String
  trail : List Visit := []
  usage : Usage

inductive ResolutionError where
  | failed (error : EvaluationError)
  -- More properties wait for each other than the limit allows.
  | tooDeep

abbrev Resolution := Step Resolving ResolutionError

namespace Resolution

def path : Resolution (List String) := .total fun state => (state.visiting, state)

def note (visit : Visit) : Resolution Unit := .total fun state => ((), { state with trail := state.trail ++ [visit] })

def push (name : String) : Resolution Unit :=
  .total fun state => ((), { state with visiting := name :: state.visiting })

def pop : Resolution Unit := .total fun state => ((), { state with visiting := state.visiting.tail })

def evaluate {α : Type} (evaluation : Evaluation α) : Resolution α := fun state =>
  match evaluation state.usage with
  | (result, usage) => (result.mapError .failed, { state with usage := usage })

-- Resolves with a property on the path. Where that fails, the property stays there.
def inside {α : Type} (name : String) (run : Resolution α) : Resolution α := do
  push name
  let value ← run
  pop
  return value

-- Notes that a property is asked for, and that it has a value.
def visit (name : String) (run : Resolution Value) : Resolution Value := do
  let before ← path
  note (.entered before name)
  let value ← run
  note (.left before (← path))
  return value

-- Fields with the values of those dependencies over them that are computed properties.
def dependencies (entity : Ir.Entity) (resolve : String → Resolution Value) :
    Fields Value → List String → Resolution (Fields Value)
  | fields, [] => return fields
  | fields, name :: rest =>
    if (entity.computed? name).isSome then do
      let value ← resolve name
      dependencies entity resolve (fields.put name value) rest
    else dependencies entity resolve fields rest

end Resolution

-- The value of a computed property, with a number of properties left that may be asked for inside of each other.
def resolve (engine : Engine) (entity : Ir.Entity) (record : Record) : Nat → String → Resolution Value
  | 0, _ => Step.fail .tooDeep
  | depth + 1, name => .visit name do
    match entity.computed? name with
    | none => return .undefined
    | some computed =>
      if name ∈ (← Resolution.path) then
        match engine.options.computedCycles with
        | .strict => Step.fail (.failed (.computedCycle entity.name name))
        | .permissive => return .undefined
      else
        let fields ← Resolution.inside name
          (Resolution.dependencies entity (engine.resolve entity record depth) (Record.values record)
            computed.dependencies)
        .evaluate (engine.evaluate (engine.context.scope (some fields)) computed.expression)

variable {engine : Engine} {entity : Ir.Entity} {record : Record} {α β : Type}

-- The properties that wait when another is asked for are distinct computed ones, too few to go deeper than the
-- limit, and a property that has its value leaves them as they were.
def Visit.Sound (entity : Ir.Entity) : Visit → Prop
  | entered visiting _ => visiting.Nodup ∧ (∀ name ∈ visiting, name ∈ entity.computedNames) ∧
      visiting.length + 1 ≤ entity.distinctComputed + 1
  | left before after => after = before

namespace Resolution

-- The run does what the evaluation does, visits soundly on the way, and keeps the path where it has a value.
def Follows (path : Ir.Entity.Path entity) (run : Resolution α) (evaluation : Evaluation α) : Prop :=
  ∀ trail usage, ∃ visits visiting,
    run ⟨path.names, trail, usage⟩ =
        ((evaluation usage).1.mapError .failed, ⟨visiting, trail ++ visits, (evaluation usage).2⟩) ∧
      (∀ value, (evaluation usage).1 = .ok value → visiting = path.names) ∧ ∀ visit ∈ visits, visit.Sound entity

namespace Follows
variable {path : Ir.Entity.Path entity} {run : Resolution α} {evaluation : Evaluation α} {name : String}

theorem pure (value : α) : Follows path (Pure.pure value) (Pure.pure value) := by
  intro trail usage
  exact ⟨[], path.names, by simp [Except.mapError], fun _ _ => rfl, List.forall_mem_nil _⟩

theorem fail (error : EvaluationError) :
    Follows (α := α) path (Step.fail (.failed error)) (Step.fail error) := by
  intro trail usage
  exact ⟨[], path.names, by simp [Except.mapError], nofun, List.forall_mem_nil _⟩

theorem evaluate (evaluation : Evaluation α) : Follows path (.evaluate evaluation) evaluation := by
  intro trail usage
  exact ⟨[], path.names, by simp [Resolution.evaluate], fun _ _ => rfl, List.forall_mem_nil _⟩

theorem bind {next : α → Resolution β} {next' : α → Evaluation β} (first : Follows path run evaluation)
    (behind : ∀ value, Follows path (next value) (next' value)) :
    Follows path (run >>= next) (evaluation >>= next') := by
  intro trail usage
  obtain ⟨visits, visiting, ran, kept, sound⟩ := first trail usage
  cases outcome : evaluation usage with
  | mk result middle =>
  rw [outcome] at ran kept
  cases result with
  | error error =>
      rw [Step.bind_of_error outcome]
      exact ⟨visits, visiting, Step.bind_of_error ran, nofun, sound⟩
  | ok value =>
      obtain rfl := kept value rfl
      obtain ⟨others, visiting, went, kept, sound'⟩ := behind value (trail ++ visits) middle
      rw [Step.bind_of_ok outcome]
      refine ⟨visits ++ others, visiting, ?_, kept, List.forall_mem_append.mpr ⟨sound, sound'⟩⟩
      rw [Step.bind_of_ok ran, went, List.append_assoc]

-- A run that looks at the path goes on with it.
theorem looking {next : List String → Resolution α} (follows : Follows path (next path.names) evaluation) :
    Follows path (Resolution.path >>= next) evaluation := follows

-- What runs with a property on the path leaves it there only where it fails.
theorem inside {known : name ∈ entity.computedNames} {fresh : name ∉ path.names}
    (follows : Follows (path.push name known fresh) run evaluation) :
    Follows path (Resolution.inside name run) evaluation := by
  intro trail usage
  obtain ⟨visits, visiting, ran, kept, sound⟩ := follows trail usage
  have pushed : push name ⟨path.names, trail, usage⟩ = (.ok (), ⟨name :: path.names, trail, usage⟩) := rfl
  cases outcome : evaluation usage with
  | mk result after =>
  rw [outcome] at ran kept
  cases result with
  | error error =>
      refine ⟨visits, visiting, ?_, nofun, sound⟩
      exact (Step.bind_of_ok pushed).trans (Step.bind_of_error ran)
  | ok value =>
      obtain rfl := kept value rfl
      refine ⟨visits, path.names, ?_, fun _ _ => rfl, sound⟩
      exact (Step.bind_of_ok pushed).trans (Step.bind_of_ok ran)

theorem visit {run : Resolution Value} {evaluation : Evaluation Value} (follows : Follows path run evaluation) :
    Follows path (Resolution.visit name run) evaluation := by
  intro trail usage
  let entered : Visit := .entered path.names name
  obtain ⟨visits, visiting, ran, kept, sound⟩ := follows (trail ++ [entered]) usage
  have asked : entered.Sound entity := ⟨path.distinct, path.known, Nat.succ_le_succ path.length_le⟩
  have begun : Resolution.visit name run ⟨path.names, trail, usage⟩ = (run >>= fun value => do
      note (.left path.names (← Resolution.path))
      Pure.pure value) ⟨path.names, trail ++ [entered], usage⟩ := rfl
  rw [begun]
  cases outcome : evaluation usage with
  | mk result after =>
  rw [outcome] at ran kept
  cases result with
  | error error =>
      refine ⟨entered :: visits, visiting, ?_, nofun, List.forall_mem_cons.mpr ⟨asked, sound⟩⟩
      rw [Step.bind_of_error ran, List.append_assoc]
      rfl
  | ok value =>
      obtain rfl := kept value rfl
      let left : Visit := .left path.names path.names
      refine ⟨entered :: (visits ++ [left]), path.names, ?_, fun _ _ => rfl, ?_⟩
      · rw [Step.bind_of_ok ran, List.append_assoc]
        exact congrArg (fun trail => (_, Resolving.mk path.names trail after)) (List.append_assoc _ _ _)
      · exact List.forall_mem_cons.mpr ⟨asked, List.forall_mem_append.mpr ⟨sound, by simp [left, Visit.Sound]⟩⟩

theorem dependencies {resolve : String → Resolution Value} {fields : Fields Value} {dependencies : List String}
    (each : ∀ other, Follows path (resolve other) (engine.computedValue entity record path.names other)) :
    Follows path (Resolution.dependencies entity resolve fields dependencies)
      (engine.withDependencies entity record path.names fields dependencies) := by
  induction dependencies generalizing fields with
  | nil =>
      unfold withDependencies
      exact .pure fields
  | cons other rest ih =>
      unfold withDependencies Resolution.dependencies
      split
      · exact (each other).bind fun _ => ih
      · exact ih

end Follows
end Resolution

-- The limit is what the path leaves of the distinct computed properties, and one more: a name that is not computed,
-- or waits already, is asked for too. It cannot run out, since the path cannot hold more names than there are.
theorem resolve_follows (engine : Engine) (record : Record) {depth : Nat} {path : Ir.Entity.Path entity}
    (enough : path.names.length + depth = entity.distinctComputed + 1) (name : String) :
    Resolution.Follows path (engine.resolve entity record depth name)
      (engine.computedValue entity record path.names name) := by
  induction depth generalizing path name with
  | zero => exact absurd path.length_le (by omega)
  | succ depth ih =>
  refine .visit ?_
  cases found : entity.computed? name with
  | none =>
      rw [computedValue_of_none found]
      exact .pure _
  | some computed =>
      refine .looking ?_
      by_cases waiting : name ∈ path.names
      · rw [computedValue_of_visited found waiting, if_pos waiting]
        cases engine.options.computedCycles with
        | strict => exact .fail _
        | permissive => exact .pure _
      · rw [computedValue_of_fresh found waiting, if_neg waiting]
        let deeper := path.push name (Ir.Entity.mem_computedNames found) waiting
        have enough : deeper.names.length + depth = entity.distinctComputed + 1 := by
          simp only [deeper, Ir.Entity.Path.push, List.length_cons]
          omega
        have resolved : Resolution.Follows deeper
            (Resolution.dependencies entity (engine.resolve entity record depth) (Record.values record)
              computed.dependencies)
            (engine.withDependencies entity record deeper.names (Record.values record) computed.dependencies) :=
          .dependencies (ih enough)
        exact resolved.inside.bind fun _ => .evaluate _

-- From every path, for every engine and so for both ways to treat loops: the limit is not reached, the value (or the
-- error) and what is taken from the surroundings are those of `computedValue`, all visits on the way are sound, and
-- where there is a value the path is what it was.
theorem resolution_bounded (engine : Engine) (entity : Ir.Entity) (record : Record) (path : Ir.Entity.Path entity)
    (name : String) (usage : Usage) :
    let outcome := engine.computedValue entity record path.names name usage
    let limit := entity.distinctComputed + 1 - path.names.length
    ∃ resolved, engine.resolve entity record limit name ⟨path.names, [], usage⟩ =
        (outcome.1.mapError .failed, resolved) ∧ resolved.usage = outcome.2 ∧
      (∀ value, outcome.1 = .ok value → resolved.visiting = path.names) ∧
        ∀ visit ∈ resolved.trail, visit.Sound entity := by
  intro outcome limit
  have enough : path.names.length + limit = entity.distinctComputed + 1 :=
    Nat.add_sub_cancel' (Nat.le_succ_of_le path.length_le)
  obtain ⟨visits, visiting, ran, kept, sound⟩ := resolve_follows engine record enough name [] usage
  exact ⟨_, ran, rfl, kept, sound⟩

end Engine
end Charter

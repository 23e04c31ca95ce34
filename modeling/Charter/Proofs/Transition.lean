import Charter.Proofs.Record
import Charter.Proofs.Write

/-!
The transition rules of an entity at an update. A property that moves on from a value goes where the rules
for that value let it go, if they name any place. Rules that name none hold nothing back.
-/

namespace Charter

namespace Ir
variable {entity : Entity} {rule : Transition} {property : String} {previous next : Json}

-- A rule is for a property at a value.
structure Transition.For (rule : Transition) (property : String) (previous : Json) : Prop where
  named : rule.property = property
  source : (Value.ofConstant rule.source).looselyEquals (.ofJson previous) = true

def Transition.Lists (rule : Transition) (next : Json) : Prop :=
  ∃ target ∈ rule.targets, target.toJson.looselyEquals next = true

-- Some rule for a property at a value lists the next one, or all rules for it list nothing.
def Entity.LetsGo (entity : Entity) (property : String) (previous next : Json) : Prop :=
  (∃ rule ∈ entity.transitions, rule.For property previous ∧ rule.Lists next) ∨
    ∀ rule ∈ entity.transitions, rule.For property previous → rule.targets = []

theorem Entity.mem_allowed {value : Json} : value ∈ entity.allowed property previous ↔
    ∃ rule ∈ entity.transitions, rule.For property previous ∧ ∃ target ∈ rule.targets, target.toJson = value := by
  simp only [allowed, List.mem_flatMap, List.mem_filter, List.mem_map, Bool.and_eq_true, beq_iff_eq]
  constructor
  · rintro ⟨rule, ⟨declared, named, source⟩, target⟩
    exact ⟨rule, declared, ⟨named, source⟩, target⟩
  · rintro ⟨rule, declared, ⟨named, source⟩, target⟩
    exact ⟨rule, ⟨declared, named, source⟩, target⟩

theorem Entity.allowed_any :
    (entity.allowed property previous).any (·.looselyEquals next) = true ↔
      ∃ rule ∈ entity.transitions, rule.For property previous ∧ rule.Lists next := by
  rw [List.any_eq_true]
  constructor
  · rintro ⟨value, allowed, equal⟩
    obtain ⟨rule, declared, bound, target, listed, rfl⟩ := mem_allowed.mp allowed
    exact ⟨rule, declared, bound, target, listed, equal⟩
  · rintro ⟨rule, declared, bound, target, listed, equal⟩
    exact ⟨_, mem_allowed.mpr ⟨rule, declared, bound, target, listed, rfl⟩, equal⟩

theorem Entity.allowed_isEmpty : (entity.allowed property previous).isEmpty = true ↔
    ∀ rule ∈ entity.transitions, rule.For property previous → rule.targets = [] := by
  rw [List.isEmpty_iff, List.eq_nil_iff_forall_not_mem]
  constructor
  · intro none rule declared bound
    rw [List.eq_nil_iff_forall_not_mem]
    exact fun target listed => none _ (mem_allowed.mpr ⟨rule, declared, bound, target, listed, rfl⟩)
  · intro bare value allowed
    obtain ⟨rule, declared, bound, target, listed, _⟩ := mem_allowed.mp allowed
    rw [bare rule declared bound] at listed
    cases listed

theorem Entity.letsGo_iff : entity.LetsGo property previous next ↔
    (entity.allowed property previous).isEmpty = true ∨
      (entity.allowed property previous).any (·.looselyEquals next) = true := by
  rw [allowed_isEmpty, allowed_any]
  exact Or.comm

-- An entity without its rules that list nothing.
def Entity.withoutEnds (entity : Entity) : Entity :=
  { entity with transitions := entity.transitions.filter fun rule => !rule.targets.isEmpty }

theorem Entity.allowed_withoutEnds :
    entity.withoutEnds.allowed property previous = entity.allowed property previous := by
  change List.flatMap _ (List.filter _ (entity.transitions.filter _)) = _
  unfold allowed
  induction entity.transitions with
  | nil => rfl
  | cons rule rest ih =>
      rw [List.filter_cons]
      cases targets : rule.targets with
      | nil =>
          rw [if_neg (by simp), ih, List.filter_cons]
          split
          · rw [List.flatMap_cons, targets]
            rfl
          · rfl
      | cons target others =>
          rw [if_pos (by simp), List.filter_cons, List.filter_cons]
          split
          · rw [List.flatMap_cons, List.flatMap_cons, ih]
          · exact ih

end Ir

namespace Write
variable {entity : Ir.Entity} {existing patch : Record}

theorem invalidTransition?_eq_none : invalidTransition? entity existing patch = none ↔
    ∀ pair ∈ patch, (Record.field existing pair.1).looselyEquals pair.2 = false →
      entity.LetsGo pair.1 (Record.field existing pair.1) pair.2 := by
  unfold invalidTransition?
  rw [List.findSome?_eq_none_iff]
  refine forall₂_congr fun (property, next) _ => ?_
  rw [Ir.Entity.letsGo_iff, ← Bool.or_eq_true]
  dsimp only
  cases (Record.field existing property).looselyEquals next with
  | true => simp
  | false =>
      cases (entity.allowed property (Record.field existing property)).isEmpty ||
        (entity.allowed property (Record.field existing property)).any (·.looselyEquals next) <;> simp

-- What is refused is a move that no rule lists, where some rule lists another.
theorem invalidTransition?_eq_some {rejection : WriteRejection}
    (refused : invalidTransition? entity existing patch = some rejection) :
    ∃ pair ∈ patch, (Record.field existing pair.1).looselyEquals pair.2 = false ∧
      ¬ entity.LetsGo pair.1 (Record.field existing pair.1) pair.2 ∧
      rejection = .invalidTransition pair.1 (Record.field existing pair.1) pair.2
        (entity.allowed pair.1 (Record.field existing pair.1)) := by
  obtain ⟨pair, member, found⟩ := List.exists_of_findSome?_eq_some refused
  refine ⟨pair, member, ?_⟩
  rw [Ir.Entity.letsGo_iff, ← Bool.or_eq_true]
  cases moved : (Record.field existing pair.1).looselyEquals pair.2 with
  | true => simp [moved] at found
  | false =>
      simp only [moved, Bool.false_eq_true, if_false, Option.ite_none_left_eq_some, Option.some.injEq] at found
      exact ⟨rfl, found.1, found.2.symm⟩

theorem invalidTransition?_withoutEnds :
    invalidTransition? entity.withoutEnds existing patch = invalidTransition? entity existing patch := by
  unfold invalidTransition?
  simp only [Ir.Entity.allowed_withoutEnds]

end Write

-- A property has another value than before, and not just in another form.
structure Record.Moved (before after : Record) (property : String) : Prop where
  changed : Record.field after property ≠ Record.field before property
  apart : (Record.field before property).looselyEquals (Record.field after property) = false

namespace Engine
variable {engine : Engine} {name id : String} {patch record : Record} {violations : List ConstraintOutcome}
  {entity : Ir.Entity} {existing : Record} {s t : EngineState}

-- Rules that list nothing do not matter to any plan.
theorem planUpdate_withoutEnds :
    engine.planUpdate entity.withoutEnds existing patch = engine.planUpdate entity existing patch := by
  unfold planUpdate
  simp only [Write.invalidTransition?_withoutEnds]
  rfl

-- Whatever an update writes, each property that it moves goes from the stored value to one that the rules
-- for that value list, unless all of them list nothing.
theorem moves_listed (written : engine.update name id patch s = (.ok (.written record violations), t)) :
    ∃ entity store existing, engine.ir.entity? name = some entity ∧ Fields.get? s.stores name = some store ∧
      store.shelf.get? id = some existing ∧
      ∀ property, Record.Moved existing record property →
        entity.LetsGo property (Record.field existing property) (Record.field record property) := by
  obtain ⟨_, unwritten⟩ | ⟨_, _, same, updated⟩ := update_cases written
  · exact absurd rfl (unwritten record violations)
  cases same
  cases updated with
  | @intro entity store existing plan _ _ declared opened serving found admitted =>
      obtain ⟨_, _, impossible⟩ | ⟨_, _, _, same, _, free, _, _⟩ := planUpdate_cases admitted
      · cases impossible
      cases same
      refine ⟨entity, store, existing, declared, opened, found, fun property moved => ?_⟩
      rcases Record.field_patched existing plan property with planned | kept
      · exact Write.invalidTransition?_eq_none.mp free _ planned moved.apart
      · exact absurd kept moved.changed

-- A task that is open may be done.
theorem open_task_moved :
    let rule : Ir.Transition := ⟨"status", .string "open", [.string "done"]⟩
    let task : Ir.Entity := ⟨"Task", none, [], [], [], [], [], [], none, none, [rule]⟩
    let engine : Engine :=
      { ir := { version := "1.0", provenance := ⟨"", "", "", "", ""⟩, entities := [task] }
        around := ⟨fun _ => 0, fun _ => "fresh"⟩ }
    let before : Record := [("id", .string "t"), ("status", .string "open")]
    let after : Record := [("id", .string "t"), ("status", .string "done")]
    let state : EngineState := { stores := [("Task", { shelf := ⟨[("t", before)]⟩ })] }
    engine.update "Task" "t" [("status", .string "done")] state =
      (.ok (.written after []), state.insert "Task" { shelf := ⟨[("t", before)]⟩ } "t" after) ∧
    Record.Moved before after "status" ∧ task.LetsGo "status" (.string "open") (.string "done") := by
  intro rule task engine before after state
  have written : engine.update "Task" "t" [("status", .string "done")] state =
      (.ok (.written after []), state.insert "Task" { shelf := ⟨[("t", before)]⟩ } "t" after) := rfl
  have moved : Record.Moved before after "status" :=
    ⟨fun same => absurd (Json.string.inj same) (by decide), rfl⟩
  obtain ⟨entity, store, existing, declared, opened, found, listed⟩ := moves_listed written
  cases declared
  cases opened
  cases found
  exact ⟨written, moved, listed "status" moved⟩

end Engine
end Charter

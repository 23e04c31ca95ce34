import Charter.Engine
import Charter.Proofs.Step

/-!
Conditions that are tried one after the other. What each takes from the surroundings is gone for those
behind it, so every statement says where an evaluation begins and where it ends.
-/

namespace Charter.Engine
variable {α β : Type} {engine : Engine} {env : Environment} {condition : α → Ir.Expression} {item : α}
  {items before : List α} {start last : Usage}

-- From `start`, a condition has a value of this truth.
def Finds (engine : Engine) (env : Environment) (truth : Bool) (e : Ir.Expression) (start last : Usage) :
    Prop :=
  ∃ value, engine.evaluate env e start = (.ok value, last) ∧ value.isTruthy = truth

-- The conditions of a list of items hold, each evaluated where the one before it ended.
inductive AllHold (engine : Engine) (env : Environment) (condition : α → Ir.Expression) :
    List α → Usage → Usage → Prop where
  | nil {start : Usage} : AllHold engine env condition [] start start
  | cons {item : α} {rest : List α} {start middle last : Usage} :
      engine.Finds env true (condition item) start middle → AllHold engine env condition rest middle last →
      AllHold engine env condition (item :: rest) start last

-- The first item whose condition does not hold, and those before it.
def FirstFalsy (engine : Engine) (env : Environment) (condition : α → Ir.Expression)
    (items before : List α) (item : α) (start last : Usage) : Prop :=
  ∃ rest middle, items = before ++ item :: rest ∧ engine.AllHold env condition before start middle ∧
    engine.Finds env false (condition item) middle last

theorem holds_eq_ok {truth : Bool} {e : Ir.Expression} :
    engine.holds env e start = (.ok truth, last) ↔ engine.Finds env truth e start last := by
  constructor
  · intro held
    obtain ⟨value, _, evaluated, ended⟩ := Step.bind_eq_ok.mp held
    cases ended
    exact ⟨value, evaluated, rfl⟩
  · rintro ⟨value, evaluated, rfl⟩
    exact Step.bind_eq_ok.mpr ⟨value, last, evaluated, rfl⟩

theorem allHold_cons {rest : List α} : engine.AllHold env condition (item :: rest) start last ↔
    ∃ middle, engine.Finds env true (condition item) start middle ∧
      engine.AllHold env condition rest middle last := by
  constructor
  · intro held
    cases held with
    | cons first others => exact ⟨_, first, others⟩
  · rintro ⟨middle, first, others⟩
    exact .cons first others

theorem firstFalsy_cons {head : α} {rest : List α} :
    engine.FirstFalsy env condition (head :: rest) before item start last ↔
      (before = [] ∧ item = head ∧ engine.Finds env false (condition head) start last) ∨
      ∃ earlier middle, before = head :: earlier ∧ engine.Finds env true (condition head) start middle ∧
        engine.FirstFalsy env condition rest earlier item middle last := by
  constructor
  · rintro ⟨tail, middle, split, held, fell⟩
    cases held with
    | nil =>
        obtain ⟨rfl, rfl⟩ := List.cons.inj split
        exact .inl ⟨rfl, rfl, fell⟩
    | cons first others =>
        obtain ⟨rfl, rfl⟩ := List.cons.inj split
        exact .inr ⟨_, _, rfl, first, tail, _, rfl, others, fell⟩
  · rintro (⟨rfl, rfl, fell⟩ | ⟨earlier, middle, rfl, first, tail, reached, rfl, others, fell⟩)
    · exact ⟨rest, start, rfl, .nil, fell⟩
    · exact ⟨tail, reached, rfl, .cons first others, fell⟩

/-! A search for the first condition that does not hold goes on behind each that holds, and reports the
first other one. -/

section Search
variable (find : Nat → List α → Evaluation (Option β)) (report : Nat → α → Usage → β × Usage)
  (empty : ∀ place, find place [] = pure none)
  (step : ∀ place head rest, find place (head :: rest) = do
    if ← engine.holds env (condition head) then find (place + 1) rest
    else return some (← Step.total (report place head)))
include empty step

theorem search_eq_none (place : Nat) : find place items start = (.ok none, last) ↔
    engine.AllHold env condition items start last := by
  induction items generalizing place start with
  | nil =>
      rw [empty]
      constructor
      · intro ended; cases ended; exact .nil
      · intro held; cases held; rfl
  | cons head rest ih =>
      rw [step, Step.bind_eq_ok, allHold_cons]
      constructor
      · rintro ⟨truth, middle, held, went⟩
        cases truth with
        | true => exact ⟨middle, holds_eq_ok.mp held, (ih _).mp went⟩
        | false =>
            obtain ⟨_, _, _, ended⟩ := Step.bind_eq_ok.mp went
            cases ended
      · rintro ⟨middle, first, others⟩
        exact ⟨true, middle, holds_eq_ok.mpr first, (ih _).mpr others⟩

theorem search_eq_some (place : Nat) {found : β} : find place items start = (.ok (some found), last) ↔
    ∃ before item reached, engine.FirstFalsy env condition items before item start reached ∧
      report (place + before.length) item reached = (found, last) := by
  induction items generalizing place start with
  | nil =>
      rw [empty]
      constructor
      · intro ended; cases ended
      · rintro ⟨before, item, _, ⟨rest, _, split, _⟩, _⟩
        simp at split
  | cons head rest ih =>
      rw [step, Step.bind_eq_ok]
      constructor
      · rintro ⟨truth, middle, held, went⟩
        cases truth with
        | false =>
            obtain ⟨_, _, reported, ended⟩ := Step.bind_eq_ok.mp went
            cases ended
            cases reported
            exact ⟨[], head, middle, firstFalsy_cons.mpr (.inl ⟨rfl, rfl, holds_eq_ok.mp held⟩), rfl⟩
        | true =>
            obtain ⟨earlier, item, reached, fell, reported⟩ := (ih _).mp went
            refine ⟨head :: earlier, item, reached,
              firstFalsy_cons.mpr (.inr ⟨earlier, middle, rfl, holds_eq_ok.mp held, fell⟩), ?_⟩
            simpa only [List.length_cons, Nat.add_comm, Nat.add_left_comm] using reported
      · rintro ⟨before, item, reached, fell, reported⟩
        rcases firstFalsy_cons.mp fell with ⟨rfl, rfl, falsy⟩ | ⟨earlier, middle, rfl, first, others⟩
        · refine ⟨false, reached, holds_eq_ok.mpr falsy, Step.bind_eq_ok.mpr ⟨found, last, ?_, rfl⟩⟩
          have told : report place item reached = (found, last) := reported
          rw [Step.total_apply, told]
        · refine ⟨true, middle, holds_eq_ok.mpr first, (ih _).mpr ⟨earlier, item, reached, others, ?_⟩⟩
          simpa only [List.length_cons, Nat.add_comm, Nat.add_left_comm] using reported

end Search
end Charter.Engine

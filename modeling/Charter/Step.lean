/-!
Computations over a state that may fail. What such a computation did to the state before it failed
stays done: a failure carries the state too.
-/

namespace Charter

def Step (σ ε α : Type) := σ → Except ε α × σ

namespace Step
variable {σ ε α β : Type}

protected def pure (value : α) : Step σ ε α := fun state => (.ok value, state)

protected def bind (first : Step σ ε α) (next : α → Step σ ε β) : Step σ ε β := fun state =>
  match first state with
  | (.ok value, state) => next value state
  | (.error error, state) => (.error error, state)

instance : Monad (Step σ ε) where
  pure := Step.pure
  bind := Step.bind

theorem bind_pure (step : Step σ ε α) : Step.bind step Step.pure = step := by
  funext state
  unfold Step.bind Step.pure
  split <;> simp_all

theorem bind_assoc {γ : Type} (first : Step σ ε α) (next : α → Step σ ε β) (last : β → Step σ ε γ) :
    (first.bind next).bind last = first.bind fun value => (next value).bind last := by
  funext state
  simp only [Step.bind]
  cases first state with
  | mk result after => cases result <;> rfl

instance : LawfulMonad (Step σ ε) := .mk' _ bind_pure (fun _ _ => rfl) bind_assoc

def fail (error : ε) : Step σ ε α := fun state => (.error error, state)

-- A computation that cannot fail.
def total (run : σ → α × σ) : Step σ ε α := fun state =>
  match run state with
  | (value, state) => (.ok value, state)

-- Nothing where the computation fails.
def attempt (step : Step σ ε α) : Step σ ε (Option α) := fun state =>
  match step state with
  | (.ok value, state) => (.ok (some value), state)
  | (.error _, state) => (.ok none, state)

-- One result for each item, in their order. The first failure ends it.
def each (step : α → Step σ ε β) : List α → Step σ ε (List β)
  | [] => return []
  | item :: rest => do return (← step item) :: (← each step rest)

end Step
end Charter

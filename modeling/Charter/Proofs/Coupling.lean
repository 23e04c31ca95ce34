import Charter.Proofs.Step

/-!
Two runs side by side. They start from states that belong together, and go the same way: both end with values that
belong together or both in the same error, and in states that belong together again.
-/

namespace Charter.Step
variable {σ τ ε α β γ δ : Type} {I : σ → τ → Prop} {R : α → β → Prop} {S : γ → δ → Prop}

inductive Meets (I : σ → τ → Prop) (R : α → β → Prop) : Except ε α × σ → Except ε β × τ → Prop where
  | ok {a : α} {b : β} {s : σ} {t : τ} (related : R a b) (kept : I s t) : Meets I R (.ok a, s) (.ok b, t)
  | error {error : ε} {s : σ} {t : τ} (kept : I s t) : Meets I R (.error error, s) (.error error, t)

def Coupled (I : σ → τ → Prop) (R : α → β → Prop) (here : Step σ ε α) (there : Step τ ε β) : Prop :=
  ∀ s t, I s t → Meets I R (here s) (there t)

theorem Meets.kept {one : Except ε α × σ} {other : Except ε β × τ} (meets : Meets I R one other) : I one.2 other.2 := by
  cases meets with
  | ok _ kept | error kept => exact kept

namespace Coupled
variable {here : Step σ ε α} {there : Step τ ε β}

theorem pure {a : α} {b : β} (related : R a b) :
    Coupled I R (Pure.pure a : Step σ ε α) (Pure.pure b : Step τ ε β) := fun _ _ start => .ok related start

theorem fail (error : ε) : Coupled I R (Step.fail error : Step σ ε α) (Step.fail error : Step τ ε β) :=
  fun _ _ start => .error start

theorem total {run : σ → α × σ} {run' : τ → β × τ}
    (both : ∀ s t, I s t → R (run s).1 (run' t).1 ∧ I (run s).2 (run' t).2) :
    Coupled I R (Step.total run : Step σ ε α) (Step.total run' : Step τ ε β) :=
  fun s t start => .ok (both s t start).1 (both s t start).2

theorem bind {next : α → Step σ ε γ} {next' : β → Step τ ε δ} (first : Coupled I R here there)
    (behind : ∀ a b, R a b → Coupled I S (next a) (next' b)) : Coupled I S (here >>= next) (there >>= next') := by
  intro s t start
  have met := first s t start
  cases ran : here s with
  | mk result after =>
      cases ran' : there t with
      | mk result' after' =>
          rw [ran, ran'] at met
          cases met with
          | ok related kept =>
              rw [bind_of_ok ran, bind_of_ok ran']
              exact behind _ _ related _ _ kept
          | error kept =>
              rw [bind_of_error ran, bind_of_error ran']
              exact .error kept

-- What a value is wherever the first run comes from, it is here too.
theorem and {Q : α → Prop} (coupled : Coupled I R here there) (sure : ∀ s a s', here s = (.ok a, s') → Q a) :
    Coupled I (fun a b => R a b ∧ Q a) here there := by
  intro s t start
  cases ran : here s with
  | mk result after =>
      match result, there t, ran ▸ coupled s t start with
      | _, _, .ok related kept => exact .ok ⟨related, sure s _ _ ran⟩ kept
      | _, _, .error kept => exact .error kept

theorem attempt (coupled : Coupled I R here there) :
    Coupled I (Option.Rel R) (Step.attempt here) (Step.attempt there) := by
  intro s t start
  unfold Step.attempt
  match here s, there t, coupled s t start with
  | _, _, .ok related kept => exact .ok (.some related) kept
  | _, _, .error kept => exact .ok .none kept

/-! Runs that do the same from values that are the same. -/

-- Runs that begin alike go on from one value.
theorem after {I : σ → σ → Prop} {first : Step σ ε α} {next : α → Step σ ε γ} {next' : α → Step σ ε δ}
    (same : Coupled I Eq first first) (behind : ∀ a, Coupled I S (next a) (next' a)) :
    Coupled I S (first >>= next) (first >>= next') := same.bind fun a _ same => same ▸ behind a

theorem each {I : σ → σ → Prop} {step : α → Step σ ε β} {items : List α}
    (one : ∀ item ∈ items, Coupled I Eq (step item) (step item)) :
    Coupled I Eq (Step.each step items) (Step.each step items) := by
  induction items with
  | nil => exact .pure rfl
  | cons item rest ih =>
      refine (one item List.mem_cons_self).after fun _ => ?_
      exact (ih fun other later => one other (List.mem_cons_of_mem _ later)).after fun _ => .pure rfl

end Coupled
end Charter.Step

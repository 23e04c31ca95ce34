import Charter.Step

/-!
Taking runs apart. A sequence failed in its first part, or its second part ran on from there.
-/

namespace Charter.Step
variable {σ ε α β : Type} {first : Step σ ε α} {next : α → Step σ ε β} {s t : σ}

@[simp] theorem pure_apply (value : α) (s : σ) : (pure value : Step σ ε α) s = (.ok value, s) := rfl

@[simp] theorem fail_apply (error : ε) (s : σ) : (fail error : Step σ ε α) s = (.error error, s) := rfl

@[simp] theorem total_apply (run : σ → α × σ) (s : σ) :
    (total run : Step σ ε α) s = (.ok (run s).1, (run s).2) := rfl

theorem bind_of_ok {value : α} (ran : first s = (.ok value, t)) : (first >>= next) s = next value t := by
  change Step.bind first next s = _
  simp only [Step.bind, ran]

theorem bind_of_error {error : ε} (failed : first s = (.error error, t)) :
    (first >>= next) s = (.error error, t) := by
  change Step.bind first next s = _
  simp only [Step.bind, failed]

theorem bind_cases {result : Except ε β} (ran : (first >>= next) s = (result, t)) :
    (∃ error, first s = (.error error, t) ∧ result = .error error) ∨
      ∃ value middle, first s = (.ok value, middle) ∧ next value middle = (result, t) := by
  cases outcome : first s with
  | mk answer middle =>
      cases answer with
      | error error =>
          rw [bind_of_error outcome] at ran
          obtain ⟨rfl, rfl⟩ := Prod.mk.inj ran
          exact .inl ⟨error, rfl, rfl⟩
      | ok value =>
          rw [bind_of_ok outcome] at ran
          exact .inr ⟨value, middle, rfl, ran⟩

theorem bind_eq_ok {value : β} : (first >>= next) s = (.ok value, t) ↔
    ∃ one middle, first s = (.ok one, middle) ∧ next one middle = (.ok value, t) := by
  constructor
  · intro ran
    obtain ⟨error, _, impossible⟩ | found := bind_cases ran
    · cases impossible
    · exact found
  · rintro ⟨one, middle, ran, went⟩
    rw [bind_of_ok ran, went]

theorem attempt_eq_ok (step : Step σ ε α) (s : σ) : ∃ found t, attempt step s = (.ok found, t) := by
  unfold attempt
  cases step s with
  | mk result t => cases result <;> exact ⟨_, t, rfl⟩

theorem each_congr {step other : α → Step σ ε β} {items : List α} (same : ∀ item ∈ items, step item = other item) :
    each step items = each other items := by
  induction items with
  | nil => rfl
  | cons head rest ih =>
      simp only [each, same head List.mem_cons_self, ih fun item later => same item (List.mem_cons_of_mem _ later)]

-- Each item had a result of its own, from some state on the way.
theorem each_result {step : α → Step σ ε β} {items : List α} {results : List β}
    (ran : each step items s = (.ok results, t)) {item : α} (present : item ∈ items) :
    ∃ before result after, step item before = (.ok result, after) ∧ result ∈ results := by
  induction items generalizing s results with
  | nil => cases present
  | cons head rest ih =>
      obtain ⟨result, middle, one, others⟩ := bind_eq_ok.mp ran
      obtain ⟨results, last, went, collected⟩ := bind_eq_ok.mp others
      cases collected
      rcases List.mem_cons.mp present with rfl | later
      · exact ⟨s, result, middle, one, List.mem_cons_self⟩
      · obtain ⟨before, found, after, run, member⟩ := ih went later
        exact ⟨before, found, after, run, List.mem_cons_of_mem _ member⟩

-- Where each item has a result of some kind from any state, all of them have one.
theorem each_of_good {P : β → Prop} {step : α → Step σ ε β} {items : List α}
    (good : ∀ item ∈ items, ∀ before, ∃ result after, step item before = (.ok result, after) ∧ P result) (s : σ) :
    ∃ results t, each step items s = (.ok results, t) ∧ ∀ result ∈ results, P result := by
  induction items generalizing s with
  | nil => exact ⟨[], s, rfl, nofun⟩
  | cons head rest ih =>
      obtain ⟨first, middle, one, kind⟩ := good head List.mem_cons_self s
      obtain ⟨others, last, went, kinds⟩ := ih (fun item later => good item (List.mem_cons_of_mem _ later)) middle
      refine ⟨first :: others, last, bind_eq_ok.mpr ⟨first, middle, one, bind_eq_ok.mpr ⟨others, last, went, rfl⟩⟩, ?_⟩
      exact List.forall_mem_cons.mpr ⟨kind, kinds⟩

end Charter.Step

import Mathlib.Logic.Relation

/-!
Runs of a transition function, the invariant rules that go with them, and the laws of
computations that may fail.
-/

namespace Runs

variable {State Input : Type}

def run (step : State → Input → State) : State → List Input → State
  | state, [] => state
  | state, input :: rest => run step (step state input) rest

@[simp] theorem run_nil (step : State → Input → State) (state : State) :
    run step state [] = state := rfl

@[simp] theorem run_cons (step : State → Input → State) (state : State) (input : Input)
    (rest : List Input) : run step state (input :: rest) = run step (step state input) rest := rfl

theorem run_append (step : State → Input → State) (state : State) (left right : List Input) :
    run step state (left ++ right) = run step (run step state left) right := by
  induction left generalizing state with
  | nil => rfl
  | cons input rest ih => exact ih (step state input)

def Guarded (step : State → Input → State) (guard : State → Input → Prop) :
    State → List Input → Prop
  | _, [] => True
  | state, input :: rest => guard state input ∧ Guarded step guard (step state input) rest

instance {step : State → Input → State} {guard : State → Input → Prop}
    [∀ state input, Decidable (guard state input)] :
    (state : State) → (inputs : List Input) → Decidable (Guarded step guard state inputs)
  | _, [] => isTrue trivial
  | state, input :: rest =>
      have : Decidable (Guarded step guard (step state input) rest) :=
        instDecidableGuarded (step state input) rest
      inferInstanceAs (Decidable (guard state input ∧ Guarded step guard (step state input) rest))

theorem run_invariant {step : State → Input → State} (invariant : State → Prop)
    (preserved : ∀ state input, invariant state → invariant (step state input)) :
    ∀ inputs state, invariant state → invariant (run step state inputs) := by
  intro inputs
  induction inputs with
  | nil => intro state holds; exact holds
  | cons input rest ih => intro state holds; exact ih _ (preserved state input holds)

theorem guarded_invariant {step : State → Input → State} {guard : State → Input → Prop}
    (invariant : State → Prop)
    (preserved : ∀ state input, invariant state → guard state input →
      invariant (step state input)) :
    ∀ inputs state, invariant state → Guarded step guard state inputs →
      invariant (run step state inputs) := by
  intro inputs
  induction inputs with
  | nil => intro state holds _; exact holds
  | cons input rest ih =>
      intro state holds guarded
      exact ih _ (preserved state input holds guarded.1) guarded.2

theorem guarded_append {step : State → Input → State} {guard : State → Input → Prop}
    (state : State) (left right : List Input) :
    Guarded step guard state (left ++ right) ↔
      Guarded step guard state left ∧ Guarded step guard (run step state left) right := by
  induction left generalizing state with
  | nil => simp [Guarded]
  | cons input rest ih => simp [Guarded, ih, and_assoc]

theorem not_guarded {step : State → Input → State} {guard : State → Input → Prop} :
    ∀ (inputs : List Input) (state : State), ¬ Guarded step guard state inputs →
      ∃ done input rest, inputs = done ++ input :: rest ∧ ¬ guard (run step state done) input := by
  intro inputs
  induction inputs with
  | nil => intro state broken; exact absurd trivial broken
  | cons input rest ih =>
      intro state broken
      by_cases met : guard state input
      · obtain ⟨done, other, later, rfl, breaks⟩ := ih _ fun guarded => broken ⟨met, guarded⟩
        exact ⟨input :: done, other, later, rfl, breaks⟩
      · exact ⟨[], input, rest, rfl, met⟩

/-- Guards that agree wherever a run can get to guard the same runs. -/
theorem guarded_iff {step : State → Input → State} {guard other : State → Input → Prop}
    (invariant : State → Prop)
    (preserved : ∀ state input, invariant state → invariant (step state input))
    (same : ∀ state input, invariant state → (guard state input ↔ other state input)) :
    ∀ inputs state, invariant state →
      (Guarded step guard state inputs ↔ Guarded step other state inputs) := by
  intro inputs
  induction inputs with
  | nil => intro state _; exact Iff.rfl
  | cons input rest ih =>
      intro state holds
      exact and_congr (same state input holds) (ih _ (preserved state input holds))

/-- A relation between the state and whether the run so far has met its guard. -/
theorem guarded_tracked {step : State → Input → State} {guard : State → Input → Prop}
    (tracked : State → Prop → Prop)
    (preserved : ∀ state input met, tracked state met →
      tracked (step state input) (met ∧ guard state input)) :
    ∀ inputs state met, tracked state met →
      tracked (run step state inputs) (met ∧ Guarded step guard state inputs) := by
  intro inputs
  induction inputs with
  | nil => intro state met holds; simpa [Guarded] using holds
  | cons input rest ih =>
      intro state met holds
      simpa only [run_cons, Guarded, and_assoc] using ih _ _ (preserved state input met holds)

/-- Where a guard says exactly which step stays safe, it says which runs do. -/
theorem guarded_iff_safe {step : State → Input → State} {guard : State → Input → Prop}
    (invariant safe : State → Prop)
    (preserved : ∀ state input, invariant state → invariant (step state input))
    (exact_ : ∀ state input, invariant state → safe state →
      (guard state input ↔ safe (step state input))) :
    ∀ inputs state, invariant state → safe state →
      ((∀ done, done <+: inputs → safe (run step state done)) ↔ Guarded step guard state inputs) := by
  intro inputs
  induction inputs with
  | nil =>
      intro state _ safely
      refine iff_of_true ?_ trivial
      intro done before
      rw [List.prefix_nil.mp before]
      exact safely
  | cons input rest ih =>
      intro state holds safely
      constructor
      · intro always
        have next : safe (step state input) := always [input] (by simp)
        refine ⟨(exact_ state input holds safely).mpr next, ?_⟩
        refine (ih _ (preserved state input holds) next).mp ?_
        intro done before
        exact always (input :: done) (List.cons_prefix_cons.mpr ⟨rfl, before⟩)
      · rintro ⟨met, guarded⟩ done before
        have next := (exact_ state input holds safely).mp met
        rcases List.prefix_cons_iff.mp before with rfl | ⟨tail, rfl, shorter⟩
        · exact safely
        · exact (ih _ (preserved state input holds) next).mpr guarded tail shorter

/-! Sequencing of computations that may fail. -/

variable {Failure Value Result : Type}

theorem bind_eq_ok {first : Except Failure Value} {next : Value → Except Failure Result}
    {result : Result} :
    (first >>= next) = .ok result ↔ ∃ value, first = .ok value ∧ next value = .ok result := by
  cases first with
  | error failure => simp [bind, Except.bind]
  | ok value => simp [bind, Except.bind]

theorem bind_eq_error {first : Except Failure Value} {next : Value → Except Failure Result}
    {failure : Failure} :
    (first >>= next) = .error failure ↔
      first = .error failure ∨ ∃ value, first = .ok value ∧ next value = .error failure := by
  cases first with
  | error other => simp [bind, Except.bind]
  | ok value => simp [bind, Except.bind]

theorem foldlM_eq_error {Item : Type} {turn : Value → Item → Except Failure Value}
    {failure : Failure} : ∀ {items : List Item} {value : Value},
      items.foldlM turn value = .error failure ↔ ∃ before item after current,
        items = before ++ item :: after ∧ before.foldlM turn value = .ok current ∧
          turn current item = .error failure := by
  intro items
  induction items with
  | nil => simp [pure, Except.pure]
  | cons first rest ih =>
      intro value
      rw [List.foldlM_cons, bind_eq_error]
      constructor
      · rintro (fails | ⟨next, turned, fails⟩)
        · exact ⟨[], first, rest, value, rfl, rfl, fails⟩
        · obtain ⟨before, item, after, current, rfl, ran, fails⟩ := ih.mp fails
          refine ⟨first :: before, item, after, current, rfl, ?_, fails⟩
          rw [List.foldlM_cons]
          exact bind_eq_ok.mpr ⟨next, turned, ran⟩
      · rintro ⟨before, item, after, current, split, ran, fails⟩
        cases before with
        | nil =>
            cases split
            cases ran
            exact .inl fails
        | cons other before =>
            cases split
            rw [List.foldlM_cons] at ran
            obtain ⟨next, turned, ran⟩ := bind_eq_ok.mp ran
            exact .inr ⟨next, turned, ih.mpr ⟨before, item, after, current, rfl, ran, fails⟩⟩

end Runs

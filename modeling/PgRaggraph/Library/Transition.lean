import Mathlib.Data.Option.Basic

/-! Runs of a system whose steps are chosen by labels. -/

namespace Transition

variable {σ α : Type}

def run (step : σ → α → Option σ) : σ → List α → Option σ
  | state, [] => some state
  | state, action :: rest => (step state action).bind (fun after => run step after rest)

def Meets (step : σ → α → Option σ) (condition : σ → α → Prop) : σ → List α → Prop
  | _, [] => True
  | state, action :: rest =>
      condition state action ∧ ∀ after, step state action = some after → Meets step condition after rest

instance decidableMeets (step : σ → α → Option σ) (condition : σ → α → Prop)
    [∀ state action, Decidable (condition state action)] :
    (state : σ) → (actions : List α) → Decidable (Meets step condition state actions)
  | _, [] => isTrue trivial
  | state, action :: rest =>
      have : Decidable (∀ after, step state action = some after →
          Meets step condition after rest) :=
        match step state action with
        | none => isTrue nofun
        | some after =>
            match decidableMeets step condition after rest with
            | isTrue met => isTrue (fun _ same => Option.some.inj same ▸ met)
            | isFalse unmet => isFalse (fun met => unmet (met after rfl))
      inferInstanceAs (Decidable (_ ∧ _))

theorem run_cons {step : σ → α → Option σ} {state last : σ} {action : α} {rest : List α}
    (finished : run step state (action :: rest) = some last) :
    ∃ after, step state action = some after ∧ run step after rest = some last :=
  Option.bind_eq_some_iff.mp finished

theorem meets_always (step : σ → α → Option σ) {condition : σ → α → Prop}
    (always : ∀ state action, condition state action) (state : σ) (actions : List α) :
    Meets step condition state actions := by
  induction actions generalizing state with
  | nil => trivial
  | cons action rest ih => exact ⟨always state action, fun after _ => ih after⟩

theorem meets_append {step : σ → α → Option σ} {condition : σ → α → Prop} {state middle : σ}
    {front back : List α} (met : Meets step condition state (front ++ back))
    (reached : run step state front = some middle) : Meets step condition middle back := by
  induction front generalizing state with
  | nil =>
      cases Option.some.inj reached
      exact met
  | cons action rest ih =>
      obtain ⟨after, stepped, remaining⟩ := run_cons reached
      exact ih (met.2 after stepped) remaining

theorem run_invariant {step : σ → α → Option σ} {condition : σ → α → Prop} {invariant : σ → Prop}
    (preserved : ∀ state action after, invariant state → condition state action →
      step state action = some after → invariant after)
    {state last : σ} {actions : List α} (holds : invariant state)
    (met : Meets step condition state actions) (finished : run step state actions = some last) :
    invariant last := by
  induction actions generalizing state with
  | nil =>
      cases Option.some.inj finished
      exact holds
  | cons action rest ih =>
      obtain ⟨after, stepped, remaining⟩ := run_cons finished
      exact ih (preserved state action after holds met.1 stepped) (met.2 after stepped) remaining

/-- Where a condition keeps the invariant, and under the invariant says the same as a property of
the step, the two hold of the same runs. -/
theorem meets_congr {step : σ → α → Option σ} {condition property : σ → α → Prop}
    {invariant : σ → Prop}
    (preserved : ∀ state action after, invariant state → condition state action →
      step state action = some after → invariant after)
    (agree : ∀ state action, invariant state → (condition state action ↔ property state action))
    {state : σ} (holds : invariant state) (actions : List α) :
    Meets step condition state actions ↔ Meets step property state actions := by
  induction actions generalizing state with
  | nil => rfl
  | cons action rest ih =>
      constructor
      · intro met
        refine ⟨(agree state action holds).mp met.1, fun after stepped => ?_⟩
        exact (ih (preserved state action after holds met.1 stepped)).mp (met.2 after stepped)
      · intro met
        have first := (agree state action holds).mpr met.1
        refine ⟨first, fun after stepped => ?_⟩
        exact (ih (preserved state action after holds first stepped)).mpr (met.2 after stepped)

end Transition

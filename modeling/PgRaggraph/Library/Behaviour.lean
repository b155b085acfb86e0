import PgRaggraph.Library.Transition

/-! Runs without an end, and measures that fall along them. -/

namespace Transition

variable {σ α : Type} {step : σ → α → Option σ}

structure Behaviour (step : σ → α → Option σ) where
  state : Nat → σ
  action : Nat → α
  steps : ∀ n, step (state n) (action n) = some (state (n + 1))

def Often (event : Nat → Prop) : Prop := ∀ n, ∃ m, n ≤ m ∧ event m

theorem Behaviour.always (b : Behaviour step) {invariant : σ → Prop}
    (preserved : ∀ state action after, invariant state → step state action = some after →
      invariant after)
    {start : Nat} (holds : invariant (b.state start)) {n : Nat} (later : start ≤ n) :
    invariant (b.state n) := by
  induction later with
  | refl => exact holds
  | step _ ih => exact preserved _ _ _ ih (b.steps _)

section Measure

variable {f : Nat → Nat} {start : Nat}

theorem shrinks_from (shrinks : ∀ n, start ≤ n → f (n + 1) ≤ f n) {m n : Nat} (begun : start ≤ m)
    (later : m ≤ n) : f n ≤ f m := by
  induction later with
  | refl => exact Nat.le_refl _
  | step reached ih => exact Nat.le_trans (shrinks _ (Nat.le_trans begun reached)) ih

theorem stops_falling (shrinks : ∀ n, start ≤ n → f (n + 1) ≤ f n) :
    ∃ n, start ≤ n ∧ ∀ m, n ≤ m → f (m + 1) = f m := by
  generalize size : f start = k
  induction k using Nat.strongRecOn generalizing start with
  | ind k ih =>
      by_cases falls : ∃ n, start ≤ n ∧ f (n + 1) < f n
      · rcases falls with ⟨n, begun, lower⟩
        have below : f (n + 1) < k := by
          have bound := shrinks_from shrinks (Nat.le_refl start) begun
          omega
        rcases ih _ below (fun m later => shrinks m (by omega)) rfl with ⟨last, later, settled⟩
        exact ⟨last, by omega, settled⟩
      · refine ⟨start, Nat.le_refl _, fun m later => ?_⟩
        have level : ¬ f (m + 1) < f m := fun lower => falls ⟨m, later, lower⟩
        have bound := shrinks m later
        omega

/-- A measure that never grows and falls as long as it is positive reaches zero. -/
theorem reaches_zero (shrinks : ∀ n, start ≤ n → f (n + 1) ≤ f n)
    (falls : ∀ n, start ≤ n → 0 < f n → ∃ m, n ≤ m ∧ f (m + 1) < f m) :
    ∃ n, start ≤ n ∧ ∀ m, n ≤ m → f m = 0 := by
  rcases stops_falling shrinks with ⟨n, begun, settled⟩
  have zero : f n = 0 := by
    by_contra positive
    rcases falls n begun (Nat.pos_of_ne_zero positive) with ⟨m, later, lower⟩
    have level := settled m later
    omega
  refine ⟨n, begun, fun m later => ?_⟩
  have bound := shrinks_from shrinks begun later
  omega

end Measure

end Transition

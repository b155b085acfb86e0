import Mathlib.Algebra.BigOperators.Group.List.Basic
import Mathlib.Algebra.Order.BigOperators.Group.List
import Mathlib.Analysis.Real.Sqrt
import PgRaggraph.Core.Resolve
import PgRaggraph.Core.Trigrams

/-! Trigram and cosine similarity in exact arithmetic. -/

namespace PgRaggraph

open Shingles

/-- Real numbers in the place of `f32`: no result is rounded. -/
noncomputable instance : F32 ℝ where
  zero := 0
  natCast n := n
  add a b := a + b
  mul a b := a * b
  div a b := a / b
  sqrt := Real.sqrt
  lt a b := decide (a < b)
  le a b := decide (a ≤ b)
  eq a b := decide (a = b)

theorem real_lt (a b : ℝ) : F32.lt a b = decide (a < b) := rfl

theorem real_le (a b : ℝ) : F32.le a b = decide (a ≤ b) := rfl

section Trigrams

variable (rt : Runtime)

theorem trgmSim_eq (a b : String) : trgmSim (R := ℝ) rt a b =
    (similarity (trigramSet rt a) (trigramSet rt b) : ℝ) := by
  have divisor : ((trigramSet rt a ∪ trigramSet rt b).card : ℝ) ≠ 0 := by
    exact_mod_cast (Finset.card_pos.mpr (union_nonempty rt a b)).ne'
  calc trgmSim (R := ℝ) rt a b
    _ = ((trigramSet rt a ∩ trigramSet rt b).card : ℝ) /
          ((trigramSet rt a ∪ trigramSet rt b).card : ℝ) :=
        if_neg (fun zero => divisor (of_decide_eq_true zero))
    _ = (similarity (trigramSet rt a) (trigramSet rt b) : ℝ) := by
        rw [similarity, Rat.cast_div, Rat.cast_natCast, Rat.cast_natCast]

theorem trgmSim_comm (a b : String) : trgmSim (R := ℝ) rt a b = trgmSim rt b a := by
  rw [trgmSim_eq, trgmSim_eq, similarity_comm]

theorem trgmSim_same {a b : String} (same : trigramSet rt a = trigramSet rt b) :
    trgmSim (R := ℝ) rt a b = 1 := by
  rw [trgmSim_eq, same, similarity_self (trigramSet_nonempty rt b), Rat.cast_one]

end Trigrams

section Cosine

def dot (a b : List ℝ) : ℝ := (a.zipWith (· * ·) b).sum

theorem dot_self (a : List ℝ) : dot a a = (a.map (fun x => x * x)).sum := by
  rw [dot, List.zipWith_self]

theorem dot_self_pos {a : List ℝ} (nonzero : ∃ x ∈ a, x ≠ 0) : 0 < dot a a := by
  rcases nonzero with ⟨x, member, nonzero⟩
  have part : x * x ≤ (a.map (fun x => x * x)).sum := by
    apply List.single_le_sum
    · intro square squared
      rcases List.mem_map.mp squared with ⟨y, -, rfl⟩
      exact mul_self_nonneg y
    · exact List.mem_map.mpr ⟨x, member, rfl⟩
  rw [dot_self]
  exact (mul_self_pos.mpr nonzero).trans_le part

theorem sum_eq (xs : List ℝ) : sum xs = xs.sum := List.sum_eq_foldl.symm

theorem cosine_eq {a b : List ℝ} (lengths : a.length = b.length) (left : 0 < dot a a)
    (right : 0 < dot b b) : cosine a b = dot a b / (√(dot a a) * √(dot b b)) := by
  have filled : a ≠ [] := by
    intro empty
    simp [empty, dot] at left
  have norm : F32.sqrt (sum (a.map (fun x => x * x))) = √(dot a a) := by
    rw [dot_self, ← sum_eq]
    rfl
  have norm' : F32.sqrt (sum (b.map (fun x => x * x))) = √(dot b b) := by
    rw [dot_self, ← sum_eq]
    rfl
  have somewhere : ¬ (F32.eq √(dot a a) 0 || F32.eq √(dot b b) 0) = true := by
    intro zero
    rcases Bool.or_eq_true_iff.mp zero with first | second
    · exact (Real.sqrt_pos.mpr left).ne' (of_decide_eq_true first)
    · exact (Real.sqrt_pos.mpr right).ne' (of_decide_eq_true second)
  rw [cosine, if_neg (by simp [lengths, filled])]
  simp only [norm, norm', if_neg somewhere]
  exact congrArg (· / _) (sum_eq _)

theorem cosine_self {a : List ℝ} (nonzero : ∃ x ∈ a, x ≠ 0) : cosine a a = 1 := by
  have length := dot_self_pos nonzero
  rw [cosine_eq rfl length length, Real.mul_self_sqrt length.le, div_self length.ne']

theorem cosine_orthogonal {a b : List ℝ} (orthogonal : dot a b = 0) : cosine a b = 0 := by
  have product : sum (a.zipWith (· * ·) b) = 0 := (sum_eq _).trans orthogonal
  rw [cosine]
  split
  · rfl
  · dsimp only
    split
    · rfl
    · exact (congrArg (· / _) product).trans (zero_div _)

theorem cosineMerge_eq : (cosineMerge : ℝ) = 9 / 10 := by
  have decimal : (cosineMerge : ℝ) = 90 / 100 := rfl
  rw [decimal]
  norm_num

theorem trgmMerge_eq : (trgmMerge : ℝ) = 17 / 20 := by
  have decimal : (trgmMerge : ℝ) = 85 / 100 := rfl
  rw [decimal]
  norm_num

theorem cosineMerge_le_iff {a b : List ℝ} (lengths : a.length = b.length) (left : 0 < dot a a)
    (right : 0 < dot b b) (acute : 0 ≤ dot a b) : cosineMerge ≤ cosine a b ↔
      81 * (dot a a * dot b b) ≤ 100 * (dot a b * dot a b) := by
  have product : 0 < √(dot a a * dot b b) := Real.sqrt_pos.mpr (mul_pos left right)
  rw [cosine_eq lengths left right, cosineMerge_eq, ← Real.sqrt_mul left.le, le_div_iff₀ product,
    mul_self_le_mul_self_iff (by positivity) acute, mul_mul_mul_comm,
    Real.mul_self_sqrt (mul_pos left right).le]
  constructor
  · intro close
    linarith
  · intro close
    linarith

theorem dot_div (a b : List ℝ) (c d : ℝ) :
    dot (a.map (· / c)) (b.map (· / d)) = dot a b / (c * d) := by
  induction a generalizing b with
  | nil => simp [dot]
  | cons x a ih =>
      cases b with
      | nil => simp [dot]
      | cons y b =>
          have rest := ih b
          simp only [dot, List.map_cons, List.zipWith_cons_cons, List.sum_cons] at rest ⊢
          rw [rest, add_div, div_mul_div_comm]

theorem cosine_scaled {a b : List ℝ} (lengths : a.length = b.length) (left : 0 < dot a a)
    (right : 0 < dot b b) :
    cosine (a.map (· / √(dot a a))) (b.map (· / √(dot b b))) = cosine a b := by
  have unit : ∀ {v : List ℝ}, 0 < dot v v →
      dot (v.map (· / √(dot v v))) (v.map (· / √(dot v v))) = 1 := by
    intro v length
    rw [dot_div, Real.mul_self_sqrt length.le, div_self length.ne']
  have one : (0 : ℝ) < 1 := one_pos
  rw [cosine_eq (by simpa using lengths) (by rwa [unit left]) (by rwa [unit right]), unit left,
    unit right, cosine_eq lengths left right, dot_div, Real.sqrt_one, mul_one, div_one]

def natDot (a b : List ℕ) : ℕ := (a.zipWith (· * ·) b).sum

theorem dot_cast (a b : List ℕ) :
    dot (a.map (fun n : ℕ => (n : ℝ))) (b.map (fun n : ℕ => (n : ℝ))) = (natDot a b : ℝ) := by
  induction a generalizing b with
  | nil => simp [dot, natDot]
  | cons x a ih =>
      cases b with
      | nil => simp [dot, natDot]
      | cons y b =>
          have rest := ih b
          simp only [dot, natDot, List.map_cons, List.zipWith_cons_cons, List.sum_cons] at rest ⊢
          rw [rest, Nat.cast_add, Nat.cast_mul]

end Cosine

end PgRaggraph

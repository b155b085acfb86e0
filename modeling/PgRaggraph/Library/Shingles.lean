import Mathlib.Algebra.Order.Field.Rat
import Mathlib.Data.Finset.Card
import Mathlib.Data.List.Infix
import Mathlib.Tactic.NormNum
import Mathlib.Tactic.Positivity

/-! The runs of one length in a list, and the Jaccard similarity of finite sets. -/

namespace Shingles

variable {α : Type}

section Windows

/-- The contiguous runs of `n` elements, from left to right. -/
def windows (n : Nat) : List α → List (List α)
  | [] => []
  | a :: l => if n ≤ l.length + 1 then (a :: l).take n :: windows n l else []

variable {n : Nat} {a : α} {l w : List α}

theorem windows_cons (fits : n ≤ l.length + 1) :
    windows n (a :: l) = (a :: l).take n :: windows n l := if_pos fits

theorem windows_short (short : l.length < n) : windows n l = [] := by
  cases l with
  | nil => rfl
  | cons a l => exact if_neg (by simpa using short)

theorem prefix_iff_take (fits : n ≤ l.length) : w.length = n ∧ w <+: l ↔ w = l.take n := by
  constructor
  · rintro ⟨rfl, starts⟩
    exact List.prefix_iff_eq_take.mp starts
  · rintro rfl
    exact ⟨List.length_take_of_le fits, List.take_prefix n l⟩

theorem mem_windows (some_ : 0 < n) : w ∈ windows n l ↔ w.length = n ∧ w <:+: l := by
  induction l with
  | nil =>
      constructor
      · intro member
        cases member
      · rintro ⟨length, inside⟩
        have none_ := List.infix_nil.mp inside
        simp [none_] at length
        omega
  | cons a l ih =>
      by_cases fits : n ≤ l.length + 1
      · calc w ∈ windows n (a :: l)
          _ ↔ w = (a :: l).take n ∨ w ∈ windows n l := by
            rw [windows_cons fits, List.mem_cons]
          _ ↔ (w.length = n ∧ w <+: a :: l) ∨ (w.length = n ∧ w <:+: l) := by
            rw [prefix_iff_take (by simpa using fits), ih]
          _ ↔ w.length = n ∧ w <:+: a :: l := by
            rw [← and_or_left, ← List.infix_cons_iff]
      · have short : (a :: l).length < n := by simpa using fits
        rw [windows_short short]
        constructor
        · intro member
          cases member
        · rintro ⟨length, inside⟩
          have within := inside.length_le
          omega

end Windows

section Jaccard

variable [DecidableEq α]

def similarity (s t : Finset α) : ℚ := ((s ∩ t).card : ℚ) / ((s ∪ t).card : ℚ)

variable {s t : Finset α}

theorem similarity_comm (s t : Finset α) : similarity s t = similarity t s := by
  rw [similarity, similarity, Finset.inter_comm, Finset.union_comm]

theorem similarity_nonneg (s t : Finset α) : 0 ≤ similarity s t := by
  rw [similarity]
  positivity

theorem inter_card_le_union : (s ∩ t).card ≤ (s ∪ t).card :=
  Finset.card_le_card Finset.inter_subset_union

theorem similarity_le_one (s t : Finset α) : similarity s t ≤ 1 := by
  have fewer : ((s ∩ t).card : ℚ) ≤ ((s ∪ t).card : ℚ) := by exact_mod_cast inter_card_le_union
  exact div_le_one_of_le₀ fewer (by positivity)

theorem inter_card_eq_union_iff : (s ∩ t).card = (s ∪ t).card ↔ s = t := by
  constructor
  · intro many
    have same := Finset.eq_of_subset_of_card_le Finset.inter_subset_union many.ge
    exact inf_eq_sup.mp same
  · rintro rfl
    rw [Finset.inter_self, Finset.union_self]

theorem similarity_eq_one_iff (filled : (s ∪ t).Nonempty) : similarity s t = 1 ↔ s = t := by
  have divisor : ((s ∪ t).card : ℚ) ≠ 0 := by
    exact_mod_cast (Finset.card_pos.mpr filled).ne'
  rw [similarity, div_eq_one_iff_eq divisor, Nat.cast_inj, inter_card_eq_union_iff]

theorem similarity_self (filled : s.Nonempty) : similarity s s = 1 :=
  (similarity_eq_one_iff (by simpa using filled)).mpr rfl

end Jaccard

end Shingles

import Mathlib.Data.List.Sort
import Mathlib.Data.List.TakeWhile

/-! Rows in the order of a score that may tie.

A query that orders by the score alone returns some ranking of its rows. Its first `k` rows are the
same in every ranking exactly where no tie reaches into them. -/

namespace Ranking

variable {α κ : Type} [LinearOrder κ]

/-- The rows in some order of non-increasing score. -/
structure IsRanking (score : α → κ) (rows out : List α) : Prop where
  perm : out.Perm rows
  sorted : out.Pairwise (fun a b => score b ≤ score a)

def Settled (score : α → κ) (k : Nat) (rows : List α) : Prop :=
  ∀ a ∈ rows, ∀ b ∈ rows, a ≠ b → score a = score b → k ≤ rows.countP (fun c => score a < score c)

def rankBy (score : α → κ) (rows : List α) : List α :=
  rows.insertionSort (fun a b => score b ≤ score a)

variable {score : α → κ} {rows out out' : List α} {k : Nat}

theorem rankBy_ranks (score : α → κ) (rows : List α) : IsRanking score rows (rankBy score rows) where
  perm := List.perm_insertionSort _ rows
  sorted := by
    have total : Std.Total (fun a b : α => score b ≤ score a) :=
      ⟨fun a b => le_total (score b) (score a)⟩
    have trans : IsTrans α (fun a b => score b ≤ score a) :=
      ⟨fun a b c first second => second.trans first⟩
    exact List.pairwise_insertionSort _ rows

theorem scores_agree (ranks : IsRanking score rows out) (ranks' : IsRanking score rows out') :
    out.map score = out'.map score := by
  have perm : (out.map score).Perm (out'.map score) := (ranks.perm.trans ranks'.perm.symm).map score
  have sorted : (out.map score).Pairwise (fun a b => b ≤ a) := List.pairwise_map.mpr ranks.sorted
  have sorted' : (out'.map score).Pairwise (fun a b => b ≤ a) := List.pairwise_map.mpr ranks'.sorted
  apply perm.eq_of_pairwise _ sorted sorted'
  intro a b _ _ below above
  exact le_antisymm above below

theorem better_before (ranks : IsRanking score rows out) {i : Nat} (inside : i < out.length) :
    rows.countP (fun c => score out[i] < score c) ≤ i := by
  rw [← ranks.perm.countP_eq]
  have later : (out.drop i).countP (fun c => score out[i] < score c) = 0 := by
    apply List.countP_eq_zero.mpr
    have sorted := ranks.sorted.drop (i := i)
    rw [List.drop_eq_getElem_cons inside] at sorted ⊢
    intro c member
    rcases List.mem_cons.mp member with rfl | after
    · simp
    · have below := (List.pairwise_cons.mp sorted).1 c after
      simpa using below
  calc
    out.countP (fun c => score out[i] < score c) =
        (out.take i ++ out.drop i).countP (fun c => score out[i] < score c) := by
      rw [List.take_append_drop]
    _ = (out.take i).countP (fun c => score out[i] < score c) := by
      rw [List.countP_append, later, Nat.add_zero]
    _ ≤ (out.take i).length := List.countP_le_length
    _ ≤ i := List.length_take_le i out

theorem take_agrees (settled : Settled score k rows) (ranks : IsRanking score rows out)
    (ranks' : IsRanking score rows out') : out.take k = out'.take k := by
  have lengths : out.length = out'.length := ranks.perm.length_eq.trans ranks'.perm.length_eq.symm
  have scores := scores_agree ranks ranks'
  apply List.ext_getElem
  · rw [List.length_take, List.length_take, lengths]
  intro i inside inside'
  rw [List.getElem_take, List.getElem_take]
  rw [List.length_take] at inside inside'
  have here : i < out.length := by omega
  have there : i < out'.length := by omega
  by_contra different
  have tie : score out[i] = score out'[i] := by
    have position : (out.map score)[i]? = (out'.map score)[i]? := by rw [scores]
    simpa [here, there] using position
  have reached := settled out[i] (ranks.perm.mem_iff.mp (List.getElem_mem here)) out'[i]
    (ranks'.perm.mem_iff.mp (List.getElem_mem there)) different tie
  have before := better_before ranks here
  omega

theorem exists_first (score : α → κ) {x : α} (member : x ∈ rows) :
    ∃ front back, IsRanking score rows (front ++ x :: back) ∧ ∀ y ∈ front, score x < score y := by
  obtain ⟨before, after, rfl⟩ := List.append_of_mem member
  have moved : (x :: (before ++ after)).Perm (before ++ x :: after) := List.perm_middle.symm
  have ranks := rankBy_ranks score (x :: (before ++ after))
  rw [rankBy, List.insertionSort_cons_eq_take_drop] at ranks
  refine ⟨_, _, ⟨ranks.perm.trans moved, ranks.sorted⟩, ?_⟩
  intro y earlier
  have first := List.mem_takeWhile_imp earlier
  simpa using first

theorem front_short {x : α} {front back : List α}
    (ranks : IsRanking score rows (front ++ x :: back)) (better : ∀ y ∈ front, score x < score y) :
    front.length ≤ rows.countP (fun c => score x < score c) := by
  rw [← ranks.perm.countP_eq, List.countP_append]
  have all : front.countP (fun c => score x < score c) = front.length := by
    apply List.countP_eq_length.mpr
    intro y member
    simpa using better y member
  omega

/-- The first `k` rows are the same in every ranking exactly where no tie reaches into them. -/
theorem take_determined (score : α → κ) (rows : List α) (k : Nat) :
    (∀ out out', IsRanking score rows out → IsRanking score rows out' → out.take k = out'.take k) ↔
      Settled score k rows := by
  constructor
  · intro same a member b member' different tie
    by_contra contested
    obtain ⟨front, back, ranks, better⟩ := exists_first score member
    obtain ⟨front', back', ranks', better'⟩ := exists_first score member'
    have short := front_short ranks better
    have short' := front_short ranks' better'
    rw [← tie] at short'
    have agree : ∀ i < k, (front ++ a :: back)[i]? = (front' ++ b :: back')[i]? := by
      intro i inside
      have position := congrArg (fun l : List α => l[i]?) (same _ _ ranks ranks')
      simpa [List.getElem?_take, inside] using position
    rcases Nat.lt_trichotomy front.length front'.length with less | equal | more
    · have position := agree front.length (by omega)
      rw [List.getElem?_append_right (Nat.le_refl _), Nat.sub_self, List.getElem?_append_left less]
        at position
      have ahead := better' a (List.mem_of_getElem? position.symm)
      exact absurd tie (ne_of_gt ahead)
    · have position := agree front.length (by omega)
      rw [List.getElem?_append_right (Nat.le_refl _), equal,
        List.getElem?_append_right (Nat.le_refl _), Nat.sub_self] at position
      exact different (Option.some.inj position)
    · have position := agree front'.length (by omega)
      rw [List.getElem?_append_left more, List.getElem?_append_right (Nat.le_refl _), Nat.sub_self]
        at position
      have ahead := better b (List.mem_of_getElem? position)
      exact absurd tie (ne_of_lt ahead)
  · intro settled out out' ranks ranks'
    exact take_agrees settled ranks ranks'

theorem settled_length : Settled score rows.length rows ↔
    ∀ a ∈ rows, ∀ b ∈ rows, a ≠ b → score a ≠ score b := by
  constructor
  · intro settled a member b member' different tie
    have enough := settled a member b member' different tie
    have all := List.countP_eq_length.mp (Nat.le_antisymm List.countP_le_length enough) a member
    simp at all
  · intro untied a member b member' different tie
    exact absurd tie (untied a member b member' different)

theorem rankBy_ranked (ranks : IsRanking score rows out) : rankBy score out = out :=
  ranks.sorted.insertionSort_eq

end Ranking

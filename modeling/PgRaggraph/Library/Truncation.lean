import PgRaggraph.Library.Bag
import PgRaggraph.Library.Ranking
import Mathlib.Data.Prod.Lex

/-! Queries that number their rows in one order and limit them in another.

Rows that tie come in any order, and where no order is asked for all rows tie. The limit keeps the
best rows in every run exactly where it does not cut through a tie of its own order. -/

namespace Truncation

open Bag Ranking

variable {α κ κ' : Type}

/-- The rows with their numbers, and those of them that the limit keeps. -/
structure Run (α : Type) where
  windowed : List (α × Nat)
  kept : List (α × Nat)

/-- `ROW_NUMBER() OVER (ORDER BY score DESC)` and `ORDER BY key DESC LIMIT k`. A constant key stands
for a query without an ORDER BY. -/
structure Run.Returned [LinearOrder κ] [LinearOrder κ'] (score : α → κ) (key : α → κ') (k : Nat)
    (rows : List α) (run : Run α) : Prop where
  windowed : ∃ out, IsRanking score rows out ∧ run.windowed = rowNumber out
  kept : ∃ out, IsRanking (fun row => key row.1) run.windowed out ∧ run.kept = out.take k

structure Run.KeepsBest (k : Nat) (run : Run α) : Prop where
  best : ∀ row, row ∈ run.kept ↔
    row ∈ run.windowed ∧ 1 ≤ row.2 ∧ row.2 ≤ min k run.windowed.length
  onePerRank : (run.kept.map Prod.snd).Perm (List.range' 1 (min k run.windowed.length))

/-- All rows fit, or `k` of them score no lower than one of these and the rest score lower. -/
def Sharp [LinearOrder κ] (key : α → κ) (k : Nat) (rows : List α) : Prop :=
  rows.length ≤ k ∨ ∃ a ∈ rows, rows.countP (fun b => key a ≤ key b) = k

section Orders

variable {ν : Type} [LinearOrder κ] [LinearOrder κ'] [LinearOrder ν]

theorem orderBy_ranks (key : α → κ) (turn : α → ν) {score : α → κ'} (rows : List α)
    (better : ∀ a b, key a ≤ key b → score b ≤ score a) :
    IsRanking score rows (orderBy (fun a => toLex (key a, turn a)) rows) where
  perm := orderBy_perm _ rows
  sorted := by
    refine (orderBy_pairwise _ rows).imp (fun {a b} below => better a b ?_)
    rcases Prod.Lex.toLex_le_toLex.mp below with less | same
    · exact less.le
    · exact same.1.le

theorem orderBy_map {β : Type} (key : β → κ) (f : α → β) (rows : List α) :
    orderBy key (rows.map f) = (orderBy (fun a => key (f a)) rows).map f :=
  (List.map_insertionSort _ _ f rows (fun _ _ _ _ => Iff.rfl)).symm

theorem unordered_ranks {rows out : List α} (perm : out.Perm rows) :
    IsRanking (fun _ => ()) rows out :=
  ⟨perm, List.pairwise_of_forall (fun _ _ => le_rfl)⟩

end Orders

section Numbers

variable {rows : List α} {row : α × Nat} {k : Nat}

theorem rowNumber_length (rows : List α) : (rowNumber rows).length = rows.length := List.length_zipIdx

theorem rowNumber_rows (rows : List α) : (rowNumber rows).map Prod.fst = rows :=
  List.zipIdx_map_fst 1 rows

theorem rowNumber_ranks (rows : List α) :
    (rowNumber rows).map Prod.snd = List.range' 1 rows.length :=
  List.zipIdx_map_snd 1 rows

theorem rowNumber_getElem {i : Nat} (inside : i < (rowNumber rows).length) :
    (rowNumber rows)[i].2 = i + 1 := by
  simp [rowNumber, List.getElem_zipIdx, Nat.add_comm]

theorem mem_take_rowNumber : row ∈ (rowNumber rows).take k ↔
    row ∈ rowNumber rows ∧ 1 ≤ row.2 ∧ row.2 ≤ min k (rowNumber rows).length := by
  rw [List.mem_take_iff_getElem, List.mem_iff_getElem]
  constructor
  · rintro ⟨i, inside, rfl⟩
    have numbered := rowNumber_getElem (Nat.lt_of_lt_of_le inside (Nat.min_le_right _ _))
    refine ⟨⟨i, Nat.lt_of_lt_of_le inside (Nat.min_le_right _ _), rfl⟩, ?_⟩
    omega
  · rintro ⟨⟨i, inside, rfl⟩, -, within⟩
    have numbered := rowNumber_getElem inside
    exact ⟨i, by omega, rfl⟩

theorem Run.KeepsBest.of_take {run : Run α} (numbered : run.windowed = rowNumber rows)
    (kept : run.kept.Perm (run.windowed.take k)) : run.KeepsBest k where
  best := by
    intro row
    rw [kept.mem_iff, numbered]
    exact mem_take_rowNumber
  onePerRank := by
    have ranks : (run.windowed.take k).map Prod.snd = List.range' 1 (min k run.windowed.length) := by
      rw [numbered, List.map_take, rowNumber_ranks, rowNumber_length]
      rcases Nat.le_total k rows.length with short | long
      · rw [Nat.min_eq_left short, List.take_range'_of_length_ge short]
      · rw [Nat.min_eq_right long, List.take_range'_of_length_le long]
    rw [← ranks]
    exact kept.map Prod.snd

end Numbers

section Sharp

variable [LinearOrder κ] {key : α → κ} {rows out : List α} {k : Nat}

theorem take_scored (bound : κ) (sorted : out.Pairwise (fun a b => key b ≤ key a)) :
    out.take (out.countP (fun a => bound ≤ key a)) = out.filter (fun a => bound ≤ key a) := by
  induction out with
  | nil => rfl
  | cons a out ih =>
      rw [List.pairwise_cons] at sorted
      by_cases above : bound ≤ key a
      · rw [List.countP_cons_of_pos (by simpa using above), List.take_succ_cons, ih sorted.2,
          List.filter_cons_of_pos (by simpa using above)]
      · have below : ∀ b ∈ a :: out, ¬ bound ≤ key b := by
          intro b member
          rcases List.mem_cons.mp member with rfl | later
          · exact above
          · exact fun reached => above (reached.trans (sorted.1 b later))
        have nothing : (a :: out).filter (fun a => bound ≤ key a) = [] := by
          rw [List.filter_eq_nil_iff]
          intro b member
          simpa using below b member
        rw [nothing, List.countP_eq_length_filter, nothing]
        rfl

theorem ranking_length (ranks : IsRanking key rows out) : out.length = rows.length :=
  ranks.perm.length_eq

theorem take_sharp {first second : List α} (sharp : Sharp key k rows)
    (ranks : IsRanking key rows first) (ranks' : IsRanking key rows second) :
    (first.take k).Perm (second.take k) := by
  rcases sharp with all | ⟨a, -, enough⟩
  · rw [List.take_of_length_le ((ranking_length ranks).trans_le all),
      List.take_of_length_le ((ranking_length ranks').trans_le all)]
    exact ranks.perm.trans ranks'.perm.symm
  · have cut : ∀ out, IsRanking key rows out →
        out.take k = out.filter (fun b => key a ≤ key b) := by
      intro out ranked
      rw [← enough, ← ranked.perm.countP_eq]
      exact take_scored (key a) ranked.sorted
    rw [cut first ranks, cut second ranks']
    exact (ranks.perm.trans ranks'.perm.symm).filter _

theorem exists_neighbours (positive : 0 < k) (longer : k < out.length) :
    ∃ front x y back, out = front ++ x :: y :: back ∧ front.length + 1 = k := by
  have here : k - 1 < out.length := by omega
  have next : k - 1 + 1 = k := Nat.sub_add_cancel positive
  have split := List.take_append_drop (k - 1) out
  rw [List.drop_eq_getElem_cons here, next, List.drop_eq_getElem_cons longer] at split
  refine ⟨_, _, _, _, split.symm, ?_⟩
  rw [List.length_take]
  omega

theorem neighbours_tie {front back : List α} {x y : α}
    (ranks : IsRanking key rows (front ++ x :: y :: back)) (cut : front.length + 1 = k)
    (blunt : ¬ Sharp key k rows) : key x = key y := by
  have sorted := ranks.sorted
  rw [List.pairwise_append, List.pairwise_cons, List.pairwise_cons] at sorted
  rcases sorted with ⟨-, ⟨after, later, -⟩, ahead⟩
  refine le_antisymm (not_lt.mp fun drops => blunt (.inr ⟨x, ?_, ?_⟩)) (after _ List.mem_cons_self)
  · exact ranks.perm.mem_iff.mp (List.mem_append_right _ List.mem_cons_self)
  · have reached : front.countP (fun b => key x ≤ key b) = front.length := by
      rw [List.countP_eq_length]
      intro a member
      simpa using ahead a member x List.mem_cons_self
    have missed : (y :: back).countP (fun b => key x ≤ key b) = 0 := by
      rw [List.countP_eq_zero]
      intro b member
      have below : key b ≤ key y := by
        rcases List.mem_cons.mp member with rfl | behind
        · exact le_rfl
        · exact later b behind
      simpa using below.trans_lt drops
    rw [← ranks.perm.countP_eq, List.countP_append, List.countP_cons_of_pos (by simp), missed,
      reached]
    omega

theorem swapped_ranks {front back : List α} {x y : α}
    (ranks : IsRanking key rows (front ++ x :: y :: back)) (tie : key x = key y) :
    IsRanking key rows (front ++ y :: x :: back) where
  perm := ((List.Perm.swap x y back).append_left front).trans ranks.perm
  sorted := by
    have same : (front ++ y :: x :: back).map key = (front ++ x :: y :: back).map key := by
      simp [tie]
    have sorted : ((front ++ x :: y :: back).map key).Pairwise (fun a b => b ≤ a) :=
      List.pairwise_map.mpr ranks.sorted
    rw [← same] at sorted
    exact List.pairwise_map.mp sorted

theorem exists_late (positive : 0 < k) (ranks : IsRanking key rows out) (blunt : ¬ Sharp key k rows) :
    ∃ final late, IsRanking key rows final ∧ late ∈ final.take k ∧ out[k]? = some late := by
  have longer : k < out.length := by
    rw [Sharp, not_or, Nat.not_le] at blunt
    exact blunt.1.trans_eq (ranking_length ranks).symm
  rcases exists_neighbours positive longer with ⟨front, x, y, back, rfl, cut⟩
  refine ⟨_, y, swapped_ranks ranks (neighbours_tie ranks cut blunt), ?_, ?_⟩
  · rw [← cut, List.take_append, Nat.add_sub_cancel_left]
    exact List.mem_append_right _ List.mem_cons_self
  · rw [← cut, List.getElem?_append_right (Nat.le_add_right _ 1), Nat.add_sub_cancel_left]
    rfl

end Sharp

section Runs

variable [LinearOrder κ] [LinearOrder κ'] {score : α → κ} {key : α → κ'} {rows out : List α}
  {k : Nat}

theorem rowNumber_ranking (coarser : ∀ a b, score a ≤ score b → key a ≤ key b)
    (ranks : IsRanking score rows out) :
    IsRanking (fun row => key row.1) (rowNumber out) (rowNumber out) where
  perm := .refl _
  sorted := by
    have sorted := ranks.sorted
    rw [← rowNumber_rows out, List.pairwise_map] at sorted
    exact sorted.imp (fun below => coarser _ _ below)

theorem sharp_rowNumber (ranks : IsRanking score rows out) :
    Sharp (fun row => key row.1) k (rowNumber out) ↔ Sharp key k rows := by
  have counts : ∀ a, (rowNumber out).countP (fun row => key a ≤ key row.1) =
      rows.countP (fun b => key a ≤ key b) := by
    intro a
    rw [← ranks.perm.countP_eq, ← rowNumber_rows out, List.countP_map, rowNumber_rows]
    rfl
  rw [Sharp, Sharp, rowNumber_length, ranking_length ranks]
  apply or_congr Iff.rfl
  constructor
  · rintro ⟨row, member, enough⟩
    refine ⟨row.1, ?_, (counts row.1).symm.trans enough⟩
    rw [← ranks.perm.mem_iff, ← rowNumber_rows out]
    exact List.mem_map_of_mem member
  · rintro ⟨a, member, enough⟩
    rw [← ranks.perm.mem_iff, ← rowNumber_rows out, List.mem_map] at member
    rcases member with ⟨row, numbered, rfl⟩
    exact ⟨row, numbered, (counts row.1).trans enough⟩

theorem sharp_unordered : Sharp (fun _ : α => ()) k rows ↔ rows.length ≤ k := by
  refine or_iff_left_of_imp ?_
  rintro ⟨a, -, enough⟩
  simpa using enough.le

theorem Run.returned_ranked (coarser : ∀ a b, score a ≤ score b → key a ≤ key b)
    (ranks : IsRanking score rows out) (k : Nat) :
    Run.Returned score key k rows ⟨rowNumber out, (rowNumber out).take k⟩ :=
  ⟨⟨out, ranks, rfl⟩, ⟨rowNumber out, rowNumber_ranking coarser ranks, rfl⟩⟩

theorem Run.returned_unordered {final : List (α × Nat)} (ranks : IsRanking score rows out)
    (perm : final.Perm (rowNumber out)) (k : Nat) :
    Run.Returned score (fun _ => ()) k rows ⟨rowNumber out, final.take k⟩ :=
  ⟨⟨out, ranks, rfl⟩, ⟨final, unordered_ranks perm, rfl⟩⟩

/-- Every run keeps the best rows exactly where the limit is sharp. -/
theorem keeps_best_iff (positive : 0 < k)
    (coarser : ∀ a b, score a ≤ score b → key a ≤ key b) :
    (∀ run, Run.Returned score key k rows run → run.KeepsBest k) ↔ Sharp key k rows := by
  constructor
  · intro keeps
    by_contra blunt
    have ranks := rankBy_ranks score rows
    rw [← sharp_rowNumber ranks] at blunt
    rcases exists_late positive (rowNumber_ranking coarser ranks) blunt with
      ⟨final, late, limited, kept, behind⟩
    have best := (keeps ⟨_, _⟩ ⟨⟨_, ranks, rfl⟩, ⟨_, limited, rfl⟩⟩).best late
    rcases List.getElem?_eq_some_iff.mp behind with ⟨inside, rfl⟩
    have within := (best.mp kept).2.2
    rw [rowNumber_getElem] at within
    omega
  · intro sharp run returned
    rcases returned with ⟨⟨out, ranks, numbered⟩, ⟨final, limited, kept⟩⟩
    apply Run.KeepsBest.of_take numbered
    rw [kept]
    rw [numbered] at limited ⊢
    exact take_sharp ((sharp_rowNumber ranks).mpr sharp) limited (rowNumber_ranking coarser ranks)

end Runs

end Truncation

import Mathlib.Data.List.Dedup
import Mathlib.Data.List.Perm.Basic
import Mathlib.Data.List.ProdSigma
import Mathlib.Data.List.Sort
import Mathlib.Logic.Function.Iterate

/-! Queries over bags of rows: joins, grouping, ordering, numbering and recursive queries.

A bag is a list up to permutation. An ORDER BY key that tells the rows apart makes the ordered list
a function of the bag. -/

namespace Bag

variable {α β γ κ : Type}

def join (on : α → β → Bool) (left : List α) (right : List β) : List (α × β) :=
  (left ×ˢ right).filter (fun pair => on pair.1 pair.2)

def orderBy [LinearOrder κ] (key : α → κ) (rows : List α) : List α :=
  rows.insertionSort (fun a b => key a ≤ key b)

/-- `ROW_NUMBER()` over rows in their order. -/
def rowNumber (rows : List α) : List (α × Nat) := rows.zipIdx 1

/-- `GROUP BY`: one row for each key, with its rows in their order. -/
def groupBy [DecidableEq κ] (key : α → κ) (rows : List α) : List (κ × List α) :=
  (rows.map key).dedup.map (fun k => (k, rows.filter (fun row => key row = k)))

/-- `WITH RECURSIVE ... UNION ALL`: the recursive term is evaluated over the working table until
that is empty. -/
def recursiveUnion (step : List α → List α) : Nat → List α → Option (List α)
  | 0, _ => none
  | fuel + 1, working =>
      if working.isEmpty then some []
      else (recursiveUnion step fuel (step working)).map (working ++ ·)

def levels (step : List α → List α) (n : Nat) (working : List α) : List α :=
  (List.range n).flatMap (fun k => step^[k] working)

section Append

theorem append_swap (a b c d : List α) : (a ++ b ++ (c ++ d)).Perm (a ++ c ++ (b ++ d)) := by
  rw [List.append_assoc, List.append_assoc]
  exact (List.perm_append_comm_assoc b c d).append_left a

theorem branches_perm (p q : α → Bool) (f g : α → β) (rows : List α) :
    ((rows.filter p).map f ++ (rows.filter q).map g).Perm
      ((rows.filter (fun row => p row || q row)).map (fun row => if p row then f row else g row) ++
        (rows.filter (fun row => p row && q row)).map g) := by
  induction rows with
  | nil => simp
  | cons row rows ih =>
      by_cases first : p row = true
      · by_cases second : q row = true
        · simp only [List.filter_cons, first, second, Bool.or_self, Bool.and_self, if_true,
            List.map_cons, List.cons_append]
          apply List.Perm.cons
          exact (List.perm_middle.trans (ih.cons _)).trans List.perm_middle.symm
        · simp only [List.filter_cons, first, second, Bool.or_false, Bool.and_false, if_true,
            Bool.false_eq_true, if_false, List.map_cons, List.cons_append]
          exact ih.cons _
      · by_cases second : q row = true
        · simp only [List.filter_cons, first, second, Bool.or_true, Bool.and_true, if_true,
            Bool.false_eq_true, if_false, List.map_cons, List.cons_append]
          exact List.perm_middle.trans (ih.cons _)
        · simp only [List.filter_cons, first, second, Bool.or_self, Bool.and_self,
            Bool.false_eq_true, if_false]
          exact ih

theorem filter_narrow {wide narrow : α → Bool} {rows rows' : List α}
    (same : (rows.filter wide).Perm (rows'.filter wide))
    (implies : ∀ row, narrow row = true → wide row = true) :
    (rows.filter narrow).Perm (rows'.filter narrow) := by
  have narrowed (l : List α) : l.filter narrow = (l.filter wide).filter narrow := by
    rw [List.filter_filter]
    apply List.filter_congr
    intro row _
    by_cases here : narrow row = true
    · simp [here, implies row here]
    · simp [here]
  rw [narrowed rows, narrowed rows']
  exact same.filter narrow

end Append

section Join

theorem mem_join {on : α → β → Bool} {left : List α} {right : List β} {a : α} {b : β} :
    (a, b) ∈ join on left right ↔ a ∈ left ∧ b ∈ right ∧ on a b = true := by
  simp [join, and_assoc]

theorem join_nodup [DecidableEq κ] {f : α → κ} {g : β → κ} {left : List α} {right : List β}
    (lefts : (left.map f).Nodup) (rights : (right.map g).Nodup) :
    ((join (fun a b => g b = f a) left right).map (fun m => f m.1)).Nodup := by
  apply List.Nodup.map_on
  · rintro ⟨a, b⟩ joined ⟨a', b'⟩ joined' same
    rcases mem_join.mp joined with ⟨listed, stored, on_⟩
    rcases mem_join.mp joined' with ⟨listed', stored', on_'⟩
    have keys : g b = g b' :=
      (of_decide_eq_true on_).trans (same.trans (of_decide_eq_true on_').symm)
    rw [List.inj_on_of_nodup_map lefts listed listed' same,
      List.inj_on_of_nodup_map rights stored stored' keys]
  · exact (lefts.of_map.product rights.of_map).filter _

theorem join_cons (on : α → β → Bool) (a : α) (left : List α) (right : List β) :
    join on (a :: left) right = (right.filter (on a)).map (Prod.mk a) ++ join on left right := by
  simp only [join, List.product_cons, List.filter_append, List.filter_map]
  rfl

theorem join_perm {on : α → β → Bool} {left left' : List α} {right right' : List β}
    (lefts : left.Perm left') (rights : right.Perm right') :
    (join on left right).Perm (join on left' right') :=
  (List.Perm.product lefts rights).filter _

theorem join_append (on : α → β → Bool) (left : List α) (right extra : List β) :
    (join on left (right ++ extra)).Perm (join on left right ++ join on left extra) := by
  induction left with
  | nil => simp [join]
  | cons a left ih =>
      rw [join_cons, join_cons, join_cons, List.filter_append, List.map_append]
      have regroup := (ih.append_left ((right.filter (on a)).map (Prod.mk a) ++
        (extra.filter (on a)).map (Prod.mk a)))
      exact regroup.trans (append_swap _ _ _ _)

theorem join_filter_left (on : α → β → Bool) (keep : α → Bool) (left : List α) (right : List β) :
    join on (left.filter keep) right = (join on left right).filter (fun m => keep m.1) := by
  induction left with
  | nil => rfl
  | cons a left ih =>
      have block : ((right.filter (on a)).map (Prod.mk a)).filter (fun m => keep m.1) =
          if keep a then (right.filter (on a)).map (Prod.mk a) else [] := by
        rw [List.filter_map]
        by_cases kept : keep a = true
        · simp [kept, Function.comp_def]
        · simp [kept, Function.comp_def]
      rw [join_cons, List.filter_append, block, ← ih]
      by_cases kept : keep a = true
      · rw [List.filter_cons_of_pos kept, join_cons, if_pos kept]
      · rw [List.filter_cons_of_neg kept, if_neg kept, List.nil_append]

theorem join_filter_right (on : α → β → Bool) (keep : β → Bool) (left : List α) (right : List β) :
    join on left (right.filter keep) = (join on left right).filter (fun m => keep m.2) := by
  induction left with
  | nil => rfl
  | cons a left ih =>
      rw [join_cons, join_cons, List.filter_append, ih, List.filter_map, List.filter_comm]
      rfl

theorem join_singleton (on : α → β → Bool) (left : List α) (b : β) :
    join on left [b] = (left.filter (fun a => on a b)).map (fun a => (a, b)) := by
  induction left with
  | nil => rfl
  | cons a left ih =>
      rw [join_cons, ih]
      by_cases here : on a b = true
      · simp [here]
      · simp [here]

theorem join_swap (on : α → β → Bool) (left : List α) (right : List β) :
    (join on left right).Perm
      (right.flatMap (fun b => (left.filter (fun a => on a b)).map (fun a => (a, b)))) := by
  induction right with
  | nil => simp [join]
  | cons b right ih =>
      have split := join_append on left [b] right
      rw [join_singleton] at split
      exact split.trans (ih.append_left _)

theorem join_matched (on : α → β → Bool) (keep : α → Bool) {left : List α} {right : List β}
    (matched : ∀ a ∈ left, ∀ b ∈ right, on a b = true → keep a = true) :
    join on (left.filter keep) right = join on left right := by
  rw [join_filter_left]
  apply List.filter_eq_self.mpr
  intro m member
  rcases mem_join.mp member with ⟨listed, listed', here⟩
  exact matched m.1 listed m.2 listed' here

end Join

section OrderBy

variable [LinearOrder κ]

theorem orderBy_perm (key : α → κ) (rows : List α) : (orderBy key rows).Perm rows :=
  List.perm_insertionSort _ rows

theorem orderBy_pairwise (key : α → κ) (rows : List α) :
    (orderBy key rows).Pairwise (fun a b => key a ≤ key b) := by
  have total : Std.Total (fun a b : α => key a ≤ key b) := ⟨fun a b => le_total (key a) (key b)⟩
  have trans : IsTrans α (fun a b => key a ≤ key b) := ⟨fun a b c => le_trans⟩
  exact List.pairwise_insertionSort _ rows

/-- Where the key tells the rows apart, the order is a function of the bag. -/
theorem orderBy_congr {key : α → κ} {rows rows' : List α} (same : rows.Perm rows')
    (distinct : ∀ a ∈ rows, ∀ b ∈ rows, key a = key b → a = b) :
    orderBy key rows = orderBy key rows' := by
  have perm : (orderBy key rows).Perm (orderBy key rows') :=
    ((orderBy_perm key rows).trans same).trans (orderBy_perm key rows').symm
  apply perm.eq_of_pairwise _ (orderBy_pairwise key rows) (orderBy_pairwise key rows')
  intro a b first second below above
  have here : a ∈ rows := (orderBy_perm key rows).mem_iff.mp first
  have there : b ∈ rows := same.mem_iff.mpr ((orderBy_perm key rows').mem_iff.mp second)
  exact distinct a here b there (le_antisymm below above)

end OrderBy

section GroupBy

variable [DecidableEq κ]

theorem groupBy_keys (key : α → κ) (rows : List α) :
    (groupBy key rows).map Prod.fst = (rows.map key).dedup := by
  rw [groupBy, List.map_map]
  exact List.map_id _

theorem groupBy_nodup (key : α → κ) (rows : List α) : ((groupBy key rows).map Prod.fst).Nodup := by
  rw [groupBy_keys]
  exact List.nodup_dedup _

theorem mem_groupBy {key : α → κ} {rows : List α} {k : κ} {group : List α} :
    (k, group) ∈ groupBy key rows ↔
      (∃ row ∈ rows, key row = k) ∧ group = rows.filter (fun row => key row = k) := by
  simp only [groupBy, List.mem_map, List.mem_dedup, Prod.mk.injEq]
  constructor
  · rintro ⟨k', ⟨row, member, rfl⟩, rfl, rfl⟩
    exact ⟨⟨row, member, rfl⟩, rfl⟩
  · rintro ⟨⟨row, member, rfl⟩, rfl⟩
    exact ⟨key row, ⟨row, member, rfl⟩, rfl, rfl⟩

theorem groupBy_perm {key : α → κ} {rows rows' : List α} (same : rows.Perm rows')
    (groups : ∀ k, rows.filter (fun row => key row = k) = rows'.filter (fun row => key row = k)) :
    (groupBy key rows).Perm (groupBy key rows') := by
  rw [groupBy, groupBy, List.map_congr_left (fun k _ => by rw [groups k])]
  exact (same.map key).dedup.map _

end GroupBy

section Recursion

variable {step : List α → List α}

theorem levels_succ (n : Nat) (working : List α) :
    levels step (n + 1) working = working ++ levels step n (step working) := by
  simp only [levels, List.range_succ_eq_map, List.flatMap_cons, Function.iterate_zero, id,
    List.flatMap_map, Function.iterate_succ, Function.comp]

theorem iterate_nil (stays : step [] = []) (k : Nat) : step^[k] [] = [] := by
  induction k with
  | zero => rfl
  | succ k ih => rw [Function.iterate_succ_apply, stays, ih]

theorem levels_nil (stays : step [] = []) (n : Nat) : levels step n [] = [] := by
  simp [levels, iterate_nil stays]

/-- A recursive query whose `n`-th working table is empty ends, and returns the tables before. -/
theorem recursiveUnion_levels (stays : step [] = []) {n fuel : Nat} {working : List α}
    (exhausted : step^[n] working = []) (enough : n < fuel) :
    recursiveUnion step fuel working = some (levels step n working) := by
  induction n generalizing fuel working with
  | zero =>
      obtain ⟨fuel, rfl⟩ := Nat.exists_eq_succ_of_ne_zero (Nat.ne_zero_of_lt enough)
      have empty : working = [] := exhausted
      simp [recursiveUnion, empty, levels]
  | succ n ih =>
      obtain ⟨fuel, rfl⟩ := Nat.exists_eq_succ_of_ne_zero (Nat.ne_zero_of_lt enough)
      rw [recursiveUnion]
      split
      · rename_i empty
        rw [List.isEmpty_iff.mp empty, levels_nil stays]
      · have deeper : recursiveUnion step fuel (step working) =
            some (levels step n (step working)) := ih exhausted (by omega)
        rw [deeper, levels_succ]
        rfl

theorem mem_levels {n : Nat} {working : List α} {row : α} :
    row ∈ levels step n working ↔ ∃ k < n, row ∈ step^[k] working := by
  simp [levels]

theorem levels_perm {first second : List α → List α} {n : Nat} {working : List α}
    (agree : ∀ k < n, (first^[k] working).Perm (second^[k] working)) :
    (levels first n working).Perm (levels second n working) := by
  apply List.Perm.flatMap_left
  intro k member
  exact agree k (List.mem_range.mp member)

end Recursion

end Bag

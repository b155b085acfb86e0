import Mathlib.Data.List.Range
import Mathlib.Order.Lattice

/-! Scans of an input for the matches of a pattern, and lists in the order in which their elements
first occur. -/

namespace Scan

variable {α β : Type}

abbrev Matcher (α β : Type) := List α → Option (β × List α)

/-- The next `skip` elements belong to a match that has been found. -/
def findFrom (m : Matcher α β) : Nat → List α → List β
  | _, [] => []
  | skip + 1, _ :: rest => findFrom m skip rest
  | 0, x :: rest =>
      match m (x :: rest) with
      | some (value, left) => value :: findFrom m (rest.length - left.length) rest
      | none => findFrom m 0 rest

def findIter (m : Matcher α β) (xs : List α) : List β := findFrom m 0 xs

def hitAt (m : Matcher α β) (xs : List α) (i : Nat) : Option β := (m (xs.drop i)).map (·.1)

def Solid (m : Matcher α β) : Prop :=
  ∀ xs value left, m xs = some (value, left) →
    ∀ k, 0 < k → k < xs.length - left.length → m (xs.drop k) = none

section Matches

variable {m : Matcher α β}

theorem hits_cons (x : α) (rest : List α) :
    (List.range (x :: rest).length).filterMap (hitAt m (x :: rest)) =
      ((m (x :: rest)).map (·.1)).toList ++
        (List.range rest.length).filterMap (hitAt m rest) := by
  rw [List.length_cons, List.range_succ_eq_map, List.filterMap_cons, List.filterMap_map]
  have here : hitAt m (x :: rest) 0 = (m (x :: rest)).map (·.1) := rfl
  rw [here]
  cases m (x :: rest) with
  | none => rfl
  | some hit => rfl

theorem findFrom_hits (solid : Solid m) (skip : Nat) (xs : List α)
    (skipped : ∀ k < skip, m (xs.drop k) = none) :
    findFrom m skip xs = (List.range xs.length).filterMap (hitAt m xs) := by
  induction xs generalizing skip with
  | nil => rfl
  | cons x rest ih =>
      rw [hits_cons]
      cases skip with
      | succ skip =>
          have none_here : m (x :: rest) = none := skipped 0 (Nat.succ_pos skip)
          rw [none_here, findFrom, ih skip (fun k below => skipped (k + 1) (by omega))]
          rfl
      | zero =>
          rw [findFrom]
          cases hit : m (x :: rest) with
          | none =>
              rw [ih 0 (fun k below => absurd below (Nat.not_lt_zero k))]
              rfl
          | some found =>
              rcases found with ⟨value, left⟩
              have inside : ∀ k < rest.length - left.length, m (rest.drop k) = none := by
                intro k below
                apply solid (x :: rest) value left hit (k + 1) (Nat.succ_pos k)
                rw [List.length_cons]
                omega
              dsimp only
              rw [ih _ inside]
              rfl

/-- Where no match begins inside another, the scan finds every match. -/
theorem findIter_hits (solid : Solid m) (xs : List α) :
    findIter m xs = (List.range xs.length).filterMap (hitAt m xs) :=
  findFrom_hits solid 0 xs (fun k below => absurd below (Nat.not_lt_zero k))

end Matches

section Firsts

variable [DecidableEq β]

/-- The elements that are not yet `seen`, each where it first occurs. -/
def firsts : List β → List β → List β
  | _, [] => []
  | seen, x :: rest => if x ∈ seen then firsts seen rest else x :: firsts (x :: seen) rest

theorem mem_firsts {seen xs : List β} {x : β} : x ∈ firsts seen xs ↔ x ∈ xs ∧ x ∉ seen := by
  induction xs generalizing seen with
  | nil => simp [firsts]
  | cons y rest ih =>
      by_cases known : y ∈ seen
      · rw [firsts, if_pos known, ih, List.mem_cons]
        constructor
        · exact fun found => ⟨.inr found.1, found.2⟩
        · rintro ⟨rfl | later, new⟩
          · exact absurd known new
          · exact ⟨later, new⟩
      · rw [firsts, if_neg known, List.mem_cons, ih, List.mem_cons, List.mem_cons]
        constructor
        · rintro (rfl | ⟨later, new⟩)
          · exact ⟨.inl rfl, known⟩
          · exact ⟨.inr later, fun old => new (.inr old)⟩
        · rintro ⟨rfl | later, new⟩
          · exact .inl rfl
          · by_cases same : x = y
            · exact .inl same
            · exact .inr ⟨later, fun old => old.elim same new⟩

theorem firsts_nodup (seen xs : List β) : (firsts seen xs).Nodup := by
  induction xs generalizing seen with
  | nil => exact List.nodup_nil
  | cons y rest ih =>
      by_cases known : y ∈ seen
      · rw [firsts, if_pos known]
        exact ih seen
      · rw [firsts, if_neg known, List.nodup_cons]
        exact ⟨fun again => (mem_firsts.mp again).2 List.mem_cons_self, ih _⟩

def InOrder [LT β] (f : Nat → Option β) (n : Nat) (seen : List β) : Prop :=
  ∀ i < n, ∀ x, f i = some x → x ∉ seen → ∀ j < n, ∀ y, f j = some y → y ∉ seen → x < y →
    ∃ k < j, f k = some x

variable [LinearOrder β]

omit [DecidableEq β] in
theorem inOrder_none {f : Nat → Option β} {n : Nat} {seen : List β}
    (passed : ∀ x, f 0 = some x → x ∈ seen) :
    InOrder f (n + 1) seen ↔ InOrder (fun i => f (i + 1)) n seen := by
  constructor
  · intro ordered i below x atI newX j belowJ y atJ newY less
    rcases ordered (i + 1) (by omega) x atI newX (j + 1) (by omega) y atJ newY less with
      ⟨k, before, found⟩
    cases k with
    | zero => exact absurd (passed x found) newX
    | succ k => exact ⟨k, by omega, found⟩
  · intro ordered i below x atI newX j belowJ y atJ newY less
    cases i with
    | zero => exact absurd (passed x atI) newX
    | succ i =>
        cases j with
        | zero => exact absurd (passed y atJ) newY
        | succ j =>
            rcases ordered i (by omega) x atI newX j (by omega) y atJ newY less with
              ⟨k, before, found⟩
            exact ⟨k + 1, by omega, found⟩

theorem inOrder_new {f : Nat → Option β} {n : Nat} {seen : List β} {first : β}
    (here : f 0 = some first) (new : first ∉ seen) :
    InOrder f (n + 1) seen ↔
      (∀ i < n, ∀ x, f (i + 1) = some x → x ∉ first :: seen → first < x) ∧
        InOrder (fun i => f (i + 1)) n (first :: seen) := by
  constructor
  · intro ordered
    constructor
    · intro i below x atI newX
      rw [List.mem_cons, not_or] at newX
      rcases lt_trichotomy first x with less | same | greater
      · exact less
      · exact absurd same.symm newX.1
      · rcases ordered (i + 1) (by omega) x atI newX.2 0 (by omega) first here new greater with
          ⟨k, before, -⟩
        omega
    · intro i below x atI newX j belowJ y atJ newY less
      rw [List.mem_cons, not_or] at newX newY
      rcases ordered (i + 1) (by omega) x atI newX.2 (j + 1) (by omega) y atJ newY.2 less with
        ⟨k, before, found⟩
      cases k with
      | zero =>
          rw [here] at found
          exact absurd (Option.some.inj found).symm newX.1
      | succ k => exact ⟨k, by omega, found⟩
  · rintro ⟨least, ordered⟩ i below x atI newX j belowJ y atJ newY less
    by_cases isFirst : x = first
    · cases j with
      | zero =>
          rw [here] at atJ
          exact absurd less (by rw [isFirst, Option.some.inj atJ]; exact lt_irrefl y)
      | succ j => exact ⟨0, by omega, by rw [here, isFirst]⟩
    · have newX' : x ∉ first :: seen := by
        rw [List.mem_cons, not_or]
        exact ⟨isFirst, newX⟩
      cases i with
      | zero =>
          rw [here] at atI
          exact absurd (Option.some.inj atI).symm isFirst
      | succ i =>
          have above := least i (by omega) x atI newX'
          have notFirst : y ≠ first := (above.trans less).ne'
          cases j with
          | zero =>
              rw [here] at atJ
              exact absurd (Option.some.inj atJ).symm notFirst
          | succ j =>
              have newY' : y ∉ first :: seen := by
                rw [List.mem_cons, not_or]
                exact ⟨notFirst, newY⟩
              rcases ordered i (by omega) x atI newX' j (by omega) y atJ newY' less with
                ⟨k, before, found⟩
              exact ⟨k + 1, by omega, found⟩

/-- The order of first occurrence is increasing exactly where no element first occurs before a
smaller one. -/
theorem firsts_sorted_iff (f : Nat → Option β) (n : Nat) (seen : List β) :
    (firsts seen ((List.range n).filterMap f)).Pairwise (· < ·) ↔ InOrder f n seen := by
  induction n generalizing f seen with
  | zero =>
      constructor
      · intro _ i below
        exact absurd below (Nat.not_lt_zero i)
      · exact fun _ => List.Pairwise.nil
  | succ n ih =>
      rw [List.range_succ_eq_map, List.filterMap_cons, List.filterMap_map]
      cases here : f 0 with
      | none =>
          rw [inOrder_none (fun x found => by rw [here] at found; cases found)]
          exact ih (fun i => f (i + 1)) seen
      | some first =>
          dsimp only
          by_cases known : first ∈ seen
          · rw [firsts, if_pos known, inOrder_none
              (fun x found => by rw [here] at found; exact Option.some.inj found ▸ known)]
            exact ih (fun i => f (i + 1)) seen
          · rw [firsts, if_neg known, List.pairwise_cons, inOrder_new here known]
            refine and_congr ?_ (ih (fun i => f (i + 1)) (first :: seen))
            simp only [mem_firsts, List.mem_filterMap, List.mem_range, Function.comp_apply]
            constructor
            · intro least i below x found new
              exact least x ⟨⟨i, below, found⟩, new⟩
            · rintro least x ⟨⟨i, below, found⟩, new⟩
              exact least i below x found new

end Firsts

end Scan

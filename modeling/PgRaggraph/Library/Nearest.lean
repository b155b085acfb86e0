import PgRaggraph.Library.Ranking

/-! The first acceptable row among the `k` best by a score, where tied rows keep their order, and
the groups that form when each row joins the row it finds. -/

namespace Nearest

open Ranking

variable {α β γ κ : Type} [LinearOrder κ]

def search (score : α → κ) (accept : α → Bool) (k : Nat) (rows : List α) : Option α :=
  ((rankBy score rows).take k).find? accept

def ahead (score : α → κ) (older : List α) (x : α) (newer : List α) : List α :=
  older.filter (fun a => score x ≤ score a) ++ newer.filter (fun a => score x < score a)

def behind (score : α → κ) (older : List α) (x : α) (newer : List α) : List α :=
  older.filter (fun a => !decide (score x ≤ score a)) ++
    newer.filter (fun a => !decide (score x < score a))

section Rank

variable {score : α → κ} {x : α} {older newer rows : List α}

theorem mem_rankBy {a : α} : a ∈ rankBy score rows ↔ a ∈ rows :=
  (rankBy_ranks score rows).perm.mem_iff

theorem rankBy_cons (a : α) : rankBy score (a :: rows) =
    (rankBy score rows).orderedInsert (fun a b => score b ≤ score a) a := rfl

theorem insert_before {a : α} {front back : List α} (below : score x ≤ score a) :
    (front ++ x :: back).orderedInsert (fun a b => score b ≤ score a) a =
      front.orderedInsert (fun a b => score b ≤ score a) a ++ x :: back := by
  induction front with
  | nil => simp [below]
  | cons b front ih =>
      by_cases placed : score b ≤ score a
      · simp [placed]
      · simpa [placed] using ih

theorem insert_past {a : α} {front back : List α} (above : ∀ b ∈ front, score a < score b) :
    (front ++ back).orderedInsert (fun a b => score b ≤ score a) a =
      front ++ back.orderedInsert (fun a b => score b ≤ score a) a := by
  induction front with
  | nil => rfl
  | cons b front ih =>
      have passed : ¬ score b ≤ score a := not_le.mpr (above b List.mem_cons_self)
      have rest := ih (fun c member => above c (List.mem_cons_of_mem b member))
      simpa [passed] using rest

theorem rankBy_partition (kind : α → Bool)
    (apart : ∀ a b, kind a = true → kind b = false → score b < score a) :
    rankBy score rows =
      rankBy score (rows.filter kind) ++ rankBy score (rows.filter (fun a => !kind a)) := by
  induction rows with
  | nil => rfl
  | cons a rows ih =>
      rw [rankBy_cons, ih]
      cases first : kind a
      · rw [List.filter_cons_of_neg (by simp [first]), List.filter_cons_of_pos (by simp [first]),
          rankBy_cons]
        apply insert_past
        intro b member
        exact apart b a (List.mem_filter.mp (mem_rankBy.mp member)).2 first
      · rw [List.filter_cons_of_pos (by simp [first]), List.filter_cons_of_neg (by simp [first]),
          rankBy_cons]
        cases rest : rankBy score (rows.filter (fun a => !kind a)) with
        | nil => rw [List.append_nil, List.append_nil]
        | cons b back =>
            have other : b ∈ rankBy score (rows.filter (fun a => !kind a)) := by simp [rest]
            have second := (List.mem_filter.mp (mem_rankBy.mp other)).2
            exact insert_before (apart a b first (by simpa using second)).le

theorem rankBy_above (t : κ) : rankBy score rows =
    rankBy score (rows.filter (fun a => t ≤ score a)) ++
      rankBy score (rows.filter (fun a => !decide (t ≤ score a))) := by
  apply rankBy_partition
  intro a b better worse
  exact (not_le.mp (of_decide_eq_false worse)).trans_le (of_decide_eq_true better)

theorem rankBy_split : rankBy score (older ++ x :: newer) =
    rankBy score (ahead score older x newer) ++ x :: rankBy score (behind score older x newer) := by
  induction older with
  | nil =>
      have parted : rankBy score newer =
          rankBy score (newer.filter (fun a => score x < score a)) ++
            rankBy score (newer.filter (fun a => !decide (score x < score a))) := by
        apply rankBy_partition
        intro a b better worse
        exact (not_lt.mp (of_decide_eq_false worse)).trans_lt (of_decide_eq_true better)
      have passed : ∀ b ∈ rankBy score (newer.filter (fun a => score x < score a)),
          score x < score b := by
        intro b member
        simpa using (List.mem_filter.mp (mem_rankBy.mp member)).2
      have reached : ∀ b ∈ rankBy score (newer.filter (fun a => !decide (score x < score a))),
          score b ≤ score x := by
        intro b member
        simpa using (List.mem_filter.mp (mem_rankBy.mp member)).2
      rw [List.nil_append, rankBy_cons, parted, insert_past passed]
      simp only [ahead, behind, List.filter_nil, List.nil_append]
      congr 1
      generalize rankBy score (newer.filter (fun a => !decide (score x < score a))) = back at *
      cases back with
      | nil => rfl
      | cons b back => simp [reached b List.mem_cons_self]
  | cons a older ih =>
      rw [List.cons_append, rankBy_cons, ih]
      by_cases before : score x ≤ score a
      · rw [insert_before before, ← rankBy_cons]
        simp [ahead, behind, before]
      · have passed : ∀ b ∈ rankBy score (ahead score older x newer), score a < score b := by
          intro b member
          have between : score x ≤ score b := by
            rcases List.mem_append.mp (mem_rankBy.mp member) with earlier | later
            · simpa using (List.mem_filter.mp earlier).2
            · exact (of_decide_eq_true (List.mem_filter.mp later).2).le
          exact (not_le.mp before).trans_le between
        rw [insert_past passed, List.orderedInsert_cons, if_neg before, ← rankBy_cons]
        simp [ahead, behind, before]

theorem rankBy_tied (tied : ∀ a ∈ rows, ∀ b ∈ rows, score a = score b) :
    rankBy score rows = rows := by
  have ranks : IsRanking score rows rows := by
    constructor
    · exact List.Perm.refl rows
    · apply List.pairwise_of_forall_mem_list
      intro a member b member'
      exact (tied b member' a member).le
  exact rankBy_ranked ranks

theorem rankBy_map (score : β → κ) (f : α → β) :
    rankBy score (rows.map f) = (rankBy (score ∘ f) rows).map f :=
  (List.map_insertionSort _ _ f rows (fun _ _ _ _ => Iff.rfl)).symm

end Rank

section Search

variable {score : α → κ} {accept : α → Bool} {k : Nat} {x : α} {older newer rows : List α}

theorem search_mem {found : α} (hit : search score accept k rows = some found) : found ∈ rows :=
  mem_rankBy.mp (List.mem_of_mem_take (List.mem_of_find?_eq_some hit))

theorem find_take_iff {front back : List α} (absent : x ∉ front) :
    ((front ++ x :: back).take k).find? accept = some x ↔
      accept x = true ∧ front.length < k ∧ ∀ a ∈ front, accept a = false := by
  by_cases reached : front.length < k
  · rcases Nat.exists_eq_add_of_lt reached with ⟨room, rfl⟩
    have kept : (front ++ x :: back).take (front.length + room + 1) =
        front ++ x :: back.take room := by
      rw [Nat.add_assoc, List.take_length_add_append, List.take_succ_cons]
    rw [kept]
    constructor
    · intro hit
      refine ⟨List.find?_some hit, reached, ?_⟩
      cases earlier : front.find? accept with
      | some a =>
          rw [List.find?_append, earlier, Option.some_or] at hit
          cases hit
          exact absurd (List.mem_of_find?_eq_some earlier) absent
      | none => simpa using earlier
    · intro conditions
      have missed : front.find? accept = none := by simpa using conditions.2.2
      rw [List.find?_append, missed, Option.none_or, List.find?_cons_of_pos conditions.1]
  · have cut : (front ++ x :: back).take k = front.take k :=
      List.take_append_of_le_length (Nat.le_of_not_lt reached)
    constructor
    · intro hit
      rw [cut] at hit
      exact absurd (List.mem_of_mem_take (List.mem_of_find?_eq_some hit)) absent
    · intro conditions
      exact absurd conditions.2.1 reached

/-- A row is found exactly where it is acceptable and fewer than `k` rows, none of them
acceptable, are ranked before it. -/
theorem search_eq_some_iff (distinct : (older ++ x :: newer).Nodup) :
    search score accept k (older ++ x :: newer) = some x ↔
      accept x = true ∧ (ahead score older x newer).length < k ∧
        ∀ a ∈ ahead score older x newer, accept a = false := by
  have length : (rankBy score (ahead score older x newer)).length =
      (ahead score older x newer).length := (rankBy_ranks score _).perm.length_eq
  have absent : x ∉ rankBy score (ahead score older x newer) := by
    intro member
    have unique := (List.nodup_middle.mp distinct).notMem
    rcases List.mem_append.mp (mem_rankBy.mp member) with earlier | later
    · exact unique (List.mem_append_left _ (List.mem_filter.mp earlier).1)
    · exact unique (List.mem_append_right _ (List.mem_filter.mp later).1)
  rw [search, rankBy_split, find_take_iff absent, length]
  simp only [mem_rankBy]

theorem search_eq_none (missed : search score accept k rows = none) (t : κ)
    (few : (rows.filter (fun a => t ≤ score a)).length < k) :
    ∀ a ∈ rows.filter (fun a => t ≤ score a), accept a = false := by
  intro a member
  have length : (rankBy score (rows.filter (fun a => t ≤ score a))).length =
      (rows.filter (fun a => t ≤ score a)).length := (rankBy_ranks score _).perm.length_eq
  rw [search, rankBy_above t, List.take_append, List.take_of_length_le (by omega),
    List.find?_eq_none] at missed
  simpa using missed a (List.mem_append_left _ (mem_rankBy.mpr member))

theorem search_map (score : β → κ) (accept : β → Bool) (f : α → β) :
    search score accept k (rows.map f) = (search (score ∘ f) (accept ∘ f) k rows).map f := by
  rw [search, rankBy_map, ← List.map_take, List.find?_map]
  rfl

theorem search_congr {accept' : α → Bool} (agree : ∀ a ∈ rows, accept a = accept' a) :
    search score accept k rows = search score accept' k rows := by
  have finds : ∀ taken : List α, (∀ a ∈ taken, a ∈ rows) →
      taken.find? accept = taken.find? accept' := by
    intro taken inside
    induction taken with
    | nil => rfl
    | cons a taken ih =>
        rw [List.find?_cons, List.find?_cons, agree a (inside a List.mem_cons_self),
          ih (fun b member => inside b (List.mem_cons_of_mem a member))]
  exact finds _ (fun a member => mem_rankBy.mp (List.mem_of_mem_take member))

end Search

section Groups

def groups (find : α → List α → Option α) : List α → List α → List α
  | _, [] => []
  | led, x :: rest =>
      match find x led with
      | some leader => leader :: groups find led rest
      | none => x :: groups find (led ++ [x]) rest

def leaders (accept : α → α → Bool) (led rows : List α) : List α :=
  rows.foldl (fun led x => if led.any (accept x) then led else led ++ [x]) led

def SameGroups (labels : List (β × γ)) : Prop :=
  ∀ s ∈ labels, ∀ t ∈ labels, s.1 = t.1 ↔ s.2 = t.2

def Within (score : α → α → κ) (accept : α → α → Bool) (k : Nat) (led rows : List α) : Prop :=
  ∀ earlier x later, rows = earlier ++ x :: later →
    (∃ leader ∈ leaders accept led earlier, accept x leader = true) →
      ∃ leader ∈ (rankBy (score x) (leaders accept led earlier)).take k, accept x leader = true

def nearest (score : α → α → κ) (accept : α → α → Bool) (k : Nat) (x : α) (led : List α) :
    Option α :=
  search (score x) (accept x) k led

def best (score : α → α → κ) (accept : α → α → Bool) (x : α) (led : List α) : Option α :=
  (rankBy (score x) led).find? (accept x)

variable {score : α → α → κ} {accept : α → α → Bool} {k : Nat} {x : α} {led rows : List α}

theorem nearest_best {leader : α} (found : nearest score accept k x led = some leader) :
    best score accept x led = some leader := by
  rw [nearest, search] at found
  rw [best, ← List.take_append_drop k (rankBy (score x) led), List.find?_append, found,
    Option.some_or]

theorem best_mem {leader : α} (found : best score accept x led = some leader) :
    leader ∈ led ∧ accept x leader = true :=
  ⟨mem_rankBy.mp (List.mem_of_find?_eq_some found), List.find?_some found⟩

theorem best_none (missed : best score accept x led = none) : led.any (accept x) = false := by
  rw [best, List.find?_eq_none] at missed
  rw [List.any_eq_false]
  intro leader member
  exact missed leader (mem_rankBy.mpr member)

theorem leaders_joined {leader : α} (member : leader ∈ led) (accepted : accept x leader = true) :
    leaders accept led [x] = led := by
  have any : led.any (accept x) = true := List.any_eq_true.mpr ⟨leader, member, accepted⟩
  rw [leaders, List.foldl_cons, if_pos any, List.foldl_nil]

theorem leaders_extended (refused : led.any (accept x) = false) :
    leaders accept led [x] = led ++ [x] := by
  rw [leaders, List.foldl_cons, if_neg (by simp only [refused, Bool.false_eq_true, not_false_iff]),
    List.foldl_nil]

theorem within_cons : Within score accept k led (x :: rows) ↔
    ((∃ leader ∈ led, accept x leader = true) →
      ∃ leader ∈ (rankBy (score x) led).take k, accept x leader = true) ∧
    Within score accept k (leaders accept led [x]) rows := by
  constructor
  · intro within
    refine ⟨within [] x rows rfl, ?_⟩
    intro earlier y later split
    exact within (x :: earlier) y later (by rw [split, List.cons_append])
  · intro both earlier y later split
    cases earlier with
    | nil =>
        rw [List.nil_append, List.cons.injEq] at split
        rw [← split.1]
        exact both.1
    | cons first earlier =>
        rw [List.cons_append, List.cons.injEq] at split
        rw [← split.1]
        exact both.2 earlier y later split.2

theorem sameGroups_drop {s : β × γ} {front back : List (β × γ)} (known : s ∈ front) :
    SameGroups (front ++ s :: back) ↔ SameGroups (front ++ back) := by
  have same : ∀ t, t ∈ front ++ s :: back ↔ t ∈ front ++ back := by
    intro t
    simp only [List.mem_append, List.mem_cons]
    constructor
    · intro member
      rcases member with earlier | rfl | later
      · exact .inl earlier
      · exact .inl known
      · exact .inr later
    · intro member
      rcases member with earlier | later
      · exact .inl earlier
      · exact .inr (.inr later)
  simp only [SameGroups, same]

theorem forall₂_exists {R : α → β → Prop} {xs : List α} {ys : List β}
    (related : List.Forall₂ R xs ys) {y : β} (member : y ∈ ys) : ∃ x ∈ xs, R x y := by
  induction related with
  | nil => exact absurd member List.not_mem_nil
  | @cons first second xs ys here _ ih =>
      rcases List.mem_cons.mp member with rfl | later
      · exact ⟨first, List.mem_cons_self, here⟩
      · rcases ih later with ⟨x, found, holds⟩
        exact ⟨x, List.mem_cons_of_mem _ found, holds⟩

theorem sameGroups_renamed {β' γ' : Type} {R : β → β' → Prop} {S : γ → γ' → Prop}
    {labels : List (β × γ)} {renamed : List (β' × γ')} (first : Relator.BiUnique R)
    (second : Relator.BiUnique S)
    (related : List.Forall₂ (fun s s' => R s.1 s'.1 ∧ S s.2 s'.2) labels renamed) :
    SameGroups labels ↔ SameGroups renamed := by
  constructor
  · intro same s' member' t' other'
    rcases forall₂_exists related member' with ⟨s, member, ones, twos⟩
    rcases forall₂_exists related other' with ⟨t, other, ones', twos'⟩
    have left : s.1 = t.1 ↔ s'.1 = t'.1 := Relator.rel_eq first ones ones'
    have right : s.2 = t.2 ↔ s'.2 = t'.2 := Relator.rel_eq second twos twos'
    rw [← left, ← right]
    exact same s member t other
  · intro same s member t other
    rcases forall₂_exists related.flip member with ⟨s', member', ones, twos⟩
    rcases forall₂_exists related.flip other with ⟨t', other', ones', twos'⟩
    have left : s.1 = t.1 ↔ s'.1 = t'.1 := Relator.rel_eq first ones ones'
    have right : s.2 = t.2 ↔ s'.2 = t'.2 := Relator.rel_eq second twos twos'
    rw [left, right]
    exact same s' member' t' other'

theorem forall₂_zip_zip {β' γ' : Type} {R : β → β' → Prop} {S : γ → γ' → Prop} {bs : List β}
    {bs' : List β'} {cs : List γ} {cs' : List γ'} (first : List.Forall₂ R bs bs')
    (second : List.Forall₂ S cs cs') :
    List.Forall₂ (fun s s' => R s.1 s'.1 ∧ S s.2 s'.2) (bs.zip cs) (bs'.zip cs') := by
  induction first generalizing cs cs' with
  | nil => simp
  | cons here _ ih =>
      cases second with
      | nil => simp
      | cons there rest => exact List.Forall₂.cons ⟨here, there⟩ (ih rest)

theorem leaders_congr {accept' : α → α → Bool}
    (agree : ∀ x ∈ rows, ∀ y ∈ led ++ rows, accept x y = accept' x y) :
    leaders accept led rows = leaders accept' led rows := by
  induction rows generalizing led with
  | nil => rfl
  | cons x rows ih =>
      have first : led.any (accept x) = led.any (accept' x) := by
        rw [Bool.eq_iff_iff, List.any_eq_true, List.any_eq_true]
        apply exists_congr
        intro y
        apply and_congr_right
        intro member
        rw [agree x List.mem_cons_self y (List.mem_append_left _ member)]
      have rest : ∀ z ∈ rows, ∀ y ∈ (if led.any (accept x) then led else led ++ [x]) ++ rows,
          accept z y = accept' z y := by
        intro z member y known
        apply agree z (List.mem_cons_of_mem _ member)
        split at known
        · rcases List.mem_append.mp known with earlier | later
          · exact List.mem_append_left _ earlier
          · exact List.mem_append_right _ (List.mem_cons_of_mem _ later)
        · simpa using known
      have stepped := ih rest
      rw [leaders, leaders] at stepped ⊢
      rw [List.foldl_cons, List.foldl_cons, ← first]
      exact stepped

/-- Looking at the `k` best leaders forms the groups that looking at all of them does exactly
where no row has its only acceptable leaders further down. -/
theorem sameGroups_iff_within (distinct : (led ++ rows).Nodup) :
    SameGroups (led.map (fun leader => (leader, leader)) ++
      (groups (best score accept) led rows).zip (groups (nearest score accept k) led rows)) ↔
        Within score accept k led rows := by
  induction rows generalizing led with
  | nil =>
      constructor
      · intro _ earlier x later split
        exact absurd split (by simp)
      · intro _ s member t member'
        simp only [groups, List.zip_nil_left, List.append_nil, List.mem_map] at member member'
        rcases member with ⟨leader, -, rfl⟩
        rcases member' with ⟨other, -, rfl⟩
        exact Iff.rfl
  | cons x rows ih =>
      rw [within_cons]
      have joint : (led ++ rows).Nodup := (List.nodup_cons.mp (List.nodup_middle.mp distinct)).2
      cases near : nearest score accept k x led with
      | some leader =>
          have found := nearest_best near
          rcases best_mem found with ⟨member, accepted⟩
          have reached : ∃ leader ∈ (rankBy (score x) led).take k, accept x leader = true :=
            ⟨leader, List.mem_of_find?_eq_some near, accepted⟩
          simp only [groups, near, found, List.zip_cons_cons]
          rw [sameGroups_drop (List.mem_map.mpr ⟨leader, member, rfl⟩), ih joint,
            leaders_joined member accepted]
          exact ⟨fun within => ⟨fun _ => reached, within⟩, And.right⟩
      | none =>
          have unreached : ¬ ∃ leader ∈ (rankBy (score x) led).take k, accept x leader = true := by
            intro reached
            rcases reached with ⟨leader, member, accepted⟩
            exact List.find?_eq_none.mp near leader member accepted
          cases found : best score accept x led with
          | none =>
              have refused := best_none found
              have extended : (led ++ [x] ++ rows).Nodup := by simpa using distinct
              have vacuous : ¬ ∃ leader ∈ led, accept x leader = true := by
                intro acceptable
                rcases acceptable with ⟨leader, member, accepted⟩
                exact List.any_eq_false.mp refused leader member accepted
              have ih := ih extended
              rw [List.map_append, List.append_assoc] at ih
              simp only [groups, near, found, List.zip_cons_cons]
              rw [leaders_extended refused, ← ih]
              exact ⟨fun same => ⟨fun acceptable => absurd acceptable vacuous, same⟩, And.right⟩
          | some leader =>
              rcases best_mem found with ⟨member, accepted⟩
              simp only [groups, near, found, List.zip_cons_cons]
              constructor
              · -- the row is told apart from the leader that it joins in the other labelling
                intro same
                have parted := same (leader, leader)
                  (List.mem_append_left _ (List.mem_map.mpr ⟨leader, member, rfl⟩)) (leader, x)
                  (List.mem_append_right _ List.mem_cons_self)
                have equal : leader = x := parted.mp rfl
                rw [equal] at member
                exact absurd (List.mem_append_left rows member)
                  (List.nodup_cons.mp (List.nodup_middle.mp distinct)).1
              · intro both
                exact absurd (both.1 ⟨leader, member, accepted⟩) unreached

end Groups

end Nearest

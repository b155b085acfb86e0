import PgRaggraph.Retrieval.Query
import Mathlib.Algebra.Order.BigOperators.Group.List
import Mathlib.Algebra.Order.Group.Nat
import Mathlib.Algebra.Order.Ring.Unbundled.Rat
import Mathlib.Algebra.Ring.Rat

/-! The recursive CTE `walked` and the graph lane over it.

`walked` returns one row for each undirected path of at most `hops` relationships from a seed. The
two recursive branches of the design specification count a self-loop twice, the OR-join once. -/

namespace PgRaggraph

open Bag

section Paths

variable {R : Type}

def RelRow.Joins (r : RelRow R) (a b : Uuid) : Prop :=
  (r.srcId = a ∧ r.dstId = b) ∨ (r.dstId = a ∧ r.srcId = b)

inductive Path (relationships : List (RelRow R)) : Uuid → Uuid → Nat → Prop where
  | nil (a : Uuid) : Path relationships a a 0
  | snoc {a b c : Uuid} {n : Nat} {r : RelRow R} (path : Path relationships a b n)
      (stored : r ∈ relationships) (joins : r.Joins b c) : Path relationships a c (n + 1)

variable {relationships : List (RelRow R)} {hops : Int} {seeds : List Uuid}

theorem Path.last {a c : Uuid} {n : Nat} (path : Path relationships a c (n + 1)) :
    ∃ b r, Path relationships a b n ∧ r ∈ relationships ∧ r.Joins b c := by
  cases path with
  | snoc path stored joins => exact ⟨_, _, path, stored, joins⟩

def Walks (relationships : List (RelRow R)) (hops : Int)
    (step : List WalkRow → List WalkRow) : Prop :=
  ∀ working row, row ∈ step working ↔
    ∃ w ∈ working, w.d < hops ∧ row.d = w.d + 1 ∧ ∃ r ∈ relationships, r.Joins w.id row.id

theorem Walks.stays {step : List WalkRow → List WalkRow} (walks : Walks relationships hops step) :
    step [] = [] := by
  apply List.eq_nil_iff_forall_not_mem.mpr
  intro row member
  obtain ⟨w, none_, -⟩ := (walks [] row).mp member
  exact List.not_mem_nil none_

theorem Walks.level {step : List WalkRow → List WalkRow} (walks : Walks relationships hops step)
    (k : Nat) (row : WalkRow) :
    row ∈ step^[k] (seedRows seeds) ↔
      row.d = k ∧ (k = 0 ∨ (k : Int) ≤ hops) ∧ ∃ seed ∈ seeds, Path relationships seed row.id k := by
  induction k generalizing row with
  | zero =>
      simp only [Function.iterate_zero, id, seedRows, List.mem_map, true_or, true_and]
      constructor
      · rintro ⟨seed, chosen, rfl⟩
        exact ⟨rfl, seed, chosen, .nil seed⟩
      · rintro ⟨depth, seed, chosen, path⟩
        obtain ⟨id, d⟩ := row
        cases path
        have depth : d = 0 := depth
        exact ⟨_, chosen, by rw [depth]⟩
  | succ k ih =>
      rw [Function.iterate_succ_apply', walks]
      constructor
      · rintro ⟨w, reached, bounded, depth, r, stored, joins⟩
        obtain ⟨level, -, seed, chosen, path⟩ := (ih w).mp reached
        refine ⟨by omega, .inr (by omega), seed, chosen, .snoc path stored joins⟩
      · rintro ⟨depth, bounded, seed, chosen, path⟩
        obtain ⟨b, r, path, stored, joins⟩ := path.last
        have before : (⟨b, k⟩ : WalkRow) ∈ step^[k] (seedRows seeds) :=
          (ih ⟨b, k⟩).mpr ⟨rfl, by omega, seed, chosen, path⟩
        refine ⟨⟨b, k⟩, before, ?_, ?_, r, stored, joins⟩
        · show (k : Int) < hops
          omega
        · show row.d = (k : Int) + 1
          omega

/-- No path is longer than `hops`, so the working table is empty after that many rounds. -/
theorem Walks.exhausted {step : List WalkRow → List WalkRow}
    (walks : Walks relationships hops step) : step^[walkDepth hops] (seedRows seeds) = [] := by
  apply List.eq_nil_iff_forall_not_mem.mpr
  intro row member
  obtain ⟨-, bounded, -⟩ := (walks.level _ row).mp member
  rw [walkDepth] at bounded
  omega

theorem Walks.ends {step : List WalkRow → List WalkRow} (walks : Walks relationships hops step)
    {fuel : Nat} (enough : walkDepth hops < fuel) :
    recursiveUnion step fuel (seedRows seeds) =
      some (levels step (walkDepth hops) (seedRows seeds)) :=
  recursiveUnion_levels walks.stays walks.exhausted enough

theorem walkStep_walks : Walks relationships hops (walkStep relationships hops) := by
  intro working row
  simp only [walkStep, List.mem_map, List.mem_filter, Prod.exists, mem_join, decide_eq_true_eq]
  constructor
  · rintro ⟨r, w, ⟨⟨stored, reached, touches⟩, bounded⟩, rfl⟩
    refine ⟨w, reached, bounded, rfl, r, stored, ?_⟩
    dsimp only
    split
    · rename_i source
      exact .inl ⟨source, rfl⟩
    · rename_i other
      exact .inr ⟨touches.resolve_left other, rfl⟩
  · rintro ⟨w, reached, bounded, depth, r, stored, joins⟩
    refine ⟨r, w, ⟨⟨stored, reached, joins.imp And.left And.left⟩, bounded⟩, ?_⟩
    obtain ⟨id, d⟩ := row
    have depth : d = w.d + 1 := depth
    rcases joins with ⟨source, target⟩ | ⟨source, target⟩
    · have target : r.dstId = id := target
      rw [if_pos source, target, depth]
    · have target : r.srcId = id := target
      -- A self-loop satisfies both sides of the OR, and the CASE takes the first.
      by_cases loop : r.srcId = w.id
      · rw [if_pos loop, depth, source, ← loop, target]
      · rw [if_neg loop, depth, target]

theorem walked_levels : walked relationships hops seeds =
    levels (walkStep relationships hops) (walkDepth hops) (seedRows seeds) := by
  rw [walked, walkStep_walks.ends (Nat.lt_succ_self _), Option.getD_some]

theorem mem_walked {row : WalkRow} :
    row ∈ walked relationships hops seeds ↔
      ∃ n : Nat, row.d = n ∧ (n = 0 ∨ (n : Int) ≤ hops) ∧
        ∃ seed ∈ seeds, Path relationships seed row.id n := by
  rw [walked_levels, mem_levels]
  constructor
  · rintro ⟨n, -, reached⟩
    exact ⟨n, (walkStep_walks.level n row).mp reached⟩
  · rintro ⟨n, reached⟩
    have bounded := reached.2.1
    refine ⟨n, ?_, (walkStep_walks.level n row).mpr reached⟩
    rw [walkDepth]
    omega

end Paths

section GraphLane

variable {R J : Type} {engine : Engine R J} {db : Database R J} {mode : Mode}
  {p : QueryArgs R J} {seeds : List Uuid}

theorem numbered_ids (ids : List Uuid) : (numbered ids).map (·.id) = ids := by
  rw [numbered, List.map_map]
  exact List.zipIdx_map_fst 1 ids

theorem mem_graphMatches {id : Uuid} :
    id ∈ graphMatches engine db mode p seeds ↔
      mode.usesGraph = true ∧ 1 ≤ p.hops ∧ ∃ c ∈ db.chunks, c.id = id ∧ c.ns = p.ns ∧
        passes engine p c = true ∧ ∃ m ∈ db.chunkEntities, m.chunkId = id ∧
          ∃ w ∈ walked db.relationships p.hops seeds, m.entityId = w.id := by
  simp only [graphMatches, List.mem_map, List.mem_filter, Prod.exists, mem_join, Bool.and_eq_true,
    beq_iff_eq, decide_eq_true_eq]
  constructor
  · rintro ⟨m, w, c, ⟨⟨⟨link, reached, entity⟩, stored, same⟩, ⟨⟨gate, here⟩, accepted⟩, deep⟩, rfl⟩
    exact ⟨gate, deep, c, stored, same, here, accepted, m, link, rfl, w, reached, entity⟩
  · rintro ⟨gate, deep, c, stored, rfl, here, accepted, m, link, same, w, reached, entity⟩
    exact ⟨m, w, c, ⟨⟨⟨link, reached, entity⟩, stored, same.symm⟩, ⟨⟨gate, here⟩, accepted⟩, deep⟩,
      same⟩

theorem graphGroups_ids :
    ((graphGroups engine db mode p seeds).map (·.id)).Perm
      (graphMatches engine db mode p seeds).dedup := by
  have keys := groupBy_keys (id : Uuid → Uuid) (graphMatches engine db mode p seeds)
  rw [List.map_id] at keys
  rw [graphGroups, numbered_ids, ← keys]
  exact (orderBy_perm _ _).map _

/-- The graph lane is bounded undirected reachability. -/
theorem graph_lane_reaches (engine : Engine R J) (db : Database R J) (p : QueryArgs R J)
    (seeds : List Uuid) {mode : Mode} (enabled : mode.usesGraph = true) :
    (∀ fuel, walkDepth p.hops < fuel →
      recursiveUnion (walkStep db.relationships p.hops) fuel (seedRows seeds) =
        some (walked db.relationships p.hops seeds)) ∧
    ((graphGroups engine db mode p seeds).map (·.id)).Nodup ∧
    ∀ id, id ∈ (graphGroups engine db mode p seeds).map (·.id) ↔
      1 ≤ p.hops ∧ ∃ c ∈ db.chunks, c.id = id ∧ c.ns = p.ns ∧ passes engine p c = true ∧
        ∃ m ∈ db.chunkEntities, m.chunkId = id ∧ ∃ seed ∈ seeds, ∃ n : Nat,
          (n : Int) ≤ p.hops ∧ Path db.relationships seed m.entityId n := by
  refine ⟨?_, graphGroups_ids.nodup_iff.mpr (List.nodup_dedup _), ?_⟩
  · intro fuel enough
    rw [walkStep_walks.ends enough, walked_levels]
  · intro id
    rw [graphGroups_ids.mem_iff, List.mem_dedup, mem_graphMatches]
    constructor
    · rintro ⟨-, deep, c, stored, same, here, accepted, m, link, linked, w, reached, entity⟩
      obtain ⟨n, -, bounded, seed, chosen, path⟩ := mem_walked.mp reached
      rw [← entity] at path
      exact ⟨deep, c, stored, same, here, accepted, m, link, linked, seed, chosen, n, by omega, path⟩
    · rintro ⟨deep, c, stored, same, here, accepted, m, link, linked, seed, chosen, n, bounded, path⟩
      refine ⟨enabled, deep, c, stored, same, here, accepted, m, link, linked, ⟨m.entityId, n⟩, ?_, rfl⟩
      exact mem_walked.mpr ⟨n, rfl, .inr bounded, seed, chosen, path⟩

def linkedChunk : Database ℚ String where
  chunks := [⟨10, 100, "default", "", none, "{}"⟩]
  entities := []
  relationships := [.sample 3 1 2]
  chunkEntities := [⟨10, 2, 1⟩]
  chunksPkey := by decide
  entitiesPkey := by decide

theorem linked_chunk_reached :
    10 ∈ (graphGroups .sample linkedChunk .graph .sample [1]).map (·.id) := by
  apply ((graph_lane_reaches .sample linkedChunk .sample [1] rfl).2.2 10).mpr
  refine ⟨by decide, ⟨10, 100, "default", "", none, "{}"⟩, List.mem_singleton.mpr rfl, rfl, rfl, rfl,
    ⟨10, 2, 1⟩, List.mem_singleton.mpr rfl, rfl, 1, List.mem_singleton.mpr rfl, 1, by decide, ?_⟩
  exact .snoc (.nil 1) (List.mem_singleton.mpr rfl) (.inl ⟨rfl, rfl⟩)

end GraphLane

section Specification

variable {R : Type}

/-- The recursive part of `walked` in the design specification: `src` to `dst`, UNION ALL `dst` to
`src`. -/
def specStep (relationships : List (RelRow R)) (hops : Int) (working : List WalkRow) :
    List WalkRow :=
  let forward := join (fun r w => r.srcId = w.id) relationships working
  let backward := join (fun r w => r.dstId = w.id) relationships working
  (forward.filter (fun m => m.2.d < hops)).map (fun m => ⟨m.1.dstId, m.2.d + 1⟩) ++
    (backward.filter (fun m => m.2.d < hops)).map (fun m => ⟨m.1.srcId, m.2.d + 1⟩)

def specWalked (relationships : List (RelRow R)) (hops : Int) (seeds : List Uuid) : List WalkRow :=
  (recursiveUnion (specStep relationships hops) (walkDepth hops + 1) (seedRows seeds)).getD []

/-- What the specification returns beyond the OR-join: each self-loop once more. -/
def loopStep (relationships : List (RelRow R)) (hops : Int) (working : List WalkRow) :
    List WalkRow :=
  let loops := join (fun r w => r.srcId = w.id ∧ r.dstId = w.id) relationships working
  (loops.filter (fun m => m.2.d < hops)).map (fun m => ⟨m.1.srcId, m.2.d + 1⟩)

def LoopFree (relationships : List (RelRow R)) (hops : Int) (seeds : List Uuid) : Prop :=
  ∀ seed ∈ seeds, ∀ id, ∀ n : Nat, Path relationships seed id n → (n : Int) < hops →
    ∀ r ∈ relationships, ¬ (r.srcId = id ∧ r.dstId = id)

variable {relationships : List (RelRow R)} {hops : Int} {seeds : List Uuid}

theorem specStep_walks : Walks relationships hops (specStep relationships hops) := by
  intro working row
  simp only [specStep, List.mem_append, List.mem_map, List.mem_filter, Prod.exists, mem_join,
    decide_eq_true_eq]
  constructor
  · rintro (⟨r, w, ⟨⟨stored, reached, source⟩, bounded⟩, rfl⟩ |
      ⟨r, w, ⟨⟨stored, reached, source⟩, bounded⟩, rfl⟩)
    · exact ⟨w, reached, bounded, rfl, r, stored, .inl ⟨source, rfl⟩⟩
    · exact ⟨w, reached, bounded, rfl, r, stored, .inr ⟨source, rfl⟩⟩
  · rintro ⟨w, reached, bounded, depth, r, stored, joins⟩
    obtain ⟨id, d⟩ := row
    have depth : d = w.d + 1 := depth
    rcases joins with ⟨source, target⟩ | ⟨source, target⟩
    · exact .inl ⟨r, w, ⟨⟨stored, reached, source⟩, bounded⟩, by rw [depth, target]⟩
    · exact .inr ⟨r, w, ⟨⟨stored, reached, source⟩, bounded⟩, by rw [depth, target]⟩

theorem specWalked_levels : specWalked relationships hops seeds =
    levels (specStep relationships hops) (walkDepth hops) (seedRows seeds) := by
  rw [specWalked, specStep_walks.ends (Nat.lt_succ_self _), Option.getD_some]

theorem specStep_perm {working working' : List WalkRow} (same : working.Perm working') :
    (specStep relationships hops working).Perm (specStep relationships hops working') := by
  apply List.Perm.append
  · exact ((join_perm (.refl relationships) same).filter _).map _
  · exact ((join_perm (.refl relationships) same).filter _).map _

theorem specStep_append (working extra : List WalkRow) :
    (specStep relationships hops (working ++ extra)).Perm
      (specStep relationships hops working ++ specStep relationships hops extra) := by
  have split (on : RelRow R → WalkRow → Bool) (f : RelRow R × WalkRow → WalkRow) :
      (((join on relationships (working ++ extra)).filter (fun m => m.2.d < hops)).map f).Perm
        (((join on relationships working).filter (fun m => m.2.d < hops)).map f ++
          ((join on relationships extra).filter (fun m => m.2.d < hops)).map f) := by
    rw [← List.map_append, ← List.filter_append]
    exact ((join_append on relationships working extra).filter _).map _
  apply ((split _ _).append (split _ _)).trans
  exact append_swap _ _ _ _

theorem specStep_splits (working : List WalkRow) :
    (specStep relationships hops working).Perm
      (walkStep relationships hops working ++ loopStep relationships hops working) := by
  have branches := branches_perm (fun m => decide (m.1.srcId = m.2.id))
    (fun m => decide (m.1.dstId = m.2.id)) (fun m => (⟨m.1.dstId, m.2.d + 1⟩ : WalkRow))
    (fun m => (⟨m.1.srcId, m.2.d + 1⟩ : WalkRow))
    ((relationships ×ˢ working).filter (fun m => m.2.d < hops))
  have picked : (fun m : RelRow R × WalkRow =>
      (⟨if m.1.srcId = m.2.id then m.1.dstId else m.1.srcId, m.2.d + 1⟩ : WalkRow)) =
      fun m => if m.1.srcId = m.2.id then ⟨m.1.dstId, m.2.d + 1⟩ else ⟨m.1.srcId, m.2.d + 1⟩ := by
    funext m
    split
    · rfl
    · rfl
  simp only [specStep, walkStep, loopStep, join, picked, Bool.decide_or, Bool.decide_and,
    List.filter_comm (fun m : RelRow R × WalkRow => decide (m.2.d < hops))]
  simpa only [decide_eq_true_eq] using branches

theorem mem_loopStep {working : List WalkRow} {row : WalkRow} :
    row ∈ loopStep relationships hops working ↔
      ∃ w ∈ working, w.d < hops ∧ row = ⟨w.id, w.d + 1⟩ ∧
        ∃ r ∈ relationships, r.srcId = w.id ∧ r.dstId = w.id := by
  simp only [loopStep, List.mem_map, List.mem_filter, Prod.exists, mem_join, decide_eq_true_eq]
  constructor
  · rintro ⟨r, w, ⟨⟨stored, reached, source, target⟩, bounded⟩, rfl⟩
    exact ⟨w, reached, bounded, by rw [source], r, stored, source, target⟩
  · rintro ⟨w, reached, bounded, rfl, r, stored, source, target⟩
    exact ⟨r, w, ⟨⟨stored, reached, source, target⟩, bounded⟩, by rw [source]⟩

theorem specStep_grows {working extra specified : List WalkRow}
    (same : specified.Perm (working ++ extra)) :
    (specStep relationships hops specified).Perm (walkStep relationships hops working ++
      (loopStep relationships hops working ++ specStep relationships hops extra)) := by
  rw [← List.append_assoc]
  apply ((specStep_perm same).trans (specStep_append working extra)).trans
  exact (specStep_splits working).append_right _

theorem spec_level (k : Nat) :
    ∃ extra, ((specStep relationships hops)^[k] (seedRows seeds)).Perm
      ((walkStep relationships hops)^[k] (seedRows seeds) ++ extra) := by
  induction k with
  | zero => exact ⟨[], by simp⟩
  | succ k ih =>
      obtain ⟨extra, same⟩ := ih
      simp only [Function.iterate_succ_apply']
      exact ⟨_, specStep_grows same⟩

theorem level_length_le (k : Nat) :
    ((walkStep relationships hops)^[k] (seedRows seeds)).length ≤
      ((specStep relationships hops)^[k] (seedRows seeds)).length := by
  obtain ⟨extra, same⟩ := @spec_level R relationships hops seeds k
  rw [same.length_eq, List.length_append]
  omega

theorem level_length_lt {k : Nat}
    (loops : loopStep relationships hops ((walkStep relationships hops)^[k] (seedRows seeds)) ≠ []) :
    ((walkStep relationships hops)^[k + 1] (seedRows seeds)).length <
      ((specStep relationships hops)^[k + 1] (seedRows seeds)).length := by
  obtain ⟨extra, same⟩ := @spec_level R relationships hops seeds k
  have positive := List.length_pos_of_ne_nil loops
  rw [Function.iterate_succ_apply', Function.iterate_succ_apply', (specStep_grows same).length_eq,
    List.length_append, List.length_append]
  omega

theorem loops_counted {k : Nat} (inside : k + 1 < walkDepth hops)
    (loops : loopStep relationships hops ((walkStep relationships hops)^[k] (seedRows seeds)) ≠ []) :
    (walked relationships hops seeds).length < (specWalked relationships hops seeds).length := by
  rw [walked_levels, specWalked_levels, levels, levels, List.length_flatMap, List.length_flatMap]
  apply List.sum_lt_sum
  · intro j _
    exact level_length_le j
  · exact ⟨k + 1, List.mem_range.mpr inside, level_length_lt loops⟩

theorem loopFree_level (free : LoopFree relationships hops seeds) (k : Nat) :
    loopStep relationships hops ((walkStep relationships hops)^[k] (seedRows seeds)) = [] := by
  apply List.eq_nil_iff_forall_not_mem.mpr
  intro row member
  obtain ⟨w, reached, bounded, -, r, stored, loop⟩ := mem_loopStep.mp member
  obtain ⟨depth, -, seed, chosen, path⟩ := (walkStep_walks.level k w).mp reached
  exact free seed chosen w.id k path (by omega) r stored loop

theorem loopFree_levels (free : LoopFree relationships hops seeds) (k : Nat) :
    ((specStep relationships hops)^[k] (seedRows seeds)).Perm
      ((walkStep relationships hops)^[k] (seedRows seeds)) := by
  induction k with
  | zero => exact .refl _
  | succ k ih =>
      rw [Function.iterate_succ_apply', Function.iterate_succ_apply']
      apply (specStep_perm ih).trans
      apply (specStep_splits _).trans
      rw [loopFree_level free, List.append_nil]

/-- The OR-join walks the bag of the specification exactly where it meets no self-loop. -/
theorem walked_matches_spec (relationships : List (RelRow R)) (hops : Int) (seeds : List Uuid) :
    (walked relationships hops seeds).Perm (specWalked relationships hops seeds) ↔
      LoopFree relationships hops seeds := by
  constructor
  · intro same seed chosen id n path bounded r stored loop
    have reached : (⟨id, n⟩ : WalkRow) ∈ (walkStep relationships hops)^[n] (seedRows seeds) :=
      (walkStep_walks.level n _).mpr ⟨rfl, by omega, seed, chosen, path⟩
    have counted : (⟨id, n + 1⟩ : WalkRow) ∈
        loopStep relationships hops ((walkStep relationships hops)^[n] (seedRows seeds)) :=
      mem_loopStep.mpr ⟨⟨id, n⟩, reached, bounded, rfl, r, stored, loop⟩
    have longer := loops_counted (by rw [walkDepth]; omega) (List.ne_nil_of_mem counted)
    have equal := same.length_eq
    omega
  · intro free
    rw [walked_levels, specWalked_levels]
    apply levels_perm
    intro k _
    exact (loopFree_levels free k).symm

/-- The relationship of entity 1 to itself: one row of depth 1 in the code, two in the
specification. -/
theorem self_loop_walked_once :
    ¬ (walked [(.sample 3 1 1 : RelRow ℚ)] 1 [1]).Perm
      (specWalked [(.sample 3 1 1 : RelRow ℚ)] 1 [1]) := by
  decide

end Specification

end PgRaggraph

import PgRaggraph.Retrieval.Query
import Mathlib.Algebra.BigOperators.Group.List.Basic
import Mathlib.Algebra.Field.Rat
import Mathlib.Data.List.Induction
import Mathlib.Tactic.Ring

/-! The fused CTE against `rrf::fuse`, in exact arithmetic, and what ties leave open.

Both add up the contributions of each chunk: `fuse` in a map it folds the hits into, the CTE by
GROUP BY. -/

namespace PgRaggraph

open Bag Ranking

variable {I : Type}

def Mode.gate (mode : Mode) (ls : Lanes I) : Lanes I :=
  { vec := if mode.usesVector then ls.vec else []
    bm := if mode.usesBm25 then ls.bm else []
    graph := if mode.usesGraph then ls.graph else [] }

def hitsOf (lane : String) (rows : List (LaneRow I)) : List (LaneHit I) :=
  rows.map (fun row => ⟨row.id, lane, row.rk⟩)

/-- The hits of the lanes as `fuse` takes them. -/
def laneHits (ls : Lanes I) : List (LaneHit I) :=
  hitsOf "vec" ls.vec ++ hitsOf "bm25" ls.bm ++ hitsOf "graph" ls.graph

def hitScore (weights : RrfWeights ℚ) (hit : LaneHit I) : ℚ :=
  weights.weightFor hit.lane / (rrfK + (hit.rk : ℚ))

variable [DecidableEq I] {weights : RrfWeights ℚ}

def scoreOf (weights : RrfWeights ℚ) (hits : List (LaneHit I)) (id : I) : ℚ :=
  ((hits.filter (fun hit => hit.id = id)).map (hitScore weights)).sum

section Accumulator

theorem addTo_ids (id : I) (x : ℚ) (acc : List (ScoredChunk I ℚ)) :
    (addTo id x acc).map (·.id) =
      if id ∈ acc.map (·.id) then acc.map (·.id) else acc.map (·.id) ++ [id] := by
  induction acc with
  | nil => simp [addTo]
  | cons entry rest ih =>
      by_cases same : entry.id = id
      · simp [addTo, same]
      · have other : id ≠ entry.id := fun equal => same equal.symm
        by_cases present : id ∈ rest.map (·.id)
        · simp only [addTo, if_neg same, List.map_cons, ih, List.mem_cons, present, or_true, if_true]
        · simp only [addTo, if_neg same, List.map_cons, ih, List.mem_cons, present, other, or_self,
            if_false, List.cons_append]

theorem addTo_nodup {id : I} {x : ℚ} {acc : List (ScoredChunk I ℚ)}
    (distinct : (acc.map (·.id)).Nodup) : ((addTo id x acc).map (·.id)).Nodup := by
  rw [addTo_ids]
  split
  · exact distinct
  · rename_i absent
    apply List.nodup_append.mpr
    refine ⟨distinct, List.nodup_singleton id, ?_⟩
    intro stored member last only same
    rw [List.mem_singleton.mp only] at same
    exact absent (same ▸ member)

theorem addTo_entry {id : I} {x : ℚ} {acc : List (ScoredChunk I ℚ)} {e : ScoredChunk I ℚ}
    (distinct : (acc.map (·.id)).Nodup) (member : e ∈ addTo id x acc) :
    (e.id ≠ id ∧ e ∈ acc) ∨ (e.id = id ∧ ∃ t, e.score = t + x ∧
      (⟨id, t⟩ ∈ acc ∨ (id ∉ acc.map (·.id) ∧ t = 0))) := by
  induction acc with
  | nil =>
      have only : e = ⟨id, 0 + x⟩ := by simpa [addTo] using member
      exact .inr ⟨by rw [only], 0, by rw [only], .inr ⟨List.not_mem_nil, rfl⟩⟩
  | cons entry rest ih =>
      rw [List.map_cons, List.nodup_cons] at distinct
      by_cases same : entry.id = id
      · rw [addTo, if_pos same] at member
        rcases List.mem_cons.mp member with only | later
        · have stored : (⟨id, entry.score⟩ : ScoredChunk I ℚ) ∈ entry :: rest := by
            rw [← same]
            exact List.mem_cons_self
          exact .inr ⟨by rw [only], entry.score, by rw [only], .inl stored⟩
        · have other : e.id ≠ id := by
            intro equal
            apply distinct.1
            rw [same, ← equal]
            exact List.mem_map_of_mem later
          exact .inl ⟨other, List.mem_cons_of_mem _ later⟩
      · rw [addTo, if_neg same] at member
        rcases List.mem_cons.mp member with only | later
        · rw [only]
          exact .inl ⟨same, List.mem_cons_self⟩
        · rcases ih distinct.2 later with ⟨other, stored⟩ | ⟨equal, t, score, origin⟩
          · exact .inl ⟨other, List.mem_cons_of_mem _ stored⟩
          · refine .inr ⟨equal, t, score, ?_⟩
            rcases origin with stored | ⟨absent, zero⟩
            · exact .inl (List.mem_cons_of_mem _ stored)
            · have other : id ≠ entry.id := fun here => same here.symm
              exact .inr ⟨by simpa [other] using absent, zero⟩

theorem accumulate_append (hits : List (LaneHit I)) (hit : LaneHit I) :
    accumulate weights (hits ++ [hit]) =
      addTo hit.id (hitScore weights hit) (accumulate weights hits) := by
  rw [accumulate, List.foldl_append]
  rfl

theorem accumulate_nodup (hits : List (LaneHit I)) :
    ((accumulate weights hits).map (·.id)).Nodup := by
  induction hits using List.reverseRecOn with
  | nil => exact List.nodup_nil
  | append_singleton hits hit ih =>
      rw [accumulate_append]
      exact addTo_nodup ih

theorem accumulate_ids {hits : List (LaneHit I)} {id : I} :
    id ∈ (accumulate weights hits).map (·.id) ↔ id ∈ hits.map (·.id) := by
  induction hits using List.reverseRecOn with
  | nil => rfl
  | append_singleton hits hit ih =>
      rw [accumulate_append, addTo_ids]
      split
      · rename_i present
        rw [ih, List.map_append, List.mem_append]
        constructor
        · intro stored
          exact .inl stored
        · intro either
          rcases either with stored | last
          · exact stored
          · have here : id = hit.id := List.mem_singleton.mp last
            rw [← ih, here]
            exact present
      · rw [List.mem_append, ih, List.map_append, List.mem_append]
        rfl

theorem scoreOf_append (hits : List (LaneHit I)) (hit : LaneHit I) (id : I) :
    scoreOf weights (hits ++ [hit]) id =
      scoreOf weights hits id + if hit.id = id then hitScore weights hit else 0 := by
  by_cases same : hit.id = id
  · simp [scoreOf, same]
  · simp [scoreOf, same]

theorem scoreOf_absent {hits : List (LaneHit I)} {id : I} (absent : id ∉ hits.map (·.id)) :
    scoreOf weights hits id = 0 := by
  have none_ : hits.filter (fun hit => hit.id = id) = [] := by
    apply List.filter_eq_nil_iff.mpr
    intro hit member same
    exact absent (of_decide_eq_true same ▸ List.mem_map_of_mem member)
  rw [scoreOf, none_]
  rfl

theorem accumulate_score {hits : List (LaneHit I)} {e : ScoredChunk I ℚ}
    (member : e ∈ accumulate weights hits) : e.score = scoreOf weights hits e.id := by
  induction hits using List.reverseRecOn generalizing e with
  | nil => cases member
  | append_singleton hits hit ih =>
      rw [accumulate_append] at member
      rw [scoreOf_append]
      rcases addTo_entry (accumulate_nodup hits) member with
        ⟨other, stored⟩ | ⟨equal, t, score, origin⟩
      · rw [if_neg (Ne.symm other), add_zero]
        exact ih stored
      · rw [if_pos equal.symm, score, equal]
        rcases origin with stored | ⟨absent, zero⟩
        · have value : t = scoreOf weights hits hit.id := ih stored
          rw [value]
        · rw [zero, scoreOf_absent (fun present => absent (accumulate_ids.mpr present))]

theorem mem_accumulate {hits : List (LaneHit I)} {id : I} {score : ℚ} :
    ⟨id, score⟩ ∈ accumulate weights hits ↔
      id ∈ hits.map (·.id) ∧ score = scoreOf weights hits id := by
  constructor
  · intro member
    exact ⟨accumulate_ids.mp (List.mem_map_of_mem member), accumulate_score member⟩
  · intro known
    have present : id ∈ (accumulate weights hits).map (·.id) := accumulate_ids.mpr known.1
    rcases List.mem_map.mp present with ⟨e, member, same⟩
    have value : e.score = score := by rw [accumulate_score member, same, known.2]
    rw [← same, ← value]
    exact member

theorem scoreOf_perm {hits hits' : List (LaneHit I)} (same : hits.Perm hits') (id : I) :
    scoreOf weights hits id = scoreOf weights hits' id :=
  ((same.filter _).map _).sum_eq

theorem accumulate_perm {hits hits' : List (LaneHit I)} (same : hits.Perm hits') :
    (accumulate weights hits).Perm (accumulate weights hits') := by
  apply (List.perm_ext_iff_of_nodup (accumulate_nodup hits).of_map
    (accumulate_nodup hits').of_map).mpr
  intro e
  rw [mem_accumulate, mem_accumulate, (same.map _).mem_iff, scoreOf_perm same]

theorem fuse_ranks (weights : RrfWeights ℚ) (iteration : Iteration (ScoredChunk I ℚ))
    {hits hits' : List (LaneHit I)} (same : hits'.Perm hits) :
    IsRanking (·.score) (accumulate weights hits) (fuse iteration hits' weights) where
  perm := by
    apply (rankBy_ranks _ _).perm.trans
    exact (iteration.property _).trans (accumulate_perm same)
  sorted := (rankBy_ranks _ _).sorted

end Accumulator

section Fused

omit [DecidableEq I] in
theorem unionLanes_hits (ls : Lanes I) (weights : RrfWeights ℚ) :
    unionLanes ls weights =
      (laneHits ls).map (fun hit => (hit, weights.weightFor hit.lane)) := by
  simp only [unionLanes, laneHits, tagged, hitsOf, List.map_append, List.map_map,
    Function.comp_def, weightFor_vec, weightFor_bm25, weightFor_graph]

omit [DecidableEq I] in
theorem contribution_hit (weights : RrfWeights ℚ) (hit : LaneHit I) :
    contribution (hit, weights.weightFor hit.lane) = hitScore weights hit := by
  simp only [contribution, hitScore, rrfK]
  push_cast
  ring

theorem fused_ids (ls : Lanes I) (weights : RrfWeights ℚ) :
    (fused ls weights).map (·.id) = ((laneHits ls).map (·.id)).dedup := by
  rw [fused, List.map_map, unionLanes_hits]
  have keys := groupBy_keys (fun hit : LaneHit I × ℚ => hit.1.id)
    ((laneHits ls).map (fun hit => (hit, weights.weightFor hit.lane)))
  rw [List.map_map] at keys
  exact keys

theorem group_score (ls : Lanes I) (weights : RrfWeights ℚ) (id : I) :
    (((unionLanes ls weights).filter (fun hit => hit.1.id = id)).map contribution).foldl (· + ·) 0 =
      scoreOf weights (laneHits ls) id := by
  rw [unionLanes_hits, ← List.sum_eq_foldl, List.filter_map, List.map_map, scoreOf]
  congr 1
  apply List.map_congr_left
  intro hit _
  exact contribution_hit weights hit

theorem mem_fused {ls : Lanes I} {id : I} {score : ℚ} :
    (∃ row ∈ fused ls weights, row.id = id ∧ row.score = score) ↔
      id ∈ (laneHits ls).map (·.id) ∧ score = scoreOf weights (laneHits ls) id := by
  constructor
  · intro found
    rcases found with ⟨row, member, rfl, rfl⟩
    have known : row.id ∈ (fused ls weights).map (·.id) := List.mem_map_of_mem member
    rw [fused_ids, List.mem_dedup] at known
    rcases List.mem_map.mp member with ⟨⟨id, group⟩, grouped, rfl⟩
    rcases mem_groupBy.mp grouped with ⟨-, rfl⟩
    exact ⟨known, group_score ls weights id⟩
  · intro known
    have present : id ∈ (fused ls weights).map (·.id) := by
      rw [fused_ids, List.mem_dedup]
      exact known.1
    rcases List.mem_map.mp present with ⟨row, member, rfl⟩
    refine ⟨row, member, rfl, ?_⟩
    rcases List.mem_map.mp member with ⟨⟨id, group⟩, grouped, rfl⟩
    rcases mem_groupBy.mp grouped with ⟨-, rfl⟩
    rw [known.2]
    exact group_score ls weights id

end Fused

section Gate

variable {J : Type} (engine : Engine ℚ J) (db : Database ℚ J) (p : QueryArgs ℚ J)

theorem vecLane_gated (mode : Mode) :
    vecLane engine db mode p =
      if mode.usesVector then vecLane engine db .hybrid p else [] := by
  by_cases enabled : mode.usesVector = true
  · rw [if_pos enabled, vecLane, vecLane, vecHits, vecHits, enabled]
    rfl
  · have disabled : mode.usesVector = false := by simpa using enabled
    rw [if_neg enabled, vecLane, vecHits, disabled]
    simp [orderBy, numbered, rowNumber]

theorem bmLane_gated (mode : Mode) :
    bmLane engine db mode p = if mode.usesBm25 then bmLane engine db .hybrid p else [] := by
  by_cases enabled : mode.usesBm25 = true
  · rw [if_pos enabled, bmLane, bmLane, bmHits, bmHits, enabled]
    rfl
  · have disabled : mode.usesBm25 = false := by simpa using enabled
    rw [if_neg enabled, bmLane, bmHits, disabled]
    simp [orderBy, numbered, rowNumber]

theorem graphLane_gated (mode : Mode) (seeds : List Uuid) :
    graphLane engine db mode p seeds =
      if mode.usesGraph then graphLane engine db .hybrid p seeds else [] := by
  by_cases enabled : mode.usesGraph = true
  · rw [if_pos enabled, graphLane, graphLane, graphGroups, graphGroups, graphMatches, graphMatches,
      enabled]
    rfl
  · have disabled : mode.usesGraph = false := by simpa using enabled
    rw [if_neg enabled, graphLane, graphGroups, graphMatches, disabled]
    simp [orderBy, numbered, rowNumber, groupBy]

theorem lanes_gated (mode : Mode) :
    lanes engine db mode p = mode.gate (lanes engine db .hybrid p) := by
  simp only [lanes, Mode.gate, vecLane_gated engine db p mode, bmLane_gated engine db p mode,
    graphLane_gated engine db p mode]

end Gate

/-- The fused CTE computes the map that `fuse` computes from the lanes the mode enables. -/
theorem fused_matches_fuse (mode : Mode) (weights : RrfWeights ℚ) :
    (∀ (J : Type) (engine : Engine ℚ J) (db : Database ℚ J) (p : QueryArgs ℚ J),
      lanes engine db mode p = mode.gate (lanes engine db .hybrid p)) ∧
    (∀ (ls : Lanes I) (iteration : Iteration (ScoredChunk I ℚ)),
      ((fused (mode.gate ls) weights).map (·.id)).Nodup ∧
      ((fuse iteration (laneHits (mode.gate ls)) weights).map (·.id)).Nodup ∧
      ∀ id score, (∃ row ∈ fused (mode.gate ls) weights, row.id = id ∧ row.score = score) ↔
        ⟨id, score⟩ ∈ fuse iteration (laneHits (mode.gate ls)) weights) ∧
    ∀ (hits hits' : List (LaneHit I)) (iteration iteration' : Iteration (ScoredChunk I ℚ)),
      hits'.Perm hits →
        (fuse iteration hits weights).Pairwise (fun a b => b.score ≤ a.score) ∧
        ∀ scored, scored ∈ fuse iteration' hits' weights ↔ scored ∈ fuse iteration hits weights := by
  refine ⟨fun J engine db p => lanes_gated engine db p mode, ?_, ?_⟩
  · intro ls iteration
    have ranks := fuse_ranks weights iteration (.refl (laneHits (mode.gate ls)))
    refine ⟨?_, ?_, ?_⟩
    · rw [fused_ids]
      exact List.nodup_dedup _
    · exact (ranks.perm.map _).nodup_iff.mpr (accumulate_nodup _)
    · intro id score
      rw [mem_fused, ranks.perm.mem_iff, mem_accumulate]
  · intro hits hits' iteration iteration' same
    have ranks := fuse_ranks weights iteration (.refl hits)
    have ranks' := fuse_ranks weights iteration' same
    refine ⟨ranks.sorted, ?_⟩
    intro scored
    rw [ranks.perm.mem_iff, ranks'.perm.mem_iff]

def Iteration.inserted {α : Type} : Iteration α := ⟨fun entries => entries, List.Perm.refl⟩

def tiedHits : List (LaneHit Int) := [⟨1, "vec", 1⟩, ⟨2, "bm25", 1⟩]

def tiedRun (hits : List (LaneHit Int)) : List (ScoredChunk Int ℚ) := fuse .inserted hits .default

theorem tied_hits_map :
    ∀ scored, scored ∈ tiedRun tiedHits.reverse ↔ scored ∈ tiedRun tiedHits :=
  ((fused_matches_fuse .hybrid .default).2.2 tiedHits tiedHits.reverse .inserted .inserted
    (List.reverse_perm _)).2

section Ties

open Classical in
noncomputable def iterationTo {α : Type} {entries out : List α} (same : out.Perm entries) :
    Iteration α :=
  ⟨fun found => if found = entries then out else found, by
    intro found
    dsimp only
    by_cases here : found = entries
    · rw [if_pos here, here]
      exact same
    · rw [if_neg here]⟩

theorem fuse_reaches {hits : List (LaneHit I)} {out : List (ScoredChunk I ℚ)}
    (ranks : IsRanking (·.score) (accumulate weights hits) out) :
    fuse (iterationTo ranks.perm) hits weights = out := by
  have iterated : (iterationTo ranks.perm).val (accumulate weights hits) = out := by
    simp [iterationTo]
  rw [fuse, iterated]
  exact rankBy_ranked ranks

omit [DecidableEq I] in
theorem scored_extensional {out out' : List (ScoredChunk I ℚ)}
    (ids : out.map (·.id) = out'.map (·.id)) (scores : out.map (·.score) = out'.map (·.score)) :
    out = out' := by
  have rebuilt (l : List (ScoredChunk I ℚ)) :
      List.zipWith ScoredChunk.mk (l.map (·.id)) (l.map (·.score)) = l := by
    induction l with
    | nil => rfl
    | cons scored l ih => simp [ih]
  rw [← rebuilt out, ids, scores, rebuilt]

theorem untied_settled {hits : List (LaneHit I)} :
    Settled (·.score) (accumulate weights hits).length (accumulate weights hits) ↔
      ∀ id ∈ hits.map (·.id), ∀ id' ∈ hits.map (·.id), id ≠ id' →
        scoreOf weights hits id ≠ scoreOf weights hits id' := by
  rw [settled_length]
  constructor
  · intro untied id known id' known' different
    apply untied ⟨id, scoreOf weights hits id⟩ (mem_accumulate.mpr ⟨known, rfl⟩)
      ⟨id', scoreOf weights hits id'⟩ (mem_accumulate.mpr ⟨known', rfl⟩)
    intro same
    cases same
    exact different rfl
  · intro untied a member b member' different tie
    rcases a with ⟨id, score⟩
    rcases b with ⟨id', score'⟩
    rcases mem_accumulate.mp member with ⟨known, rfl⟩
    rcases mem_accumulate.mp member' with ⟨known', rfl⟩
    apply untied id known id' known' _ tie
    intro same
    exact different (by rw [same])

theorem fuse_determined (hits : List (LaneHit I)) (weights : RrfWeights ℚ) :
    (∀ (iteration iteration' : Iteration (ScoredChunk I ℚ)) (hits' : List (LaneHit I)),
      hits'.Perm hits →
        (fuse iteration' hits' weights).map (·.id) = (fuse iteration hits weights).map (·.id)) ↔
      ∀ id ∈ hits.map (·.id), ∀ id' ∈ hits.map (·.id), id ≠ id' →
        scoreOf weights hits id ≠ scoreOf weights hits id' := by
  rw [← untied_settled, ← take_determined]
  constructor
  · intro same out out' ranks ranks'
    have ids := same (iterationTo ranks.perm) (iterationTo ranks'.perm) hits (.refl hits)
    rw [fuse_reaches ranks, fuse_reaches ranks'] at ids
    rw [scored_extensional ids.symm (scores_agree ranks ranks')]
  · intro determined iteration iteration' hits' same
    have ranks := fuse_ranks weights iteration (.refl hits)
    have ranks' := fuse_ranks weights iteration' same
    have agree := determined _ _ ranks' ranks
    rw [List.take_of_length_le ranks'.perm.length_eq.le,
      List.take_of_length_le ranks.perm.length_eq.le] at agree
    rw [agree]

/-- Between equal scores any order may come out; nothing else is left open. -/
theorem ranking_up_to_ties (hits : List (LaneHit I)) (weights : RrfWeights ℚ) :
    (∀ (iteration iteration' : Iteration (ScoredChunk I ℚ)) (hits' : List (LaneHit I)),
      hits'.Perm hits →
        (fuse iteration' hits' weights).Perm (fuse iteration hits weights) ∧
        (fuse iteration' hits' weights).map (·.score) =
          (fuse iteration hits weights).map (·.score)) ∧
    ((∀ (iteration iteration' : Iteration (ScoredChunk I ℚ)) (hits' : List (LaneHit I)),
      hits'.Perm hits →
        (fuse iteration' hits' weights).map (·.id) = (fuse iteration hits weights).map (·.id)) ↔
      ∀ id ∈ hits.map (·.id), ∀ id' ∈ hits.map (·.id), id ≠ id' →
        scoreOf weights hits id ≠ scoreOf weights hits id') ∧
    ∀ (J : Type) (db : Database ℚ J) (ls : Lanes Uuid) (topK : Int),
      (∀ out out', IsRanking (·.score) (selected db (fused ls weights)) out →
        IsRanking (·.score) (selected db (fused ls weights)) out' →
          (limit topK out).map (List.map (·.score)) = (limit topK out').map (List.map (·.score))) ∧
      ((∀ out out', IsRanking (·.score) (selected db (fused ls weights)) out →
        IsRanking (·.score) (selected db (fused ls weights)) out' →
          limit topK out = limit topK out') ↔
        Settled (·.score) topK.toNat (selected db (fused ls weights))) := by
  refine ⟨?_, fuse_determined hits weights, ?_⟩
  · intro iteration iteration' hits' same
    have ranks := fuse_ranks weights iteration (.refl hits)
    have ranks' := fuse_ranks weights iteration' same
    exact ⟨ranks'.perm.trans ranks.perm.symm, scores_agree ranks' ranks⟩
  · intro J db ls topK
    refine ⟨?_, ?_⟩
    · intro out out' ranks ranks'
      have scores := scores_agree ranks ranks'
      by_cases negative : topK < 0
      · rw [limit, limit, if_pos negative, if_pos negative]
      · rw [limit, limit, if_neg negative, if_neg negative]
        simp only [Except.map, List.map_take, scores]
    · rw [← take_determined]
      by_cases negative : topK < 0
      · have none_ : topK.toNat = 0 := by omega
        simp [limit, negative, none_]
      · simp [limit, negative]

/-- The order of the hits decides which of two equal scores comes first. -/
theorem tied_hits_order : tiedHits.reverse.Perm tiedHits ∧
    (tiedRun tiedHits.reverse).map (·.id) ≠ (tiedRun tiedHits).map (·.id) :=
  ⟨List.reverse_perm _, by decide +kernel⟩

theorem tied_hits_scores :
    (tiedRun tiedHits.reverse).map (·.score) = (tiedRun tiedHits).map (·.score) :=
  ((ranking_up_to_ties tiedHits .default).1 .inserted .inserted tiedHits.reverse
    (List.reverse_perm _)).2

end Ties

end PgRaggraph

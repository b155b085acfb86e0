import PgRaggraph.Library.Truncation
import PgRaggraph.Retrieval.Lanes

/-! What the lanes may hand to the fusion.

SQL leaves the order of ties open, and a LIMIT without an ORDER BY keeps any rows. The lanes of the
statement are one of the runs that this allows. -/

namespace PgRaggraph

open Bag Ranking Truncation

structure LaneRuns (R J : Type) where
  seeds : List Uuid
  vec : Run (StoredChunk R J)
  bm : Run (StoredChunk R J)
  graph : Run (Uuid × List Uuid)

namespace LaneRuns

variable {R J : Type} [LinearOrder R]

def laneRow {α : Type} (id : α → Uuid) (row : α × Nat) : LaneRow Uuid := ⟨id row.1, row.2⟩

def rows (runs : LaneRuns R J) : Lanes Uuid :=
  { vec := runs.vec.kept.map (laneRow (·.id))
    bm := runs.bm.kept.map (laneRow (·.id))
    graph := runs.graph.kept.map (laneRow Prod.fst) }

/-- Each lane hands over the rows of rank `1` to `min 50 n` of its `n` candidates. -/
structure KeepBest (runs : LaneRuns R J) : Prop where
  vec : runs.vec.KeepsBest laneLimit
  bm : runs.bm.KeepsBest laneLimit
  graph : runs.graph.KeepsBest laneLimit

section Statement

variable (engine : Engine R J) (db : Database R J) (mode : Mode) (p : QueryArgs R J)

def closeness (embedding : Option (List R)) : OrderDual (WithTop R) :=
  OrderDual.toDual (nearness engine p embedding)

def graphCandidates (seeds : List Uuid) : List (Uuid × List Uuid) :=
  groupBy id (graphMatches engine db mode p seeds)

variable [Div R] [IntCast R]

def Seeded (seeds : List Uuid) : Prop :=
  ∃ out, IsRanking (fun e => closeness engine p e.nameEmb) (seedHits engine db p) out ∧
    seeds = (out.take seedLimit).map (·.id)

/-- `vec`, `bm` and `graph` over some seeds. The lane `graph` has a LIMIT without an ORDER BY. -/
structure Returned (runs : LaneRuns R J) : Prop where
  seeds : Seeded engine db p runs.seeds
  vec : runs.vec.Returned (fun c => closeness engine p c.embedding)
    (fun c => closeness engine p c.embedding) laneLimit (vecHits engine db mode p)
  bm : runs.bm.Returned (fun c => engine.tsRankCd c.text p.q)
    (fun c => engine.tsRankCd c.text p.q) laneLimit (bmHits engine db mode p)
  graph : runs.graph.Returned (fun g => g.2.length) (fun _ => ()) laneLimit
    (graphCandidates engine db mode p runs.seeds)

/-- No tie reaches across the limit of `vec` and `bm`, and `graph` has at most 50 candidates. -/
structure SharpLanes : Prop where
  vec : Sharp (fun c => closeness engine p c.embedding) laneLimit (vecHits engine db mode p)
  bm : Sharp (fun c => engine.tsRankCd c.text p.q) laneLimit (bmHits engine db mode p)
  graph : ∀ seeds, Seeded engine db p seeds →
    (graphCandidates engine db mode p seeds).length ≤ laneLimit

end Statement

section Resolution

variable {engine : Engine R J} {db : Database R J} {mode : Mode} {p : QueryArgs R J}

theorem numbered_laneRow {α : Type} (id : α → Uuid) (rows : List α) :
    numbered (rows.map id) = (rowNumber rows).map (laneRow id) := by
  rw [numbered, rowNumber, rowNumber, List.zipIdx_map, List.map_map]
  rfl

omit [LinearOrder R] in
theorem chunkLane_returned {κ κ' : Type} [LinearOrder κ] [LinearOrder κ'] (engine : Engine R J)
    (key : StoredChunk R J → κ) (score : StoredChunk R J → κ')
    (better : ∀ a b, key a ≤ key b → score b ≤ score a) (hits : List (StoredChunk R J)) :
    ∃ run : Run (StoredChunk R J), run.Returned score score laneLimit hits ∧
      run.kept.map (laneRow (·.id)) = (numbered ((orderBy (fun c =>
        toLex (key c, engine.turn c.id)) hits).map (·.id))).take laneLimit := by
  have ranks := orderBy_ranks key (fun c => engine.turn c.id) hits better
  refine ⟨_, Run.returned_ranked (fun _ _ below => below) ranks laneLimit, ?_⟩
  rw [numbered_laneRow, List.map_take]

theorem vecLane_returned (engine : Engine R J) (db : Database R J) (mode : Mode)
    (p : QueryArgs R J) : ∃ run : Run (StoredChunk R J),
      run.Returned (fun c => closeness engine p c.embedding)
        (fun c => closeness engine p c.embedding) laneLimit (vecHits engine db mode p) ∧
      run.kept.map (laneRow (·.id)) = vecLane engine db mode p :=
  chunkLane_returned engine (fun c => nearness engine p c.embedding) _ (fun _ _ below => below) _

theorem bmLane_returned (engine : Engine R J) (db : Database R J) (mode : Mode)
    (p : QueryArgs R J) : ∃ run : Run (StoredChunk R J),
      run.Returned (fun c => engine.tsRankCd c.text p.q) (fun c => engine.tsRankCd c.text p.q)
        laneLimit (bmHits engine db mode p) ∧
      run.kept.map (laneRow (·.id)) = bmLane engine db mode p :=
  chunkLane_returned engine (fun c => OrderDual.toDual (engine.tsRankCd c.text p.q)) _
    (fun _ _ below => below) _

omit [LinearOrder R] in
theorem graphLane_returned (engine : Engine R J) (db : Database R J) (mode : Mode)
    (p : QueryArgs R J) (seeds : List Uuid) : ∃ run : Run (Uuid × List Uuid),
      run.Returned (fun g => g.2.length) (fun _ => ()) laneLimit
        (graphCandidates engine db mode p seeds) ∧
      run.kept.map (laneRow Prod.fst) = graphLane engine db mode p seeds := by
  have ranks : IsRanking (fun g => g.2.length) (graphCandidates engine db mode p seeds) _ :=
    orderBy_ranks (fun g : Uuid × List Uuid => OrderDual.toDual g.2.length)
      (fun g => engine.turn g.1) _ (fun _ _ below => below)
  refine ⟨_, Run.returned_unordered ranks (orderBy_perm (fun row => engine.turn row.1.1) _)
    laneLimit, ?_⟩
  rw [graphLane, graphGroups, numbered_laneRow, orderBy_map, List.map_take]
  rfl

variable [Div R] [IntCast R]

theorem seeds_seeded (engine : Engine R J) (db : Database R J) (p : QueryArgs R J) :
    Seeded engine db p (PgRaggraph.seeds engine db p) := by
  have ranks : IsRanking (fun e => closeness engine p e.nameEmb) (seedHits engine db p) _ :=
    orderBy_ranks (fun e : EntityRow R => nearness engine p e.nameEmb) (fun e => engine.turn e.id) _
      (fun _ _ below => below)
  exact ⟨_, ranks, rfl⟩

theorem exists_returned (mode : Mode) {seeds : List Uuid} (seeded : Seeded engine db p seeds) :
    ∃ runs : LaneRuns R J, runs.Returned engine db mode p ∧ runs.seeds = seeds ∧
      runs.rows = { vec := vecLane engine db mode p, bm := bmLane engine db mode p,
                    graph := graphLane engine db mode p seeds } := by
  rcases vecLane_returned engine db mode p with ⟨vec, vecReturned, vecRows⟩
  rcases bmLane_returned engine db mode p with ⟨bm, bmReturned, bmRows⟩
  rcases graphLane_returned engine db mode p seeds with ⟨graph, graphReturned, graphRows⟩
  refine ⟨⟨seeds, vec, bm, graph⟩, ⟨seeded, vecReturned, bmReturned, graphReturned⟩, rfl, ?_⟩
  rw [rows, vecRows, bmRows, graphRows]

theorem lanes_returned (engine : Engine R J) (db : Database R J) (mode : Mode)
    (p : QueryArgs R J) : ∃ runs : LaneRuns R J,
      runs.Returned engine db mode p ∧ runs.rows = lanes engine db mode p := by
  rcases exists_returned mode (seeds_seeded engine db p) with ⟨runs, returned, -, same⟩
  refine ⟨runs, returned, ?_⟩
  rw [same, lanes]

theorem graph_candidates_fit (keeps : ∀ runs : LaneRuns R J, runs.Returned engine db mode p →
    runs.KeepBest) {seeds : List Uuid} (seeded : Seeded engine db p seeds) :
    (graphCandidates engine db mode p seeds).length ≤ laneLimit := by
  rcases exists_returned mode seeded with ⟨runs, returned, rfl, -⟩
  have coarser : ∀ a b : Uuid × List Uuid, a.2.length ≤ b.2.length → () ≤ () :=
    fun _ _ _ => le_rfl
  refine sharp_unordered.mp ((keeps_best_iff (by decide) coarser).mp (fun run allowed => ?_))
  exact (keeps ⟨runs.seeds, runs.vec, runs.bm, run⟩
    ⟨returned.seeds, returned.vec, returned.bm, allowed⟩).graph

/-- Every run of the lanes keeps the best rows of each exactly where the limits are sharp. A lane
that the mode disables has no candidates. -/
theorem lanes_keep_best_iff (engine : Engine R J) (db : Database R J) (mode : Mode)
    (p : QueryArgs R J) :
    (∀ runs : LaneRuns R J, runs.Returned engine db mode p → runs.KeepBest) ↔
      SharpLanes engine db mode p := by
  have positive : 0 < laneLimit := by decide
  constructor
  · intro keeps
    rcases lanes_returned engine db mode p with ⟨runs, returned, -⟩
    refine ⟨?_, ?_, fun seeds seeded => graph_candidates_fit keeps seeded⟩
    · refine (keeps_best_iff positive (fun _ _ below => below)).mp (fun run allowed => ?_)
      exact (keeps ⟨runs.seeds, run, runs.bm, runs.graph⟩
        ⟨returned.seeds, allowed, returned.bm, returned.graph⟩).vec
    · refine (keeps_best_iff positive (fun _ _ below => below)).mp (fun run allowed => ?_)
      exact (keeps ⟨runs.seeds, runs.vec, run, runs.graph⟩
        ⟨returned.seeds, returned.vec, allowed, returned.graph⟩).bm
  · intro sharp runs returned
    constructor
    · exact (keeps_best_iff positive (fun _ _ below => below)).mpr sharp.vec _ returned.vec
    · exact (keeps_best_iff positive (fun _ _ below => below)).mpr sharp.bm _ returned.bm
    · exact (keeps_best_iff positive (fun _ _ _ => le_rfl)).mpr
        (sharp_unordered.mpr (sharp.graph _ returned.seeds)) _ returned.graph

def crowdedEntity : Database ℚ String where
  chunks := (List.range 51).map (fun i => ⟨i, 100, "default", "", none, "{}"⟩)
  entities := [⟨1, "default", "Alice", none, some [0], none⟩]
  relationships := []
  chunkEntities := (List.range 51).map (fun i => ⟨i, 1, 1⟩)
  chunksPkey := by decide +kernel
  entitiesPkey := by decide

theorem crowded_lane_cut : ¬ ∀ runs : LaneRuns ℚ String,
    runs.Returned .sample crowdedEntity .graph .sample → runs.KeepBest := by
  intro keeps
  have fit := graph_candidates_fit keeps (seeds_seeded _ _ _)
  exact absurd fit (by decide +kernel)

end Resolution

end LaneRuns

end PgRaggraph

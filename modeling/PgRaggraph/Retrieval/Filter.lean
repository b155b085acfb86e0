import PgRaggraph.Retrieval.Lanes

/-! The metadata filter is pushed into every lane: a query with the filter is the query without it
over the chunks that contain it. -/

namespace PgRaggraph

open Bag

variable {R J : Type}

def QueryArgs.filtered (p : QueryArgs R J) (filter : Option J) : QueryArgs R J :=
  { p with filter := filter }

/-- The chunks that do not contain `filter` are removed, together with their links. -/
def Database.containing (engine : Engine R J) (filter : J) (db : Database R J) : Database R J where
  chunks := db.chunks.filter (fun c => engine.contains c.metadata filter)
  entities := db.entities
  relationships := db.relationships
  chunkEntities := db.chunkEntities.filter (fun m =>
    !db.chunks.any (fun c => c.id == m.chunkId && !engine.contains c.metadata filter))
  chunksPkey := db.chunksPkey.sublist (List.filter_sublist.map _)
  entitiesPkey := db.entitiesPkey

variable {engine : Engine R J} {db : Database R J} {mode : Mode} {p : QueryArgs R J} {filter : J}

theorem link_removed {c : StoredChunk R J} (stored : c ∈ db.chunks) {id : Uuid} (same : c.id = id) :
    db.chunks.any (fun other => other.id == id && !engine.contains other.metadata filter) =
      !engine.contains c.metadata filter := by
  rw [Bool.eq_iff_iff, List.any_eq_true]
  constructor
  · intro found
    rcases found with ⟨other, listed, removed⟩
    simp only [Bool.and_eq_true, beq_iff_eq] at removed
    rw [chunk_unique stored listed (same.trans removed.1.symm)]
    exact removed.2
  · intro removed
    exact ⟨c, stored, by simpa [same] using removed⟩

theorem graphMatches_containing (seeds : List Uuid) :
    graphMatches engine (db.containing engine filter) mode (p.filtered none) seeds =
      graphMatches engine db mode (p.filtered (some filter)) seeds := by
  simp only [graphMatches, Database.containing, QueryArgs.filtered, join_filter_left,
    join_filter_right, List.filter_filter]
  congr 1
  apply List.filter_congr
  intro m member
  rcases m with ⟨l, c⟩
  rcases mem_join.mp member with ⟨-, stored, same⟩
  simp only [link_removed stored (of_decide_eq_true same), passes, Bool.not_not, Bool.and_self,
    Bool.and_true]
  -- The filter of the lane stands between the namespace and the gate on `hops`.
  cases engine.contains c.metadata filter
  · simp
  · simp
    rfl

section Ordered

variable [LinearOrder R]

theorem vecLane_containing :
    vecLane engine (db.containing engine filter) mode (p.filtered none) =
      vecLane engine db mode (p.filtered (some filter)) := by
  simp only [vecLane, vecHits, Database.containing, List.filter_filter, passes, QueryArgs.filtered,
    Bool.and_true]
  rfl

theorem bmLane_containing :
    bmLane engine (db.containing engine filter) mode (p.filtered none) =
      bmLane engine db mode (p.filtered (some filter)) := by
  simp only [bmLane, bmHits, Database.containing, List.filter_filter, passes, QueryArgs.filtered,
    Bool.and_true]

variable [Div R] [IntCast R]

theorem lanes_containing :
    lanes engine (db.containing engine filter) mode (p.filtered none) =
      lanes engine db mode (p.filtered (some filter)) := by
  have seeded : seeds engine (db.containing engine filter) (p.filtered none) =
      seeds engine db (p.filtered (some filter)) := by
    rfl
  rw [lanes, lanes, vecLane_containing, bmLane_containing, graphLane, graphLane, graphGroups,
    graphGroups, graphMatches_containing, seeded]

variable [Zero R] [Add R] [Mul R]

theorem selected_containing :
    selected (db.containing engine filter)
        (fused (lanes engine db mode (p.filtered (some filter))) p.weights) =
      selected db (fused (lanes engine db mode (p.filtered (some filter))) p.weights) := by
  simp only [selected, Database.containing, join_filter_right]
  apply congrArg (List.map _)
  apply List.filter_eq_self.mpr
  intro m member
  rcases m with ⟨f, c⟩
  rcases mem_join.mp member with ⟨fusedRow, stored, same⟩
  rcases fused_retrievable fusedRow with ⟨c', stored', same', -, accepted⟩
  rw [chunk_unique stored stored' ((of_decide_eq_true same).trans same'.symm)]
  exact accepted

theorem filter_pushdown (engine : Engine R J) (db : Database R J) (mode : Mode)
    (p : QueryArgs R J) (filter : J) :
    query engine db mode (p.filtered (some filter)) =
      query engine (db.containing engine filter) mode (p.filtered none) := by
  have rows : (selected (db.containing engine filter)
        (fused (lanes engine db mode (p.filtered (some filter))) (p.filtered none).weights)) =
      selected db (fused (lanes engine db mode (p.filtered (some filter))) p.weights) :=
    selected_containing
  rw [query, query, lanes_containing, rows]
  rfl

end Ordered

end PgRaggraph

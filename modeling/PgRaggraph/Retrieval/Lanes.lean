import PgRaggraph.Retrieval.Walk

/-! What the lanes and the fused rows hold: chunks of the namespace that pass the filter. -/

namespace PgRaggraph

open Bag

variable {R J : Type} {engine : Engine R J} {db : Database R J} {mode : Mode} {p : QueryArgs R J}

/-- A chunk the statement may return. -/
def Retrievable (engine : Engine R J) (db : Database R J) (p : QueryArgs R J) (id : Uuid) : Prop :=
  ∃ c ∈ db.chunks, c.id = id ∧ c.ns = p.ns ∧ passes engine p c = true

theorem chunk_unique {c c' : StoredChunk R J} (stored : c ∈ db.chunks) (stored' : c' ∈ db.chunks)
    (same : c.id = c'.id) : c = c' :=
  List.inj_on_of_nodup_map db.chunksPkey stored stored' same

theorem entity_unique {e e' : EntityRow R} (stored : e ∈ db.entities) (stored' : e' ∈ db.entities)
    (same : e.id = e'.id) : e = e' :=
  List.inj_on_of_nodup_map db.entitiesPkey stored stored' same

theorem numbered_mem {ids : List Uuid} {row : LaneRow Uuid} (member : row ∈ numbered ids) :
    row.id ∈ ids := by
  rw [← numbered_ids ids]
  exact List.mem_map_of_mem member

theorem selected_unique {rows : List (FusedRow Uuid R)} (distinct : (rows.map (·.id)).Nodup)
    {row row' : ResultRow R} (member : row ∈ selected db rows) (member' : row' ∈ selected db rows)
    (same : row.id = row'.id) : row = row' := by
  rcases List.mem_map.mp member with ⟨⟨f, c⟩, joined, rfl⟩
  rcases List.mem_map.mp member' with ⟨⟨f', c'⟩, joined', rfl⟩
  rcases mem_join.mp joined with ⟨listed, stored, on_⟩
  rcases mem_join.mp joined' with ⟨listed', stored', on_'⟩
  have chunks : c = c' := chunk_unique stored stored' same
  have fusedRows : f = f' := by
    apply List.inj_on_of_nodup_map distinct listed listed'
    rw [← of_decide_eq_true on_, ← of_decide_eq_true on_', chunks]
  rw [chunks, fusedRows]

section Ordered

variable [LinearOrder R]

theorem vecLane_retrievable {row : LaneRow Uuid} (member : row ∈ vecLane engine db mode p) :
    Retrievable engine db p row.id := by
  have listed := numbered_mem (List.mem_of_mem_take member)
  rcases List.mem_map.mp listed with ⟨c, ranked, same⟩
  have hit := (orderBy_perm _ _).mem_iff.mp ranked
  simp only [vecHits, List.mem_filter, Bool.and_eq_true, beq_iff_eq] at hit
  exact ⟨c, hit.1, same, hit.2.1.2, hit.2.2⟩

theorem bmLane_retrievable {row : LaneRow Uuid} (member : row ∈ bmLane engine db mode p) :
    Retrievable engine db p row.id := by
  have listed := numbered_mem (List.mem_of_mem_take member)
  rcases List.mem_map.mp listed with ⟨c, ranked, same⟩
  have hit := (orderBy_perm _ _).mem_iff.mp ranked
  simp only [bmHits, List.mem_filter, Bool.and_eq_true, beq_iff_eq] at hit
  exact ⟨c, hit.1, same, hit.2.1.2, hit.2.2⟩

end Ordered

theorem graphLane_retrievable {seeds : List Uuid} {row : LaneRow Uuid}
    (member : row ∈ graphLane engine db mode p seeds) : Retrievable engine db p row.id := by
  have grouped := (orderBy_perm _ _).mem_iff.mp (List.mem_of_mem_take member)
  have matched := graphGroups_ids.mem_iff.mp (List.mem_map_of_mem grouped)
  rw [List.mem_dedup, mem_graphMatches] at matched
  rcases matched with ⟨-, -, c, stored, same, here, accepted, -⟩
  exact ⟨c, stored, same, here, accepted⟩

section Fused

variable [Zero R] [Add R] [Mul R] [Div R] [IntCast R]

theorem fused_member {I : Type} [DecidableEq I] {ls : Lanes I} {weights : RrfWeights R}
    {f : FusedRow I R} (member : f ∈ fused ls weights) :
    (∃ row ∈ ls.vec, row.id = f.id) ∨ (∃ row ∈ ls.bm, row.id = f.id) ∨
      ∃ row ∈ ls.graph, row.id = f.id := by
  rcases List.mem_map.mp member with ⟨⟨id, group⟩, grouped, rfl⟩
  rcases mem_groupBy.mp grouped with ⟨⟨hit, listed, rfl⟩, -⟩
  simp only [unionLanes, tagged, List.mem_append, List.mem_map] at listed
  rcases listed with (⟨row, here, rfl⟩ | ⟨row, here, rfl⟩) | ⟨row, here, rfl⟩
  · exact .inl ⟨row, here, rfl⟩
  · exact .inr (.inl ⟨row, here, rfl⟩)
  · exact .inr (.inr ⟨row, here, rfl⟩)

theorem fused_nodup {I : Type} [DecidableEq I] (ls : Lanes I) (weights : RrfWeights R) :
    ((fused ls weights).map (·.id)).Nodup := by
  rw [fused, List.map_map]
  exact groupBy_nodup (fun hit : LaneHit I × R => hit.1.id) (unionLanes ls weights)

theorem fused_retrievable [LinearOrder R] {f : FusedRow Uuid R}
    (member : f ∈ fused (lanes engine db mode p) p.weights) : Retrievable engine db p f.id := by
  rcases fused_member member with ⟨row, listed, same⟩ | ⟨row, listed, same⟩ | ⟨row, listed, same⟩
  · rw [lanes_vec] at listed
    rw [← same]
    exact vecLane_retrievable listed
  · rw [lanes_bm] at listed
    rw [← same]
    exact bmLane_retrievable listed
  · rw [lanes_graph] at listed
    rw [← same]
    exact graphLane_retrievable listed

end Fused

end PgRaggraph

import PgRaggraph.Retrieval.Scans

/-! A namespace that fits into the vector lane is returned whole. -/

namespace PgRaggraph

open Bag

variable {R J : Type} [LinearOrder R] {engine : Engine R J} {db : Database R J} {mode : Mode}
  {p : QueryArgs R J}

def visible (engine : Engine R J) (db : Database R J) (p : QueryArgs R J) :
    List (StoredChunk R J) :=
  db.chunks.filter (fun c => c.ns == p.ns && passes engine p c)

omit [LinearOrder R] in
theorem mem_visible {c : StoredChunk R J} :
    c ∈ visible engine db p ↔ c ∈ db.chunks ∧ c.ns = p.ns ∧ passes engine p c = true := by
  simp [visible]

omit [LinearOrder R] in
theorem vecHits_visible (uses : mode.usesVector = true) :
    vecHits engine db mode p = visible engine db p := by
  simp only [vecHits, visible, uses, Bool.true_and]

theorem vecLane_visible (uses : mode.usesVector = true)
    (small : (visible engine db p).length ≤ laneLimit) {c : StoredChunk R J}
    (member : c ∈ visible engine db p) : ∃ row ∈ vecLane engine db mode p, row.id = c.id := by
  have listed : c.id ∈ (vecLane engine db mode p).map (·.id) := by
    simp only [vecLane, vecHits_visible uses, List.map_take, numbered_ids]
    rw [List.take_of_length_le (by simpa [(orderBy_perm _ _).length_eq] using small)]
    exact List.mem_map_of_mem ((orderBy_perm _ _).mem_iff.mpr member)
  rcases List.mem_map.mp listed with ⟨row, present, same⟩
  exact ⟨row, present, same⟩

theorem limit_ok {α : Type} {n : Int} {listed rows : List α} (limited : limit n listed = .ok rows) :
    0 ≤ n ∧ rows = listed.take n.toNat := by
  rw [limit] at limited
  split at limited
  · cases limited
  · cases limited
    rename_i bounded
    exact ⟨not_lt.mp bounded, rfl⟩

variable [Zero R] [Add R] [Mul R] [Div R] [IntCast R]

omit [LinearOrder R] in
theorem fused_vec {I : Type} [DecidableEq I] {ls : Lanes I} {weights : RrfWeights R}
    {row : LaneRow I} (member : row ∈ ls.vec) : ∃ f ∈ fused ls weights, f.id = row.id := by
  have hit : ((⟨row.id, "vec", row.rk⟩ : LaneHit I), weights.vec) ∈ unionLanes ls weights := by
    rw [unionLanes, List.append_assoc]
    exact List.mem_append_left _ (List.mem_map_of_mem member)
  have grouped : (row.id, (unionLanes ls weights).filter (fun hit => hit.1.id = row.id)) ∈
      groupBy (fun hit : LaneHit I × R => hit.1.id) (unionLanes ls weights) :=
    mem_groupBy.mpr ⟨⟨_, hit, rfl⟩, rfl⟩
  exact ⟨_, List.mem_map_of_mem grouped, rfl⟩

def ranked (engine : Engine R J) (db : Database R J) (mode : Mode) (p : QueryArgs R J)
    (scans : Scans) : List (ResultRow R) :=
  ranking engine (selected db (fused (lanesOver engine db mode p scans) p.weights))

variable {scans : Scans}

theorem ranked_distinct : ((ranked engine db mode p scans).map (·.id)).Nodup := by
  refine ((orderBy_perm _ _).map _).nodup_iff.mpr ?_
  have joined := join_nodup (g := fun c : StoredChunk R J => c.id)
    (fused_nodup (lanesOver engine db mode p scans) p.weights) db.chunksPkey
  have ids : (selected db (fused (lanesOver engine db mode p scans) p.weights)).map (·.id) =
      (join (fun f c => decide (c.id = f.id)) (fused (lanesOver engine db mode p scans) p.weights)
        db.chunks).map (fun m => m.1.id) := by
    rw [selected, List.map_map]
    apply List.map_congr_left
    rintro ⟨f, c⟩ member
    exact of_decide_eq_true (mem_join.mp member).2.2
  rw [ids]
  exact joined

section Exact

variable (exact_vec : scans.vec = vecLane engine db mode p)

include exact_vec

theorem ranked_visible {row : ResultRow R} (member : row ∈ ranked engine db mode p scans) :
    ∃ c ∈ visible engine db p, c.id = row.id ∧ c.documentId = row.documentId ∧ c.text = row.text := by
  have listed := (orderBy_perm _ _).mem_iff.mp member
  rcases List.mem_map.mp listed with ⟨⟨f, c⟩, joined, rfl⟩
  rcases mem_join.mp joined with ⟨fusedRow, stored, same⟩
  rcases scanned_retrievable exact_vec fusedRow with ⟨c', stored', id, here, accepted⟩
  have chunks : c' = c := chunk_unique stored' stored (id.trans (of_decide_eq_true same).symm)
  subst chunks
  exact ⟨c', mem_visible.mpr ⟨stored, here, accepted⟩, rfl, rfl, rfl⟩

theorem visible_ranked (uses : mode.usesVector = true)
    (small : (visible engine db p).length ≤ laneLimit) {c : StoredChunk R J}
    (member : c ∈ visible engine db p) :
    ∃ row ∈ ranked engine db mode p scans,
      row.id = c.id ∧ row.documentId = c.documentId ∧ row.text = c.text := by
  rcases vecLane_visible uses small member with ⟨hit, listed, same⟩
  rw [← exact_vec] at listed
  have grouped : ∃ f ∈ fused (lanesOver engine db mode p scans) p.weights, f.id = hit.id :=
    fused_vec listed
  rcases grouped with ⟨f, present, id⟩
  have joined : (f, c) ∈ join (fun f c => decide (c.id = f.id))
      (fused (lanesOver engine db mode p scans) p.weights) db.chunks :=
    mem_join.mpr ⟨present, (mem_visible.mp member).1, decide_eq_true (same.symm.trans id.symm)⟩
  have row := (orderBy_perm (fun row : ResultRow R =>
    toLex (OrderDual.toDual row.score, engine.turn row.id)) _).mem_iff.mpr
      (List.mem_map_of_mem (f := fun m : FusedRow Uuid R × StoredChunk R J =>
        ({ id := m.2.id, documentId := m.2.documentId, text := m.2.text, score := m.1.score,
           sigs := m.1.sigs } : ResultRow R)) joined)
  exact ⟨_, row, rfl, rfl, rfl⟩

/-- A query with room for them returns the visible chunks, each once, and nothing else. -/
theorem query_exhaustive (uses : mode.usesVector = true)
    (small : (visible engine db p).length ≤ laneLimit)
    (room : ((visible engine db p).length : Int) ≤ p.topK) :
    ∃ rows, queryOver engine db mode p scans = .ok rows ∧
      (rows.map (fun row => (row.id, row.documentId, row.text))).Perm
        ((visible engine db p).map (fun c => (c.id, c.documentId, c.text))) := by
  have same : ((ranked engine db mode p scans).map
      (fun row => (row.id, row.documentId, row.text))).Perm
        ((visible engine db p).map (fun c => (c.id, c.documentId, c.text))) := by
    apply (List.perm_ext_iff_of_nodup ?_ ?_).mpr
    · intro columns
      constructor
      · intro listed
        rcases List.mem_map.mp listed with ⟨row, member, rfl⟩
        rcases ranked_visible exact_vec member with ⟨c, seen, id, documentId, text⟩
        exact List.mem_map.mpr ⟨c, seen, by rw [id, documentId, text]⟩
      · intro listed
        rcases List.mem_map.mp listed with ⟨c, member, rfl⟩
        rcases visible_ranked exact_vec uses small member with ⟨row, present, id, documentId, text⟩
        exact List.mem_map.mpr ⟨row, present, by rw [id, documentId, text]⟩
    · apply List.Nodup.of_map Prod.fst
      rw [List.map_map]
      exact ranked_distinct
    · apply List.Nodup.of_map Prod.fst
      rw [List.map_map]
      exact db.chunksPkey.sublist (List.filter_sublist.map _)
  have length : (ranked engine db mode p scans).length = (visible engine db p).length := by
    simpa using same.length_eq
  refine ⟨ranked engine db mode p scans, ?_, same⟩
  have nonneg : ¬ p.topK < 0 := by omega
  have whole : (ranked engine db mode p scans).take p.topK.toNat = ranked engine db mode p scans :=
    List.take_of_length_le (by omega)
  rw [queryOver, limit, if_neg nonneg]
  exact congrArg Except.ok whole

end Exact

end PgRaggraph

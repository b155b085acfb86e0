import PgRaggraph.Retrieval.Lanes

/-! Two databases that hold the same rows of a namespace answer its queries alike, if they hold the
same relationships where the query walks: `walked` asks for no namespace. -/

namespace PgRaggraph

open Bag

variable {R J : Type}

def Database.linksInto (db : Database R J) (ns : String) (m : ChunkEntityRow R) : Bool :=
  db.chunks.any (fun c => c.id == m.chunkId && c.ns == ns)

structure SameNamespace (ns : String) (db db' : Database R J) : Prop where
  chunks : (db.chunks.filter (fun c => c.ns == ns)).Perm (db'.chunks.filter (fun c => c.ns == ns))
  entities : (db.entities.filter (fun e => e.ns == ns)).Perm
    (db'.entities.filter (fun e => e.ns == ns))
  links : (db.chunkEntities.filter (db.linksInto ns)).Perm
    (db'.chunkEntities.filter (db'.linksInto ns))

def relationshipsAt (relationships : List (RelRow R)) (id : Uuid) : List (RelRow R) :=
  relationships.filter (fun r => r.srcId = id ∨ r.dstId = id)

/-- The relationships at every entity that fewer than `hops` relationships join to a seed. -/
def SameWalk (hops : Int) (seeds : List Uuid) (relationships relationships' : List (RelRow R)) :
    Prop :=
  ∀ seed ∈ seeds, ∀ id, ∀ n : Nat, Path relationships seed id n → (n : Int) < hops →
    (relationshipsAt relationships id).Perm (relationshipsAt relationships' id)

section Walk

variable {relationships relationships' : List (RelRow R)} {hops : Int} {seeds : List Uuid}

theorem walkStep_perm {working working' : List WalkRow} (same : working.Perm working') :
    (walkStep relationships hops working).Perm (walkStep relationships hops working') :=
  ((join_perm (.refl relationships) same).filter _).map _

theorem walkStep_local {working : List WalkRow}
    (alike : ∀ w ∈ working, w.d < hops →
      (relationshipsAt relationships w.id).Perm (relationshipsAt relationships' w.id)) :
    (walkStep relationships hops working).Perm (walkStep relationships' hops working) := by
  apply List.Perm.map
  have swapped (rels : List (RelRow R)) :=
    (join_swap (fun r w => r.srcId = w.id ∨ r.dstId = w.id) rels working).filter
      (fun m => m.2.d < hops)
  apply ((swapped relationships).trans _).trans (swapped relationships').symm
  rw [List.filter_flatMap, List.filter_flatMap]
  apply List.Perm.flatMap_left
  intro w member
  rw [List.filter_map, List.filter_map]
  by_cases extended : w.d < hops
  · exact ((alike w member extended).filter _).map _
  · simp [Function.comp_def, extended]

theorem walked_local (same : SameWalk hops seeds relationships relationships') :
    (walked relationships hops seeds).Perm (walked relationships' hops seeds) := by
  rw [walked_levels, walked_levels]
  apply levels_perm
  intro k _
  induction k with
  | zero => exact .refl _
  | succ k ih =>
      rw [Function.iterate_succ_apply', Function.iterate_succ_apply']
      apply List.Perm.trans _ (walkStep_perm (ih (by omega)))
      apply walkStep_local
      intro w reached extended
      rcases (walkStep_walks.level k w).mp reached with ⟨depth, -, seed, chosen, path⟩
      exact same seed chosen w.id k path (by omega)

end Walk

variable {engine : Engine R J} {db db' : Database R J} {mode : Mode} {p : QueryArgs R J}

def placedRows (links : List (ChunkEntityRow R)) (reached : List WalkRow)
    (chunks : List (StoredChunk R J)) : List ((ChunkEntityRow R × WalkRow) × StoredChunk R J) :=
  join (fun l c => c.id = l.1.chunkId) (join (fun m w => m.entityId = w.id) links reached) chunks

theorem namespace_links (ns : String) (reached : List WalkRow) :
    placedRows (db.chunkEntities.filter (db.linksInto ns)) reached
        (db.chunks.filter (fun c => c.ns == ns)) =
      placedRows db.chunkEntities reached (db.chunks.filter (fun c => c.ns == ns)) := by
  rw [placedRows, placedRows, join_filter_left _ (db.linksInto ns) db.chunkEntities]
  apply join_matched
  intro l _ c member same
  rw [List.mem_filter, beq_iff_eq] at member
  apply List.any_eq_true.mpr
  exact ⟨c, member.1, by simpa [member.2] using same⟩

theorem graphMatches_namespace (seeds : List Uuid) :
    graphMatches engine db mode p seeds =
      ((placedRows (db.chunkEntities.filter (db.linksInto p.ns))
        (walked db.relationships p.hops seeds) (db.chunks.filter (fun c => c.ns == p.ns))).filter
          (fun m => mode.usesGraph && passes engine p m.2 && decide (1 ≤ p.hops))).map
        (fun m => m.1.1.chunkId) := by
  rw [namespace_links, placedRows, join_filter_right, List.filter_filter, graphMatches]
  apply congrArg (List.map _)
  apply List.filter_congr
  intro m _
  cases mode.usesGraph
  · simp
  · cases m.2.ns == p.ns
    · simp
    · simp

theorem orderBy_turn {α κ : Type} [LinearOrder κ] (engine : Engine R J) {score : α → κ}
    (id : α → Uuid) {rows rows' : List α} (same : rows.Perm rows')
    (unique : ∀ a ∈ rows, ∀ b ∈ rows, id a = id b → a = b) :
    orderBy (fun a => toLex (score a, engine.turn (id a))) rows =
      orderBy (fun a => toLex (score a, engine.turn (id a))) rows' := by
  apply orderBy_congr same
  intro a member b member' equal
  have turns : engine.turn (id a) = engine.turn (id b) := congrArg (fun k => (ofLex k).2) equal
  exact unique a member b member' (engine.turn_injective turns)

theorem graphMatches_alike (same : SameNamespace p.ns db db') {seeds : List Uuid}
    (walk : SameWalk p.hops seeds db.relationships db'.relationships) :
    (graphMatches engine db mode p seeds).Perm (graphMatches engine db' mode p seeds) := by
  rw [graphMatches_namespace, graphMatches_namespace]
  apply List.Perm.map
  apply List.Perm.filter
  exact join_perm (join_perm same.links (walked_local walk)) same.chunks

theorem graphGroups_alike (same : SameNamespace p.ns db db') {seeds : List Uuid}
    (walk : SameWalk p.hops seeds db.relationships db'.relationships) :
    graphGroups engine db mode p seeds = graphGroups engine db' mode p seeds := by
  have matched : (graphMatches engine db mode p seeds).Perm (graphMatches engine db' mode p seeds) :=
    graphMatches_alike same walk
  have grouped : (groupBy id (graphMatches engine db mode p seeds)).Perm
      (groupBy id (graphMatches engine db' mode p seeds)) := by
    apply groupBy_perm matched
    intro k
    simp only [id]
    rw [List.filter_eq, List.filter_eq, matched.count_eq]
  rw [graphGroups, graphGroups, orderBy_turn engine Prod.fst grouped]
  intro g member g' member' ids
  rcases g with ⟨k, group⟩
  rcases g' with ⟨k', group'⟩
  have ids : k = k' := ids
  rw [(mem_groupBy.mp member).2, (mem_groupBy.mp member').2, ids]

section Ordered

variable [LinearOrder R]

theorem vecLane_alike (same : SameNamespace p.ns db db') :
    vecLane engine db mode p = vecLane engine db' mode p := by
  have hits : (vecHits engine db mode p).Perm (vecHits engine db' mode p) := by
    apply filter_narrow same.chunks
    intro c hit
    simp only [Bool.and_eq_true] at hit
    exact hit.1.2
  rw [vecLane, vecLane, orderBy_turn engine (·.id) hits]
  intro c member c' member' ids
  exact chunk_unique (List.mem_of_mem_filter member) (List.mem_of_mem_filter member') ids

theorem bmLane_alike (same : SameNamespace p.ns db db') :
    bmLane engine db mode p = bmLane engine db' mode p := by
  have hits : (bmHits engine db mode p).Perm (bmHits engine db' mode p) := by
    apply filter_narrow same.chunks
    intro c hit
    simp only [Bool.and_eq_true] at hit
    exact hit.1.2
  rw [bmLane, bmLane, orderBy_turn engine (·.id) hits]
  intro c member c' member' ids
  exact chunk_unique (List.mem_of_mem_filter member) (List.mem_of_mem_filter member') ids

variable [Div R] [IntCast R]

theorem seeds_alike (same : SameNamespace p.ns db db') :
    seeds engine db p = seeds engine db' p := by
  have hits : (seedHits engine db p).Perm (seedHits engine db' p) := by
    apply filter_narrow same.entities
    intro e hit
    simp only [Bool.and_eq_true] at hit
    exact hit.1
  rw [seeds, seeds, orderBy_turn engine (·.id) hits]
  intro e member e' member' ids
  exact entity_unique (List.mem_of_mem_filter member) (List.mem_of_mem_filter member') ids

theorem lanes_alike (same : SameNamespace p.ns db db')
    (walk : SameWalk p.hops (seeds engine db p) db.relationships db'.relationships) :
    lanes engine db mode p = lanes engine db' mode p := by
  rw [lanes, lanes, vecLane_alike same, bmLane_alike same, graphLane, graphLane,
    graphGroups_alike same walk, seeds_alike same]

variable [Zero R] [Add R] [Mul R]

theorem selected_namespace :
    selected db (fused (lanes engine db mode p) p.weights) =
      (join (fun f c => c.id = f.id) (fused (lanes engine db mode p) p.weights)
        (db.chunks.filter (fun c => c.ns == p.ns))).map (fun m =>
          { id := m.2.id, documentId := m.2.documentId, text := m.2.text, score := m.1.score,
            sigs := m.1.sigs }) := by
  rw [selected, join_filter_right]
  apply congrArg (List.map _)
  symm
  apply List.filter_eq_self.mpr
  intro m member
  rcases m with ⟨f, c⟩
  rcases mem_join.mp member with ⟨fusedRow, stored, same⟩
  rcases fused_retrievable fusedRow with ⟨c', stored', same', here, -⟩
  rw [chunk_unique stored stored' ((of_decide_eq_true same).trans same'.symm)]
  exact beq_iff_eq.mpr here

/-- The answer of a query depends on the rows of its namespace and on the relationships it walks. -/
theorem query_alike (same : SameNamespace p.ns db db')
    (walk : SameWalk p.hops (seeds engine db p) db.relationships db'.relationships) :
    query engine db mode p = query engine db' mode p := by
  have listed : lanes engine db mode p = lanes engine db' mode p := lanes_alike same walk
  have rows : (selected db (fused (lanes engine db mode p) p.weights)).Perm
      (selected db' (fused (lanes engine db' mode p) p.weights)) := by
    rw [selected_namespace, selected_namespace, listed]
    exact (join_perm (.refl _) same.chunks).map _
  rw [query, query, ranking, ranking, orderBy_turn engine (·.id) rows]
  intro row member row' member' ids
  exact selected_unique (fused_nodup _ _) member member' ids

end Ordered

end PgRaggraph

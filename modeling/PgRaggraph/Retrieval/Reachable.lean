import PgRaggraph.Extension.Worker
import PgRaggraph.Retrieval.Isolation

/-! The databases that `pgrg.ingest`, `pgrg.ingest_extracted` and the admin functions can leave, and
what of them a query in one namespace can tell. -/

namespace PgRaggraph

open Interaction

variable {R J : Type}

structure Stored (R J : Type) where
  tables : Tables R
  metadata : Uuid → J

structure Tables.Keyed (tables : Tables R) : Prop where
  chunks : (tables.chunks.map (·.id)).Nodup
  entities : (tables.entities.map (·.id)).Nodup

def Stored.database (s : Stored R J) (keyed : s.tables.Keyed) : Database R J where
  chunks := s.tables.chunks.map (fun c =>
    { id := c.id, documentId := c.documentId, ns := c.ns, text := c.text,
      embedding := some c.embedding, metadata := s.metadata c.id })
  entities := s.tables.entities
  relationships := s.tables.relationships
  chunkEntities := s.tables.chunkEntities
  chunksPkey := by
    rw [List.map_map]
    exact keyed.chunks
  entitiesPkey := keyed.entities

/-- A record of a fixture file. Its own `namespace` is overridden by the argument of the load. -/
inductive FixtureRecord (R J : Type) where
  | document (doc : DocRow)
  | chunk (chunk : ChunkRow R) (metadata : J)
  | entity (row : EntityRow R)
  | relationship (row : RelRow R)
  | chunkEntity (row : ChunkEntityRow R)

namespace Stored

def added (s : Stored R J) (outcome : Unit × Tables R) : Stored R J :=
  { s with tables := s.tables ++ outcome.2 }

def addedChunk (s : Stored R J) (id : Uuid) (metadata : J) (outcome : Unit × Tables R) :
    Stored R J :=
  { tables := s.tables ++ outcome.2
    metadata := fun other =>
      if other = id ∧ outcome.2.chunks ≠ [] then metadata else s.metadata other }

end Stored

def loadRecord (ns : String) (s : Stored R J) : FixtureRecord R J → Except PgError (Stored R J)
  | .document doc => (insertDocumentInto s.tables { doc with ns := ns }).map s.added
  | .chunk chunk metadata =>
      (insertChunkInto s.tables { chunk with ns := ns }).map (s.addedChunk chunk.id metadata)
  | .entity row => (insertEntityInto s.tables { row with ns := ns }).map s.added
  | .relationship row =>
      (insertRelationshipInto s.tables { row with ns := ns, description := none }).map s.added
  | .chunkEntity row => (insertChunkEntityInto s.tables row).map s.added

/-- `refuses` is what PostgreSQL says of the values of a record: a vector of another dimension, a
NUL byte. -/
def loadLine (refuses : FixtureRecord R J → Option String) (ns : String) (s : Stored R J)
    (record : FixtureRecord R J) : Except PgError (Stored R J) :=
  match refuses record with
  | some message => .error (.dataException message)
  | none => loadRecord ns s record

def ingestExtracted (refuses : FixtureRecord R J → Option String) (records : List (FixtureRecord R J))
    (ns : String) (s : Stored R J) : Except PgError (Stored R J × Nat) :=
  (records.foldlM (loadLine refuses ns) s).map (fun loaded => (loaded, records.length))

/-- The foreign keys of `pgrg.chunks` and `pgrg.chunk_entities` cascade. -/
def deleteDocuments (gone : DocRow → Bool) (tables : Tables R) : Tables R :=
  let documents := tables.documents.filter gone
  let chunks := tables.chunks.filter (fun c => documents.any (fun d => d.id == c.documentId))
  { tables with
    documents := tables.documents.filter (fun d => !gone d)
    chunks := tables.chunks.filter (fun c => !documents.any (fun d => d.id == c.documentId))
    chunkEntities := tables.chunkEntities.filter (fun m => !chunks.any (fun c => c.id == m.chunkId)) }

def deleteDocument (id : Uuid) (tables : Tables R) : Tables R :=
  deleteDocuments (fun d => d.id == id) tables

def namespaceCreate (name : String) (tables : Tables R) : Tables R :=
  { tables with
    namespaces := if name ∈ tables.namespaces then tables.namespaces else tables.namespaces ++ [name] }

/-- `pgrg.documents.namespace` cascades; entities and relationships are left. -/
def deleteNamespace (name : String) (tables : Tables R) : Tables R :=
  { deleteDocuments (fun d => d.ns == name) tables with
    namespaces := tables.namespaces.filter (fun other => other != name) }

def namespaceDrop (name : String) (cascade : Bool) (tables : Tables R) : Except String (Tables R) :=
  if cascade then .ok (deleteNamespace name tables)
  else if tables.documents.any (fun d => d.ns == name) then
    .error s!"namespace \x60{name}\x60 has documents; pass cascade := true to delete"
  else .ok (deleteNamespace name tables)

section Reachable

variable [F32 R]

/-- A claimed job of `pgrg.ingest` is run and committed. Its chunks take the default metadata. -/
def afterJob (emptyObject : J) (rt : Runtime) (srv : Server R) (env : Environment R)
    (job : ClaimedJob) (s : Stored R J) : Stored R J where
  tables := (runClaimed rt srv env s.tables job).2
  metadata := fun id => if id ∈ s.tables.chunks.map (·.id) then s.metadata id else emptyObject

/-- The states the functions of the extension lead to, from the one `001_tables.sql` leaves. -/
inductive Reachable (emptyObject : J) : Stored R J → Prop where
  | created : Reachable emptyObject ⟨{ namespaces := ["default"] }, fun _ => emptyObject⟩
  | ingested {s : Stored R J} (before : Reachable emptyObject s) (rt : Runtime) (srv : Server R)
      (env : Environment R) (job : ClaimedJob) :
      Reachable emptyObject (afterJob emptyObject rt srv env job s)
  | loaded {s t : Stored R J} {count : Nat} (before : Reachable emptyObject s)
      (refuses : FixtureRecord R J → Option String) (records : List (FixtureRecord R J))
      (ns : String) (loads : ingestExtracted refuses records ns s = .ok (t, count)) :
      Reachable emptyObject t
  | namespaceCreated {s : Stored R J} (before : Reachable emptyObject s) (name : String) :
      Reachable emptyObject { s with tables := namespaceCreate name s.tables }
  | namespaceDropped {s : Stored R J} {tables : Tables R} (before : Reachable emptyObject s)
      (name : String) (cascade : Bool) (drops : namespaceDrop name cascade s.tables = .ok tables) :
      Reachable emptyObject { s with tables := tables }
  | documentDeleted {s : Stored R J} (before : Reachable emptyObject s) (id : Uuid) :
      Reachable emptyObject { s with tables := deleteDocument id s.tables }

end Reachable

section Keys

variable {tables : Tables R}

theorem nodup_snoc {α : Type} {f : α → Uuid} {rows : List α} {row : α} (distinct : (rows.map f).Nodup)
    (fresh : ∀ other ∈ rows, f other ≠ f row) : ((rows ++ [row]).map f).Nodup := by
  rw [List.map_append]
  apply List.nodup_append.mpr
  refine ⟨distinct, List.nodup_singleton _, ?_⟩
  intro id member last only
  rcases List.mem_map.mp member with ⟨other, listed, rfl⟩
  rw [List.mem_singleton.mp only]
  exact fresh other listed

theorem Tables.Keyed.untouched (keyed : tables.Keyed) {delta : Tables R} (chunks : delta.chunks = [])
    (entities : delta.entities = []) : (tables ++ delta).Keyed := by
  constructor
  · rw [Tables.append_chunks, chunks, List.append_nil]
    exact keyed.chunks
  · rw [Tables.append_entities, entities, List.append_nil]
    exact keyed.entities

theorem insertInto_keyed (keyed : tables.Keyed) {arbiter : Bool} {duplicateKey : Bool × Constraint}
    {references : List (Bool × Constraint)} {row : Tables R} {outcome : Unit × Tables R}
    (chunks : row.chunks = []) (entities : row.entities = [])
    (inserted : insertInto arbiter duplicateKey references row = .ok outcome) :
    (tables ++ outcome.2).Keyed := by
  rcases insertInto_added inserted with ⟨-, dropped⟩ | ⟨-, -, -, stored⟩
  · rw [dropped]
    exact keyed.untouched rfl rfl
  · rw [stored]
    exact keyed.untouched chunks entities

theorem insertChunk_keyed (keyed : tables.Keyed) {chunk : ChunkRow R} {outcome : Unit × Tables R}
    (inserted : insertChunkInto tables chunk = .ok outcome) : (tables ++ outcome.2).Keyed := by
  rcases insertInto_added inserted with ⟨-, dropped⟩ | ⟨-, distinct, -, stored⟩
  · rw [dropped]
    exact keyed.untouched rfl rfl
  · rw [stored]
    refine ⟨nodup_snoc keyed.chunks ?_, by simpa using keyed.entities⟩
    simpa [List.any_eq_false] using distinct

theorem insertEntity_keyed (keyed : tables.Keyed) {row : EntityRow R} {outcome : Unit × Tables R}
    (inserted : insertEntityInto tables row = .ok outcome) : (tables ++ outcome.2).Keyed := by
  rw [insertEntityInto] at inserted
  rcases insertInto_added inserted with ⟨-, dropped⟩ | ⟨-, distinct, -, stored⟩
  · rw [dropped]
    exact keyed.untouched rfl rfl
  · rw [stored]
    refine ⟨by simpa using keyed.chunks, nodup_snoc keyed.entities ?_⟩
    simpa [List.any_eq_false] using distinct

theorem deleteDocuments_keyed (keyed : tables.Keyed) (gone : DocRow → Bool) :
    (deleteDocuments gone tables).Keyed where
  chunks := keyed.chunks.sublist (List.filter_sublist.map _)
  entities := keyed.entities

theorem map_ok {ε α β : Type} {f : α → β} {result : Except ε α} {b : β}
    (mapped : result.map f = .ok b) : ∃ a, result = .ok a ∧ f a = b := by
  cases result with
  | error e => cases mapped
  | ok a => exact ⟨a, rfl, Except.ok.inj mapped⟩

section Fold

variable {ε α β : Type} {f : β → α → Except ε β} {b c : β} {a : α} {as : List α}

theorem foldlM_cons_ok (ran : (a :: as).foldlM f b = .ok c) :
    ∃ middle, f b a = .ok middle ∧ as.foldlM f middle = .ok c := by
  rw [List.foldlM_cons] at ran
  cases stepped : f b a with
  | error e =>
      rw [stepped] at ran
      cases ran
  | ok middle =>
      rw [stepped] at ran
      exact ⟨middle, rfl, ran⟩

theorem foldlM_invariant (holds : β → Prop)
    (step : ∀ b a c, holds b → f b a = .ok c → holds c) (start : holds b)
    (ran : as.foldlM f b = .ok c) : holds c := by
  induction as generalizing b with
  | nil =>
      cases ran
      exact start
  | cons a as ih =>
      rcases foldlM_cons_ok ran with ⟨middle, first, rest⟩
      exact ih (step b a middle start first) rest

end Fold

theorem loadLine_keyed {refuses : FixtureRecord R J → Option String} {ns : String} {s t : Stored R J}
    {record : FixtureRecord R J} (keyed : s.tables.Keyed)
    (loads : loadLine refuses ns s record = .ok t) : t.tables.Keyed := by
  rw [loadLine] at loads
  split at loads
  · cases loads
  cases record with
  | document doc =>
      rcases map_ok loads with ⟨outcome, inserted, rfl⟩
      exact insertInto_keyed keyed rfl rfl inserted
  | chunk chunk metadata =>
      rcases map_ok loads with ⟨outcome, inserted, rfl⟩
      exact insertChunk_keyed keyed inserted
  | entity row =>
      rcases map_ok loads with ⟨outcome, inserted, rfl⟩
      exact insertEntity_keyed keyed inserted
  | relationship row =>
      rcases map_ok loads with ⟨outcome, inserted, rfl⟩
      exact insertInto_keyed keyed rfl rfl inserted
  | chunkEntity row =>
      rcases map_ok loads with ⟨outcome, inserted, rfl⟩
      exact insertInto_keyed keyed rfl rfl inserted

theorem loads_keyed {refuses : FixtureRecord R J → Option String} {ns : String}
    {records : List (FixtureRecord R J)} {s t : Stored R J} (keyed : s.tables.Keyed)
    (loads : records.foldlM (loadLine refuses ns) s = .ok t) : t.tables.Keyed :=
  foldlM_invariant (fun s : Stored R J => s.tables.Keyed)
    (fun _ _ _ keyed line => loadLine_keyed keyed line) keyed loads

variable [F32 R] {srv : Server R} {env : Environment R}

theorem evaluate_keyed {visible : Tables R} (keyed : visible.Keyed) {request : ClientCall R}
    {outcome : request.Value × Tables R} (evaluated : evaluate srv visible request = .ok outcome) :
    (visible ++ outcome.2).Keyed := by
  cases request with
  | insertDocument doc => exact insertInto_keyed keyed rfl rfl evaluated
  | insertChunk chunk => exact insertChunk_keyed keyed evaluated
  | insertEntity row => exact insertEntity_keyed keyed evaluated
  | insertRelationship row => exact insertInto_keyed keyed rfl rfl evaluated
  | insertChunkEntity row => exact insertInto_keyed keyed rfl rfl evaluated
  | documentExistsByHash ns contentHash =>
      cases evaluated
      exact keyed.untouched rfl rfl
  | fuzzyMatchEntity ns name limit =>
      cases evaluated
      exact keyed.untouched rfl rfl
  | rollback =>
      cases evaluated
      exact keyed.untouched rfl rfl
  | commit =>
      cases evaluated
      exact keyed.untouched rfl rfl

theorem statement_keyed {committed : Tables R} {tx after : Transaction R} {request : ClientCall R}
    {value : request.Value} (keyed : (committed ++ tx.own).Keyed)
    (executed : statement srv committed tx request = .ok (value, after)) :
    (committed ++ after.own).Keyed := by
  by_cases silent : request.silent = true
  · rw [statement, if_pos silent] at executed
    rcases map_ok executed with ⟨outcome, -, same⟩
    cases same
    exact keyed
  · rw [Bool.not_eq_true] at silent
    rcases statement_succeeds silent executed with ⟨-, -, delta, evaluated, rfl⟩
    have grown := evaluate_keyed keyed evaluated
    rwa [Tables.append_assoc] at grown

theorem handler_keyed {committed : Tables R} {request : Call R} {session after : Session R}
    {answer : request.Answer} (keyed : (committed ++ session.tx.own).Keyed)
    (answered : Adapter.spi.handler srv env committed request session = .ok (answer, after)) :
    (committed ++ after.tx.own).Keyed := by
  cases request with
  | env request =>
      cases answered
      exact keyed
  | client request =>
      simp only [Adapter.handler] at answered
      split at answered
      · rename_i reply tx performed
        cases answered
        rcases spi_answers performed with ⟨value, rfl, executed⟩
        exact statement_keyed keyed executed
      · cases answered

theorem runClaimed_keyed {rt : Runtime} {job : ClaimedJob} (keyed : tables.Keyed) :
    (runClaimed rt srv env tables job).2.Keyed := by
  have start : (tables ++ ({} : Session R).tx.own).Keyed := by
    rw [Tables.append_empty]
    exact keyed
  rw [runClaimed]
  rcases ended : spiRun rt srv env tables (buildRequest job) with e | ⟨result, session⟩
  · exact keyed
  · exact Program.run_invariant
      (fun request before answer after holds answered => handler_keyed holds answered) _ start ended

theorem Reachable.keyed {emptyObject : J} {s : Stored R J} (reachable : Reachable emptyObject s) :
    s.tables.Keyed := by
  induction reachable with
  | created => exact ⟨List.nodup_nil, List.nodup_nil⟩
  | ingested before rt srv env job ih => exact runClaimed_keyed ih
  | loaded before refuses records ns loads ih =>
      rcases map_ok loads with ⟨last, folded, same⟩
      cases same
      exact loads_keyed ih folded
  | namespaceCreated before name ih => exact ⟨ih.chunks, ih.entities⟩
  | namespaceDropped before name cascade drops ih =>
      rw [namespaceDrop] at drops
      split at drops
      · cases drops
        exact ⟨(deleteDocuments_keyed ih _).chunks, ih.entities⟩
      · split at drops
        · cases drops
        · cases drops
          exact ⟨(deleteDocuments_keyed ih _).chunks, ih.entities⟩
  | documentDeleted before id ih => exact deleteDocuments_keyed ih _

end Keys

structure AgreeOn (ns : String) (s t : Stored R J) : Prop where
  documents : (s.tables.documents.filter (fun d => d.ns == ns)).Perm
    (t.tables.documents.filter (fun d => d.ns == ns))
  chunks : ((s.tables.chunks.filter (fun c => c.ns == ns)).map (fun c => (c, s.metadata c.id))).Perm
    ((t.tables.chunks.filter (fun c => c.ns == ns)).map (fun c => (c, t.metadata c.id)))
  entities : (s.tables.entities.filter (fun e => e.ns == ns)).Perm
    (t.tables.entities.filter (fun e => e.ns == ns))
  relationships : (s.tables.relationships.filter (fun r => r.ns == ns)).Perm
    (t.tables.relationships.filter (fun r => r.ns == ns))
  links : (s.tables.chunkEntities.filter (fun m =>
      s.tables.chunks.any (fun c => c.id == m.chunkId && c.ns == ns))).Perm
    (t.tables.chunkEntities.filter (fun m =>
      t.tables.chunks.any (fun c => c.id == m.chunkId && c.ns == ns)))

section Agreement

variable {ns : String} {s t : Stored R J}

theorem AgreeOn.sameNamespace (agree : AgreeOn ns s t) (keyed : s.tables.Keyed)
    (keyed' : t.tables.Keyed) : SameNamespace ns (s.database keyed) (t.database keyed') where
  chunks := by
    have columns := agree.chunks.map (fun m : ChunkRow R × J =>
      ({ id := m.1.id, documentId := m.1.documentId, ns := m.1.ns, text := m.1.text,
         embedding := some m.1.embedding, metadata := m.2 } : StoredChunk R J))
    rw [List.map_map, List.map_map] at columns
    rw [Stored.database, Stored.database, List.filter_map, List.filter_map]
    exact columns
  entities := agree.entities
  links := by
    have into (u : Stored R J) (k : u.tables.Keyed) : (u.database k).linksInto ns =
        fun m => u.tables.chunks.any (fun c => c.id == m.chunkId && c.ns == ns) := by
      funext m
      rw [Database.linksInto, Stored.database, List.any_map]
      rfl
    rw [into, into]
    exact agree.links

theorem AgreeOn.walked (agree : AgreeOn ns s t) {id : Uuid}
    (foreign : ((relationshipsAt s.tables.relationships id).filter (fun r => r.ns != ns)).Perm
      ((relationshipsAt t.tables.relationships id).filter (fun r => r.ns != ns))) :
    (relationshipsAt s.tables.relationships id).Perm
      (relationshipsAt t.tables.relationships id) := by
  have own : ((relationshipsAt s.tables.relationships id).filter (fun r => r.ns == ns)).Perm
      ((relationshipsAt t.tables.relationships id).filter (fun r => r.ns == ns)) := by
    have narrowed (rows : List (RelRow R)) : (relationshipsAt rows id).filter (fun r => r.ns == ns) =
        relationshipsAt (rows.filter (fun r => r.ns == ns)) id := List.filter_comm _ _ _
    rw [narrowed, narrowed]
    exact agree.relationships.filter _
  have split (rows : List (RelRow R)) :
      (rows.filter (fun r => r.ns == ns) ++ rows.filter (fun r => r.ns != ns)).Perm rows :=
    List.filter_append_perm (fun r => r.ns == ns) rows
  exact ((split _).symm.trans (own.append foreign)).trans (split _)

/-- Queries in a namespace do not tell apart two states that agree on its rows and on the foreign
relationships that the walk meets. -/
theorem retrieval_isolated [F32 R] [IntCast R] [LinearOrder R] {emptyObject : J}
    (hs : Reachable emptyObject s) (ht : Reachable emptyObject t) (engine : Engine R J) (mode : Mode)
    (p : QueryArgs R J) (agree : AgreeOn p.ns s t)
    (walk : ∀ seed ∈ seeds engine (s.database hs.keyed) p, ∀ id, ∀ n : Nat,
      Path s.tables.relationships seed id n → (n : Int) < p.hops →
        ((relationshipsAt s.tables.relationships id).filter (fun r => r.ns != p.ns)).Perm
          ((relationshipsAt t.tables.relationships id).filter (fun r => r.ns != p.ns))) :
    query engine (s.database hs.keyed) mode p = query engine (t.database ht.keyed) mode p := by
  apply query_alike (agree.sameNamespace hs.keyed ht.keyed)
  intro seed chosen id n path bounded
  exact agree.walked (walk seed chosen id n path bounded)

end Agreement

section Sample

def ownFixture : List (FixtureRecord Milli String) :=
  [.document { id := 100, ns := "", source := "notes", contentHash := "h", title := none },
    .chunk { id := 10, documentId := 100, ns := "", ord := 0, text := "", tokenCount := 0,
             embedding := [⟨0⟩] } "{}",
    .entity { id := 1, ns := "", name := "Ann", kind := none, nameEmb := some [⟨0⟩],
              description := none },
    .entity { id := 2, ns := "", name := "Bob", kind := none, nameEmb := some [⟨1000⟩],
              description := none },
    .chunkEntity ⟨10, 2, ⟨1000⟩⟩]

def foreignFixture : List (FixtureRecord Milli String) := [.relationship (.sample 3 1 2)]

def ownTables : Tables Milli where
  namespaces := ["default"]
  documents := [{ id := 100, ns := "default", source := "notes", contentHash := "h", title := none }]
  chunks := [{ id := 10, documentId := 100, ns := "default", ord := 0, text := "", tokenCount := 0,
               embedding := [⟨0⟩] }]
  entities := [{ id := 1, ns := "default", name := "Ann", kind := none, nameEmb := some [⟨0⟩],
                 description := none },
    { id := 2, ns := "default", name := "Bob", kind := none, nameEmb := some [⟨1000⟩],
      description := none }]
  chunkEntities := [⟨10, 2, ⟨1000⟩⟩]

def ownStored : Stored Milli String := ⟨ownTables, fun _ => "{}"⟩

def foreignStored : Stored Milli String :=
  ⟨{ ownTables with relationships := [{ RelRow.sample 3 1 2 with ns := "other" }] }, fun _ => "{}"⟩

theorem own_loads : ingestExtracted (fun _ => none) ownFixture "default"
    ⟨{ namespaces := ["default"] }, fun _ => "{}"⟩ = .ok (ownStored, 5) := by
  have metadata : (fun other : Uuid => if other = 10 ∧ ownTables.chunks ≠ [] then "{}" else "{}") =
      fun _ => "{}" := by
    funext other
    exact ite_self _
  have loaded : ownStored = ⟨ownTables,
      fun other => if other = 10 ∧ ownTables.chunks ≠ [] then "{}" else "{}"⟩ := by
    rw [metadata]
    rfl
  rw [loaded]
  rfl

theorem foreign_loads : ingestExtracted (fun _ => none) foreignFixture "other" ownStored =
    .ok (foreignStored, 1) := rfl

theorem own_reachable : Reachable "{}" ownStored :=
  .loaded .created (fun _ => none) ownFixture "default" own_loads

theorem foreign_reachable : Reachable "{}" foreignStored :=
  .loaded own_reachable (fun _ => none) foreignFixture "other" foreign_loads

theorem own_agrees : AgreeOn "default" ownStored foreignStored := by
  constructor
  · exact .refl _
  · exact .refl _
  · exact .refl _
  · exact .refl _
  · exact .refl _

/-- A relationship of another namespace brings chunk 10 into the answer. -/
theorem foreign_relationship_found :
    ∃ (s t : Stored Milli String) (hs : Reachable "{}" s) (ht : Reachable "{}" t),
      AgreeOn "default" s t ∧
        query .sample (s.database hs.keyed) .graph .sample ≠
          query .sample (t.database ht.keyed) .graph .sample := by
  refine ⟨ownStored, foreignStored, own_reachable, foreign_reachable, own_agrees, ?_⟩
  have alone : query .sample (ownStored.database own_reachable.keyed) .graph .sample = .ok [] := by
    decide +kernel
  have joined : query .sample (foreignStored.database foreign_reachable.keyed) .graph .sample ≠
      .ok [] := by
    decide +kernel
  rw [alone]
  exact joined.symm

def distantFixture : List (FixtureRecord Milli String) :=
  [.entity { id := 20, ns := "", name := "Eve", kind := none, nameEmb := none, description := none },
    .relationship (.sample 3 20 2)]

def distantStored : Stored Milli String :=
  ⟨{ ownTables with
      entities := ownTables.entities ++ [{ id := 20, ns := "other", name := "Eve", kind := none,
                                           nameEmb := none, description := none }]
      relationships := [{ RelRow.sample 3 20 2 with ns := "other" }] }, fun _ => "{}"⟩

theorem distant_loads : ingestExtracted (fun _ => none) distantFixture "other" ownStored =
    .ok (distantStored, 2) := rfl

theorem distant_reachable : Reachable "{}" distantStored :=
  .loaded own_reachable (fun _ => none) distantFixture "other" distant_loads

theorem distant_agrees : AgreeOn "default" ownStored distantStored := by
  constructor
  · exact .refl _
  · exact .refl _
  · decide
  · exact .refl _
  · exact .refl _

theorem distant_relationship_ignored :
    query .sample (ownStored.database own_reachable.keyed) .graph .sample =
      query .sample (distantStored.database distant_reachable.keyed) .graph .sample := by
  apply retrieval_isolated own_reachable distant_reachable .sample .graph .sample distant_agrees
  intro seed chosen id n path bounded
  have near : seeds .sample (ownStored.database own_reachable.keyed) .sample = [1] := by
    decide +kernel
  rw [near] at chosen
  cases path with
  | nil =>
      rw [List.mem_singleton.mp chosen]
      decide
  | snoc path stored joins => cases stored

end Sample

end PgRaggraph

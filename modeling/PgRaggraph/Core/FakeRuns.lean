import PgRaggraph.Core.RunRules

/-! Sequences of `run_job` calls over `FakePgClient`. -/

namespace PgRaggraph

open Interaction Interaction.Fallible

namespace FakePgClient

variable {R : Type}

def withChunkWriteFailureAt (client : FakePgClient R) (n : Nat) : FakePgClient R :=
  { client with chunkFailAt := some n }

section Runs

variable [F32 R]

def handler (rt : Runtime) (env : Environment R) : Handler (Ingest R) (FakePgClient R × Nat) Empty
  | .env request, (client, tick) => .ok (env.answer tick request, client, tick + 1)
  | .client request, (client, tick) =>
      .ok ((client.handle rt request).1, (client.handle rt request).2, tick)

def perform {α : Type} (rt : Runtime) (env : Environment R) (p : Program (Ingest R) α)
    (state : FakePgClient R × Nat) : α × (FakePgClient R × Nat) :=
  match Program.run (handler rt env) p state with
  | .ok finished => finished
  | .error never => never.elim

def runJob (rt : Runtime) (env : Environment R) (state : FakePgClient R × Nat)
    (req : IngestRequest) : CoreResult RunJobOutcome × (FakePgClient R × Nat) :=
  match Program.run (handler rt env) (PgRaggraph.runJob rt req).run state with
  | .ok finished => finished
  | .error never => never.elim

structure Attempt where
  injected : Option Nat
  request : IngestRequest

def attempt (rt : Runtime) (env : Environment R) (state : FakePgClient R × Nat) (a : Attempt) :
    CoreResult RunJobOutcome × (FakePgClient R × Nat) :=
  match a.injected with
  | some n => runJob rt env (state.1.withChunkWriteFailureAt n, state.2) a.request
  | none => runJob rt env state a.request

def attempts (rt : Runtime) (env : Environment R) (calls : List Attempt) : FakePgClient R × Nat :=
  calls.foldl (fun state a => (attempt rt env state a).2) ({}, 0)

variable (rt : Runtime) (env : Environment R)

@[simp] theorem spec_env (request : EnvCall) (client : FakePgClient R) (tick : Nat)
    (post : request.Answer R → FakePgClient R × Nat → Prop) :
    (handler rt env).spec (.env request) (client, tick) post ↔
      post (env.answer tick request) (client, tick + 1) := Iff.rfl

@[simp] theorem spec_client (request : ClientCall R) (client : FakePgClient R) (tick : Nat)
    (post : CoreResult request.Value → FakePgClient R × Nat → Prop) :
    (handler rt env).spec (.client request) (client, tick) post ↔
      post (client.handle rt request).1 ((client.handle rt request).2, tick) := Iff.rfl

theorem perform_meets {α : Type} {post : α → FakePgClient R × Nat → Prop}
    (p : Program (Ingest R) α) (state : FakePgClient R × Nat)
    (meets : Program.wp (handler rt env).spec p state post) :
    post (perform rt env p state).1 (perform rt env p state).2 := by
  have finished := (Program.wp_run _ _ _ _).mp meets
  rw [perform]
  split
  · rename_i result ended
    exact finished result.1 result.2 ended
  · rename_i never _
    exact never.elim

theorem runJob_meets {post : CoreResult RunJobOutcome → FakePgClient R × Nat → Prop}
    (req : IngestRequest) (state : FakePgClient R × Nat)
    (meets : Program.wp (handler rt env).spec (PgRaggraph.runJob rt req).run state post) :
    post (runJob rt env state req).1 (runJob rt env state req).2 := by
  have same : runJob rt env state req = perform rt env (PgRaggraph.runJob rt req).run state := by
    rw [runJob, perform]
    cases Program.run (handler rt env) (PgRaggraph.runJob rt req).run state with
    | ok finished => rfl
    | error never => exact never.elim
  rw [same]
  exact perform_meets rt env _ state meets

end Runs

structure Flushed (client : FakePgClient R) : Prop where
  documents : client.bufferedDocuments = []
  chunks : client.bufferedChunks = []
  entities : client.bufferedEntities = []
  relationships : client.bufferedRelationships = []
  chunkEntities : client.bufferedChunkEntities = []

structure SameTables (before after : FakePgClient R) : Prop where
  documents : after.documents = before.documents
  chunks : after.chunks = before.chunks
  entities : after.entities = before.entities
  relationships : after.relationships = before.relationships
  chunkEntities : after.chunkEntities = before.chunkEntities

def StoredEntity (entities : List (EntityRow R)) (ns : String) (id : Uuid) : Prop :=
  ∃ e ∈ entities, e.id = id ∧ e.ns = ns

structure Consistent (client : FakePgClient R) : Prop where
  documents_unique : client.documents.Pairwise
    (fun a b => ¬ (a.ns = b.ns ∧ a.contentHash = b.contentHash))
  chunk_document : ∀ chunk ∈ client.chunks,
    ∃ doc ∈ client.documents, doc.id = chunk.documentId ∧ doc.ns = chunk.ns
  link_stored : ∀ link ∈ client.chunkEntities, ∃ chunk ∈ client.chunks,
    chunk.id = link.chunkId ∧ StoredEntity client.entities chunk.ns link.entityId
  relationship_endpoints : ∀ rel ∈ client.relationships,
    StoredEntity client.entities rel.ns rel.srcId ∧ StoredEntity client.entities rel.ns rel.dstId

/-- What holds between two calls: the identifiers of stored documents have all been drawn. -/
structure Settled (env : Environment R) (state : FakePgClient R × Nat) : Prop where
  flushed : Flushed state.1
  consistent : Consistent state.1
  drawn : ∀ doc ∈ state.1.documents, ∃ k < state.2, env.newUuid k = doc.id

def chunksOf (client : FakePgClient R) (docId : Uuid) : List (ChunkRow R) :=
  client.chunks.filter (fun chunk => chunk.documentId = docId)

structure Outcome (env : Environment R) (before : FakePgClient R)
    (result : CoreResult RunJobOutcome) (after : FakePgClient R × Nat) : Prop where
  settled : Settled env after
  unchanged : (∀ docId n, result ≠ .ok (.completed docId n)) → SameTables before after.1
  counted : ∀ docId n, result = .ok (.completed docId n) → (chunksOf after.1 docId).length = n

def Known (client : FakePgClient R) (ns : String) (id : Uuid) : Prop :=
  StoredEntity (client.entities ++ client.bufferedEntities) ns id

structure Persisting (env : Environment R) (before : FakePgClient R) (doc : DocRow)
    (total left : Nat) (state : FakePgClient R × Nat) : Prop where
  tables : SameTables before state.1
  document : state.1.bufferedDocuments = [doc]
  drawn : ∀ stored ∈ doc :: before.documents, ∃ k < state.2, env.newUuid k = stored.id
  owned : ∀ chunk ∈ state.1.bufferedChunks, chunk.documentId = doc.id ∧ chunk.ns = doc.ns
  counted : state.1.bufferedChunks.length + left = total
  linked : ∀ link ∈ state.1.bufferedChunkEntities,
    (∃ chunk ∈ state.1.bufferedChunks, chunk.id = link.chunkId) ∧
      Known state.1 doc.ns link.entityId
  related : ∀ rel ∈ state.1.bufferedRelationships,
    rel.ns = doc.ns ∧ Known state.1 doc.ns rel.srcId ∧ Known state.1 doc.ns rel.dstId

structure Extracting (env : Environment R) (before : FakePgClient R) (doc : DocRow)
    (total left : Nat) (chunkId : Uuid) (ids : List Uuid) (state : FakePgClient R × Nat) :
    Prop extends Persisting env before doc total left state where
  chunk : ∃ chunk ∈ state.1.bufferedChunks, chunk.id = chunkId
  known : ∀ id ∈ ids, Known state.1 doc.ns id

structure Abandoned (env : Environment R) (before : FakePgClient R)
    (state : FakePgClient R × Nat) : Prop where
  tables : SameTables before state.1
  drawn : ∀ stored ∈ before.documents, ∃ k < state.2, env.newUuid k = stored.id

variable {rt : Runtime} {env : Environment R} {before : FakePgClient R} {doc : DocRow}
  {total left : Nat} {chunkId : Uuid} {ids : List Uuid} {client : FakePgClient R} {tick : Nat}

theorem SameTables.trans {after : FakePgClient R} (near : SameTables before client)
    (far : SameTables client after) : SameTables before after where
  documents := far.documents.trans near.documents
  chunks := far.chunks.trans near.chunks
  entities := far.entities.trans near.entities
  relationships := far.relationships.trans near.relationships
  chunkEntities := far.chunkEntities.trans near.chunkEntities

theorem Known.grown {ns : String} {id : Uuid} (known : Known client ns id) (row : EntityRow R) :
    Known { client with bufferedEntities := client.bufferedEntities ++ [row] } ns id := by
  obtain ⟨e, member, same⟩ := known
  refine ⟨e, ?_, same⟩
  rw [← List.append_assoc]
  exact List.mem_append_left _ member

theorem Persisting.later (holds : Persisting env before doc total left (client, tick)) :
    Persisting env before doc total left (client, tick + 1) where
  tables := holds.tables
  document := holds.document
  drawn := by
    intro stored member
    obtain ⟨k, earlier, same⟩ := holds.drawn stored member
    exact ⟨k, Nat.lt_succ_of_lt earlier, same⟩
  owned := holds.owned
  counted := holds.counted
  linked := holds.linked
  related := holds.related

theorem Persisting.abandoned (holds : Persisting env before doc total left (client, tick)) :
    Abandoned env before (client, tick) :=
  ⟨holds.tables, fun stored member => holds.drawn stored (List.mem_cons_of_mem _ member)⟩

theorem Extracting.later (holds : Extracting env before doc total left chunkId ids (client, tick)) :
    Extracting env before doc total left chunkId ids (client, tick + 1) :=
  { holds.toPersisting.later with chunk := holds.chunk, known := holds.known }

theorem Extracting.entityInserted
    (holds : Extracting env before doc total left chunkId ids (client, tick)) (row : EntityRow R)
    (here : row.ns = doc.ns) :
    Extracting env before doc total left chunkId (row.id :: ids)
      ({ client with bufferedEntities := client.bufferedEntities ++ [row] }, tick) where
  tables := holds.tables.trans ⟨rfl, rfl, rfl, rfl, rfl⟩
  document := holds.document
  drawn := holds.drawn
  owned := holds.owned
  counted := holds.counted
  linked := fun link member =>
    ⟨(holds.linked link member).1, (holds.linked link member).2.grown row⟩
  related := fun rel member =>
    ⟨(holds.related rel member).1, (holds.related rel member).2.1.grown row,
      (holds.related rel member).2.2.grown row⟩
  chunk := holds.chunk
  known := by
    intro id member
    rcases List.mem_cons.mp member with rfl | earlier
    · exact ⟨row, by simp, rfl, here⟩
    · exact (holds.known id earlier).grown row

theorem Extracting.linkInserted
    (holds : Extracting env before doc total left chunkId ids (client, tick)) (entityId : Uuid)
    (confidence : R) (member : entityId ∈ ids) :
    Extracting env before doc total left chunkId ids
      ({ client with bufferedChunkEntities := client.bufferedChunkEntities ++
          [{ chunkId := chunkId, entityId := entityId, confidence := confidence }] }, tick) where
  tables := holds.tables.trans ⟨rfl, rfl, rfl, rfl, rfl⟩
  document := holds.document
  drawn := holds.drawn
  owned := holds.owned
  counted := holds.counted
  linked := by
    intro link added
    rcases List.mem_append.mp added with earlier | new
    · exact holds.linked link earlier
    · rw [List.mem_singleton.mp new]
      exact ⟨holds.chunk, holds.known entityId member⟩
  related := holds.related
  chunk := holds.chunk
  known := holds.known

theorem Extracting.relationshipInserted
    (holds : Extracting env before doc total left chunkId ids (client, tick)) (row : RelRow R)
    (here : row.ns = doc.ns) (src : row.srcId ∈ ids) (dst : row.dstId ∈ ids) :
    Extracting env before doc total left chunkId ids
      ({ client with bufferedRelationships := client.bufferedRelationships ++ [row] }, tick) where
  tables := holds.tables.trans ⟨rfl, rfl, rfl, rfl, rfl⟩
  document := holds.document
  drawn := holds.drawn
  owned := holds.owned
  counted := holds.counted
  linked := holds.linked
  related := by
    intro rel added
    rcases List.mem_append.mp added with earlier | new
    · exact holds.related rel earlier
    · rw [List.mem_singleton.mp new]
      exact ⟨here, holds.known _ src, holds.known _ dst⟩
  chunk := holds.chunk
  known := holds.known

theorem extraction_rule [F32 R] :
    ExtractionRule (handler rt env).spec doc.ns chunkId
      (fun ids => Extracting env before doc total left chunkId ids)
      (fun _ => Abandoned env before) where
  monotone := Handler.spec_monotone _
  forget := by
    intro ids state holds
    exact { holds with known := fun id member => absurd member List.not_mem_nil }
  extracted := by
    rintro chunkText ⟨client, tick⟩ holds
    rw [spec_env]
    rcases env.answer tick (.extract chunkText doc.ns) with e | extraction
    · exact holds.toPersisting.later.abandoned
    · exact holds.later
  embedded := by
    rintro name ids ⟨client, tick⟩ holds
    rw [spec_env]
    rcases env.answer tick (.embedBatch [name]) with e | vectors
    · exact holds.toPersisting.later.abandoned
    · exact ⟨fun _ => holds.later, fun _ => holds.toPersisting.later.abandoned⟩
  resolved := by
    rintro name kind nameEmb description ids ⟨client, tick⟩ holds
    rw [spec_client]
    constructor
    · intro c member
      obtain ⟨e, stored, same⟩ := candidate_stored member
      refine { holds with known := ?_ }
      intro id known
      rcases List.mem_cons.mp known with rfl | earlier
      · exact ⟨e, List.mem_append_left _ stored, same⟩
      · exact holds.known id earlier
    · rw [spec_env, spec_client]
      exact Extracting.entityInserted holds.later
        (EntityRow.mk _ doc.ns name kind (some nameEmb) description) rfl
  linked := by
    rintro id confidence ids ⟨client, tick⟩ member holds
    rw [spec_client]
    exact holds.linkInserted id confidence member
  related := by
    rintro src dst kind weight ids ⟨client, tick⟩ srcKnown dstKnown holds
    rw [spec_env, spec_client]
    exact holds.later.relationshipInserted _ rfl srcKnown dstKnown

theorem Persisting.chunkInserted
    (holds : Persisting env before doc total (left + 1) (client, tick)) (row : ChunkRow R)
    (owned : row.documentId = doc.id ∧ row.ns = doc.ns) (inserts : Nat) :
    Extracting env before doc total left row.id []
      ({ client with
          chunkInserts := inserts
          bufferedChunks := client.bufferedChunks ++ [row] }, tick) where
  tables := holds.tables.trans ⟨rfl, rfl, rfl, rfl, rfl⟩
  document := holds.document
  drawn := holds.drawn
  owned := by
    intro chunk added
    rcases List.mem_append.mp added with earlier | new
    · exact holds.owned chunk earlier
    · rw [List.mem_singleton.mp new]
      exact owned
  counted := by
    have := holds.counted
    simp only [List.length_append, List.length_singleton] at this ⊢
    omega
  linked := by
    intro link member
    obtain ⟨⟨chunk, stored, same⟩, known⟩ := holds.linked link member
    exact ⟨⟨chunk, List.mem_append_left _ stored, same⟩, known⟩
  related := holds.related
  chunk := ⟨row, List.mem_append_right _ List.mem_cons_self, rfl⟩
  known := fun id member => absurd member List.not_mem_nil

theorem persist_rule [F32 R] :
    PersistRule (handler rt env).spec doc.id doc.ns
      (fun rest => Persisting env before doc total rest.length)
      (fun item rest => Extracting env before doc total rest.length item.2 [])
      (fun _ => Abandoned env before) where
  monotone := Handler.spec_monotone _
  stored := by
    rintro item rest ⟨client, tick⟩ holds
    rw [spec_client]
    by_cases injected : some client.chunkInserts = client.chunkFailAt
    · simp only [handle, if_pos injected]
      refine ⟨holds.tables.trans ⟨rfl, rfl, rfl, rfl, rfl⟩, ?_⟩
      exact holds.abandoned.drawn
    · simp only [handle, if_neg injected]
      exact holds.chunkInserted (chunkRow doc.id doc.ns item.1.1 item.1.2 item.2) ⟨rfl, rfl⟩ _
  extracted := by
    intro item rest state placed
    refine Program.wp_mono (Handler.spec_monotone _) _ _ ?_
      (wp_persistChunkExtraction extraction_rule item.1.1.text state placed)
    exact Settles.mono (fun _ _ kept => kept.toPersisting) (fun _ _ stop => stop)

theorem SameTables.consistent {after : FakePgClient R} (same : SameTables before after)
    (consistent : Consistent before) : Consistent after := by
  obtain ⟨documents, chunks, entities, relationships, chunkEntities⟩ := same
  constructor
  · rw [documents]
    exact consistent.documents_unique
  · rw [documents, chunks]
    exact consistent.chunk_document
  · rw [chunks, entities, chunkEntities]
    exact consistent.link_stored
  · rw [relationships, entities]
    exact consistent.relationship_endpoints

theorem committed_consistent [F32 R] (rt : Runtime) (consistent : Consistent before)
    (unstored : ∀ stored ∈ before.documents,
      ¬ (stored.ns = doc.ns ∧ stored.contentHash = doc.contentHash))
    (holds : Persisting env before doc total 0 (client, tick)) :
    Consistent (client.handle rt .commit).2 := by
  obtain ⟨⟨documents, chunks, entities, relationships, chunkEntities⟩, document, -, owned, -,
    linked, related⟩ := holds
  dsimp only at *
  have grown : ∀ ns id, StoredEntity before.entities ns id →
      StoredEntity (before.entities ++ client.bufferedEntities) ns id := by
    rintro ns id ⟨e, stored, same⟩
    exact ⟨e, List.mem_append_left _ stored, same⟩
  constructor
  · simp only [handle, documents, document]
    refine List.pairwise_append.mpr ⟨consistent.documents_unique, List.pairwise_singleton _ _, ?_⟩
    intro stored member new isDoc
    rw [List.mem_singleton.mp isDoc]
    exact unstored stored member
  · simp only [handle, documents, document, chunks]
    intro chunk member
    rcases List.mem_append.mp member with earlier | buffered
    · obtain ⟨parent, stored, same⟩ := consistent.chunk_document chunk earlier
      exact ⟨parent, List.mem_append_left _ stored, same⟩
    · obtain ⟨sameId, sameNs⟩ := owned chunk buffered
      exact ⟨doc, by simp, sameId.symm, sameNs.symm⟩
  · simp only [handle, chunks, entities, chunkEntities]
    intro link member
    rcases List.mem_append.mp member with earlier | buffered
    · obtain ⟨chunk, stored, same, entity⟩ := consistent.link_stored link earlier
      exact ⟨chunk, List.mem_append_left _ stored, same, grown _ _ entity⟩
    · obtain ⟨⟨chunk, stored, same⟩, known⟩ := linked link buffered
      refine ⟨chunk, List.mem_append_right _ stored, same, ?_⟩
      rw [(owned chunk stored).2, ← entities]
      exact known
  · simp only [handle, relationships, entities]
    intro rel member
    rcases List.mem_append.mp member with earlier | buffered
    · obtain ⟨src, dst⟩ := consistent.relationship_endpoints rel earlier
      exact ⟨grown _ _ src, grown _ _ dst⟩
    · obtain ⟨here, src, dst⟩ := related rel buffered
      rw [here, ← entities]
      exact ⟨src, dst⟩

theorem committed_count [F32 R] (rt : Runtime) (consistent : Consistent before)
    (fresh : ∀ stored ∈ before.documents, stored.id ≠ doc.id)
    (holds : Persisting env before doc total 0 (client, tick)) :
    (chunksOf (client.handle rt .commit).2 doc.id).length = total := by
  have others : before.chunks.filter (fun chunk => chunk.documentId = doc.id) = [] := by
    rw [List.filter_eq_nil_iff]
    intro chunk stored same
    obtain ⟨parent, member, parentId, -⟩ := consistent.chunk_document chunk stored
    exact fresh parent member (parentId.trans (of_decide_eq_true same))
  have own : client.bufferedChunks.filter (fun chunk => chunk.documentId = doc.id) =
      client.bufferedChunks := by
    rw [List.filter_eq_self]
    intro chunk buffered
    exact decide_eq_true (holds.owned chunk buffered).1
  calc
    _ = ((before.chunks ++ client.bufferedChunks).filter
          (fun chunk => chunk.documentId = doc.id)).length := by
      have chunks : client.chunks = before.chunks := holds.tables.chunks
      simp only [chunksOf, handle, chunks]
    _ = client.bufferedChunks.length := by rw [List.filter_append, others, own, List.nil_append]
    _ = total := holds.counted

theorem commit_outcome [F32 R] (settled : Consistent before)
    (fresh : ∀ stored ∈ before.documents, stored.id ≠ doc.id)
    (unstored : ∀ stored ∈ before.documents,
      ¬ (stored.ns = doc.ns ∧ stored.contentHash = doc.contentHash))
    (holds : Persisting env before doc total 0 (client, tick)) :
    Outcome env before (.ok (.completed doc.id total)) ((client.handle rt .commit).2, tick) where
  settled :=
    { flushed := ⟨rfl, rfl, rfl, rfl, rfl⟩
      consistent := committed_consistent rt settled unstored holds
      drawn := by
        intro stored member
        have both : stored ∈ before.documents ++ [doc] := by
          rw [← holds.tables.documents, ← holds.document]
          exact member
        refine holds.drawn stored ?_
        rcases List.mem_append.mp both with earlier | new
        · exact List.mem_cons_of_mem _ earlier
        · exact List.mem_cons.mpr (.inl (List.mem_singleton.mp new)) }
  unchanged := fun incomplete => absurd rfl (incomplete doc.id total)
  counted := by
    rintro docId n completed
    cases completed
    exact committed_count rt settled fresh holds

theorem rollback_outcome [F32 R] (consistent : Consistent before)
    (abandoned : Abandoned env before (client, tick)) (e : CoreError) :
    Outcome env before (.error e) ((client.handle rt .rollback).2, tick) := by
  obtain ⟨⟨documents, chunks, entities, relationships, chunkEntities⟩, drawn⟩ := abandoned
  have same : SameTables before (client.handle rt .rollback).2 :=
    ⟨documents, chunks, entities, relationships, chunkEntities⟩
  refine ⟨⟨⟨rfl, rfl, rfl, rfl, rfl⟩, same.consistent consistent, ?_⟩, fun _ => same, ?_⟩
  · intro stored member
    refine drawn stored ?_
    rw [← documents]
    exact member
  · rintro docId n completed
    cases completed

theorem untouched_outcome (settled : Settled env (before, tick))
    {result : CoreResult RunJobOutcome}
    (incomplete : ∀ docId n, result ≠ .ok (.completed docId n)) {later : Nat}
    (reached : tick ≤ later) : Outcome env before result (before, later) where
  settled :=
    { flushed := settled.flushed
      consistent := settled.consistent
      drawn := by
        intro stored member
        obtain ⟨k, earlier, same⟩ := settled.drawn stored member
        exact ⟨k, Nat.lt_of_lt_of_le earlier reached, same⟩ }
  unchanged := fun _ => ⟨rfl, rfl, rfl, rfl, rfl⟩
  counted := fun docId n completed => absurd completed (incomplete docId n)

structure Prepared (env : Environment R) (before : FakePgClient R) (start : Nat)
    (ns hash : String) (ids : List Uuid) (state : FakePgClient R × Nat) : Prop where
  untouched : state.1 = before
  reached : start ≤ state.2
  drawn : ∀ id ∈ ids, ∃ k, start ≤ k ∧ k < state.2 ∧ env.newUuid k = id
  unstored : ∀ stored ∈ before.documents, ¬ (stored.ns = ns ∧ stored.contentHash = hash)

theorem preparation_rule [F32 R] (settled : Settled env (before, tick)) (req : IngestRequest) :
    PreparationRule (handler rt env).spec rt req
      (fun state => state.1 = before ∧ tick ≤ state.2)
      (fun _ _ state => state.1 = before ∧ tick ≤ state.2)
      (fun _ bytes => Prepared env before tick req.ns (contentHash rt bytes) [])
      (fun _ bytes _ _ => Prepared env before tick req.ns (contentHash rt bytes))
      (fun result state => Outcome env before result state) where
  monotone := Handler.spec_monotone _
  read := by
    intro path state _ holds
    rcases state with ⟨client, n⟩
    rcases holds with ⟨rfl, reached⟩
    rw [spec_env]
    rcases env.answer n (.readFile path) with e | bytes
    · refine untouched_outcome settled ?_ (Nat.le_succ_of_le reached)
      intro docId count completed
      cases completed
    · exact ⟨rfl, Nat.le_succ_of_le reached⟩
  carried := fun _ _ _ _ holds => holds
  checked := by
    intro sourceName bytes state holds
    rcases state with ⟨client, n⟩
    rcases holds with ⟨rfl, reached⟩
    rw [spec_client]
    simp only [handle, Settles]
    split
    · refine untouched_outcome settled ?_ reached
      intro docId count completed
      cases completed
    · rename_i absent
      refine ⟨rfl, reached, fun id member => absurd member List.not_mem_nil, ?_⟩
      intro stored member same
      refine absent (List.any_eq_true.mpr ⟨stored, member, ?_⟩)
      simp [same.1, same.2]
  unchunked := by
    intro sourceName bytes e state _ prepared
    rcases state with ⟨client, n⟩
    rcases prepared with ⟨rfl, reached, -, -⟩
    refine untouched_outcome settled ?_ reached
    intro docId count completed
    cases completed
  embedded := by
    intro sourceName bytes chunks state _ prepared
    rcases state with ⟨client, n⟩
    rcases prepared with ⟨rfl, reached, -, unstored⟩
    have failed : ∀ e, Outcome env client (.error e) (client, n + 1) := by
      intro e
      refine untouched_outcome settled ?_ (Nat.le_succ_of_le reached)
      intro docId count completed
      cases completed
    rw [spec_env, Environment.answer]
    generalize env.embedBatch n (chunks.map (·.text)) = answer
    rcases answer with e | embeddings
    · exact failed e
    · simp only [Settles]
      split
      · exact failed _
      · exact ⟨rfl, Nat.le_succ_of_le reached, fun id member => absurd member List.not_mem_nil,
          unstored⟩
  minted := by
    intro sourceName bytes chunks embeddings ids state prepared
    rcases state with ⟨client, n⟩
    rcases prepared with ⟨rfl, reached, drawn, unstored⟩
    rw [spec_env]
    refine ⟨rfl, Nat.le_succ_of_le reached, ?_, unstored⟩
    intro id member
    rcases List.mem_append.mp member with earlier | new
    · rcases drawn id earlier with ⟨k, since, until_, same⟩
      exact ⟨k, since, Nat.lt_succ_of_lt until_, same⟩
    · exact ⟨n, reached, Nat.lt_succ_self n, (List.mem_singleton.mp new).symm⟩

theorem Prepared.begin (settled : Settled env (before, tick)) {later : Nat} {drawn : List Uuid}
    (prepared : Prepared env before tick doc.ns doc.contentHash (drawn ++ [doc.id])
      (client, later)) :
    Persisting env before doc total total
      ({ client with bufferedDocuments := client.bufferedDocuments ++ [doc] }, later) := by
  rcases prepared with ⟨rfl, reached, drawn, -⟩
  rcases settled.flushed with ⟨documents, chunks, entities, relationships, chunkEntities⟩
  dsimp only at *
  constructor
  · exact ⟨rfl, rfl, rfl, rfl, rfl⟩
  · rw [documents, List.nil_append]
  · intro stored member
    rcases List.mem_cons.mp member with rfl | earlier
    · rcases drawn stored.id (by simp) with ⟨k, -, before, same⟩
      exact ⟨k, before, same⟩
    · rcases settled.drawn stored earlier with ⟨k, before, same⟩
      exact ⟨k, Nat.lt_of_lt_of_le before reached, same⟩
  · rw [chunks]
    exact fun chunk member => absurd member List.not_mem_nil
  · rw [chunks, List.length_nil, Nat.zero_add]
  · rw [chunkEntities]
    exact fun link member => absurd member List.not_mem_nil
  · rw [relationships]
    exact fun rel member => absurd member List.not_mem_nil

theorem Prepared.fresh {ns hash : String} {docId : Uuid} {drawn : List Uuid}
    {state : FakePgClient R × Nat} (settled : Settled env (before, tick))
    (prepared : Prepared env before tick ns hash (drawn ++ [docId]) state) :
    ∀ stored ∈ before.documents, stored.id ≠ docId := by
  intro stored member same
  rcases settled.drawn stored member with ⟨k, earlier, storedId⟩
  rcases prepared.drawn docId (by simp) with ⟨j, since, -, drawnId⟩
  have equal : k = j := env.fresh (by rw [storedId, drawnId, same])
  dsimp only at earlier
  omega

theorem runJob_outcome [F32 R] (rt : Runtime) (settled : Settled env (before, tick))
    (req : IngestRequest) :
    Outcome env before (runJob rt env (before, tick) req).1
      (runJob rt env (before, tick) req).2 := by
  refine runJob_meets rt env req (before, tick)
    (wp_runJob (preparation_rule settled req) (before, tick) ⟨rfl, le_rfl⟩ ?_)
  intro doc bytes chunks embeddings chunkIds middle ready prepared
  rcases middle with ⟨client, later⟩
  have monotone : (handler (R := R) rt env).spec.Monotone := Handler.spec_monotone _
  have items := ready.items_length
  rw [← ready.ns, ← ready.contentHash] at prepared
  have rule : PersistRule (handler (R := R) rt env).spec doc.id doc.ns
      (fun rest => Persisting env before doc chunks.length rest.length)
      (fun item rest => Extracting env before doc chunks.length rest.length item.2 [])
      (fun _ => Abandoned env before) := persist_rule
  refine Program.wp_mono monotone _ _ ?_
    (wp_persistDocument doc rule chunks embeddings chunkIds _ ?_)
  · intro result state persisted
    rcases state with ⟨after, last⟩
    rcases result with e | n
    · rw [finishJob, Fallible.wp_bind, wp_lift, wp_rollback, spec_client]
      exact rollback_outcome settled.consistent persisted e
    · rcases persisted with ⟨rfl, finished⟩
      rw [finishJob, Fallible.wp_bind, wp_commit, spec_client]
      exact commit_outcome settled.consistent (prepared.fresh settled) prepared.unstored finished
  · rw [spec_client]
    simp only [Settles, items]
    exact prepared.begin settled

theorem Settled.injected (settled : Settled env (client, tick)) (n : Nat) :
    Settled env (client.withChunkWriteFailureAt n, tick) where
  flushed := ⟨settled.flushed.documents, settled.flushed.chunks, settled.flushed.entities,
    settled.flushed.relationships, settled.flushed.chunkEntities⟩
  consistent := by
    have same : SameTables client (client.withChunkWriteFailureAt n) := ⟨rfl, rfl, rfl, rfl, rfl⟩
    exact same.consistent settled.consistent
  drawn := settled.drawn

theorem attempt_outcome [F32 R] (rt : Runtime) (state : FakePgClient R × Nat)
    (settled : Settled env state) (a : Attempt) :
    Outcome env state.1 (attempt rt env state a).1 (attempt rt env state a).2 := by
  obtain ⟨client, tick⟩ := state
  rw [attempt]
  split
  · rename_i n _
    have outcome := runJob_outcome rt (settled.injected n) a.request
    refine ⟨outcome.settled, fun incomplete => ?_, outcome.counted⟩
    obtain ⟨documents, chunks, entities, relationships, chunkEntities⟩ :=
      outcome.unchanged incomplete
    exact ⟨documents, chunks, entities, relationships, chunkEntities⟩
  · exact runJob_outcome rt settled a.request

theorem attempts_settled [F32 R] (rt : Runtime) (env : Environment R) (calls : List Attempt) :
    Settled env (attempts rt env calls) := by
  have start : Settled env (({}, 0) : FakePgClient R × Nat) :=
    { flushed := ⟨rfl, rfl, rfl, rfl, rfl⟩
      consistent := ⟨.nil, nofun, nofun, nofun⟩
      drawn := nofun }
  have each : ∀ state : FakePgClient R × Nat, Settled env state →
      Settled env (calls.foldl (fun state a => (attempt rt env state a).2) state) := by
    induction calls with
    | nil => exact fun state settled => settled
    | cons a rest ih =>
        intro state settled
        exact ih _ (attempt_outcome rt state settled a).settled
  exact each _ start

/-- After any sequence of calls, one more call leaves the fake flushed and consistent, changes
the tables only by completing, and counts the chunks it reports. -/
theorem fake_runs_consistent [F32 R] (rt : Runtime) (env : Environment R) (calls : List Attempt)
    (a : Attempt) :
    let before := attempts rt env calls
    let result := (attempt rt env before a).1
    let after := (attempt rt env before a).2
    Flushed after.1 ∧ Consistent after.1 ∧
      (∀ e, result = .error e → SameTables before.1 after.1) ∧
      (∀ hash, result = .ok (.skippedDuplicate hash) → SameTables before.1 after.1) ∧
      ∀ docId n, result = .ok (.completed docId n) → (chunksOf after.1 docId).length = n := by
  intro before result after
  have outcome := attempt_outcome rt before (attempts_settled rt env calls) a
  refine ⟨outcome.settled.flushed, outcome.settled.consistent, ?_, ?_, outcome.counted⟩
  · intro e failed
    refine outcome.unchanged (fun docId n completed => ?_)
    rw [show (attempt rt env before a).1 = .error e from failed] at completed
    cases completed
  · intro hash skipped
    refine outcome.unchanged (fun docId n completed => ?_)
    rw [show (attempt rt env before a).1 = .ok (.skippedDuplicate hash) from skipped] at completed
    cases completed

end FakePgClient

end PgRaggraph

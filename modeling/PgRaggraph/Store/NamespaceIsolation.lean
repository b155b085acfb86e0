import PgRaggraph.Core.Samples
import PgRaggraph.Store.Adapters

/-! `run_job` into one namespace while another namespace holds the same content.

The duplicate check is per namespace, the arbiter of `insert_document` is not. -/

namespace PgRaggraph

open Interaction Interaction.Fallible

variable {R : Type}

abbrev Left (R : Type) := Except PgError (CoreResult RunJobOutcome × Transaction R)

def leaves (ended : Except PgError (CoreResult RunJobOutcome × Session R)) : Left R :=
  ended.map (fun finished => (finished.1, finished.2.tx))

section Runs

variable [F32 R]

def ingest (adapter : Adapter) (rt : Runtime) (srv : Server R) (env : Environment R)
    (committed : Tables R) (req : IngestRequest) : Left R :=
  leaves (Program.run (adapter.handler srv env committed) (runJob rt req).run {})

def abandoned (adapter : Adapter) (srv : Server R) (request : ClientCall R) (e : PgError) :
    Left R :=
  match adapter with
  | .spi => .error e
  | .tokio => .ok (.error (.invalidConfig s!"{errorContext request}: {srv.errorText e}"),
      { own := {}, aborted := some e })

end Runs

/-- The job is prepared, with `chunk` first, and the server accepts its first three statements: the
duplicate check, the document and the chunk. -/
structure AcceptedChunk (rt : Runtime) (srv : Server R) (env : Environment R)
    (req : IngestRequest) (sourceName : String) (bytes : Bytes) (chunk : Chunk)
    (chunks : List Chunk) (embedding : List R) (embeddings : List (List R)) : Prop where
  chunked : chunkSource rt req.chunkStrategy bytes = .ok (chunk :: chunks)
  embedded : env.embedBatch (readTicks req.source) ((chunk :: chunks).map (·.text)) =
    .ok (embedding :: embeddings)
  counted : embeddings.length = chunks.length
  checked : srv.refuses (.documentExistsByHash req.ns (contentHash rt bytes)) = none
  document : srv.refuses (.insertDocument (jobDocument rt req sourceName bytes
    (env.newUuid (readTicks req.source + chunks.length + 2)))) = none
  placed : srv.refuses (.insertChunk (chunkRow
    (env.newUuid (readTicks req.source + chunks.length + 2)) req.ns chunk embedding
    (env.newUuid (readTicks req.source + 1)))) = none

def FirstChunkAccepted (rt : Runtime) (srv : Server R) (env : Environment R) (req : IngestRequest)
    (sourceName : String) (bytes : Bytes) : Prop :=
  ∃ chunk chunks embedding embeddings,
    AcceptedChunk rt srv env req sourceName bytes chunk chunks embedding embeddings

/-- Namespace `neighbour` holds the content that is to be ingested into `req.ns`: `extra` are the
rows of `neighbour` that came with it. -/
structure HeldElsewhere (rt : Runtime) (env : Environment R) (committed extra : Tables R)
    (neighbour : String) (req : IngestRequest) (bytes : Bytes) : Prop where
  other : neighbour ≠ req.ns
  created : req.ns ∈ committed.namespaces
  rows : ∀ doc ∈ extra.documents, doc.ns = neighbour
  holds : ∃ doc ∈ extra.documents, doc.contentHash = contentHash rt bytes
  unique : ((committed ++ extra).documents.map DocRow.contentHash).Nodup
  fresh : FreshFor env (committed ++ extra)

namespace HeldElsewhere

variable {rt : Runtime} {env : Environment R} {committed extra : Tables R} {neighbour : String}
  {req : IngestRequest} {bytes : Bytes}

theorem absent (held : HeldElsewhere rt env committed extra neighbour req bytes) :
    ∀ doc ∈ committed.documents, doc.contentHash ≠ contentHash rt bytes := by
  intro doc member same
  rcases held.holds with ⟨other, elsewhere, hash⟩
  have unique := held.unique
  rw [Tables.append_documents, List.map_append, List.nodup_append] at unique
  exact unique.2.2 _ (List.mem_map_of_mem member) _ (List.mem_map_of_mem elsewhere)
    (same.trans hash.symm)

theorem unstored (held : HeldElsewhere rt env committed extra neighbour req bytes) :
    ∀ doc ∈ (committed ++ extra).documents,
      ¬ (doc.ns = req.ns ∧ doc.contentHash = contentHash rt bytes) := by
  intro doc member same
  rcases List.mem_append.mp member with here | elsewhere
  · exact held.absent doc here same.2
  · exact held.other ((held.rows doc elsewhere).symm.trans same.1)

end HeldElsewhere

section Preparation

variable [F32 R] {adapter : Adapter} {rt : Runtime} {srv : Server R} {env : Environment R}
  {committed extra : Tables R} {neighbour : String} {req : IngestRequest} {sourceName : String}
  {bytes : Bytes}

theorem check_negative (adapter : Adapter) {visible : Tables R} {session : Session R} {hash : String}
    (clean : session.tx = {}) (accepted : srv.refuses (.documentExistsByHash req.ns hash) = none)
    (unstored : ∀ doc ∈ visible.documents, ¬ (doc.ns = req.ns ∧ doc.contentHash = hash)) :
    adapter.perform srv visible session.tx (.documentExistsByHash req.ns hash) =
      .ok (.ok false, session.tx) := by
  rw [perform_ok, clean, statement_runs rfl rfl accepted, Tables.append_empty, evaluate]
  simp only [Except.map, Tables.append_empty, Except.ok.injEq, Prod.mk.injEq, and_true]
  rw [List.any_eq_false]
  intro doc member
  simpa using unstored doc member

structure Loaded (req : IngestRequest) (sourceName : String) (bytes : Bytes) (name : String)
    (content : Bytes) (session : Session R) : Prop where
  name : name = sourceName
  content : content = bytes
  clean : session.tx = {}
  ticks : session.tick = readTicks req.source

structure Minting (rt : Runtime) (srv : Server R) (env : Environment R) (req : IngestRequest)
    (sourceName : String) (bytes : Bytes) (name : String) (content : Bytes) (chunks : List Chunk)
    (embeddings : List (List R)) (ids : List Uuid) (session : Session R) : Prop where
  name : name = sourceName
  content : content = bytes
  clean : session.tx = {}
  checked : srv.refuses (.documentExistsByHash req.ns (contentHash rt bytes)) = none
  chunked : chunkSource rt req.chunkStrategy bytes = .ok chunks
  embedded : env.embedBatch (readTicks req.source) (chunks.map (·.text)) = .ok embeddings
  ticks : session.tick = readTicks req.source + 1 + ids.length
  drawn : ids = (List.range ids.length).map (fun k => env.newUuid (readTicks req.source + 1 + k))

theorem preparation_alike (adapter : Adapter) (srv : Server R)
    (held : HeldElsewhere rt env committed extra neighbour req bytes)
    (readable : contentOf env req.source = some (sourceName, bytes)) :
    PreparationRule
      ((adapter.handler srv env committed).agree (adapter.handler srv env (committed ++ extra))
        (fun _ => ¬ FirstChunkAccepted rt srv env req sourceName bytes))
      rt req (fun session => session = {}) (Loaded req sourceName bytes)
      (fun name content session => Loaded req sourceName bytes name content session ∧
        srv.refuses (.documentExistsByHash req.ns (contentHash rt bytes)) = none)
      (Minting rt srv env req sourceName bytes)
      (fun _ _ => ¬ FirstChunkAccepted rt srv env req sourceName bytes) where
  monotone := Handler.agree_monotone _ _ _
  read := by
    intro path session source start
    refine ⟨rfl, ?_⟩
    rw [source, contentOf] at readable
    rw [adapter_guarantee_env, start, Environment.answer]
    rcases answered : env.readFile 0 path with e | content
    · rw [answered] at readable
      cases readable
    · rw [answered] at readable
      cases readable
      exact ⟨rfl, rfl, rfl, by rw [source]; rfl⟩
  carried := by
    intro name content session carries start
    have clean : session.tx = {} := by rw [start]
    have ticks : session.tick = 0 := by rw [start]
    rcases source : req.source with path | ⟨inline, text⟩ | ⟨inline, raw⟩
    · rw [source] at carries
      exact carries.elim
    · rw [source] at carries readable
      cases readable
      exact ⟨carries.1, carries.2, clean, by rw [ticks, source]; rfl⟩
    · rw [source] at carries readable
      cases readable
      exact ⟨carries.1, carries.2, clean, by rw [ticks, source]; rfl⟩
  checked := by
    intro name content session loaded
    rcases loaded with ⟨rfl, rfl, clean, ticks⟩
    rcases refused : srv.refuses (.documentExistsByHash req.ns (contentHash rt content)) with
      _ | message
    · have here := check_negative adapter clean refused
        (fun doc member => held.unstored doc (List.mem_append_left _ member))
      have there := check_negative adapter clean refused held.unstored
      refine ⟨?_, ?_⟩
      · simp only [Adapter.handler, here, there]
      · rw [adapter_guarantee_client, here]
        exact ⟨⟨rfl, rfl, clean, ticks⟩, rfl⟩
    · have failed : ∀ visible : Tables R, adapter.perform srv visible session.tx
          (.documentExistsByHash req.ns (contentHash rt content)) =
            adapter.fail srv (.dataException message) := by
        intro visible
        have running : session.tx.aborted = none := by rw [clean]
        rw [Adapter.perform, statement_refused rfl running refused]
      have rejected : ¬ FirstChunkAccepted rt srv env req name content := by
        intro first
        rcases first with ⟨chunk, chunks, embedding, embeddings, accepted⟩
        rw [accepted.checked] at refused
        cases refused
      refine ⟨?_, ?_⟩
      · simp only [Adapter.handler, failed]
      · rw [adapter_guarantee_client, failed]
        cases adapter with
        | spi => exact rejected
        | tokio => exact rejected
  unchunked := by
    intro name content e session chunked unstored first
    rcases first with ⟨chunk, chunks, embedding, embeddings, accepted⟩
    rw [unstored.1.content, accepted.chunked] at chunked
    cases chunked
  embedded := by
    intro name content chunks session chunked unstored
    refine ⟨rfl, ?_⟩
    rcases unstored with ⟨⟨rfl, rfl, clean, ticks⟩, checked⟩
    rw [adapter_guarantee_env, ticks, Environment.answer]
    have same : ∀ chunk others embedding embeddings, AcceptedChunk rt srv env req
        name content chunk others embedding embeddings → chunks = chunk :: others := by
      intro chunk others embedding embeddings accepted
      rw [accepted.chunked] at chunked
      exact (Except.ok.inj chunked).symm
    generalize embedded : env.embedBatch (readTicks req.source) (chunks.map (·.text)) = answer
    rcases answer with e | embeddings
    · intro first
      rcases first with ⟨chunk, others, embedding, embeddings, accepted⟩
      rw [same _ _ _ _ accepted, accepted.embedded] at embedded
      cases embedded
    · simp only [Settles]
      split
      · rename_i differ
        intro first
        rcases first with ⟨chunk, others, embedding, rest, accepted⟩
        rw [same _ _ _ _ accepted, accepted.embedded] at embedded
        cases embedded
        rw [same _ _ _ _ accepted] at differ
        exact differ (congrArg (· + 1) accepted.counted)
      · exact ⟨rfl, rfl, clean, checked, chunked, embedded, rfl, rfl⟩
  minted := by
    intro name content chunks embeddings ids session minting
    refine ⟨rfl, ?_⟩
    rw [adapter_guarantee_env, minting.ticks]
    refine { minting with ticks := ?_, drawn := ?_ }
    · rw [List.length_append, List.length_singleton]
      rfl
    · rw [List.length_append, List.length_singleton, List.range_succ, List.map_append,
        ← minting.drawn]
      rfl

end Preparation

def dangling : PgError := .foreignKeyViolation .chunksDocumentIdFkey

section Storage

variable [F32 R] {adapter : Adapter} {rt : Runtime} {srv : Server R} {env : Environment R}
  {committed : Tables R} {req : IngestRequest} {session : Session R} {doc : DocRow} {chunk : Chunk}
  {chunks : List Chunk} {embedding : List R} {embeddings : List (List R)} {chunkId : Uuid}
  {chunkIds : List Uuid}

theorem ingest_prepared :
    ingest adapter rt srv env committed req =
      match Program.run (adapter.handler srv env committed) (prepareJob rt req).run {} with
      | .ok (.ok preparation, session) =>
          leaves (Program.run (adapter.handler srv env committed) (storePrepared preparation).run
            session)
      | .ok (.error e, session) => .ok (.error e, session.tx)
      | .error e => .error e := by
  rw [ingest, runJob, ExceptT.run_bind, Program.run_bind]
  rcases Program.run (adapter.handler srv env committed) (prepareJob rt req).run {} with
    e | ⟨e | preparation, session⟩
  · rfl
  · rfl
  · rfl

theorem leaves_of_wp {left : Left R} {p : Program (Ingest R) (CoreResult RunJobOutcome)}
    (meets : Program.wp ((adapter.handler srv env committed).guarantee (fun e => left = .error e))
      p session (fun result after => left = .ok (result, after.tx))) :
    leaves (Program.run (adapter.handler srv env committed) p session) = left := by
  have meets := (Program.wp_guarantee _ _ _ _ _).mp meets
  split at meets
  · rename_i ended
    rw [ended, meets]
    rfl
  · rename_i ended
    rw [ended, meets]
    rfl

theorem document_abandoned {e : PgError}
    (failed : statement srv committed session.tx (.insertDocument doc) = .error e) :
    leaves (Program.run (adapter.handler srv env committed)
        (storePrepared (.ready doc chunks embeddings chunkIds)).run session) =
      abandoned adapter srv (.insertDocument doc) e := by
  refine leaves_of_wp ?_
  rw [storePrepared, Fallible.wp_bind, wp_lift, persistDocument, Fallible.wp_bind,
    wp_insertDocument, adapter_guarantee_client, Adapter.perform, failed]
  cases adapter with
  | spi => rfl
  | tokio => rfl

theorem chunk_abandoned {tx : Transaction R} {e : PgError}
    (inserted : statement srv committed session.tx (.insertDocument doc) = .ok ((), tx))
    (failed : statement srv committed tx
      (.insertChunk (chunkRow doc.id doc.ns chunk embedding chunkId)) = .error e) :
    leaves (Program.run (adapter.handler srv env committed)
        (storePrepared (.ready doc (chunk :: chunks) (embedding :: embeddings)
          (chunkId :: chunkIds))).run session) =
      abandoned adapter srv (.insertChunk (chunkRow doc.id doc.ns chunk embedding chunkId)) e := by
  refine leaves_of_wp ?_
  rw [storePrepared, Fallible.wp_bind, wp_lift, persistDocument, Fallible.wp_bind,
    wp_insertDocument, adapter_guarantee_client, Adapter.perform, inserted]
  dsimp only
  rw [Fallible.wp_bind, List.zip_cons_cons, List.zip_cons_cons, List.foldlM_cons, Fallible.wp_bind,
    persistChunk, Fallible.wp_bind, wp_insertChunk, adapter_guarantee_client, Adapter.perform,
    failed]
  cases adapter with
  | spi => rfl
  | tokio => rfl

structure Parented (docId : Uuid) (session : Session R) : Prop where
  running : session.tx.aborted = none
  parent : ∃ doc ∈ session.tx.own.documents, doc.id = docId

theorem Parented.performed {docId : Uuid} (parented : Parented docId session)
    {request : ClientCall R} (asks : request.silent = false)
    (owned : ∀ chunk, request = .insertChunk chunk → chunk.documentId = docId) :
    (adapter.handler srv env committed).guarantee (fun e => e ≠ dangling) (.client request) session
      (Settles (fun _ => Parented docId) (fun _ after => after.tx.aborted ≠ some dangling)) := by
  rw [adapter_guarantee_client]
  rcases executed : statement srv committed session.tx request with e | ⟨value, tx⟩
  · have other : e ≠ dangling := by
      intro same
      rw [statement, if_neg (by simp [asks]), if_neg (by simp [parented.running]), same,
        execute] at executed
      split at executed
      · cases executed
      · rcases evaluated : evaluate srv (committed ++ session.tx.own) request with failure | outcome
        · rw [evaluated] at executed
          cases executed
          rcases evaluate_dangles evaluated with ⟨chunk, isChunk, orphan⟩
          rcases parented.parent with ⟨doc, stored, same⟩
          refine List.any_eq_false.mp orphan doc (List.mem_append_right _ stored) ?_
          exact decide_eq_true (same.trans (owned chunk isChunk).symm)
        · rw [evaluated] at executed
          cases executed
    rw [Adapter.perform, executed]
    cases adapter with
    | spi => exact other
    | tokio => exact fun same => other (Option.some.inj same)
  · rcases statement_succeeds asks executed with ⟨running, -, delta, -, rfl⟩
    rcases parented.parent with ⟨doc, stored, same⟩
    rw [Adapter.perform, executed]
    exact ⟨running, doc, List.mem_append_left _ stored, same⟩

theorem parented_extraction (docId : Uuid) (ns : String) (chunkId : Uuid) :
    ExtractionRule ((adapter.handler srv env committed).guarantee (fun e => e ≠ dangling)) ns chunkId
      (fun _ => Parented docId) (fun _ after => after.tx.aborted ≠ some dangling) where
  monotone := Handler.guarantee_monotone _ _
  forget := fun _ _ parented => parented
  extracted := by
    intro chunkText session parented
    rw [adapter_guarantee_env]
    rcases env.answer session.tick (.extract chunkText ns) with e | extraction
    · simp [Settles, parented.running]
    · exact ⟨parented.running, parented.parent⟩
  embedded := by
    intro name ids session parented
    rw [adapter_guarantee_env]
    rcases env.answer session.tick (.embedBatch [name]) with e | vectors
    · simp [Settles, parented.running]
    · refine ⟨fun _ => ⟨parented.running, parented.parent⟩, fun _ => ?_⟩
      simp [parented.running]
  resolved := by
    intro name kind nameEmb description ids session parented
    refine Handler.guarantee_monotone _ _ _ _ _ _ ?_ (parented.performed rfl nofun)
    refine Settles.mono ?_ (fun _ _ stop => stop)
    intro cands searched found
    refine ⟨fun _ _ => found, ?_⟩
    rw [adapter_guarantee_env]
    have minted : Parented docId { searched with
        tick := searched.tick + 1
        log := searched.log ++ [⟨.env .newUuid, env.answer searched.tick .newUuid⟩] } :=
      ⟨found.running, found.parent⟩
    exact minted.performed rfl nofun
  linked := fun id confidence ids session _ parented => parented.performed rfl nofun
  related := by
    intro src dst kind weight ids session _ _ parented
    rw [adapter_guarantee_env]
    have minted : Parented docId { session with
        tick := session.tick + 1
        log := session.log ++ [⟨.env .newUuid, env.answer session.tick .newUuid⟩] } :=
      ⟨parented.running, parented.parent⟩
    exact minted.performed rfl nofun

theorem parented_persistence (docId : Uuid) (ns : String) :
    PersistRule ((adapter.handler srv env committed).guarantee (fun e => e ≠ dangling)) docId ns
      (fun _ => Parented docId) (fun _ _ => Parented docId)
      (fun _ after => after.tx.aborted ≠ some dangling) where
  monotone := Handler.guarantee_monotone _ _
  stored := by
    intro item rest session parented
    refine parented.performed rfl ?_
    intro chunk same
    cases same
    rfl
  extracted := fun item rest session parented =>
    wp_persistChunkExtraction (parented_extraction docId ns item.2) item.1.1.text session parented

theorem stored_never_dangles {tx : Transaction R} (running : tx.aborted = none)
    (parent : ∃ stored ∈ tx.own.documents, stored.id = doc.id) (request : ClientCall R)
    (inserted : statement srv committed session.tx (.insertDocument doc) = .ok ((), tx)) :
    leaves (Program.run (adapter.handler srv env committed)
        (storePrepared (.ready doc chunks embeddings chunkIds)).run session) ≠
      abandoned adapter srv request dangling := by
  have monotone := (adapter.handler srv env committed).guarantee_monotone (fun e => e ≠ dangling)
  have meets : Program.wp ((adapter.handler srv env committed).guarantee (fun e => e ≠ dangling))
      (storePrepared (.ready doc chunks embeddings chunkIds)).run session
      (fun _ after => after.tx.aborted ≠ some dangling) := by
    rw [storePrepared, Fallible.wp_bind, wp_lift]
    refine Program.wp_mono monotone _ _ ?_
      (wp_persistDocument doc (parented_persistence doc.id doc.ns) chunks embeddings chunkIds _ ?_)
    · intro persisted after settled
      rcases persisted with e | n
      · cases adapter with
        | spi => exact settled
        | tokio => exact settled
      · have other : after.tx.aborted ≠ some dangling := by simp [settled.2.running]
        cases adapter with
        | spi => exact other
        | tokio => exact other
    · rw [adapter_guarantee_client, Adapter.perform, inserted]
      exact ⟨running, parent⟩
  have ends := (Program.wp_guarantee _ _ _ _ _).mp meets
  intro same
  split at ends
  · rename_i result after ended
    rw [ended] at same
    cases adapter with
    | spi => cases same
    | tokio =>
        have last : after.tx = { own := {}, aborted := some dangling } :=
          congrArg Prod.snd (Except.ok.inj same)
        exact ends (congrArg Transaction.aborted last)
  · rename_i ended
    rw [ended] at same
    cases adapter with
    | spi =>
        cases same
        exact ends rfl
    | tokio => cases same

end Storage

section Isolation

variable [F32 R] {adapter : Adapter} {rt : Runtime} {srv : Server R} {env : Environment R}
  {committed extra : Tables R} {neighbour : String} {req : IngestRequest} {sourceName : String}
  {bytes : Bytes} {session : Session R}

theorem document_stored (held : HeldElsewhere rt env committed extra neighbour req bytes)
    {doc : DocRow} (ns : doc.ns = req.ns) (hash : doc.contentHash = contentHash rt bytes)
    (drawn : ∃ k, env.newUuid k = doc.id) (clean : session.tx = {})
    (accepted : srv.refuses (.insertDocument doc) = none) :
    statement srv committed session.tx (.insertDocument doc) =
      .ok ((), { own := { documents := [doc] } }) := by
  have inserted : insertDocumentInto committed doc = .ok ((), { documents := [doc] }) := by
    apply document_inserts
    · rw [hash]
      exact held.absent
    · intro stored member same
      rcases drawn with ⟨k, drawn⟩
      exact held.fresh.documents stored (List.mem_append_left _ member) k (same.trans drawn.symm)
    · rw [ns]
      exact held.created
  rw [clean, statement_runs rfl rfl accepted, Tables.append_empty, evaluate, inserted]
  simp only [Except.map, Tables.empty_append]

/-- With them it is dropped, since the arbiter ignores the namespace. -/
theorem document_dropped (held : HeldElsewhere rt env committed extra neighbour req bytes)
    {doc : DocRow} (hash : doc.contentHash = contentHash rt bytes) (clean : session.tx = {})
    (accepted : srv.refuses (.insertDocument doc) = none) :
    statement srv (committed ++ extra) session.tx (.insertDocument doc) = .ok ((), {}) := by
  have dropped : insertDocumentInto (committed ++ extra) doc = .ok ((), {}) := by
    apply document_drops
    rcases held.holds with ⟨stored, member, same⟩
    exact ⟨stored, List.mem_append_right _ member, same.trans hash.symm⟩
  rw [clean, statement_runs rfl rfl accepted, Tables.append_empty, evaluate, dropped]
  simp only [Except.map, Tables.append_empty]

theorem chunk_dangles (held : HeldElsewhere rt env committed extra neighbour req bytes)
    {row : ChunkRow R} (drawn : ∃ k, env.newUuid k = row.documentId)
    (chunkDrawn : ∃ k, env.newUuid k = row.id) (accepted : srv.refuses (.insertChunk row) = none) :
    statement srv (committed ++ extra) {} (.insertChunk row) = .error dangling := by
  rcases drawn with ⟨k, drawn⟩
  rcases chunkDrawn with ⟨j, chunkDrawn⟩
  have orphaned : insertChunkInto (committed ++ extra) row = .error dangling := by
    apply chunk_orphaned
    · intro stored member same
      exact held.fresh.parents stored member k (same.1.trans drawn.symm)
    · intro stored member same
      exact held.fresh.chunks stored member j (same.trans chunkDrawn.symm)
    · intro stored member same
      exact held.fresh.documents stored member k (same.trans drawn.symm)
  rw [statement_runs rfl rfl accepted, Tables.append_empty, evaluate, orphaned]
  rfl

omit [F32 R] in
theorem Minting.identifiers {doc : DocRow} {chunks : List Chunk} {embeddings : List (List R)}
    {chunkIds : List Uuid} {name : String} {content : Bytes}
    (minting : Minting rt srv env req sourceName bytes name content chunks embeddings
      (chunkIds ++ [doc.id]) session) :
    doc.id = env.newUuid (readTicks req.source + 1 + chunkIds.length) ∧
      chunkIds = (List.range chunkIds.length).map
        (fun k => env.newUuid (readTicks req.source + 1 + k)) := by
  have drawn := minting.drawn
  rw [List.length_append, List.length_singleton, List.range_succ, List.map_append] at drawn
  have split := List.append_inj' drawn rfl
  exact ⟨List.singleton_injective split.2, split.1⟩

omit [F32 R] in
theorem Minting.firstId {doc : DocRow} {chunks : List Chunk} {embeddings : List (List R)}
    {chunkId : Uuid} {chunkIds : List Uuid} {name : String} {content : Bytes}
    (minting : Minting rt srv env req sourceName bytes name content chunks embeddings
      (chunkId :: chunkIds ++ [doc.id]) session) :
    chunkId = env.newUuid (readTicks req.source + 1) := by
  have drawn := minting.identifiers.2
  rw [List.length_cons, List.range_succ_eq_map, List.map_cons] at drawn
  exact (List.cons_eq_cons.mp drawn).1

omit [F32 R] in
theorem firstChunk_iff {doc : DocRow} {chunk : Chunk} {chunks : List Chunk} {embedding : List R}
    {embeddings : List (List R)} {chunkId : Uuid} {chunkIds : List Uuid}
    (ready : Ready rt req bytes doc (chunk :: chunks) (embedding :: embeddings)
      (chunkId :: chunkIds))
    (minting : Minting rt srv env req sourceName bytes doc.source bytes (chunk :: chunks)
      (embedding :: embeddings) (chunkId :: chunkIds ++ [doc.id]) session) :
    FirstChunkAccepted rt srv env req sourceName bytes ↔
      srv.refuses (.insertDocument doc) = none ∧
        srv.refuses (.insertChunk (chunkRow doc.id doc.ns chunk embedding chunkId)) = none := by
  have document := ready.document
  have counted : chunkIds.length = chunks.length := Nat.succ_inj.mp ready.counted
  have docId : doc.id = env.newUuid (readTicks req.source + chunks.length + 2) := by
    rw [minting.identifiers.1, List.length_cons, counted]
    congr 1
    omega
  rw [minting.name] at document
  rw [minting.firstId, ready.ns, document, docId]
  constructor
  · intro first
    rcases first with ⟨other, others, vector, vectors, accepted⟩
    have chunked := accepted.chunked
    rw [ready.chunked] at chunked
    cases chunked
    have embedded := accepted.embedded
    rw [minting.embedded] at embedded
    cases embedded
    exact ⟨accepted.document, accepted.placed⟩
  · intro both
    exact ⟨chunk, chunks, embedding, embeddings,
      { chunked := ready.chunked
        embedded := minting.embedded
        counted := Nat.succ_inj.mp ready.embedded
        checked := minting.checked
        document := both.1
        placed := both.2 }⟩

theorem storage_isolated (held : HeldElsewhere rt env committed extra neighbour req bytes)
    {doc : DocRow} {chunks : List Chunk} {embeddings : List (List R)} {chunkIds : List Uuid}
    (ready : Ready rt req bytes doc chunks embeddings chunkIds)
    (minting : Minting rt srv env req sourceName bytes doc.source bytes chunks embeddings
      (chunkIds ++ [doc.id]) session) :
    leaves (Program.run (adapter.handler srv env committed)
        (storePrepared (.ready doc chunks embeddings chunkIds)).run session) =
      leaves (Program.run (adapter.handler srv env (committed ++ extra))
        (storePrepared (.ready doc chunks embeddings chunkIds)).run session) ↔
      ¬ FirstChunkAccepted rt srv env req sourceName bytes := by
  rcases chunks with _ | ⟨chunk, chunks⟩
  · exact absurd rfl (chunkSource_nonempty ready.chunked)
  rcases embeddings with _ | ⟨embedding, embeddings⟩
  · exact nomatch ready.embedded
  rcases chunkIds with _ | ⟨chunkId, chunkIds⟩
  · exact nomatch ready.counted
  have docId := minting.identifiers.1
  have firstId := minting.firstId
  rw [firstChunk_iff ready minting]
  rcases refused : srv.refuses (.insertDocument doc) with _ | message
  · have stored := document_stored held ready.ns ready.contentHash ⟨_, docId.symm⟩
      minting.clean refused
    have dropped := document_dropped held ready.contentHash minting.clean refused
    rcases rejected : srv.refuses
        (.insertChunk (chunkRow doc.id doc.ns chunk embedding chunkId)) with _ | message
    · have dangles := chunk_dangles held ⟨_, docId.symm⟩ ⟨_, firstId.symm⟩ rejected
      rw [chunk_abandoned dropped dangles]
      refine iff_of_false ?_ (fun unaccepted => unaccepted ⟨rfl, rfl⟩)
      exact stored_never_dangles rfl ⟨doc, List.mem_singleton_self doc, rfl⟩ _ stored
    · rw [chunk_abandoned stored (statement_refused rfl rfl rejected),
        chunk_abandoned dropped (statement_refused rfl rfl rejected)]
      simp
  · have running : session.tx.aborted = none := by rw [minting.clean]
    rw [document_abandoned (statement_refused rfl running refused),
      document_abandoned (statement_refused rfl running refused)]
    simp

/-- For every content that a neighbour holds: the ingest into another namespace is left the same by
the neighbour's rows exactly when it does not get as far as an accepted first chunk. -/
theorem ingest_isolated_iff (adapter : Adapter) (rt : Runtime) (srv : Server R)
    (env : Environment R) (committed extra : Tables R) (neighbour : String) (req : IngestRequest)
    (sourceName : String) (bytes : Bytes)
    (readable : contentOf env req.source = some (sourceName, bytes))
    (held : HeldElsewhere rt env committed extra neighbour req bytes) :
    ingest adapter rt srv env committed req = ingest adapter rt srv env (committed ++ extra) req ↔
      ¬ FirstChunkAccepted rt srv env req sourceName bytes := by
  have prepared := Program.run_agree _ _
    (wp_prepareJob (preparation_alike adapter srv held readable) {} rfl)
  rcases prepared with ⟨alike, meets⟩
  rw [ingest_prepared, ingest_prepared, ← alike]
  have meets := (Program.wp_guarantee _ _ _ _ _).mp meets
  rcases ended : Program.run (adapter.handler srv env committed) (prepareJob rt req).run {} with
    e | ⟨e | preparation, session⟩
  · rw [ended] at meets
    simpa using meets
  · rw [ended] at meets
    simpa [Settles] using meets
  · rw [ended] at meets
    rcases preparation with existingHash | ⟨doc, chunks, embeddings, chunkIds⟩
    · exact iff_of_true rfl meets
    · rcases meets with ⟨content, ready, minting⟩
      cases minting.content
      exact storage_isolated held ready minting

end Isolation

def twoNamespaces : Tables Milli := { namespaces := ["docs", "notes"] }

def helloInNotes : Tables Milli where
  documents :=
    [{ id := 1, ns := "notes", source := "note.md", contentHash := contentHash .plain "hello".toUTF8,
       title := none }]
  chunks :=
    [{ id := 2, documentId := 1, ns := "notes", ord := 0, text := "hello", tokenCount := 1,
       embedding := unitVector }]

def helloRequest : IngestRequest where
  source := .text "hello.md" "hello"
  ns := "docs"
  chunkStrategy := "auto"

def ingestHello (adapter : Adapter) (committed : Tables Milli) : Left Milli :=
  ingest adapter .plain (.plain Milli) (.scripted 100 fun _ => .ok {}) committed helloRequest

/-- The job completes alone, and fails where the other namespace holds the text. -/
theorem ingest_not_isolated :
    (∃ tx, ingestHello .spi twoNamespaces = .ok (.ok (.completed 102 1), tx) ∧
      ingestHello .tokio twoNamespaces = .ok (.ok (.completed 102 1), tx)) ∧
    ingestHello .spi (twoNamespaces ++ helloInNotes) = .error dangling ∧
    (∃ message tx, ingestHello .tokio (twoNamespaces ++ helloInNotes) =
      .ok (.error (.invalidConfig message), tx)) :=
  ⟨⟨_, rfl, rfl⟩, rfl, ⟨_, _, rfl⟩⟩

theorem ingest_isolated_sample :
    ingestHello .tokio twoNamespaces = ingestHello .tokio (twoNamespaces ++ helloInNotes) ↔
      ¬ FirstChunkAccepted .plain (.plain Milli) (.scripted 100 fun _ => .ok {}) helloRequest
        "hello.md" "hello".toUTF8 := by
  have fresh : FreshFor (.scripted 100 fun _ => .ok {}) (twoNamespaces ++ helloInNotes) := by
    have below : ∀ n k : Nat, n < 100 → n ≠ 100 + k := by omega
    constructor
    · intro doc member k
      cases List.mem_singleton.mp member
      exact below 1 k (by decide)
    · intro chunk member k
      cases List.mem_singleton.mp member
      exact below 2 k (by decide)
    · intro chunk member k
      cases List.mem_singleton.mp member
      exact below 1 k (by decide)
  exact ingest_isolated_iff .tokio .plain (.plain Milli) (.scripted 100 fun _ => .ok {})
    twoNamespaces helloInNotes "notes" helloRequest "hello.md" "hello".toUTF8 rfl
    { other := by decide
      created := by decide
      rows := by decide
      holds := by decide
      unique := by decide
      fresh := fresh }

end PgRaggraph

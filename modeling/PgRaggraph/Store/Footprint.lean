import PgRaggraph.Core.RunRules
import PgRaggraph.Store.Concurrent

/-! What the statements of one `run_job` call read and write.

A call asks only about its own content and the identifiers it drew, so it cannot notice the rows
that another call stores for another content, unless both resolve entities. -/

namespace PgRaggraph

open Interaction Interaction.Fallible

variable {R : Type}

def ContentHash (rt : Runtime) (env : Environment R) (req : IngestRequest) (hash : String) : Prop :=
  ∃ content, contentOf env req.source = some content ∧ contentHash rt content.2 = hash

def Event.searches (event : Event R) : Bool :=
  match event.request with
  | .client (.fuzzyMatchEntity _ _ _) => true
  | _ => false

def ClientCall.touchesEntities : ClientCall R → Bool
  | .insertEntity _ => true
  | .insertRelationship _ => true
  | .insertChunkEntity _ => true
  | .fuzzyMatchEntity _ _ _ => true
  | _ => false

def Allowed (rt : Runtime) (env : Environment R) (req : IngestRequest) (log : List (Event R)) :
    ClientCall R → Prop
  | .documentExistsByHash _ hash => ContentHash rt env req hash
  | .insertDocument doc => ContentHash rt env req doc.contentHash ∧ Minted env doc.id
  | .insertChunk chunk => Minted env chunk.id ∧ Minted env chunk.documentId
  | .insertEntity row => log.any Event.searches = true ∧ Minted env row.id
  | .insertRelationship row => log.any Event.searches = true ∧ Minted env row.id
  | .insertChunkEntity row => log.any Event.searches = true ∧ Minted env row.chunkId
  | _ => True

def Answered (env : Environment R) :
    (request : Call R) → Session R → request.Answer → Session R → Prop
  | .env request, session, answer, after =>
      answer = env.answer session.tick request ∧ after = { session with
        tick := session.tick + 1
        log := session.log ++ [⟨.env request, env.answer session.tick request⟩] }
  | .client request, session, answer, after =>
      ∃ tx, after = { session with tx := tx, log := session.log ++ [⟨.client request, answer⟩] }

def footprint (rt : Runtime) (env : Environment R) (req : IngestRequest) :
    Spec (Ingest R) (Session R) :=
  Spec.discipline
    (fun request session =>
      match request with
      | .env _ => True
      | .client request => Allowed rt env req session.log request)
    (Answered env)

variable {rt : Runtime} {env : Environment R} {req : IngestRequest} {session : Session R}

theorem footprint_env {request : EnvCall} {post : request.Answer R → Session R → Prop}
    (holds : post (env.answer session.tick request) { session with
      tick := session.tick + 1
      log := session.log ++ [⟨.env request, env.answer session.tick request⟩] }) :
    footprint rt env req (.env request) session post := by
  refine ⟨trivial, ?_⟩
  intro answer after answered
  rcases answered with ⟨rfl, rfl⟩
  exact holds

theorem footprint_client {request : ClientCall R} {post : CoreResult request.Value → Session R → Prop}
    (allowed : Allowed rt env req session.log request)
    (holds : ∀ answer tx, post answer
      { session with tx := tx, log := session.log ++ [⟨.client request, answer⟩] }) :
    footprint rt env req (.client request) session post := by
  refine ⟨allowed, ?_⟩
  intro answer after answered
  rcases answered with ⟨tx, rfl⟩
  exact holds answer tx

theorem searched_later {log : List (Event R)} (searched : log.any Event.searches = true)
    (event : Event R) : (log ++ [event]).any Event.searches = true := by
  rw [List.any_append, searched, Bool.true_or]

theorem preparation_footprint (rt : Runtime) (env : Environment R) (req : IngestRequest) :
    PreparationRule (footprint rt env req) rt req (fun session => session = {})
      (fun _ bytes _ => ContentHash rt env req (contentHash rt bytes))
      (fun _ bytes _ => ContentHash rt env req (contentHash rt bytes))
      (fun _ bytes _ _ ids _ => ContentHash rt env req (contentHash rt bytes) ∧
        ∀ id ∈ ids, Minted env id)
      (fun _ _ => True) where
  monotone := Spec.discipline_monotone _ _
  read := by
    intro path session source start
    apply footprint_env
    rw [start, Environment.answer]
    rcases answered : env.readFile 0 path with e | bytes
    · trivial
    · exact ⟨(path, bytes), by rw [source, contentOf, answered], rfl⟩
  carried := by
    intro name bytes session carries _
    refine ⟨(name, bytes), ?_, rfl⟩
    rcases source : req.source with path | ⟨inline, text⟩ | ⟨inline, raw⟩
    · rw [source] at carries
      exact carries.elim
    · rw [source] at carries
      rw [contentOf, carries.1, carries.2]
    · rw [source] at carries
      rw [contentOf, carries.1, carries.2]
  checked := by
    intro name bytes session loaded
    apply footprint_client
    · exact loaded
    intro answer tx
    rcases answer with e | found
    · trivial
    · cases found
      · exact loaded
      · trivial
  unchunked := fun _ _ _ _ _ _ => trivial
  embedded := by
    intro name bytes chunks session _ loaded
    apply footprint_env
    generalize env.answer session.tick (.embedBatch (chunks.map (·.text))) = answer
    rcases answer with e | embeddings
    · trivial
    · simp only [Settles]
      split
      · trivial
      · exact ⟨loaded, fun id member => absurd member List.not_mem_nil⟩
  minted := by
    intro name bytes chunks embeddings ids session minting
    apply footprint_env
    refine ⟨minting.1, ?_⟩
    intro id member
    rcases List.mem_append.mp member with earlier | new
    · exact minting.2 id earlier
    · exact ⟨session.tick, (List.mem_singleton.mp new).symm⟩

structure OwnRows (rt : Runtime) (env : Environment R) (req : IngestRequest)
    (log : List (Event R)) (own : Tables R) : Prop where
  namespaces : own.namespaces = []
  documents : ∀ doc ∈ own.documents, ContentHash rt env req doc.contentHash ∧ Minted env doc.id
  chunks : ∀ chunk ∈ own.chunks, Minted env chunk.id ∧ Minted env chunk.documentId
  unlinked : log.any Event.searches = false →
    own.entities = [] ∧ own.relationships = [] ∧ own.chunkEntities = []

/-- Rows that a call cannot notice, if it does not touch entities or there are none. -/
structure Unseen (rt : Runtime) (env : Environment R) (req : IngestRequest) (log : List (Event R))
    (delta : Tables R) : Prop where
  namespaces : delta.namespaces = []
  documents : ∀ doc ∈ delta.documents,
    ¬ ContentHash rt env req doc.contentHash ∧ ¬ Minted env doc.id
  chunks : ∀ chunk ∈ delta.chunks, ¬ Minted env chunk.id ∧ ¬ Minted env chunk.documentId
  unlinked : log.any Event.searches = true →
    delta.entities = [] ∧ delta.relationships = [] ∧ delta.chunkEntities = []

theorem OwnRows.empty (rt : Runtime) (env : Environment R) (req : IngestRequest)
    (log : List (Event R)) : OwnRows rt env req log {} where
  namespaces := rfl
  documents := nofun
  chunks := nofun
  unlinked := fun _ => ⟨rfl, rfl, rfl⟩

theorem OwnRows.later {log : List (Event R)} {own : Tables R} (rows : OwnRows rt env req log own)
    (event : Event R) : OwnRows rt env req (log ++ [event]) own where
  namespaces := rows.namespaces
  documents := rows.documents
  chunks := rows.chunks
  unlinked := by
    intro none_
    rw [List.any_append, Bool.or_eq_false_iff] at none_
    exact rows.unlinked none_.1

theorem OwnRows.append {log : List (Event R)} {a b : Tables R} (first : OwnRows rt env req log a)
    (second : OwnRows rt env req log b) : OwnRows rt env req log (a ++ b) where
  namespaces := by
    rw [Tables.append_namespaces, first.namespaces, second.namespaces]
    rfl
  documents := List.forall_mem_append.mpr ⟨first.documents, second.documents⟩
  chunks := List.forall_mem_append.mpr ⟨first.chunks, second.chunks⟩
  unlinked := by
    intro none_
    rcases first.unlinked none_ with ⟨entities, relationships, chunkEntities⟩
    rcases second.unlinked none_ with ⟨moreEntities, moreRelationships, moreChunkEntities⟩
    simp [entities, relationships, chunkEntities, moreEntities, moreRelationships,
      moreChunkEntities]

theorem row_allowed {log : List (Event R)} {request : ClientCall R}
    (allowed : Allowed rt env req log request) : OwnRows rt env req log (rowOf request) := by
  have searched : log.any Event.searches = true → log.any Event.searches ≠ false := by
    intro before none_
    rw [before] at none_
    cases none_
  cases request with
  | insertDocument doc =>
      exact
        { OwnRows.empty rt env req log with
          documents := fun stored member => by
            cases List.mem_singleton.mp member
            exact allowed }
  | insertChunk chunk =>
      exact
        { OwnRows.empty rt env req log with
          chunks := fun stored member => by
            cases List.mem_singleton.mp member
            exact allowed }
  | insertEntity row =>
      exact
        { OwnRows.empty rt env req log with
          unlinked := fun none_ => absurd none_ (searched allowed.1) }
  | insertRelationship row =>
      exact
        { OwnRows.empty rt env req log with
          unlinked := fun none_ => absurd none_ (searched allowed.1) }
  | insertChunkEntity row =>
      exact
        { OwnRows.empty rt env req log with
          unlinked := fun none_ => absurd none_ (searched allowed.1) }
  | documentExistsByHash ns hash => exact .empty rt env req log
  | fuzzyMatchEntity ns name limit => exact .empty rt env req log
  | rollback => exact .empty rt env req log
  | commit => exact .empty rt env req log

theorem Unseen.empty (rt : Runtime) (env : Environment R) (req : IngestRequest)
    (log : List (Event R)) : Unseen rt env req log {} where
  namespaces := rfl
  documents := nofun
  chunks := nofun
  unlinked := fun _ => ⟨rfl, rfl, rfl⟩

theorem Unseen.earlier {log : List (Event R)} {event : Event R} {delta : Tables R}
    (unseen : Unseen rt env req (log ++ [event]) delta) : Unseen rt env req log delta :=
  { unseen with unlinked := fun searched => unseen.unlinked (searched_later searched event) }

theorem OwnRows.unseen {other : Environment R} {otherReq : IngestRequest}
    {log otherLog : List (Event R)} {own : Tables R} (rows : OwnRows rt other otherReq otherLog own)
    (ids : ∀ n m, env.newUuid n ≠ other.newUuid m)
    (hashes : ∀ hash, ContentHash rt env req hash → ¬ ContentHash rt other otherReq hash)
    (apart : log.any Event.searches = true → otherLog.any Event.searches = false) :
    Unseen rt env req log own where
  namespaces := rows.namespaces
  documents := by
    intro doc member
    rcases rows.documents doc member with ⟨hash, minted⟩
    refine ⟨fun same => hashes _ same hash, fun same => ?_⟩
    rcases same with ⟨n, here⟩
    rcases minted with ⟨m, there⟩
    exact ids n m (here.trans there.symm)
  chunks := by
    intro chunk member
    rcases rows.chunks chunk member with ⟨⟨m, id⟩, ⟨k, parent⟩⟩
    refine ⟨fun same => ?_, fun same => ?_⟩
    · rcases same with ⟨n, here⟩
      exact ids n m (here.trans id.symm)
    · rcases same with ⟨n, here⟩
      exact ids n k (here.trans parent.symm)
  unlinked := fun searched => rows.unlinked (apart searched)

theorem any_skip {α : Type} {p : α → Bool} {a b c : List α} (none_ : ∀ x ∈ b, p x = false) :
    (a ++ b ++ c).any p = (a ++ c).any p := by
  have skipped : b.any p = false := by
    rw [List.any_eq_false]
    intro x member
    simp [none_ x member]
  rw [List.any_append, List.any_append, skipped, Bool.or_false, List.any_append]

section Unseen

variable {log : List (Event R)} {request : ClientCall R} {answer : CoreResult request.Value}
  {delta : Tables R}

theorem Unseen.entities (unseen : Unseen rt env req (log ++ [⟨.client request, answer⟩]) delta)
    (allowed : Allowed rt env req log request) (touches : request.touchesEntities = true) :
    delta.entities = [] ∧ delta.relationships = [] ∧ delta.chunkEntities = [] := by
  apply unseen.unlinked
  cases request with
  | fuzzyMatchEntity ns name limit =>
      rw [List.any_append]
      exact Bool.or_true _
  | insertEntity row => exact searched_later allowed.1 _
  | insertRelationship row => exact searched_later allowed.1 _
  | insertChunkEntity row => exact searched_later allowed.1 _
  | _ => cases touches

theorem Unseen.hash (unseen : Unseen rt env req log delta) {doc : DocRow}
    (member : doc ∈ delta.documents) {hash : String} (known : ContentHash rt env req hash) :
    doc.contentHash ≠ hash := by
  rintro rfl
  exact (unseen.documents doc member).1 known

theorem Unseen.document (unseen : Unseen rt env req log delta) {doc : DocRow}
    (member : doc ∈ delta.documents) {id : Uuid} (minted : Minted env id) : doc.id ≠ id := by
  rintro rfl
  exact (unseen.documents doc member).2 minted

theorem Unseen.chunk (unseen : Unseen rt env req log delta) {chunk : ChunkRow R}
    (member : chunk ∈ delta.chunks) {id : Uuid} (minted : Minted env id) : chunk.id ≠ id := by
  rintro rfl
  exact (unseen.chunks chunk member).1 minted

theorem Unseen.parent (unseen : Unseen rt env req log delta) {chunk : ChunkRow R}
    (member : chunk ∈ delta.chunks) {id : Uuid} (minted : Minted env id) :
    chunk.documentId ≠ id := by
  rintro rfl
  exact (unseen.chunks chunk member).2 minted

theorem conflicts_unseen (unseen : Unseen rt env req log delta)
    (allowed : Allowed rt env req log request) : conflicts delta request = false := by
  cases request with
  | insertDocument doc =>
      rw [conflicts, List.any_eq_false]
      intro stored member
      simp [unseen.hash member allowed.1, unseen.document member allowed.2]
  | insertChunk chunk =>
      rw [conflicts, List.any_eq_false]
      intro stored member
      simp [unseen.chunk member allowed.1, unseen.parent member allowed.2]
  | insertEntity row =>
      have none_ := (unseen.unlinked allowed.1).1
      rw [conflicts, none_]
      rfl
  | insertRelationship row =>
      have none_ := (unseen.unlinked allowed.1).2.1
      rw [conflicts, none_]
      rfl
  | insertChunkEntity row =>
      have none_ := (unseen.unlinked allowed.1).2.2
      rw [conflicts, none_]
      rfl
  | _ => rfl

end Unseen

theorem Answered.log {request : Call R} {answer : request.Answer} {after : Session R}
    (answered : Answered env request session answer after) :
    after.log = session.log ++ [⟨request, answer⟩] := by
  cases request with
  | env request =>
      rcases answered with ⟨rfl, rfl⟩
      rfl
  | client request =>
      rcases answered with ⟨tx, rfl⟩
      rfl

variable [F32 R]

theorem extraction_footprint {chunkId : Uuid} (minted : Minted env chunkId) (ns : String) :
    ExtractionRule (footprint rt env req) ns chunkId
      (fun ids session => ids ≠ [] → session.log.any Event.searches = true)
      (fun _ _ => True) where
  monotone := Spec.discipline_monotone _ _
  forget := fun _ _ _ none_ => absurd rfl none_
  extracted := by
    intro chunkText session _
    apply footprint_env
    generalize env.answer session.tick (.extract chunkText ns) = answer
    rcases answer with e | extraction
    · trivial
    · exact fun none_ => absurd rfl none_
  embedded := by
    intro name ids session known
    apply footprint_env
    generalize env.answer session.tick (.embedBatch [name]) = answer
    rcases answer with e | vectors
    · trivial
    · exact ⟨fun _ some_ => searched_later (known some_) _, fun _ => trivial⟩
  resolved := by
    intro name kind nameEmb description ids session _
    apply footprint_client
    · exact trivial
    intro answer tx
    rcases answer with e | cands
    · trivial
    · have searched : (session.log ++ [Event.mk
          (.client (.fuzzyMatchEntity ns name trgmCandidateLimit)) (.ok cands)]).any
            Event.searches = true := by
        rw [List.any_append]
        exact Bool.or_true _
      refine ⟨fun _ _ _ => searched, ?_⟩
      apply footprint_env
      apply footprint_client
      · exact ⟨searched_later searched _, ⟨_, rfl⟩⟩
      intro answer tx
      rcases answer with e | _
      · trivial
      · exact fun _ => searched_later (searched_later searched _) _
  linked := by
    intro id confidence ids session member known
    have searched := known (List.ne_nil_of_mem member)
    apply footprint_client
    · exact ⟨searched, minted⟩
    intro answer tx
    rcases answer with e | _
    · trivial
    · exact fun _ => searched_later searched _
  related := by
    intro src dst kind weight ids session member _ known
    have searched := known (List.ne_nil_of_mem member)
    apply footprint_env
    apply footprint_client
    · exact ⟨searched_later searched _, ⟨_, rfl⟩⟩
    intro answer tx
    rcases answer with e | _
    · trivial
    · exact fun _ => searched_later (searched_later searched _) _

theorem persistence_footprint {docId : Uuid} (minted : Minted env docId) (ns : String) :
    PersistRule (footprint (R := R) rt env req) docId ns
      (fun items _ => ∀ item ∈ items, Minted env item.2)
      (fun item rest _ => Minted env item.2 ∧ ∀ other ∈ rest, Minted env other.2)
      (fun _ _ => True) where
  monotone := Spec.discipline_monotone _ _
  stored := by
    intro item rest session items
    apply footprint_client
    · exact ⟨items item List.mem_cons_self, minted⟩
    intro answer tx
    rcases answer with e | _
    · trivial
    · exact ⟨items item List.mem_cons_self, fun other member =>
        items other (List.mem_cons_of_mem _ member)⟩
  extracted := by
    intro item rest session placed
    refine Program.wp_mono (Spec.discipline_monotone _ _) _ _ ?_
      (wp_persistChunkExtraction (extraction_footprint placed.1 ns) item.1.1.text session
        (fun none_ => absurd rfl none_))
    exact Settles.mono (fun _ _ _ => placed.2) (fun _ _ stop => stop)

theorem runJob_footprint (rt : Runtime) (env : Environment R) (req : IngestRequest) :
    Program.wp (footprint rt env req) (runJob rt req).run {} (fun _ _ => True) := by
  refine wp_runJob (preparation_footprint rt env req) {} rfl ?_
  intro doc bytes chunks embeddings chunkIds middle ready prepared
  have minted : Minted env doc.id := prepared.2 doc.id (by simp)
  refine Program.wp_mono (Spec.discipline_monotone _ _) _ _ ?_
    (wp_persistDocument doc (persistence_footprint minted doc.ns) chunks embeddings chunkIds _ ?_)
  · intro persisted after _
    rcases persisted with e | n
    · exact ⟨trivial, fun _ _ _ => trivial⟩
    · refine ⟨trivial, fun answer after _ => ?_⟩
      rcases answer with e | _
      · trivial
      · trivial
  · rw [← ready.contentHash] at prepared
    apply footprint_client
    · exact ⟨prepared.1, minted⟩
    intro answer tx
    rcases answer with e | _
    · trivial
    · intro item member
      have drawn := (List.of_mem_zip member).2
      exact prepared.2 item.2 (List.mem_append_left _ drawn)

section Statements

variable {log : List (Event R)} {request : ClientCall R} {answer : CoreResult request.Value}
  {committed delta own : Tables R}

theorem evaluate_unseen {srv : Server R}
    (unseen : Unseen rt env req (log ++ [⟨.client request, answer⟩]) delta)
    (allowed : Allowed rt env req log request) :
    evaluate srv (committed ++ delta ++ own) request = evaluate srv (committed ++ own) request := by
  cases request with
  | documentExistsByHash ns hash =>
      have skip : ∀ d ∈ delta.documents,
          decide (d.ns = ns ∧ d.contentHash = hash) = false := by
        intro stored member
        simp [unseen.hash member allowed]
      simp only [evaluate, Tables.append_documents, any_skip skip]
  | insertDocument doc =>
      have hashes : ∀ d ∈ delta.documents, decide (d.contentHash = doc.contentHash) = false := by
        intro stored member
        simp [unseen.hash member allowed.1]
      have ids : ∀ d ∈ delta.documents, decide (d.id = doc.id) = false := by
        intro stored member
        simp [unseen.document member allowed.2]
      simp only [evaluate, insertDocumentInto, Tables.append_documents, Tables.append_namespaces,
        any_skip hashes, any_skip ids, unseen.namespaces, List.append_nil]
  | insertChunk chunk =>
      have parents : ∀ c ∈ delta.chunks,
          decide (c.documentId = chunk.documentId ∧ c.ord = chunk.ord) = false := by
        intro stored member
        simp [unseen.parent member allowed.2]
      have ids : ∀ c ∈ delta.chunks, decide (c.id = chunk.id) = false := by
        intro stored member
        simp [unseen.chunk member allowed.1]
      have documents : ∀ d ∈ delta.documents, decide (d.id = chunk.documentId) = false := by
        intro stored member
        simp [unseen.document member allowed.2]
      simp only [evaluate, insertChunkInto, Tables.append_documents, Tables.append_chunks,
        any_skip parents, any_skip ids, any_skip documents]
  | insertEntity row =>
      have none_ := unseen.entities allowed rfl
      simp only [evaluate, insertEntityInto, Tables.append_entities, none_.1, List.append_nil]
  | insertRelationship row =>
      have none_ := unseen.entities allowed rfl
      simp only [evaluate, insertRelationshipInto, Tables.append_entities,
        Tables.append_relationships, none_.1, none_.2.1, List.append_nil]
  | insertChunkEntity row =>
      have none_ := unseen.entities allowed rfl
      have chunks : ∀ c ∈ delta.chunks, decide (c.id = row.chunkId) = false := by
        intro stored member
        simp [unseen.chunk member allowed.2]
      simp only [evaluate, insertChunkEntityInto, Tables.append_entities, Tables.append_chunks,
        Tables.append_chunkEntities, none_.1, none_.2.2, List.append_nil, any_skip chunks]
  | fuzzyMatchEntity ns name limit =>
      have none_ := unseen.entities allowed rfl
      simp only [evaluate, Tables.append_entities, none_.1, List.append_nil]
  | rollback => rfl
  | commit => rfl

end Statements

section Handler

variable {adapter : Adapter} {srv : Server R} {committed delta : Tables R}

theorem handler_answered {request : Call R} {answer : request.Answer} {after : Session R}
    (answered : adapter.handler srv env committed request session = .ok (answer, after)) :
    Answered env request session answer after := by
  cases request with
  | env request =>
      cases answered
      exact ⟨rfl, rfl⟩
  | client request =>
      rw [Adapter.handler] at answered
      split at answered
      · cases answered
        exact ⟨_, rfl⟩
      · cases answered

/-- A call cannot tell the tables with and without rows that it may not see. -/
theorem handler_unseen {request : Call R} {answer : request.Answer} {after : Session R}
    (answered : adapter.handler srv env committed request session = .ok (answer, after))
    (allowed : ∀ statement, request = .client statement →
      Allowed rt env req session.log statement)
    (unseen : Unseen rt env req after.log delta) :
    adapter.handler srv env (committed ++ delta) request session = .ok (answer, after) := by
  rw [← answered]
  cases request with
  | env request => rfl
  | client request =>
      rw [(handler_answered answered).log] at unseen
      have same : evaluate srv (committed ++ delta ++ session.tx.own) request =
          evaluate srv (committed ++ session.tx.own) request :=
        evaluate_unseen unseen (allowed request rfl)
      have alone : evaluate srv (committed ++ delta) request = evaluate srv committed request := by
        have same : evaluate srv (committed ++ delta ++ {}) request =
            evaluate srv (committed ++ {}) request := evaluate_unseen unseen (allowed request rfl)
        rw [Tables.append_empty, Tables.append_empty] at same
        exact same
      simp only [Adapter.handler, Adapter.perform, statement, execute, same, alone]

theorem handler_added {request : ClientCall R} {answer : CoreResult request.Value}
    {after : Session R}
    (answered : adapter.handler srv env committed (.client request) session = .ok (answer, after)) :
    after.tx.own = {} ∨ after.tx.own = session.tx.own ∨
      after.tx.own = session.tx.own ++ rowOf request := by
  rw [Adapter.handler] at answered
  split at answered
  · rename_i value tx performed
    cases answered
    rw [Adapter.perform] at performed
    split at performed
    · rename_i result reached executed
      cases performed
      exact .inr (statement_added executed)
    · cases adapter with
      | spi => cases performed
      | tokio =>
          cases performed
          exact .inl rfl
  · cases answered

theorem OwnRows.answered {request : Call R} {answer : request.Answer} {after : Session R}
    (rows : OwnRows rt env req session.log session.tx.own)
    (answered : adapter.handler srv env committed request session = .ok (answer, after))
    (allowed : ∀ statement, request = .client statement →
      Allowed rt env req session.log statement) :
    OwnRows rt env req after.log after.tx.own := by
  rw [(handler_answered answered).log]
  cases request with
  | env request =>
      cases answered
      exact rows.later _
  | client request =>
      rcases handler_added answered with none_ | same | added
      · rw [none_]
        exact .empty rt env req _
      · rw [same]
        exact rows.later _
      · rw [added]
        exact (rows.append (row_allowed (allowed request rfl))).later _

end Handler

end PgRaggraph

import PgRaggraph.Core.RunRules
import PgRaggraph.Sidecar.ProcessOne

/-! One `run_job` of the sidecar, while other workers commit.

Between two statements the tables may grow, by rows that carry none of the identifiers this run
draws. -/

namespace PgRaggraph.Sidecar

open Interaction Interaction.Fallible

variable {R : Type}

structure Interferes (env : Environment R) (state moved : Session R × Tables R) : Prop where
  session : moved.1 = state.1
  grown : ∃ delta, moved.2 = state.2 ++ delta ∧ delta.namespaces = []
  fresh : FreshFor env moved.2

theorem Interferes.trans {env : Environment R} {first second third : Session R × Tables R}
    (near : Interferes env first second) (far : Interferes env second third) :
    Interferes env first third where
  session := far.session.trans near.session
  grown := by
    rcases near.grown with ⟨nearer, same, unnamed⟩
    rcases far.grown with ⟨further, later, unnamedLater⟩
    refine ⟨nearer ++ further, ?_, ?_⟩
    · rw [later, same, Tables.append_assoc]
    · rw [Tables.append_namespaces, unnamed, unnamedLater, List.append_nil]
  fresh := far.fresh

def Event.unstored : Event R → Bool
  | ⟨.client (.documentExistsByHash _ _), .ok false⟩ => true
  | _ => false

def underway (session : Session R) : Bool := session.log.any Event.unstored

def Careful (ns hash : String) (session : Session R) : Call R → Prop
  | .client (.documentExistsByHash asked content) => asked = ns ∧ content = hash
  | .client (.fuzzyMatchEntity _ _ _) => True
  | .client .rollback => True
  | .client .commit => True
  | .client _ => underway session = true
  | .env _ => True

section Specification

variable [F32 R] (srv : Server R) (env : Environment R) (ns hash : String)

def statements : Spec (Ingest R) (Session R × Tables R) := fun request state post =>
  Careful ns hash state.1 request ∧
    (Adapter.tokio.handler srv env state.2).spec request state.1
      (fun answer after => post answer (after, state.2))

def attempt : Spec (Ingest R) (Session R × Tables R) :=
  (statements srv env ns hash).under (Interferes env)

theorem attempt_monotone : (attempt srv env ns hash).Monotone := by
  apply Spec.under_monotone
  intro request state post weaker implies holds
  refine ⟨holds.1, Handler.spec_monotone _ _ _ _ _ ?_ holds.2⟩
  exact fun answer after => implies answer (after, state.2)

theorem attempt_env (request : EnvCall) (session : Session R) (tables : Tables R)
    (post : request.Answer R → Session R × Tables R → Prop) :
    attempt srv env ns hash (.env request) (session, tables) post ↔
      ∀ moved, Interferes env (session, tables) (session, moved) →
        post (env.answer session.tick request)
          ({ session with
            tick := session.tick + 1
            log := session.log ++ [⟨.env request, env.answer session.tick request⟩] }, moved) := by
  constructor
  · intro holds moved along
    exact (holds (session, moved) along).2
  · intro holds state along
    rcases state with ⟨reached, moved⟩
    cases along.session
    exact ⟨trivial, holds moved along⟩

theorem attempt_client (request : ClientCall R) (session : Session R) (tables : Tables R)
    (post : CoreResult request.Value → Session R × Tables R → Prop) :
    attempt srv env ns hash (.client request) (session, tables) post ↔
      ∀ moved, Interferes env (session, tables) (session, moved) →
        Careful ns hash session (.client request) ∧
        ∀ answer tx, Adapter.tokio.perform srv moved session.tx request = .ok (answer, tx) →
          post answer ({ session with
            tx := tx, log := session.log ++ [⟨.client request, answer⟩] }, moved) := by
  constructor
  · intro holds moved along
    have stated := holds (session, moved) along
    exact ⟨stated.1, (adapter_spec_client _ _ _ _ _ _ _).mp stated.2⟩
  · intro holds state along
    rcases state with ⟨reached, moved⟩
    cases along.session
    have stated := holds moved along
    exact ⟨stated.1, (adapter_spec_client _ _ _ _ _ _ _).mpr stated.2⟩

theorem attempt_answered {request : Call R} {session after : Session R} {tables : Tables R}
    {answer : request.Answer} {post : request.Answer → Session R × Tables R → Prop}
    (fresh : FreshFor env tables)
    (holds : attempt srv env ns hash request (session, tables) post)
    (answered : Adapter.tokio.handler srv env tables request session = .ok (answer, after)) :
    Careful ns hash session request ∧ post answer (after, tables) := by
  have still : Interferes env (session, tables) (session, tables) :=
    ⟨rfl, ⟨{}, (Tables.append_empty tables).symm, rfl⟩, fresh⟩
  have stated := holds (session, tables) still
  exact ⟨stated.1, (Handler.spec_iff _ _ _ _).mp stated.2 answer after answered⟩

end Specification

/-- Nothing but a concurrent run keeps this one from completing. -/
structure Untroubled (rt : Runtime) (srv : Server R) (env : Environment R) (req : IngestRequest)
    (bytes : Bytes) (chunks : List Chunk) : Prop where
  chunked : chunkSource rt req.chunkStrategy bytes = .ok chunks
  embedded : ∀ n, ∃ embeddings, env.embedBatch n (chunks.map (·.text)) = .ok embeddings ∧
    embeddings.length = chunks.length
  checked : srv.refuses (.documentExistsByHash req.ns (contentHash rt bytes)) = none
  document : ∀ sourceName id, Carries req.source sourceName bytes →
    srv.refuses (.insertDocument (jobDocument rt req sourceName bytes id)) = none
  placed : ∀ n embeddings, env.embedBatch n (chunks.map (·.text)) = .ok embeddings →
    ∀ docId pair id, pair ∈ chunks.zip embeddings →
      srv.refuses (.insertChunk (chunkRow docId req.ns pair.1 pair.2 id)) = none

/-- A document of the run's content is stored although its duplicate check was negative. -/
structure Raced (rt : Runtime) (bytes : Bytes) (session : Session R) (tables : Tables R) :
    Prop where
  underway : underway session = true
  stored : ∃ doc ∈ tables.documents, doc.contentHash = contentHash rt bytes

def documentRows (doc : DocRow) (items : List (ChunkItem R)) : Tables R where
  documents := [doc]
  chunks := items.map (fun item => chunkRow doc.id doc.ns item.1.1 item.1.2 item.2)

structure Assembled (rt : Runtime) (env : Environment R) (req : IngestRequest) (bytes : Bytes)
    (doc : DocRow) (chunks : List Chunk) (embeddings : List (List R)) (chunkIds : List Uuid) :
    Prop where
  ready : Ready rt req bytes doc chunks embeddings chunkIds
  embedded : ∃ n, env.embedBatch n (chunks.map (·.text)) = .ok embeddings
  drawn : ∀ id ∈ chunkIds ++ [doc.id], Minted env id
  distinct : chunkIds.Nodup

def Outcome (rt : Runtime) (srv : Server R) (env : Environment R) (req : IngestRequest)
    (bytes : Bytes) : CoreResult RunJobOutcome → Session R × Tables R → Prop
  | .ok _, (session, tables) =>
      (∃ doc chunks embeddings chunkIds,
        Assembled rt env req bytes doc chunks embeddings chunkIds ∧ underway session = true ∧
          session.tx.own = documentRows doc ((chunks.zip embeddings).zip chunkIds)) ∨
      (session.tx.own = {} ∧
        ∃ doc ∈ tables.documents, doc.ns = req.ns ∧ doc.contentHash = contentHash rt bytes)
  | .error _, (session, tables) => ∀ chunks, Untroubled rt srv env req bytes chunks →
      req.ns ∈ tables.namespaces → Raced rt bytes session tables

variable {rt : Runtime} {srv : Server R} {env : Environment R} {req : IngestRequest}
  {sourceName : String} {bytes : Bytes}

theorem carries_unique {source : IngestSource} {name other : String} {content : Bytes}
    (first : Carries source name bytes) (second : Carries source other content) :
    other = name ∧ content = bytes := by
  cases source with
  | path path => exact first.elim
  | text inline text => exact ⟨second.1.trans first.1.symm, second.2.trans first.2.symm⟩
  | bytes inline raw => exact ⟨second.1.trans first.1.symm, second.2.trans first.2.symm⟩

structure Collected (env : Environment R) (chunks : List Chunk) (embeddings : List (List R))
    (ids : List Uuid) (session : Session R) : Prop where
  clean : session.tx = {}
  underway : underway session = true
  embedded : ∃ n, env.embedBatch n (chunks.map (·.text)) = .ok embeddings
  drawn : ∀ id ∈ ids, ∃ k < session.tick, env.newUuid k = id
  distinct : ids.Nodup

theorem underway_later {session : Session R} (holds : underway session = true) {tx : Transaction R}
    {tick : Nat} (event : Event R) :
    underway { tx := tx, tick := tick, log := session.log ++ [event] } = true := by
  rw [underway] at holds ⊢
  rw [List.any_append, holds, Bool.true_or]

theorem Collected.next {chunks : List Chunk} {embeddings : List (List R)} {ids : List Uuid}
    {session : Session R} (collected : Collected env chunks embeddings ids session)
    (event : Event R) :
    Collected env chunks embeddings (ids ++ [env.newUuid session.tick])
      { session with tick := session.tick + 1, log := session.log ++ [event] } where
  clean := collected.clean
  underway := underway_later collected.underway event
  embedded := collected.embedded
  drawn := by
    intro id member
    rcases List.mem_append.mp member with earlier | new
    · rcases collected.drawn id earlier with ⟨k, before, same⟩
      exact ⟨k, Nat.lt_succ_of_lt before, same⟩
    · exact ⟨session.tick, Nat.lt_succ_self _, (List.mem_singleton.mp new).symm⟩
  distinct := by
    apply List.nodup_append.mpr
    refine ⟨collected.distinct, List.nodup_singleton _, ?_⟩
    intro id earlier other new same
    rcases collected.drawn id earlier with ⟨k, before, drawn⟩
    rw [same, List.mem_singleton.mp new] at drawn
    have equal : k = session.tick := env.fresh drawn
    omega

theorem attempt_preparation [F32 R] (carries : Carries req.source sourceName bytes) :
    PreparationRule (attempt srv env req.ns (contentHash rt bytes)) rt req
      (fun state => state.1.tx = {})
      (fun name content state => (name = sourceName ∧ content = bytes) ∧ state.1.tx = {})
      (fun name content state => (name = sourceName ∧ content = bytes) ∧ state.1.tx = {} ∧
        underway state.1 = true)
      (fun name content chunks embeddings ids state => (name = sourceName ∧ content = bytes) ∧
        Collected env chunks embeddings ids state.1)
      (Outcome rt srv env req bytes) where
  monotone := attempt_monotone srv env _ _
  read := by
    intro path state source _
    rw [source] at carries
    exact carries.elim
  carried := fun _ _ _ carried clean => ⟨carries_unique carries carried, clean⟩
  checked := by
    intro name content state loaded
    rcases state with ⟨session, tables⟩
    rcases loaded with ⟨⟨rfl, rfl⟩, clean⟩
    rw [attempt_client]
    intro moved along
    refine ⟨⟨rfl, rfl⟩, ?_⟩
    intro answer tx performed
    rcases answer with e | found
    · intro chunks untroubled _
      rcases tokio_failed rfl performed with aborted | refused | ⟨failure, evaluated⟩
      · rw [clean] at aborted
        exact absurd rfl aborted
      · exact absurd untroubled.checked refused
      · cases evaluated
    · rcases check_answered performed with ⟨exists_, rfl⟩
      rw [clean, Tables.append_empty] at exists_
      rcases found with _ | _
      · refine ⟨⟨rfl, rfl⟩, clean, ?_⟩
        rw [underway, List.any_append]
        exact Bool.or_true _
      · rcases List.any_eq_true.mp exists_.symm with ⟨doc, stored, same⟩
        have same := of_decide_eq_true same
        exact .inr ⟨by rw [clean], doc, stored, same⟩
  unchunked := by
    intro name content e state chunked unstored chunks untroubled
    rw [unstored.1.2, untroubled.chunked] at chunked
    cases chunked
  embedded := by
    intro name content chunks state chunked unstored
    rcases state with ⟨session, tables⟩
    rcases unstored with ⟨⟨rfl, rfl⟩, clean, checked⟩
    rw [attempt_env, Environment.answer]
    intro moved along
    generalize embedded : env.embedBatch session.tick (chunks.map (·.text)) = answer
    have fine : ∀ others, Untroubled rt srv env req content others →
        ∃ embeddings, answer = .ok embeddings ∧ embeddings.length = chunks.length := by
      intro others untroubled
      have same := untroubled.chunked
      rw [chunked] at same
      cases same
      rw [← embedded]
      exact untroubled.embedded session.tick
    rcases answer with e | embeddings
    · intro others untroubled _
      rcases fine others untroubled with ⟨_, same, -⟩
      cases same
    · dsimp only [Settles]
      split
      · rename_i differ
        intro others untroubled _
        rcases fine others untroubled with ⟨_, same, length⟩
        cases same
        exact absurd length differ
      · exact ⟨⟨rfl, rfl⟩, clean, underway_later checked _, ⟨_, embedded⟩,
          fun id member => absurd member List.not_mem_nil, List.nodup_nil⟩
  minted := by
    intro name content chunks embeddings ids state collected
    rcases state with ⟨session, tables⟩
    rcases collected with ⟨⟨rfl, rfl⟩, collected⟩
    rw [attempt_env]
    intro moved along
    exact ⟨⟨rfl, rfl⟩, collected.next _⟩

section Items

variable {doc : DocRow} {chunks : List Chunk} {embeddings : List (List R)} {chunkIds : List Uuid}

theorem Assembled.item_pairs (assembled : Assembled rt env req bytes doc chunks embeddings chunkIds) :
    ((chunks.zip embeddings).zip chunkIds).map Prod.fst = chunks.zip embeddings := by
  have embedded := assembled.ready.embedded
  have counted := assembled.ready.counted
  exact List.map_fst_zip (by rw [List.length_zip]; omega)

theorem Assembled.item_chunks (assembled : Assembled rt env req bytes doc chunks embeddings chunkIds) :
    ((chunks.zip embeddings).zip chunkIds).map (fun item => item.1.1) = chunks := by
  have embedded := assembled.ready.embedded
  calc
    _ = (((chunks.zip embeddings).zip chunkIds).map Prod.fst).map Prod.fst := by
      rw [List.map_map]
      rfl
    _ = chunks := by
      rw [assembled.item_pairs]
      exact List.map_fst_zip (by omega)

theorem Assembled.item_ords (assembled : Assembled rt env req bytes doc chunks embeddings chunkIds) :
    ((chunks.zip embeddings).zip chunkIds).map (fun item => item.1.1.ord) =
      chunks.map (fun chunk => chunk.ord) := by
  calc
    _ = (((chunks.zip embeddings).zip chunkIds).map (fun item => item.1.1)).map
          (fun chunk => chunk.ord) := by
      rw [List.map_map]
      rfl
    _ = chunks.map (fun chunk => chunk.ord) := by
      rw [assembled.item_chunks]

theorem Assembled.item_ids (assembled : Assembled rt env req bytes doc chunks embeddings chunkIds) :
    ((chunks.zip embeddings).zip chunkIds).map Prod.snd = chunkIds := by
  have embedded := assembled.ready.embedded
  have counted := assembled.ready.counted
  exact List.map_snd_zip (by rw [List.length_zip]; omega)

theorem earlier_differ {α β : Type} {f : α → β} {earlier : List α} {item : α} {rest : List α}
    (distinct : ((earlier ++ item :: rest).map f).Nodup) : ∀ other ∈ earlier, f other ≠ f item := by
  intro other member
  rw [List.map_append, List.nodup_append] at distinct
  exact distinct.2.2 _ (List.mem_map_of_mem member) _ List.mem_cons_self

end Items

structure Placed (doc : DocRow) (earlier : List (ChunkItem R)) (session : Session R) : Prop where
  tx : session.tx = { own := documentRows doc earlier }
  underway : underway session = true

structure Lost (rt : Runtime) (bytes : Bytes) (session : Session R) (tables : Tables R) : Prop where
  clean : session.tx = {}
  raced : Raced rt bytes session tables

theorem Raced.later {session : Session R} {tables delta : Tables R}
    (raced : Raced rt bytes session tables) {tx : Transaction R} {tick : Nat} (event : Event R) :
    Raced rt bytes { tx := tx, tick := tick, log := session.log ++ [event] } (tables ++ delta) where
  underway := underway_later raced.underway event
  stored := by
    rcases raced.stored with ⟨doc, stored, same⟩
    exact ⟨doc, List.mem_append_left _ stored, same⟩

theorem documentRows_snoc (doc : DocRow) (earlier : List (ChunkItem R)) (item : ChunkItem R) :
    documentRows doc earlier ++
        { chunks := [chunkRow doc.id doc.ns item.1.1 item.1.2 item.2] } =
      documentRows doc (earlier ++ [item]) := by
  ext : 1
  all_goals simp [documentRows]

section Persistence

variable [F32 R] {doc : DocRow} {chunks : List Chunk} {embeddings : List (List R)}
  {chunkIds : List Uuid}

omit [F32 R] in
theorem Assembled.next_differs
    (assembled : Assembled rt env req bytes doc chunks embeddings chunkIds)
    (ords : (chunks.map (fun chunk => chunk.ord)).Nodup) {earlier rest : List (ChunkItem R)}
    {item : ChunkItem R} (split : earlier ++ item :: rest = (chunks.zip embeddings).zip chunkIds) :
    ∀ other ∈ earlier, other.1.1.ord ≠ item.1.1.ord ∧ other.2 ≠ item.2 := by
  have distinctOrds : ((earlier ++ item :: rest).map (fun item => item.1.1.ord)).Nodup := by
    rw [split, assembled.item_ords]
    exact ords
  have distinctIds : ((earlier ++ item :: rest).map Prod.snd).Nodup := by
    rw [split, assembled.item_ids]
    exact assembled.distinct
  intro other member
  exact ⟨earlier_differ distinctOrds other member, earlier_differ distinctIds other member⟩

omit [F32 R] in
theorem Assembled.item_drawn
    (assembled : Assembled rt env req bytes doc chunks embeddings chunkIds) {item : ChunkItem R}
    (member : item ∈ (chunks.zip embeddings).zip chunkIds) :
    item.1 ∈ chunks.zip embeddings ∧ Minted env item.2 := by
  have parts := List.of_mem_zip member
  exact ⟨parts.1, assembled.drawn _ (List.mem_append_left _ parts.2)⟩

omit [F32 R] in
theorem Assembled.document_drawn
    (assembled : Assembled rt env req bytes doc chunks embeddings chunkIds) : Minted env doc.id :=
  assembled.drawn doc.id (List.mem_append_right _ (List.mem_singleton_self doc.id))

theorem chunk_placed (srv : Server R) {tables own : Tables R} (fresh : FreshFor env tables)
    (docDrawn : Minted env doc.id) {earlier : List (ChunkItem R)} {item : ChunkItem R}
    (documents : own.documents = [doc]) (chunks : own.chunks = (documentRows doc earlier).chunks)
    (drawn : Minted env item.2)
    (differs : ∀ other ∈ earlier, other.1.1.ord ≠ item.1.1.ord ∧ other.2 ≠ item.2) :
    evaluate srv (tables ++ own)
        (.insertChunk (chunkRow doc.id doc.ns item.1.1 item.1.2 item.2)) =
      .ok ((), { chunks := [chunkRow doc.id doc.ns item.1.1 item.1.2 item.2] }) := by
  rcases docDrawn with ⟨k, docDrawn⟩
  rcases drawn with ⟨j, drawn⟩
  apply chunk_inserts
  · intro stored member same
    rcases List.mem_append.mp member with committed | written
    · exact fresh.parents stored committed k (same.1.trans docDrawn.symm)
    · rw [chunks] at written
      rcases List.mem_map.mp written with ⟨other, placed, rfl⟩
      exact (differs other placed).1 same.2
  · intro stored member same
    rcases List.mem_append.mp member with committed | written
    · exact fresh.chunks stored committed j (same.trans drawn.symm)
    · rw [chunks] at written
      rcases List.mem_map.mp written with ⟨other, placed, rfl⟩
      exact (differs other placed).2 same
  · refine ⟨doc, List.mem_append_right _ ?_, rfl⟩
    rw [documents]
    exact List.mem_singleton_self doc

theorem chunk_lost (srv : Server R) {tables : Tables R} (fresh : FreshFor env tables)
    (docDrawn : Minted env doc.id) {item : ChunkItem R} (drawn : Minted env item.2) :
    evaluate srv tables (.insertChunk (chunkRow doc.id doc.ns item.1.1 item.1.2 item.2)) =
      .error (.foreignKeyViolation .chunksDocumentIdFkey) := by
  rcases docDrawn with ⟨k, docDrawn⟩
  rcases drawn with ⟨j, drawn⟩
  apply chunk_orphaned
  · intro stored member same
    exact fresh.parents stored member k (same.1.trans docDrawn.symm)
  · intro stored member same
    exact fresh.chunks stored member j (same.trans drawn.symm)
  · intro stored member same
    exact fresh.documents stored member k (same.trans docDrawn.symm)

theorem attempt_persistence (srv : Server R)
    (assembled : Assembled rt env.mocked req bytes doc chunks embeddings chunkIds)
    (ords : (chunks.map (fun chunk => chunk.ord)).Nodup) :
    PersistRule (attempt srv env.mocked req.ns (contentHash rt bytes)) doc.id doc.ns
      (fun rest state =>
        (∃ earlier, earlier ++ rest = (chunks.zip embeddings).zip chunkIds ∧
          Placed doc earlier state.1) ∨ (Lost rt bytes state.1 state.2 ∧ rest ≠ [] ∧
            ∀ item ∈ rest, Minted env.mocked item.2))
      (fun item rest state => ∃ earlier,
        earlier ++ item :: rest = (chunks.zip embeddings).zip chunkIds ∧
          Placed doc (earlier ++ [item]) state.1)
      (fun e => Outcome rt srv env.mocked req bytes (.error e)) where
  monotone := attempt_monotone srv _ _ _
  stored := by
    intro item rest state holds
    rcases state with ⟨session, tables⟩
    rw [attempt_client]
    intro moved along
    rcases holds with ⟨earlier, split, placed⟩ | ⟨lost, -, drawn⟩
    · refine ⟨placed.underway, ?_⟩
      intro answer tx performed
      have known := assembled.item_drawn (split ▸ List.mem_append_right _ List.mem_cons_self)
      have evaluates : evaluate srv (moved ++ documentRows doc earlier)
          (.insertChunk (chunkRow doc.id doc.ns item.1.1 item.1.2 item.2)) = _ :=
        chunk_placed srv along.fresh assembled.document_drawn rfl rfl known.2
          (assembled.next_differs ords split)
      rw [placed.tx] at performed
      rcases answer with e | value
      · intro others untroubled _
        rcases tokio_failed rfl performed with aborted | refused | ⟨failure, evaluated⟩
        · exact absurd rfl aborted
        · have same := untroubled.chunked
          rw [assembled.ready.chunked] at same
          cases same
          rw [assembled.ready.ns] at refused
          rcases assembled.embedded with ⟨n, embedded⟩
          exact absurd (untroubled.placed n embeddings embedded doc.id item.1 item.2 known.1) refused
        · rw [evaluates] at evaluated
          cases evaluated
      · rcases statement_succeeds rfl (perform_ok.mp performed) with ⟨-, -, delta, evaluated, rfl⟩
        rw [evaluates] at evaluated
        cases evaluated
        refine ⟨earlier, split, ?_, underway_later placed.underway _⟩
        simp only [documentRows_snoc]
    · refine ⟨lost.raced.underway, ?_⟩
      intro answer tx performed
      have orphaned := chunk_lost srv along.fresh assembled.document_drawn
        (drawn item List.mem_cons_self)
      rw [lost.clean] at performed
      rcases answer with e | value
      · intro _ _ _
        rcases along.grown with ⟨delta, rfl, -⟩
        exact lost.raced.later _
      · rcases statement_succeeds rfl (perform_ok.mp performed) with ⟨-, -, delta, evaluated, -⟩
        rw [Tables.append_empty, orphaned] at evaluated
        cases evaluated
  extracted := by
    intro item rest state placed
    rcases state with ⟨session, tables⟩
    rcases placed with ⟨earlier, split, placed⟩
    apply wp_extraction_empty (attempt_monotone srv _ _ _)
    rw [attempt_env]
    intro moved along
    refine ⟨rfl, .inl ⟨earlier ++ [item], by rw [List.append_assoc]; exact split, ?_⟩⟩
    exact ⟨placed.tx, underway_later placed.underway _⟩

theorem attempt_document (srv : Server R)
    (assembled : Assembled rt env.mocked req bytes doc chunks embeddings chunkIds)
    (carries : Carries req.source doc.source bytes) {session : Session R} (clean : session.tx = {})
    (unstored : underway session = true) (tables : Tables R) :
    attempt srv env.mocked req.ns (contentHash rt bytes) (.client (.insertDocument doc))
      (session, tables)
      (Settles (fun _ state =>
        (∃ earlier, earlier ++ (chunks.zip embeddings).zip chunkIds =
            (chunks.zip embeddings).zip chunkIds ∧ Placed doc earlier state.1) ∨
          (Lost rt bytes state.1 state.2 ∧ (chunks.zip embeddings).zip chunkIds ≠ [] ∧
            ∀ item ∈ (chunks.zip embeddings).zip chunkIds, Minted env.mocked item.2))
        (fun e => Outcome rt srv env.mocked req bytes (.error e))) := by
  have hash := assembled.ready.contentHash
  rw [attempt_client]
  intro moved along
  refine ⟨unstored, ?_⟩
  intro answer tx performed
  rw [clean] at performed
  rcases answer with e | value
  · intro others untroubled created
    rcases tokio_failed rfl performed with aborted | refused | ⟨failure, evaluated⟩
    · exact absurd rfl aborted
    · rw [Ready.document assembled.ready] at refused
      exact absurd (untroubled.document doc.source doc.id carries) refused
    · rw [Tables.append_empty] at evaluated
      refine ⟨underway_later unstored _, ?_⟩
      by_contra free
      have inserts : evaluate srv moved (.insertDocument doc) = .ok ((), { documents := [doc] }) := by
        rcases assembled.document_drawn with ⟨k, drawn⟩
        apply document_inserts
        · intro stored member same
          exact free ⟨stored, member, same.trans hash⟩
        · intro stored member same
          exact along.fresh.documents stored member k (same.trans drawn.symm)
        · rw [assembled.ready.ns]
          exact created
      rw [inserts] at evaluated
      cases evaluated
  · rcases statement_succeeds rfl (perform_ok.mp performed) with ⟨-, -, delta, evaluated, rfl⟩
    rw [Tables.append_empty] at evaluated
    rcases insertInto_added evaluated with ⟨taken, rfl⟩ | ⟨-, -, -, rfl⟩
    · refine .inr ⟨⟨rfl, underway_later unstored _, ?_⟩, assembled.ready.items_nonempty,
        fun item member => (assembled.item_drawn member).2⟩
      rcases List.any_eq_true.mp taken with ⟨stored, member, same⟩
      exact ⟨stored, member, (of_decide_eq_true same).trans hash⟩
    · exact .inl ⟨[], rfl, rfl, underway_later unstored _⟩

omit [F32 R] in
theorem outcome_moved {result : CoreResult RunJobOutcome} {state moved : Session R × Tables R}
    (along : Interferes env state moved) (holds : Outcome rt srv env req bytes result state) :
    Outcome rt srv env req bytes result moved := by
  rcases state with ⟨session, tables⟩
  rcases moved with ⟨reached, moved⟩
  cases along.session
  rcases along.grown with ⟨delta, rfl, unnamed⟩
  rcases result with e | outcome
  · intro chunks untroubled created
    have created : req.ns ∈ tables.namespaces := by
      rw [Tables.append_namespaces, unnamed, List.append_nil] at created
      exact created
    have raced := holds chunks untroubled created
    rcases raced.stored with ⟨doc, stored, same⟩
    exact ⟨raced.underway, doc, List.mem_append_left _ stored, same⟩
  · rcases holds with placed | ⟨empty, doc, stored, same⟩
    · exact .inl placed
    · exact .inr ⟨empty, doc, List.mem_append_left _ stored, same⟩

/-- `run_job` stores a whole document, skips a stored one, or fails for a reason. -/
theorem attempt_run (carries : Carries req.source sourceName bytes)
    (ords : ∀ chunks, chunkSource rt req.chunkStrategy bytes = .ok chunks →
      (chunks.map (fun chunk => chunk.ord)).Nodup) (tables : Tables R) :
    Program.wp (attempt srv env.mocked req.ns (contentHash rt bytes)) (runJob rt req).run
      ({}, tables) (Outcome rt srv env.mocked req bytes) := by
  have monotone := attempt_monotone srv env.mocked req.ns (contentHash rt bytes)
  apply wp_runJob (attempt_preparation carries) _ rfl
  intro doc content chunks embeddings chunkIds state ready prepared
  rcases state with ⟨session, reached⟩
  rcases prepared with ⟨⟨rfl, rfl⟩, collected⟩
  have assembled : Assembled rt env.mocked req content doc chunks embeddings chunkIds := by
    refine ⟨ready, collected.embedded, ?_, (List.nodup_append.mp collected.distinct).1⟩
    intro id member
    rcases collected.drawn id member with ⟨k, -, drawn⟩
    exact ⟨k, drawn⟩
  have rule := attempt_persistence srv assembled (ords chunks ready.chunked)
  have inserted := attempt_document srv assembled carries collected.clean
    collected.underway reached
  refine Program.wp_mono monotone _ _ ?_
    (wp_persistDocument doc rule chunks embeddings chunkIds _ inserted)
  intro result state settled
  rcases state with ⟨last, tables⟩
  rcases result with e | n
  · have settled : Outcome rt srv env.mocked req content (.error e) (last, tables) := settled
    rw [finishJob, Fallible.wp_bind, wp_lift, wp_rollback, attempt_client]
    intro moved along
    refine ⟨trivial, ?_⟩
    intro answer tx performed
    cases performed
    intro others untroubled created
    have raced := outcome_moved along settled others untroubled created
    exact ⟨underway_later raced.underway _, raced.stored⟩
  · rcases settled.2 with ⟨earlier, all, placed⟩ | ⟨-, more, -⟩
    · rw [finishJob, Fallible.wp_bind, wp_commit, attempt_client]
      intro moved along
      refine ⟨trivial, ?_⟩
      intro answer tx performed
      cases performed
      refine .inl ⟨doc, chunks, embeddings, chunkIds, assembled, underway_later placed.underway _, ?_⟩
      rw [← all, List.append_nil]
      exact congrArg Transaction.own placed.tx
    · exact absurd rfl more

end Persistence

end PgRaggraph.Sidecar

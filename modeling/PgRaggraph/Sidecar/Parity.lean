import PgRaggraph.Extension.Worker
import PgRaggraph.Sidecar.Completeness
import PgRaggraph.Sidecar.ProviderFactory
import Mathlib.Data.List.GetD

/-! One queued job, worked by the extension or by the sidecar from the same state. -/

namespace PgRaggraph

open Interaction Interaction.Fallible Sidecar

variable {R : Type}

def LlmProvider.extract (remote : LlmProvider R → String → CoreResult (Extraction R)) :
    LlmProvider R → String → CoreResult (Extraction R)
  | .mock _ stub, _ => .ok (stub.getD {})
  | p, text => remote p text

structure UuidSource where
  draw : Nat → Uuid
  fresh : Function.Injective draw

/-- What the two processes have in common: the database server, the files, the embedding model and
the configured providers. -/
structure Host (R : Type) where
  rt : Runtime
  srv : Server R
  readFile : String → Except String Bytes
  embedBatch : List String → CoreResult (List (List R))
  remote : LlmProvider R → String → CoreResult (Extraction R)
  crates : Crates R
  files : FileSystem
  masterKeyPath : Option String
  config : Configuration

def Host.environment (host : Host R) (p : LlmProvider R) (uuids : UuidSource) : Environment R where
  readFile _ := host.readFile
  embedBatch _ := host.embedBatch
  extract _ text _ := p.extract host.remote text
  newUuid := uuids.draw
  fresh := uuids.fresh

def Host.provider (host : Host R) (ns : String) : Except Raised (LlmProvider R) :=
  Extension.resolveOrDefaultProvider host.crates host.files host.masterKeyPath host.config ns

structure Site (R : Type) where
  jobs : List JobRow
  tables : Tables R

def Site.Completed (site : Site R) (id : Uuid) : Prop :=
  ∃ job ∈ site.jobs, job.id = id ∧ job.status = .completed

section Drivers

variable [F32 R]

/-- The body of the worker's loop on the row it claims, where `environment` is what the calls of the
job meet under the provider of its namespace. A provider that cannot be built unwinds the
transaction. -/
def Extension.workerCycleWith (host : Host R) (environment : LlmProvider R → Environment R)
    (now : Int) (row : JobRow) (site : Site R) : Site R :=
  let job := ClaimedJob.ofRow (row.claimed now)
  let ended :=
    match host.provider job.ns with
    | .ok p => runClaimed host.rt host.srv (environment p) site.tables job
    | .error _ => (none, site.tables)
  { jobs := recordOutcome now job.id (claimJob now row.id site.jobs) ended.1
    tables := ended.2 }

def Extension.workerCycle (host : Host R) (uuids : UuidSource) (now : Int) (row : JobRow)
    (site : Site R) : Site R :=
  Extension.workerCycleWith host (fun p => host.environment p uuids) now row site

/-- `process_one` on the row it claims. It builds a `MockProvider` for every job. -/
def Sidecar.processOne (host : Host R) (uuids : UuidSource) (now : Int) (row : JobRow)
    (site : Site R) : Site R :=
  let job := ClaimedJob.ofRow (row.claimed now)
  let claimed := claimJob now row.id site.jobs
  let ended := runAlone .tokio host.rt host.srv (host.environment .mocked uuids) site.tables
    (buildRequest job)
  match ended.1 with
  | .ok (.ok _) => { jobs := completeJob now job.id claimed, tables := ended.2 }
  | .ok (.error e) =>
      { jobs := failJob now job.id (host.rt.debug e) claimed, tables := ended.2 }
  | .error _ => { jobs := claimed, tables := ended.2 }

end Drivers

theorem Host.environment_mocked (host : Host R) (uuids : UuidSource) :
    (host.environment .mocked uuids).mocked = host.environment .mocked uuids := rfl

/-- New identifiers in the place of those of each table. Foreign keys follow. -/
structure Renaming where
  document : Uuid → Uuid
  chunk : Uuid → Uuid
  entity : Uuid → Uuid
  relationship : Uuid → Uuid

def Tables.rename (ρ : Renaming) (tables : Tables R) : Tables R where
  namespaces := tables.namespaces
  documents := tables.documents.map (fun d => { d with id := ρ.document d.id })
  chunks := tables.chunks.map (fun c =>
    { c with id := ρ.chunk c.id, documentId := ρ.document c.documentId })
  entities := tables.entities.map (fun e => { e with id := ρ.entity e.id })
  relationships := tables.relationships.map (fun r =>
    { r with id := ρ.relationship r.id, srcId := ρ.entity r.srcId, dstId := ρ.entity r.dstId })
  chunkEntities := tables.chunkEntities.map (fun l =>
    { l with chunkId := ρ.chunk l.chunkId, entityId := ρ.entity l.entityId })

structure Replaces (f : Uuid → Uuid) (ids : List Uuid) : Prop where
  injective : ∀ a ∈ ids, ∀ b ∈ ids, f a = f b → a = b
  stored : ∀ id, id ∉ ids → f id = id

structure Renames (ρ : Renaming) (rows other : Tables R) : Prop where
  documents : Replaces ρ.document (rows.documents.map (·.id))
  chunks : Replaces ρ.chunk (rows.chunks.map (·.id))
  entities : Replaces ρ.entity (rows.entities.map (·.id))
  relationships : Replaces ρ.relationship (rows.relationships.map (·.id))
  renamed : other = rows.rename ρ

def SameRows (before first second : Tables R) : Prop :=
  ∃ rows other ρ, first = before ++ rows ∧ second = before ++ other ∧ Renames ρ rows other

section Renaming

def replace (xs ys : List Uuid) (id : Uuid) : Uuid := ys.getD (xs.idxOf id) id

theorem replace_outside {xs ys : List Uuid} (same : xs.length = ys.length) {id : Uuid}
    (outside : id ∉ xs) : replace xs ys id = id := by
  rw [replace, List.idxOf_eq_length outside, same, List.getD_eq_default _ _ le_rfl]

theorem replace_get {xs ys : List Uuid} (distinct : xs.Nodup) (same : xs.length = ys.length)
    {k : Nat} (inside : k < xs.length) :
    replace xs ys xs[k] = ys[k] := by
  rw [replace, distinct.idxOf_getElem]
  exact List.getD_eq_getElem _ _ _

theorem replace_map {xs ys : List Uuid} (distinct : xs.Nodup) (same : xs.length = ys.length) :
    xs.map (replace xs ys) = ys := by
  apply List.ext_getElem
  · rw [List.length_map, same]
  · intro k inside _
    rw [List.getElem_map]
    rw [List.length_map] at inside
    exact replace_get distinct same inside

theorem replace_replaces {xs ys : List Uuid} (distinct : xs.Nodup) (others : ys.Nodup)
    (same : xs.length = ys.length) : Replaces (replace xs ys) xs where
  injective := by
    have images : (xs.map (replace xs ys)).Nodup := by
      rw [replace_map distinct same]
      exact others
    intro a first b second equal
    exact List.inj_on_of_nodup_map images first second equal
  stored := fun _ outside => replace_outside same outside

theorem replaces_none : Replaces id [] :=
  ⟨fun _ first => absurd first List.not_mem_nil, fun _ _ => rfl⟩

end Renaming

structure Widened (own after : Tables R) : Prop where
  documents : after.documents = own.documents
  chunks : after.chunks = own.chunks
  links : own.chunkEntities <+: after.chunkEntities

namespace Widened

theorem refl (own : Tables R) : Widened own own := ⟨rfl, rfl, List.prefix_rfl⟩

theorem trans {first second third : Tables R} (near : Widened first second)
    (far : Widened second third) : Widened first third :=
  ⟨far.documents.trans near.documents, far.chunks.trans near.chunks, near.links.trans far.links⟩

theorem linked {own after : Tables R} (widened : Widened own after) (some_ : own.chunkEntities ≠ []) :
    after.chunkEntities ≠ [] := by
  intro none_
  have empty := widened.links
  rw [none_, List.prefix_nil] at empty
  exact some_ empty

end Widened

def ClientCall.widens : ClientCall R → Bool
  | .insertDocument _ => false
  | .insertChunk _ => false
  | _ => true

section Run

variable [F32 R] {adapter : Adapter} {srv : Server R} {env : Environment R} {committed : Tables R}

theorem statement_widens {tx after : Transaction R} {request : ClientCall R} {value : request.Value}
    (widens : request.widens = true)
    (executed : statement srv committed tx request = .ok (value, after)) :
    Widened tx.own after.own := by
  rcases statement_added executed with same | added
  · rw [same]
    exact .refl tx.own
  · have rows : (rowOf request).documents = [] ∧ (rowOf request).chunks = [] := by
      cases request with
      | insertDocument doc => cases widens
      | insertChunk chunk => cases widens
      | _ => exact ⟨rfl, rfl⟩
    rw [added]
    constructor
    · rw [Tables.append_documents, rows.1, List.append_nil]
    · rw [Tables.append_chunks, rows.2, List.append_nil]
    · exact List.prefix_append _ _

theorem adapter_answers {tx after : Transaction R} {request : ClientCall R}
    {answer : CoreResult request.Value}
    (performed : adapter.perform srv committed tx request = .ok (answer, after)) :
    (∃ e, answer = .error e) ∨
      ∃ value, answer = .ok value ∧ statement srv committed tx request = .ok (value, after) := by
  rcases answer with e | value
  · exact .inl ⟨e, rfl⟩
  · exact .inr ⟨value, rfl, perform_ok.mp performed⟩

theorem call_widens {session : Session R} {request : ClientCall R} (widens : request.widens = true)
    {answer : CoreResult request.Value} {tx : Transaction R}
    (performed : adapter.perform srv committed session.tx request = .ok (answer, tx)) :
    (∃ e, answer = .error e) ∨ (∃ value, answer = .ok value) ∧ Widened session.tx.own tx.own := by
  rcases adapter_answers performed with failed | ⟨value, rfl, executed⟩
  · exact .inl failed
  · exact .inr ⟨⟨value, rfl⟩, statement_widens widens executed⟩

theorem widening_extraction (own : Tables R) (ns : String) (chunkId : Uuid) :
    ExtractionRule (adapter.handler srv env committed).spec ns chunkId
      (fun _ session => Widened own session.tx.own) (fun _ _ => True) where
  monotone := Handler.spec_monotone _
  forget := fun _ _ widened => widened
  extracted := by
    intro chunkText session widened
    rw [adapter_spec_env]
    rcases env.answer session.tick (.extract chunkText ns) with e | extraction
    · trivial
    · exact widened
  embedded := by
    intro name ids session widened
    rw [adapter_spec_env]
    rcases env.answer session.tick (.embedBatch [name]) with e | vectors
    · trivial
    · exact ⟨fun _ => widened, fun _ => trivial⟩
  resolved := by
    intro name kind nameEmb description ids session widened
    rw [adapter_spec_client]
    intro answer tx performed
    rcases call_widens rfl performed with ⟨e, rfl⟩ | ⟨⟨cands, rfl⟩, searched⟩
    · trivial
    refine ⟨fun _ _ => widened.trans searched, ?_⟩
    rw [adapter_spec_env, adapter_spec_client]
    intro answer tx performed
    rcases call_widens rfl performed with ⟨e, rfl⟩ | ⟨⟨_, rfl⟩, inserted⟩
    · trivial
    exact (widened.trans searched).trans inserted
  linked := by
    intro id confidence ids session _ widened
    rw [adapter_spec_client]
    intro answer tx performed
    rcases call_widens rfl performed with ⟨e, rfl⟩ | ⟨⟨_, rfl⟩, linked⟩
    · trivial
    exact widened.trans linked
  related := by
    intro src dst kind weight ids session _ _ widened
    rw [adapter_spec_env, adapter_spec_client]
    intro answer tx performed
    rcases call_widens rfl performed with ⟨e, rfl⟩ | ⟨⟨_, rfl⟩, related⟩
    · trivial
    exact widened.trans related

def Unlinked (env : Environment R) (tables : Tables R) : Prop :=
  ∀ link ∈ tables.chunkEntities, ∀ k, link.chunkId ≠ env.newUuid k

theorem link_written (unlinked : Unlinked env committed) {tx after : Transaction R}
    {link : ChunkEntityRow R} (drawn : Minted env link.chunkId) {value : Unit}
    (executed : statement srv committed tx (.insertChunkEntity link) = .ok (value, after)) :
    after.own.chunkEntities ≠ [] := by
  rcases statement_succeeds rfl executed with ⟨-, -, delta, evaluated, rfl⟩
  rw [Tables.append_chunkEntities]
  rcases insertInto_added evaluated with ⟨taken, -⟩ | ⟨-, -, -, added⟩
  · rcases List.any_eq_true.mp taken with ⟨stored, member, same⟩
    rcases List.mem_append.mp member with earlier | written
    · rcases drawn with ⟨k, drawn⟩
      exact absurd ((of_decide_eq_true same).1.trans drawn.symm) (unlinked stored earlier k)
    · exact List.append_ne_nil_of_left_ne_nil (List.ne_nil_of_mem written) _
  · have added : delta = { chunkEntities := [link] } := added
    rw [added]
    exact List.append_ne_nil_of_right_ne_nil _ (List.cons_ne_nil _ _)

theorem entity_linked (unlinked : Unlinked env committed) {own : Tables R} {ns : String}
    {chunkId : Uuid} (drawn : Minted env chunkId) (nameToId : List (String × Uuid))
    (ent : ExtractedEntity R) (session : Session R) (widened : Widened own session.tx.own) :
    Program.wp (adapter.handler srv env committed).spec
      (persistEntity ns chunkId nameToId ent).run session
      (Settles (fun _ after => Widened own after.tx.own ∧ after.tx.own.chunkEntities ≠ [])
        (fun _ _ => True)) := by
  have rule : ExtractionRule (adapter.handler srv env committed).spec ns chunkId _ _ :=
    widening_extraction own ns chunkId
  rw [persistEntity]
  refine wp_seq rule.monotone (rule.embedded ent.name [] session widened) ?_ (fun _ _ stop => stop)
  intro vectors after embedded
  rcases vectors with _ | ⟨nameEmb, _⟩
  · exact embedded.2 rfl
  refine wp_seq rule.monotone
    (wp_resolveOrInsertEntity rule ent.name ent.kind nameEmb ent.description [] after
      (embedded.1 (List.cons_ne_nil _ _))) ?_ (fun _ _ stop => stop)
  intro entityId middle widened
  rw [Fallible.wp_bind, wp_insertChunkEntity, adapter_spec_client]
  intro answer tx performed
  rcases adapter_answers performed with ⟨e, rfl⟩ | ⟨value, rfl, executed⟩
  · trivial
  · exact ⟨widened.trans (statement_widens rfl executed), link_written unlinked drawn executed⟩

omit [F32 R] in
theorem relationships_dangle {σ : Type} (spec : Spec (Ingest R) σ) (ns : String)
    (relationships : List (ExtractedRelationship R)) (state : σ)
    (post : CoreResult Unit → σ → Prop) :
    Program.wp spec (relationships.foldlM (persistRelationship ns []) ()).run state post ↔
      post (.ok ()) state := by
  induction relationships with
  | nil => rfl
  | cons rel rest ih =>
      rw [List.foldlM_cons, Fallible.wp_bind]
      exact ih

def Barren (reply : String → CoreResult (Extraction R)) (text : String) : Prop :=
  ∀ extraction, reply text = .ok extraction → extraction.entities = []

variable {reply : String → CoreResult (Extraction R)}

theorem extraction_written (steady : ∀ n text ns, env.extract n text ns = reply text)
    (unlinked : Unlinked env committed) {ns : String} {chunkId : Uuid}
    (drawn : Minted env chunkId) (text : String) (session : Session R) :
    Program.wp (adapter.handler srv env committed).spec
      (persistChunkExtraction ns chunkId text).run session
      (Settles (fun _ after => Widened session.tx.own after.tx.own ∧
          (Barren reply text → after.tx.own = session.tx.own) ∧
          (¬ Barren reply text → after.tx.own.chunkEntities ≠ [])) (fun _ _ => True)) := by
  have monotone : (adapter.handler srv env committed).spec.Monotone := Handler.spec_monotone _
  rw [persistChunkExtraction, Fallible.wp_bind, wp_extract, adapter_spec_env, Environment.answer,
    steady]
  rcases replied : reply text with e | extraction
  · trivial
  dsimp only
  rcases found : extraction.entities with _ | ⟨ent, rest⟩
  · have barren : Barren reply text := by
      intro other same
      rw [replied] at same
      cases same
      exact found
    rw [Fallible.wp_bind]
    refine (relationships_dangle _ ns _ _ _).mpr ?_
    exact ⟨.refl _, fun _ => rfl, fun fertile => absurd barren fertile⟩
  · have fertile : ¬ Barren reply text := by
      intro barren
      rw [barren extraction replied] at found
      cases found
    rw [Fallible.wp_bind, List.foldlM_cons]
    refine wp_seq monotone (entity_linked unlinked drawn [] ent _ (.refl session.tx.own)) ?_
      (fun _ _ stop => trivial)
    intro names middle linked
    rw [← Fallible.wp_bind]
    refine Program.wp_mono monotone _ _ ?_ (wp_persistExtraction
      (widening_extraction middle.tx.own ns chunkId) rest extraction.relationships names middle
      (.refl _))
    refine Settles.mono ?_ (fun _ _ stop => stop)
    intro _ last widened
    exact ⟨linked.1.trans widened, fun barren => absurd barren fertile,
      fun _ => widened.linked linked.2⟩

structure Extracted (srv : Server R) (reply : String → CoreResult (Extraction R)) (doc : DocRow)
    (placed done : List (ChunkItem R)) (own : Tables R) : Prop where
  documents : own.documents = [doc]
  chunks : own.chunks = (documentRows doc placed).chunks
  accepted : ∀ item ∈ placed, srv.refuses
    (.insertChunk (chunkRow doc.id doc.ns item.1.1 item.1.2 item.2)) = none
  barren : (∀ item ∈ done, Barren reply item.1.1.text) → own = documentRows doc placed
  fertile : ∀ item ∈ done, ¬ Barren reply item.1.1.text → own.chunkEntities ≠ []

variable {rt : Runtime} {req : IngestRequest} {bytes : Bytes} {doc : DocRow} {chunks : List Chunk}
  {embeddings : List (List R)} {chunkIds : List Uuid}

theorem chunk_kept (fresh : FreshFor env committed)
    (assembled : Assembled rt env req bytes doc chunks embeddings chunkIds)
    (ords : (chunks.map (fun chunk => chunk.ord)).Nodup) {earlier rest : List (ChunkItem R)}
    {item : ChunkItem R} (split : earlier ++ item :: rest = (chunks.zip embeddings).zip chunkIds)
    {tx after : Transaction R} {value : Unit}
    (kept : Extracted srv reply doc earlier earlier tx.own)
    (executed : statement srv committed tx
      (.insertChunk (chunkRow doc.id doc.ns item.1.1 item.1.2 item.2)) = .ok (value, after)) :
    Extracted srv reply doc (earlier ++ [item]) earlier after.own := by
  rcases statement_succeeds rfl executed with ⟨-, accepted, delta, evaluated, rfl⟩
  have known := assembled.item_drawn (split ▸ List.mem_append_right _ List.mem_cons_self)
  rw [chunk_placed srv fresh assembled.document_drawn kept.documents kept.chunks known.2
    (assembled.next_differs ords split)] at evaluated
  cases evaluated
  refine ⟨?_, ?_, ?_, ?_, ?_⟩
  · rw [Tables.append_documents, kept.documents]
    rfl
  · rw [Tables.append_chunks, kept.chunks, ← documentRows_snoc]
    rfl
  · intro other member
    rcases List.mem_append.mp member with before | last
    · exact kept.accepted other before
    · rw [List.mem_singleton.mp last]
      exact accepted
  · intro silent
    rw [← documentRows_snoc]
    exact congrArg (· ++ _) (kept.barren silent)
  · intro other member fertile
    rw [Tables.append_chunkEntities]
    exact List.append_ne_nil_of_left_ne_nil (kept.fertile other member fertile) _

omit [F32 R] in
theorem Extracted.next {earlier : List (ChunkItem R)} {item : ChunkItem R} {own after : Tables R}
    (kept : Extracted srv reply doc (earlier ++ [item]) earlier own) (widened : Widened own after)
    (silent : Barren reply item.1.1.text → after = own)
    (linked : ¬ Barren reply item.1.1.text → after.chunkEntities ≠ []) :
    Extracted srv reply doc (earlier ++ [item]) (earlier ++ [item]) after where
  documents := widened.documents.trans kept.documents
  chunks := widened.chunks.trans kept.chunks
  accepted := kept.accepted
  barren := by
    intro all
    rw [silent (all item (List.mem_append_right _ (List.mem_singleton_self item)))]
    exact kept.barren (fun other member => all other (List.mem_append_left _ member))
  fertile := by
    intro other member fertile
    rcases List.mem_append.mp member with before | last
    · exact widened.linked (kept.fertile other before fertile)
    · rw [List.mem_singleton.mp last] at fertile
      exact linked fertile

structure Admitted (srv : Server R) (committed : Tables R) (doc : DocRow) : Prop where
  accepted : srv.refuses (.insertDocument doc) = none
  unstored : ∀ stored ∈ committed.documents, stored.contentHash ≠ doc.contentHash
  created : doc.ns ∈ committed.namespaces

theorem extracted_persistence (steady : ∀ n text ns, env.extract n text ns = reply text)
    (unlinked : Unlinked env committed) (fresh : FreshFor env committed)
    (assembled : Assembled rt env req bytes doc chunks embeddings chunkIds)
    (ords : (chunks.map (fun chunk => chunk.ord)).Nodup) :
    PersistRule (adapter.handler srv env committed).spec doc.id doc.ns
      (fun rest session => (Admitted srv committed doc ∧
          ∃ earlier, earlier ++ rest = (chunks.zip embeddings).zip chunkIds ∧
            Extracted srv reply doc earlier earlier session.tx.own) ∨
        (Dropped env doc.id session ∧ rest ≠ []))
      (fun item rest session => Admitted srv committed doc ∧
        ∃ earlier, earlier ++ item :: rest = (chunks.zip embeddings).zip chunkIds ∧
          Extracted srv reply doc (earlier ++ [item]) earlier session.tx.own)
      (fun _ _ => True) where
  monotone := Handler.spec_monotone _
  stored := by
    intro item rest session holds
    rw [adapter_spec_client]
    intro answer tx performed
    rcases holds with ⟨admitted, earlier, split, kept⟩ | ⟨dropped, -⟩
    · rcases adapter_answers performed with ⟨e, rfl⟩ | ⟨value, rfl, executed⟩
      · trivial
      · exact ⟨admitted, earlier, split, chunk_kept fresh assembled ords split kept executed⟩
    · rcases adapter_answers performed with ⟨e, rfl⟩ | ⟨value, rfl, executed⟩
      · trivial
      · exact absurd (perform_ok.mpr executed) (dropped_unwinds fresh dropped rfl)
  extracted := by
    intro item rest session placed
    rcases placed with ⟨admitted, earlier, split, kept⟩
    have known := assembled.item_drawn (split ▸ List.mem_append_right _ List.mem_cons_self)
    refine Program.wp_mono (Handler.spec_monotone _) _ _ ?_
      (extraction_written steady unlinked known.2 item.1.1.text session)
    refine Settles.mono ?_ (fun _ _ stop => stop)
    intro _ after written
    refine .inl ⟨admitted, earlier ++ [item], ?_, kept.next written.1 written.2.1 written.2.2⟩
    rw [List.append_assoc]
    exact split

theorem document_kept (reply : String → CoreResult (Extraction R)) {session : Session R}
    (clean : session.tx = {})
    (drawn : ∃ k, env.newUuid k = doc.id) (items : List (ChunkItem R)) :
    (adapter.handler srv env committed).spec (.client (.insertDocument doc)) session
      (Settles (fun _ after => Admitted srv committed doc ∧
          (∃ earlier, earlier ++ items = items ∧
            Extracted srv reply doc earlier earlier after.tx.own) ∨
        (Dropped env doc.id after)) (fun _ _ => True)) := by
  rw [adapter_spec_client]
  intro answer tx performed
  rcases adapter_answers performed with ⟨e, rfl⟩ | ⟨value, rfl, executed⟩
  · trivial
  rw [clean] at executed
  rcases statement_succeeds rfl executed with ⟨-, accepted, delta, evaluated, rfl⟩
  rw [Tables.append_empty] at evaluated
  rcases insertInto_added evaluated with ⟨-, dropped⟩ | ⟨unstored, -, created, stored⟩
  · have dropped : delta = {} := dropped
    rw [dropped]
    exact .inr ⟨rfl, drawn⟩
  · have stored : delta = { documents := [doc] } := stored
    rw [stored]
    refine .inl ⟨⟨accepted, ?_, ?_⟩, [], rfl, rfl, rfl, nofun, fun _ => rfl, nofun⟩
    · simpa [List.any_eq_false] using unstored
    · simpa using created

def Worked (rt : Runtime) (srv : Server R) (env : Environment R) (committed : Tables R)
    (reply : String → CoreResult (Extraction R)) (req : IngestRequest) (bytes : Bytes) :
    CoreResult RunJobOutcome → Session R → Prop
  | .ok _, session =>
      srv.refuses (.documentExistsByHash req.ns (contentHash rt bytes)) = none ∧
        ((session.tx.own = {} ∧
            ∃ doc ∈ committed.documents, doc.ns = req.ns ∧ doc.contentHash = contentHash rt bytes) ∨
          ∃ doc chunks embeddings chunkIds,
            Assembled rt env req bytes doc chunks embeddings chunkIds ∧
              Carries req.source doc.source bytes ∧ Admitted srv committed doc ∧
              Extracted srv reply doc ((chunks.zip embeddings).zip chunkIds)
                ((chunks.zip embeddings).zip chunkIds) session.tx.own)
  | .error _, _ => True

variable {sourceName : String}

theorem worked_preparation (carries : Carries req.source sourceName bytes) :
    PreparationRule (adapter.handler srv env committed).spec rt req
      (fun session => session.tx = {})
      (fun name content session => (name = sourceName ∧ content = bytes) ∧ session.tx = {})
      (fun name content session => (name = sourceName ∧ content = bytes) ∧ session.tx = {} ∧
        underway session = true ∧
        srv.refuses (.documentExistsByHash req.ns (contentHash rt bytes)) = none)
      (fun name content chunks embeddings ids session => (name = sourceName ∧ content = bytes) ∧
        Collected env chunks embeddings ids session ∧
        srv.refuses (.documentExistsByHash req.ns (contentHash rt bytes)) = none)
      (Worked rt srv env committed reply req bytes) where
  monotone := Handler.spec_monotone _
  read := by
    intro path session source _
    rw [source] at carries
    exact carries.elim
  carried := fun _ _ _ carried clean => ⟨carries_unique carries carried, clean⟩
  checked := by
    intro name content session loaded
    rcases loaded with ⟨⟨rfl, rfl⟩, clean⟩
    rw [adapter_spec_client]
    intro answer tx performed
    rcases adapter_answers performed with ⟨e, rfl⟩ | ⟨found, rfl, executed⟩
    · trivial
    rcases statement_succeeds rfl executed with ⟨-, accepted, -⟩
    rcases check_answered performed with ⟨exists_, rfl⟩
    rw [clean, Tables.append_empty] at exists_
    rcases found with _ | _
    · refine ⟨⟨rfl, rfl⟩, clean, ?_, accepted⟩
      rw [underway, List.any_append]
      exact Bool.or_true _
    · rcases List.any_eq_true.mp exists_.symm with ⟨doc, stored, same⟩
      exact ⟨accepted, .inl ⟨by rw [clean], doc, stored, of_decide_eq_true same⟩⟩
  unchunked := fun _ _ _ _ _ _ => trivial
  embedded := by
    intro name content chunks session chunked unstored
    rcases unstored with ⟨⟨rfl, rfl⟩, clean, checked, accepted⟩
    rw [adapter_spec_env, Environment.answer]
    generalize embedded : env.embedBatch session.tick (chunks.map (·.text)) = answer
    rcases answer with e | embeddings
    · trivial
    · dsimp only [Settles]
      split
      · trivial
      · exact ⟨⟨rfl, rfl⟩, ⟨clean, underway_later checked _, ⟨_, embedded⟩,
          fun id member => absurd member List.not_mem_nil, List.nodup_nil⟩, accepted⟩
  minted := by
    intro name content chunks embeddings ids session prepared
    rcases prepared with ⟨⟨rfl, rfl⟩, collected, accepted⟩
    rw [adapter_spec_env]
    exact ⟨⟨rfl, rfl⟩, collected.next _, accepted⟩

/-- A run stores its document with what the provider extracts, or finds the document stored. -/
theorem worked_run (steady : ∀ n text ns, env.extract n text ns = reply text)
    (unlinked : Unlinked env committed) (fresh : FreshFor env committed)
    (carries : Carries req.source sourceName bytes)
    (ords : ∀ chunks, chunkSource rt req.chunkStrategy bytes = .ok chunks →
      (chunks.map (fun chunk => chunk.ord)).Nodup) (result : CoreResult RunJobOutcome)
    (session : Session R)
    (finished : Program.run (adapter.handler srv env committed) (runJob rt req).run {} =
      .ok (result, session)) :
    Worked rt srv env committed reply req bytes result session := by
  have monotone : (adapter.handler srv env committed).spec.Monotone := Handler.spec_monotone _
  refine (Program.wp_run _ _ _ _).mp (wp_runJob (worked_preparation carries) {} rfl ?_)
    result session finished
  intro doc content chunks embeddings chunkIds middle ready prepared
  rcases prepared with ⟨⟨rfl, rfl⟩, collected, accepted⟩
  have assembled : Assembled rt env req content doc chunks embeddings chunkIds := by
    refine ⟨ready, collected.embedded, ?_, (List.nodup_append.mp collected.distinct).1⟩
    intro id member
    rcases collected.drawn id member with ⟨k, -, drawn⟩
    exact ⟨k, drawn⟩
  refine Program.wp_mono monotone _ _ ?_ (wp_persistDocument _
    (extracted_persistence steady unlinked fresh assembled (ords chunks ready.chunked))
    chunks embeddings chunkIds middle ?_)
  · intro persisted after settled
    rcases persisted with e | n
    · rw [finishJob, Fallible.wp_bind, wp_lift, wp_rollback, adapter_spec_client]
      intro answer tx performed
      trivial
    · rw [finishJob, Fallible.wp_bind, wp_commit, adapter_spec_client]
      intro answer tx performed
      cases performed
      rcases settled.2 with ⟨admitted, earlier, all, kept⟩ | ⟨-, none_⟩
      · rw [List.append_nil] at all
        rw [all] at kept
        exact ⟨accepted, .inr ⟨doc, chunks, embeddings, chunkIds, assembled, carries, admitted,
          kept⟩⟩
      · exact absurd rfl none_
  · refine monotone _ _ _ _ ?_ (document_kept reply collected.clean assembled.document_drawn
      ((chunks.zip embeddings).zip chunkIds))
    exact Settles.mono (fun _ _ either =>
      either.imp id (fun dropped => ⟨dropped, ready.items_nonempty⟩)) (fun _ _ stop => stop)

omit [F32 R] in
theorem Worked.own_links {result : CoreResult RunJobOutcome} {session : Session R}
    (worked : Worked rt srv env committed reply req bytes result session) {outcome : RunJobOutcome}
    (returned : result = .ok outcome) (silent : ∀ text, Barren reply text) :
    session.tx.own.chunkEntities = [] := by
  rw [returned] at worked
  rcases worked.2 with ⟨empty, -⟩ | ⟨doc, chunks, embeddings, chunkIds, -, -, -, kept⟩
  · rw [empty]
  · rw [kept.barren (fun item _ => silent item.1.1.text)]
    rfl

omit [F32 R] in
theorem Worked.skipped {outcome : RunJobOutcome} {session : Session R}
    (worked : Worked rt srv env committed reply req bytes (.ok outcome) session)
    (published : Published rt committed req.ns bytes) : session.tx.own = {} := by
  rcases worked.2 with ⟨empty, -⟩ | ⟨doc, _, _, _, assembled, -, admitted, -⟩
  · exact empty
  · rcases published with ⟨holder, member, -, same⟩
    exact absurd (same.trans assembled.ready.contentHash.symm) (admitted.unstored holder member)

omit [F32 R] in
theorem Sidecar.Assembled.barren_iff (assembled : Assembled rt env req bytes doc chunks embeddings chunkIds) :
    (∀ item ∈ (chunks.zip embeddings).zip chunkIds, Barren reply item.1.1.text) ↔
      ∀ chunk ∈ chunks, Barren reply chunk.text := by
  constructor
  · intro silent chunk listed
    rw [← assembled.item_chunks] at listed
    rcases List.mem_map.mp listed with ⟨item, present, rfl⟩
    exact silent item present
  · intro silent item present
    have listed := List.mem_map_of_mem (f := fun item : ChunkItem R => item.1.1) present
    rw [assembled.item_chunks] at listed
    exact silent item.1.1 listed

theorem tokio_returns {α : Type} (p : Program (Ingest R) α) (session : Session R) :
    ∃ value after,
      Program.run (Adapter.tokio.handler srv env committed) p session = .ok (value, after) := by
  induction p generalizing session with
  | done value => exact ⟨value, session, rfl⟩
  | call request next ih =>
      have answers : ∃ answer after,
          Adapter.tokio.handler srv env committed request session = .ok (answer, after) := by
        cases request with
        | env request => exact ⟨_, _, rfl⟩
        | client request =>
            have performs : ∃ answer tx,
                Adapter.tokio.perform srv committed session.tx request = .ok (answer, tx) := by
              rw [Adapter.perform]
              split
              · exact ⟨_, _, rfl⟩
              · exact ⟨_, _, rfl⟩
            rcases performs with ⟨answer, tx, performed⟩
            simp only [Adapter.handler, performed]
            exact ⟨_, _, rfl⟩
      rcases answers with ⟨answer, after, answered⟩
      simp only [Program.run, answered]
      exact ih answer after

theorem attempt_alone {α : Type} {ns hash : String} (fresh : FreshFor env committed)
    (p : Program (Ingest R) α) {session after : Session R} {value : α}
    {post : α → Session R × Tables R → Prop}
    (holds : Program.wp (attempt srv env ns hash) p (session, committed) post)
    (finished : Program.run (Adapter.tokio.handler srv env committed) p session =
      .ok (value, after)) : post value (after, committed) := by
  induction p generalizing session with
  | done value =>
      cases finished
      exact holds
  | call request next ih =>
      simp only [Program.run] at finished
      split at finished
      · rename_i answer middle answered
        exact ih answer (attempt_answered srv env ns hash fresh holds answered).2 finished
      · cases finished

theorem duplicate_skipped (carries : Carries req.source sourceName bytes)
    (accepted : srv.refuses (.documentExistsByHash req.ns (contentHash rt bytes)) = none)
    (published : Published rt committed req.ns bytes) {result : CoreResult RunJobOutcome}
    {session : Session R}
    (finished : Program.run (adapter.handler srv env committed) (runJob rt req).run {} =
      .ok (result, session)) : ∃ outcome, result = .ok outcome := by
  have rule : PreparationRule (adapter.handler srv env committed).spec rt req
      (fun session => session.tx = {})
      (fun _ content session => content = bytes ∧ session.tx = {})
      (fun _ _ _ => False) (fun _ _ _ (_ : List (List R)) _ _ => False)
      (fun result _ => ∃ outcome, result = .ok outcome) := by
    refine ⟨Handler.spec_monotone _, ?_, ?_, ?_, ?_, ?_, ?_⟩
    · intro path session source _
      rw [source] at carries
      exact carries.elim
    · intro name content session carried clean
      exact ⟨(carries_unique carries carried).2, clean⟩
    · intro name content session loaded
      rcases loaded with ⟨rfl, clean⟩
      rw [adapter_spec_client, clean]
      intro answer tx performed
      rw [Adapter.perform, statement_runs rfl rfl accepted, Tables.append_empty] at performed
      cases performed
      have found : committed.documents.any
          (fun d => d.ns = req.ns ∧ d.contentHash = contentHash rt content) = true := by
        simpa [Published] using published
      simp only [Settles, found, if_true]
      exact ⟨_, rfl⟩
    · intro _ _ _ _ _ impossible
      exact impossible.elim
    · intro _ _ _ _ _ impossible
      exact impossible.elim
    · intro _ _ _ _ _ _ impossible
      exact impossible.elim
  refine (Program.wp_run _ _ _ _).mp (wp_runJob rule {} rfl ?_) result session finished
  intro _ _ _ _ _ _ _ impossible
  exact impossible.elim

end Run

/-- PostgreSQL takes one UUID as it takes any other. -/
structure Server.AnyUuid (srv : Server R) : Prop where
  document : ∀ (doc : DocRow) (id : Uuid),
    srv.refuses (.insertDocument { doc with id := id }) = srv.refuses (.insertDocument doc)
  chunk : ∀ (chunk : ChunkRow R) (id documentId : Uuid),
    srv.refuses (.insertChunk { chunk with id := id, documentId := documentId }) =
      srv.refuses (.insertChunk chunk)

structure UuidSource.Unused (uuids : UuidSource) (tables : Tables R) : Prop where
  documents : ∀ doc ∈ tables.documents, ∀ k, doc.id ≠ uuids.draw k
  chunks : ∀ chunk ∈ tables.chunks, ∀ k, chunk.id ≠ uuids.draw k
  parents : ∀ chunk ∈ tables.chunks, ∀ k, chunk.documentId ≠ uuids.draw k
  links : ∀ link ∈ tables.chunkEntities, ∀ k, link.chunkId ≠ uuids.draw k

theorem UuidSource.Unused.fresh {uuids : UuidSource} {tables : Tables R}
    (unused : uuids.Unused tables) (host : Host R) (p : LlmProvider R) :
    FreshFor (host.environment p uuids) tables :=
  ⟨unused.documents, unused.chunks, unused.parents⟩

theorem UuidSource.Unused.unlinked {uuids : UuidSource} {tables : Tables R}
    (unused : uuids.Unused tables) (host : Host R) (p : LlmProvider R) :
    Unlinked (host.environment p uuids) tables := unused.links

def Host.Quiet (host : Host R) (row : JobRow) (payload : Bytes) : Prop :=
  ∀ p chunks, host.provider row.ns = .ok p →
    chunkSource host.rt row.chunkStrategy payload = .ok chunks →
    ∀ chunk ∈ chunks, Barren (p.extract host.remote) chunk.text

section Marks

variable {now : Int} {id : Uuid} {jobs : List JobRow} {job : JobRow}

theorem marked {change : JobRow → JobRow}
    (member : job ∈ updateWhere (fun job => job.id = id) change jobs) (same : job.id = id) :
    ∃ old, job = change old := by
  rcases mem_updateWhere member with ⟨-, other⟩ | ⟨old, -, -, changed⟩
  · simp [same] at other
  · exact ⟨old, changed⟩

theorem claim_unfinished (member : job ∈ claimJob now id jobs) (same : job.id = id) :
    job.status ≠ .completed := by
  rcases marked member same with ⟨old, rfl⟩
  nofun

theorem fail_unfinished {error : String} (member : job ∈ failJob now id error jobs)
    (same : job.id = id) : job.status ≠ .completed := by
  rcases marked member same with ⟨old, rfl⟩
  nofun

theorem complete_finished {row : JobRow} (member : row ∈ jobs) :
    ∃ job ∈ completeJob now row.id (claimJob now row.id jobs),
      job.id = row.id ∧ job.status = .completed := by
  have claimed : row.claimed now ∈ claimJob now row.id jobs :=
    List.mem_map.mpr ⟨row, member, by simp⟩
  exact ⟨(row.claimed now).completed now, List.mem_map.mpr ⟨_, claimed, by simp [JobRow.claimed]⟩,
    rfl, rfl⟩

end Marks

section Cycles

variable [F32 R] {host : Host R} {uuids : UuidSource} {now : Int} {row : JobRow} {site : Site R}

theorem worker_completed
    (completed : (Extension.workerCycle host uuids now row site).Completed row.id) :
    ∃ p outcome session, host.provider row.ns = .ok p ∧
      spiRun host.rt host.srv (host.environment p uuids) site.tables row.submission.request =
        .ok (.ok outcome, session) ∧
      (Extension.workerCycle host uuids now row site).tables =
        site.tables ++ session.tx.own := by
  rcases completed with ⟨job, member, same, finished⟩
  simp only [Extension.workerCycle, Extension.workerCycleWith] at member ⊢
  rcases resolved : host.provider (ClaimedJob.ofRow (row.claimed now)).ns with e | p
  · rw [resolved] at member
    exact absurd finished (claim_unfinished member same)
  · rw [resolved] at member
    dsimp only at member ⊢
    rw [runClaimed] at member ⊢
    rcases ran : spiRun host.rt host.srv (host.environment p uuids) site.tables
      (buildRequest (ClaimedJob.ofRow (row.claimed now))) with e | ⟨result, session⟩
    · rw [ran] at member
      exact absurd finished (claim_unfinished member same)
    · rw [ran] at member
      rcases result with e | outcome
      · exact absurd finished (fail_unfinished member same)
      · exact ⟨p, outcome, session, resolved, ran, rfl⟩

theorem process_ended {result : CoreResult RunJobOutcome} {session : Session R}
    (ran : Program.run (Adapter.tokio.handler host.srv (host.environment .mocked uuids)
      site.tables) (runJob host.rt row.submission.request).run {} = .ok (result, session)) :
    Sidecar.processOne host uuids now row site =
      match result with
      | .ok _ =>
          { jobs := completeJob now row.id (claimJob now row.id site.jobs)
            tables := site.tables ++ session.tx.own }
      | .error e =>
          { jobs := failJob now row.id (host.rt.debug e) (claimJob now row.id site.jobs)
            tables := site.tables } := by
  have alone : runAlone .tokio host.rt host.srv (host.environment .mocked uuids) site.tables
      (buildRequest (ClaimedJob.ofRow (row.claimed now))) =
        (.ok result, site.tables ++ Adapter.tokio.settle result session.tx.own) := by
    rw [runAlone]
    exact ran ▸ rfl
  rw [Sidecar.processOne, alone]
  rcases result with e | outcome
  · dsimp only [Adapter.settle]
    rw [Tables.append_empty]
    rfl
  · rfl

omit [F32 R] in
theorem documentRows_renamed (f g : Uuid → Uuid) {doc other : DocRow}
    (same : other = { doc with id := f doc.id }) (pairs : List (Chunk × List R)) (ids : List Uuid) :
    documentRows other (pairs.zip (ids.map g)) =
      (documentRows doc (pairs.zip ids)).rename ⟨f, g, id, id⟩ := by
  rw [same]
  ext : 1
  · rfl
  · rfl
  · simp only [documentRows, Tables.rename, List.zip_map_right, List.map_map]
    rfl
  · rfl
  · rfl
  · rfl

omit [F32 R] in
theorem documentRows_same {doc other : DocRow} {pairs : List (Chunk × List R)}
    {ids others : List Uuid} (same : other = { doc with id := other.id })
    (counted : ids.length = pairs.length) (recounted : others.length = pairs.length)
    (distinct : ids.Nodup) (redistinct : others.Nodup) :
    ∃ ρ, Renames ρ (documentRows doc (pairs.zip ids)) (documentRows other (pairs.zip others)) := by
  have columns : (documentRows doc (pairs.zip ids)).chunks.map (·.id) = ids := by
    rw [documentRows, List.map_map]
    exact List.map_snd_zip (by omega)
  have lengths : ids.length = others.length := counted.trans recounted.symm
  refine ⟨⟨replace [doc.id] [other.id], replace ids others, id, id⟩, ?_, ?_, replaces_none,
    replaces_none, ?_⟩
  · exact replace_replaces (List.nodup_singleton _) (List.nodup_singleton _) rfl
  · rw [columns]
    exact replace_replaces distinct redistinct lengths
  · have moved : other = { doc with id := replace [doc.id] [other.id] doc.id } := by
      rw [replace, List.idxOf_cons_self]
      exact same
    have renamed := documentRows_renamed _ (replace ids others) moved pairs ids
    rwa [replace_map distinct lengths] at renamed

omit [F32 R] in
theorem SameRows.links {before first second : Tables R} (same : SameRows before first second) :
    first.chunkEntities.length = second.chunkEntities.length := by
  rcases same with ⟨rows, renamed, ρ, rfl, rfl, renames⟩
  rw [renames.renamed, Tables.append_chunkEntities, Tables.append_chunkEntities, List.length_append,
    List.length_append, Tables.rename, List.length_map]

omit [F32 R] in
theorem sameRows_none (before : Tables R) : SameRows before (before ++ {}) (before ++ {}) :=
  ⟨{}, {}, ⟨id, id, id, id⟩, rfl, rfl, replaces_none, replaces_none, replaces_none, replaces_none,
    rfl⟩

omit [F32 R] in
theorem Extracted.silent {srv : Server R} {reply : String → CoreResult (Extraction R)} {doc : DocRow}
    {items : List (ChunkItem R)} {before own other : Tables R}
    (kept : Extracted srv reply doc items items own)
    (rows : SameRows before (before ++ own) (before ++ other)) (unlinked : other.chunkEntities = []) :
    ∀ item ∈ items, Barren reply item.1.1.text := by
  intro item present
  by_contra fertile
  have links := rows.links
  simp only [Tables.append_chunkEntities, List.length_append, unlinked] at links
  apply kept.fertile item present fertile
  exact List.length_eq_zero_iff.mp (by simpa using links)

omit [F32 R] in
theorem untroubled (server : host.srv.AnyUuid) {p q : LlmProvider R} {others : UuidSource}
    {committed own : Tables R} {reply : String → CoreResult (Extraction R)} {req : IngestRequest}
    {bytes : Bytes} {doc : DocRow} {chunks : List Chunk} {embeddings : List (List R)}
    {chunkIds : List Uuid}
    (assembled : Assembled host.rt (host.environment p uuids) req bytes doc chunks embeddings chunkIds)
    (checked : host.srv.refuses (.documentExistsByHash req.ns (contentHash host.rt bytes)) = none)
    (carries : Carries req.source doc.source bytes) (admitted : Admitted host.srv committed doc)
    (kept : Extracted host.srv reply doc ((chunks.zip embeddings).zip chunkIds)
      ((chunks.zip embeddings).zip chunkIds) own) :
    Untroubled host.rt host.srv (host.environment q others) req bytes chunks := by
  rcases assembled.embedded with ⟨_, embedded⟩
  refine ⟨assembled.ready.chunked, fun _ => ⟨embeddings, embedded, assembled.ready.embedded⟩,
    checked, ?_, ?_⟩
  · intro sourceName id carried
    have accepted := admitted.accepted
    rw [Ready.document assembled.ready, (carries_unique carries carried).1.symm] at accepted
    exact (server.document (jobDocument host.rt req sourceName bytes doc.id) id).trans accepted
  · intro n vectors answered docId pair id member
    have same : embeddings = vectors := Except.ok.inj (embedded.symm.trans answered)
    rw [← same, ← assembled.item_pairs] at member
    rcases List.mem_map.mp member with ⟨item, listed, rfl⟩
    have accepted := kept.accepted item listed
    rw [assembled.ready.ns] at accepted
    exact (server.chunk (chunkRow doc.id req.ns item.1.1 item.1.2 item.2) id docId).trans accepted

omit [F32 R] in
theorem mocked_barren (host : Host R) (text : String) :
    Barren (LlmProvider.mocked.extract host.remote) text := by
  intro extraction answered
  cases answered
  rfl

omit [F32 R] in
theorem document_same {env other : Environment R} {req : IngestRequest} {bytes : Bytes}
    {doc again : DocRow} {chunks cut : List Chunk} {embeddings vectors : List (List R)}
    {ids others : List Uuid}
    (assembled : Assembled host.rt env req bytes doc chunks embeddings ids)
    (reassembled : Assembled host.rt other req bytes again cut vectors others)
    (carries : Carries req.source doc.source bytes)
    (recarries : Carries req.source again.source bytes) : again = { doc with id := again.id } := by
  have first := Ready.document assembled.ready
  have second := Ready.document reassembled.ready
  rw [(carries_unique carries recarries).1] at second
  rw [second, first]
  rfl

omit [F32 R] in
theorem documents_renamed {env other : Environment R} {req : IngestRequest} {bytes : Bytes}
    {doc again : DocRow} {chunks cut : List Chunk} {embeddings vectors : List (List R)}
    {ids others : List Uuid}
    (assembled : Assembled host.rt env req bytes doc chunks embeddings ids)
    (reassembled : Assembled host.rt other req bytes again cut vectors others)
    (carries : Carries req.source doc.source bytes) (recarries : Carries req.source again.source bytes)
    (embeds : env.embedBatch = other.embedBatch) (steady : ∀ n m, env.embedBatch n = env.embedBatch m) :
    ∃ ρ, Renames ρ (documentRows doc ((chunks.zip embeddings).zip ids))
      (documentRows again ((cut.zip vectors).zip others)) := by
  have chunked := reassembled.ready.chunked
  rw [assembled.ready.chunked] at chunked
  cases chunked
  rcases assembled.embedded with ⟨n, embedded⟩
  rcases reassembled.embedded with ⟨m, reembedded⟩
  rw [← embeds, steady m n, embedded] at reembedded
  cases reembedded
  have length : (chunks.zip embeddings).length = chunks.length := by
    rw [List.length_zip, assembled.ready.embedded, min_self]
  exact documentRows_same (document_same assembled reassembled carries recarries)
    (assembled.ready.counted.trans length.symm) (reassembled.ready.counted.trans length.symm)
    assembled.distinct reassembled.distinct

theorem job_worked (numbering : host.rt.chunkshop.Numbering) (p : LlmProvider R)
    (unused : uuids.Unused site.tables) {payload : Bytes} (carries : row.payload = some payload)
    {adapter : Adapter} {result : CoreResult RunJobOutcome} {session : Session R}
    (ran : Program.run (adapter.handler host.srv (host.environment p uuids) site.tables)
      (runJob host.rt row.submission.request).run {} = .ok (result, session)) :
    Worked host.rt host.srv (host.environment p uuids) site.tables (p.extract host.remote)
      row.submission.request payload result session :=
  worked_run (fun _ _ _ => rfl) (unused.unlinked host p) (unused.fresh host p)
    (payload_carried row.submission carries) (fun _ chunked => chunkSource_ords numbering chunked)
    result session ran

theorem sidecar_stores (numbering : host.rt.chunkshop.Numbering) (server : host.srv.AnyUuid)
    {others : UuidSource} {payload : Bytes} (unspent : others.Unused site.tables)
    (carries : row.payload = some payload) {p : LlmProvider R} {doc : DocRow} {chunks : List Chunk}
    {embeddings : List (List R)} {chunkIds : List Uuid} {own : Tables R}
    (assembled : Assembled host.rt (host.environment p uuids) row.submission.request payload doc chunks
      embeddings chunkIds)
    (checked : host.srv.refuses
      (.documentExistsByHash row.submission.request.ns (contentHash host.rt payload)) = none)
    (named : Carries row.submission.request.source doc.source payload)
    (admitted : Admitted host.srv site.tables doc)
    (kept : Extracted host.srv (p.extract host.remote) doc ((chunks.zip embeddings).zip chunkIds)
      ((chunks.zip embeddings).zip chunkIds) own)
    {result : CoreResult RunJobOutcome} {after : Session R}
    (reran : Program.run (Adapter.tokio.handler host.srv (host.environment .mocked others)
      site.tables) (runJob host.rt row.submission.request).run {} = .ok (result, after)) :
    ∃ outcome, result = .ok outcome := by
  rcases result with e | outcome
  · have attempted : Program.wp
        (attempt host.srv (host.environment .mocked others).mocked row.submission.request.ns
          (contentHash host.rt payload)) (runJob host.rt row.submission.request).run
        ({}, site.tables)
        (Outcome host.rt host.srv (host.environment .mocked others).mocked
          row.submission.request payload) :=
      attempt_run (payload_carried row.submission carries)
        (fun _ chunked => chunkSource_ords numbering chunked) site.tables
    rw [Host.environment_mocked] at attempted
    have outcome := attempt_alone (unspent.fresh host .mocked) _ attempted reran
    have created := admitted.created
    rw [assembled.ready.ns] at created
    rcases (outcome chunks (untroubled server assembled checked named admitted kept)
      created).stored with ⟨holder, member, same⟩
    exact absurd (same.trans assembled.ready.contentHash.symm) (admitted.unstored holder member)
  · exact ⟨outcome, rfl⟩

/-- From a state where the extension completes a job, the sidecar completes it with the same rows
exactly when the namespace held the content already or the provider finds no entity in it. -/
theorem sidecar_matches_iff (numbering : host.rt.chunkshop.Numbering)
    (server : host.srv.AnyUuid) {others : UuidSource} {payload : Bytes}
    (unused : uuids.Unused site.tables) (unspent : others.Unused site.tables)
    (queued : row ∈ site.jobs) (carries : row.payload = some payload)
    (completed : (Extension.workerCycle host uuids now row site).Completed row.id) :
    ((Sidecar.processOne host others now row site).Completed row.id ∧
        SameRows site.tables (Extension.workerCycle host uuids now row site).tables
          (Sidecar.processOne host others now row site).tables) ↔
      Published host.rt site.tables row.ns payload ∨ host.Quiet row payload := by
  have carried := payload_carried row.submission carries
  rcases worker_completed completed with ⟨p, outcome, session, resolved, ran, stored⟩
  have worked := job_worked numbering p unused carries ran
  have returns : ∃ result after, Program.run
      (Adapter.tokio.handler host.srv (host.environment .mocked others) site.tables)
      (runJob host.rt row.submission.request).run {} = .ok (result, after) := tokio_returns _ _
  rcases returns with ⟨result, after, reran⟩
  have reworked := job_worked numbering .mocked unspent carries reran
  rw [process_ended reran, stored]
  constructor
  · intro alike
    rcases alike with ⟨⟨job, member, same, finished⟩, rows⟩
    rcases result with e | again
    · exact absurd finished (fail_unfinished member same)
    rcases worked.2 with ⟨-, held⟩ | ⟨doc, chunks, embeddings, chunkIds, assembled, -, -, kept⟩
    · exact .inl held
    have silent := kept.silent rows (reworked.own_links rfl (mocked_barren host))
    right
    intro q cut provided chunked
    rw [resolved] at provided
    cases provided
    rw [show chunkSource host.rt row.chunkStrategy payload = _ from assembled.ready.chunked] at chunked
    cases chunked
    exact assembled.barren_iff.mp silent
  · intro condition
    rcases worked.2 with
      ⟨none_, held⟩ | ⟨doc, chunks, embeddings, chunkIds, assembled, named, admitted, kept⟩
    · rcases duplicate_skipped carried worked.1 held reran with ⟨again, rfl⟩
      refine ⟨complete_finished queued, ?_⟩
      rw [none_, reworked.skipped held]
      exact sameRows_none site.tables
    · rcases sidecar_stores numbering server unspent carries assembled worked.1 named admitted kept
        reran with ⟨again, rfl⟩
      have free : ¬ Published host.rt site.tables row.ns payload := by
        rintro ⟨holder, member, -, same⟩
        exact admitted.unstored holder member (same.trans assembled.ready.contentHash.symm)
      have quiet := condition.resolve_left free p chunks resolved assembled.ready.chunked
      rcases reworked.2 with
        ⟨-, held⟩ | ⟨other, cut, vectors, otherIds, reassembled, renamed, -, rekept⟩
      · exact absurd held free
      · refine ⟨complete_finished queued, ?_⟩
        rw [kept.barren (assembled.barren_iff.mpr quiet),
          rekept.barren (fun item _ => mocked_barren host _)]
        rcases documents_renamed assembled reassembled named renamed rfl (fun _ _ => rfl) with
          ⟨ρ, renames⟩
        exact ⟨_, _, ρ, rfl, rfl, renames⟩

end Cycles

section Sample

def UuidSource.upFrom (base : Nat) : UuidSource where
  draw n := base + n
  fresh := fun _ _ same => Nat.add_left_cancel same

def Host.sample (config : Configuration) : Host Milli where
  rt := .plain
  srv := .plain Milli
  readFile _ := .error "No such file or directory (os error 2)"
  embedBatch texts := .ok (texts.map (fun _ => unitVector))
  remote _ _ := .ok { entities := [{ name := "Ann", kind := none, description := none,
                                     confidence := ⟨1000⟩ }] }
  crates := .failing
  files := .empty
  masterKeyPath := none
  config := config

def helloRow : JobRow where
  id := 1
  status := .queued
  source := "hello.md"
  ns := "docs"
  chunkStrategy := "auto"
  error := none
  attemptCount := 0
  payload := some "hello".toUTF8
  enqueuedAt := 0
  startedAt := none
  finishedAt := none
  updatedAt := 0

def helloSite : Site Milli := ⟨[helloRow], emptyNamespace⟩

theorem UuidSource.unused_hello (uuids : UuidSource) : uuids.Unused helloSite.tables where
  documents := fun _ stored => absurd stored List.not_mem_nil
  chunks := fun _ stored => absurd stored List.not_mem_nil
  parents := fun _ stored => absurd stored List.not_mem_nil
  links := fun _ stored => absurd stored List.not_mem_nil

def Host.extracting : Host Milli := .sample (.single "sk")

def Host.bare : Host Milli := .sample ⟨[], [], .nil, .nil⟩

/-- The extension stores the entity of its provider. The sidecar stores none. -/
theorem configured_provider_ignored :
    (Extension.workerCycle .extracting (.upFrom 100) 5 helloRow helloSite).Completed helloRow.id ∧
      ¬ ((Sidecar.processOne .extracting (.upFrom 200) 5 helloRow helloSite).Completed
            helloRow.id ∧
          SameRows helloSite.tables
            (Extension.workerCycle .extracting (.upFrom 100) 5 helloRow helloSite).tables
            (Sidecar.processOne .extracting (.upFrom 200) 5 helloRow helloSite).tables) := by
  refine ⟨⟨_, List.mem_cons_self, rfl, rfl⟩, ?_⟩
  intro alike
  have links := alike.2.links
  revert links
  decide +kernel

theorem no_provider_matches :
    (Sidecar.processOne .bare (.upFrom 200) 5 helloRow helloSite).Completed helloRow.id ∧
      SameRows helloSite.tables
        (Extension.workerCycle .bare (.upFrom 100) 5 helloRow helloSite).tables
        (Sidecar.processOne .bare (.upFrom 200) 5 helloRow helloSite).tables := by
  have completed : (Extension.workerCycle .bare (.upFrom 100) 5 helloRow helloSite).Completed
      helloRow.id := ⟨_, List.mem_cons_self, rfl, rfl⟩
  have queued : helloRow ∈ helloSite.jobs := List.mem_cons_self
  refine (sidecar_matches_iff twoWorkers_numbering ⟨fun _ _ => rfl, fun _ _ _ => rfl⟩
    (UuidSource.unused_hello _) (UuidSource.unused_hello _) queued rfl completed).mpr (.inr ?_)
  intro p chunks provided chunked chunk listed
  cases provided
  exact mocked_barren .bare chunk.text

end Sample

end PgRaggraph

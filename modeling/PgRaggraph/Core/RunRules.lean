import PgRaggraph.Core.RunJob

/-! Proof rules for the stages of `run_job`, over any specification of its calls.

A caller supplies what each call preserves; the rules carry it through the loops. -/

namespace PgRaggraph

open Interaction Interaction.Fallible

variable {R σ : Type}

structure ExtractionRule [F32 R] (spec : Spec (Ingest R) σ) (ns : String) (chunkId : Uuid)
    (keep : List Uuid → σ → Prop) (failed : CoreError → σ → Prop) : Prop where
  monotone : spec.Monotone
  forget : ∀ ids state, keep ids state → keep [] state
  extracted : ∀ chunkText state, keep [] state →
    spec (.env (.extract chunkText ns)) state (Settles (fun _ => keep []) failed)
  embedded : ∀ name ids state, keep ids state →
    spec (.env (.embedBatch [name])) state
      (Settles (fun vectors after => (vectors ≠ [] → keep ids after) ∧
        (vectors = [] → failed (.invalidConfig "entity-name embed returned empty") after)) failed)
  resolved : ∀ name kind nameEmb description ids state, keep ids state →
    spec (.client (.fuzzyMatchEntity ns name trgmCandidateLimit)) state
      (Settles (fun cands searched => (∀ c ∈ cands, keep (c.id :: ids) searched) ∧
        spec (.env .newUuid) searched (fun id minted =>
          spec (.client (.insertEntity
            { id := id, ns := ns, name := name, kind := kind, nameEmb := some nameEmb,
              description := description })) minted (Settles (fun _ => keep (id :: ids)) failed)))
        failed)
  linked : ∀ id confidence ids state, id ∈ ids → keep ids state →
    spec (.client (.insertChunkEntity
      { chunkId := chunkId, entityId := id, confidence := confidence })) state
      (Settles (fun _ => keep ids) failed)
  related : ∀ src dst kind weight ids state, src ∈ ids → dst ∈ ids → keep ids state →
    spec (.env .newUuid) state (fun id minted =>
      spec (.client (.insertRelationship
        { id := id, ns := ns, srcId := src, dstId := dst, kind := kind, weight := weight,
          description := none })) minted (Settles (fun _ => keep ids) failed))

section Extraction

variable [F32 R] {spec : Spec (Ingest R) σ} {ns : String} {chunkId : Uuid}
  {keep : List Uuid → σ → Prop} {failed : CoreError → σ → Prop}

theorem wp_resolveOrInsertEntity (rule : ExtractionRule spec ns chunkId keep failed)
    (name : String) (kind : Option String) (nameEmb : List R) (description : Option String)
    (ids : List Uuid) (state : σ) (holds : keep ids state) :
    Program.wp spec (resolveOrInsertEntity ns name kind nameEmb description).run state
      (Settles (fun id => keep (id :: ids)) failed) := by
  rw [resolveOrInsertEntity]
  refine wp_seq rule.monotone (rule.resolved name kind nameEmb description ids state holds) ?_
    (fun _ _ stop => stop)
  intro cands searched resolved
  split
  · rename_i c found
    exact resolved.1 c (List.mem_of_find?_eq_some found)
  · refine wp_lift_seq rule.monotone resolved.2 ?_
    intro id minted inserted
    exact wp_seq rule.monotone inserted (fun _ _ kept => kept) (fun _ _ stop => stop)

theorem wp_persistEntity (rule : ExtractionRule spec ns chunkId keep failed)
    (nameToId : List (String × Uuid)) (ent : ExtractedEntity R) (state : σ)
    (holds : keep (nameToId.map Prod.snd) state) :
    Program.wp spec (persistEntity ns chunkId nameToId ent).run state
      (Settles (fun next => keep (next.map Prod.snd)) failed) := by
  rw [persistEntity]
  refine wp_seq rule.monotone (rule.embedded ent.name _ state holds) ?_ (fun _ _ stop => stop)
  intro vectors after embedded
  rcases vectors with _ | ⟨nameEmb, _⟩
  · exact embedded.2 rfl
  refine wp_seq rule.monotone
    (wp_resolveOrInsertEntity rule ent.name ent.kind nameEmb ent.description _ after
      (embedded.1 (List.cons_ne_nil _ _))) ?_
    (fun _ _ stop => stop)
  intro entityId middle known
  refine wp_seq rule.monotone
    (rule.linked entityId ent.confidence _ middle List.mem_cons_self known) ?_
    (fun _ _ stop => stop)
  intro _ last kept
  exact kept

theorem wp_persistRelationship (rule : ExtractionRule spec ns chunkId keep failed)
    (nameToId : List (String × Uuid)) (rel : ExtractedRelationship R) (state : σ)
    (holds : keep (nameToId.map Prod.snd) state) :
    Program.wp spec (persistRelationship ns nameToId () rel).run state
      (Settles (fun _ => keep (nameToId.map Prod.snd)) failed) := by
  rw [persistRelationship]
  split
  · rename_i src dst foundSrc foundDst
    have known : ∀ name id, nameToId.lookup name = some id → id ∈ nameToId.map Prod.snd := by
      intro name id found
      obtain ⟨front, back, split, -⟩ := List.lookup_eq_some_iff.mp found
      simp [split]
    rw [Fallible.wp_bind, wp_lift, wp_newUuid]
    exact rule.related src dst rel.kind rel.weight _ state (known _ _ foundSrc)
      (known _ _ foundDst) holds
  · exact holds

theorem wp_persistExtraction (rule : ExtractionRule spec ns chunkId keep failed)
    (entities : List (ExtractedEntity R)) (relationships : List (ExtractedRelationship R))
    (nameToId : List (String × Uuid)) (state : σ) (holds : keep (nameToId.map Prod.snd) state) :
    Program.wp spec (entities.foldlM (persistEntity ns chunkId) nameToId >>= fun names =>
        relationships.foldlM (persistRelationship ns names) ()).run state
      (Settles (fun _ => keep []) failed) := by
  refine wp_seq rule.monotone (wp_foldlM rule.monotone
    (fun _ names middle => keep (names.map Prod.snd) middle)
    (fun ent _ names middle kept => wp_persistEntity rule names ent middle kept)
    _ nameToId state holds) ?_ (fun _ _ stop => stop)
  intro names middle kept
  refine Program.wp_mono rule.monotone _ _ ?_ (wp_foldlM rule.monotone
    (fun _ _ last => keep (names.map Prod.snd) last)
    (fun rel _ _ last keptLast => wp_persistRelationship rule names rel last keptLast)
    _ () middle kept)
  exact Settles.mono (fun _ last keptLast => rule.forget _ last keptLast) (fun _ _ stop => stop)

theorem wp_persistChunkExtraction (rule : ExtractionRule spec ns chunkId keep failed)
    (chunkText : String) (state : σ) (holds : keep [] state) :
    Program.wp spec (persistChunkExtraction ns chunkId chunkText).run state
      (Settles (fun _ => keep []) failed) := by
  rw [persistChunkExtraction]
  refine wp_seq rule.monotone (rule.extracted chunkText state holds) ?_ (fun _ _ stop => stop)
  intro extraction after extracted
  exact wp_persistExtraction rule extraction.entities extraction.relationships [] after extracted

end Extraction

theorem wp_extraction_empty [F32 R] {spec : Spec (Ingest R) σ} (monotone : spec.Monotone)
    {ns chunkText : String} (chunkId : Uuid) {state : σ} {keep : σ → Prop}
    {failed : CoreError → σ → Prop}
    (extracted : spec (.env (.extract chunkText ns)) state
      (fun answer after => answer = .ok {} ∧ keep after)) :
    Program.wp spec (persistChunkExtraction ns chunkId chunkText).run state
      (Settles (fun _ => keep) failed) := by
  rw [persistChunkExtraction, Fallible.wp_bind, wp_extract]
  refine monotone _ _ _ _ ?_ extracted
  intro answer after nothing
  rcases nothing with ⟨rfl, kept⟩
  exact kept

abbrev ChunkItem (R : Type) := (Chunk × List R) × Uuid

structure PersistRule [F32 R] (spec : Spec (Ingest R) σ) (docId : Uuid) (ns : String)
    (loop : List (ChunkItem R) → σ → Prop) (placed : ChunkItem R → List (ChunkItem R) → σ → Prop)
    (failed : CoreError → σ → Prop) : Prop where
  monotone : spec.Monotone
  stored : ∀ item rest state, loop (item :: rest) state →
    spec (.client (.insertChunk (chunkRow docId ns item.1.1 item.1.2 item.2))) state
      (Settles (fun _ => placed item rest) failed)
  extracted : ∀ item rest state, placed item rest state →
    Program.wp spec (persistChunkExtraction ns item.2 item.1.1.text).run state
      (Settles (fun _ => loop rest) failed)

section Persist

variable [F32 R] {spec : Spec (Ingest R) σ} {docId : Uuid} {ns : String}
  {loop : List (ChunkItem R) → σ → Prop} {placed : ChunkItem R → List (ChunkItem R) → σ → Prop}
  {failed : CoreError → σ → Prop}

theorem wp_persistChunk (rule : PersistRule spec docId ns loop placed failed)
    (item : ChunkItem R) (rest : List (ChunkItem R)) (state : σ)
    (holds : loop (item :: rest) state) :
    Program.wp spec (persistChunk docId ns () item).run state
      (Settles (fun _ => loop rest) failed) := by
  rw [persistChunk]
  refine wp_seq rule.monotone (rule.stored item rest state holds) ?_ (fun _ _ stop => stop)
  intro _ after placed
  exact rule.extracted item rest after placed

theorem wp_persistDocument (doc : DocRow)
    (rule : PersistRule spec doc.id doc.ns loop placed failed) (chunks : List Chunk)
    (embeddings : List (List R)) (chunkIds : List Uuid) (state : σ)
    (inserted : spec (.client (.insertDocument doc)) state
      (Settles (fun _ => loop ((chunks.zip embeddings).zip chunkIds)) failed)) :
    Program.wp spec (persistDocument doc chunks embeddings chunkIds).run state
      (Settles (fun n after => n = chunks.length ∧ loop [] after) failed) := by
  rw [persistDocument]
  refine wp_seq rule.monotone inserted ?_ (fun _ _ stop => stop)
  intro _ after start
  refine wp_seq rule.monotone (wp_foldlM rule.monotone (fun rest _ middle => loop rest middle)
    (fun item rest _ middle holds => wp_persistChunk rule item rest middle holds)
    _ () after start) ?_ (fun _ _ stop => stop)
  intro _ last finished
  exact ⟨rfl, finished⟩

end Persist

def Carries : IngestSource → String → Bytes → Prop
  | .path _, _, _ => False
  | .text name content, sourceName, bytes => sourceName = name ∧ bytes = content.toUTF8
  | .bytes name content, sourceName, bytes => sourceName = name ∧ bytes = content

def vectorCountMismatch (vectors chunks : Nat) : CoreError :=
  .invalidConfig s!"embedder returned {vectors} vectors for {chunks} chunks"

/-- The steps before the first write: `loaded` once the bytes are read, `unstored` once the
duplicate check is negative, `prepared` while identifiers are drawn. -/
structure PreparationRule (spec : Spec (Ingest R) σ) (rt : Runtime) (req : IngestRequest)
    (start : σ → Prop) (loaded unstored : String → Bytes → σ → Prop)
    (prepared : String → Bytes → List Chunk → List (List R) → List Uuid → σ → Prop)
    (post : CoreResult RunJobOutcome → σ → Prop) : Prop where
  monotone : spec.Monotone
  read : ∀ path state, req.source = .path path → start state →
    spec (.env (.readFile path)) state (fun answer after =>
      match answer with
      | .ok bytes => loaded path bytes after
      | .error e => post (.error (.invalidConfig s!"read {path}: {e}")) after)
  carried : ∀ sourceName bytes state, Carries req.source sourceName bytes → start state →
    loaded sourceName bytes state
  checked : ∀ sourceName bytes state, loaded sourceName bytes state →
    spec (.client (.documentExistsByHash req.ns (contentHash rt bytes))) state
      (Settles (fun found after =>
        if found then post (.ok (.skippedDuplicate (contentHash rt bytes))) after
        else unstored sourceName bytes after) (fun e => post (.error e)))
  unchunked : ∀ sourceName bytes e state, chunkSource rt req.chunkStrategy bytes = .error e →
    unstored sourceName bytes state → post (.error e) state
  embedded : ∀ sourceName bytes chunks state, chunkSource rt req.chunkStrategy bytes = .ok chunks →
    unstored sourceName bytes state →
    spec (.env (.embedBatch (chunks.map (·.text)))) state
      (Settles (fun embeddings after =>
        if embeddings.length ≠ chunks.length then
          post (.error (vectorCountMismatch embeddings.length chunks.length)) after
        else prepared sourceName bytes chunks embeddings [] after) (fun e => post (.error e)))
  minted : ∀ sourceName bytes chunks embeddings ids state,
    prepared sourceName bytes chunks embeddings ids state →
    spec (.env .newUuid) state (fun id =>
      prepared sourceName bytes chunks embeddings (ids ++ [id]))

structure Ready (rt : Runtime) (req : IngestRequest) (bytes : Bytes) (doc : DocRow)
    (chunks : List Chunk) (embeddings : List (List R)) (chunkIds : List Uuid) : Prop where
  chunked : chunkSource rt req.chunkStrategy bytes = .ok chunks
  embedded : embeddings.length = chunks.length
  counted : chunkIds.length = chunks.length
  ns : doc.ns = req.ns
  contentHash : doc.contentHash = contentHash rt bytes
  title : doc.title = none

theorem Ready.document {rt : Runtime} {req : IngestRequest} {bytes : Bytes} {doc : DocRow}
    {chunks : List Chunk} {embeddings : List (List R)} {chunkIds : List Uuid}
    (ready : Ready rt req bytes doc chunks embeddings chunkIds) :
    doc = jobDocument rt req doc.source bytes doc.id := by
  rcases doc with ⟨id, ns, source, contentHash, title⟩
  rcases ready with ⟨-, -, -, rfl, rfl, rfl⟩
  rfl

theorem Ready.items_length {rt : Runtime} {req : IngestRequest} {bytes : Bytes} {doc : DocRow}
    {chunks : List Chunk} {embeddings : List (List R)} {chunkIds : List Uuid}
    (ready : Ready rt req bytes doc chunks embeddings chunkIds) :
    ((chunks.zip embeddings).zip chunkIds).length = chunks.length := by
  rw [List.length_zip, List.length_zip, ready.embedded, ready.counted, min_self, min_self]

theorem Ready.items_nonempty {rt : Runtime} {req : IngestRequest} {bytes : Bytes} {doc : DocRow}
    {chunks : List Chunk} {embeddings : List (List R)} {chunkIds : List Uuid}
    (ready : Ready rt req bytes doc chunks embeddings chunkIds) :
    (chunks.zip embeddings).zip chunkIds ≠ [] := by
  intro none_
  have length := ready.items_length
  rw [none_] at length
  exact chunkSource_nonempty ready.chunked (List.length_eq_zero_iff.mp length.symm)

section Preparation

variable {spec : Spec (Ingest R) σ} {rt : Runtime} {req : IngestRequest} {start : σ → Prop}
  {loaded unstored : String → Bytes → σ → Prop}
  {prepared : String → Bytes → List Chunk → List (List R) → List Uuid → σ → Prop}
  {post : CoreResult RunJobOutcome → σ → Prop}

theorem wp_readSource
    (rule : PreparationRule spec rt req start loaded unstored prepared post) (state : σ)
    (holds : start state) :
    Program.wp spec (readSource (R := R) req.source).run state
      (Settles (fun read => loaded read.1 read.2) (fun e => post (.error e))) := by
  rcases source : req.source with path | ⟨name, content⟩ | ⟨name, content⟩
  · rw [readSource]
    refine wp_lift_seq rule.monotone (rule.read path state source holds) ?_
    intro answer after kept
    rcases answer with e | bytes
    · exact kept
    · exact kept
  · exact rule.carried name content.toUTF8 state (by simp [source, Carries]) holds
  · exact rule.carried name content state (by simp [source, Carries]) holds

theorem wp_newUuids (rule : PreparationRule spec rt req start loaded unstored prepared post)
    (sourceName : String) (bytes : Bytes) (chunks : List Chunk) (embeddings : List (List R))
    (rest : List Chunk) (drawn : List Uuid) (state : σ)
    (holds : prepared sourceName bytes chunks embeddings drawn state) :
    Program.wp spec (newUuids rest) state
      (fun ids after => ids.length = rest.length ∧
        prepared sourceName bytes chunks embeddings (drawn ++ ids) after) := by
  induction rest generalizing drawn state with
  | nil =>
      refine ⟨rfl, ?_⟩
      rw [List.append_nil]
      exact holds
  | cons chunk rest ih =>
      rw [newUuids, Program.wp_bind, wp_newUuid]
      refine rule.monotone _ _ _ _ ?_ (rule.minted _ _ _ _ drawn state holds)
      intro id after minted
      rw [Program.wp_bind]
      refine Program.wp_mono rule.monotone _ _ ?_ (ih (drawn ++ [id]) after minted)
      intro ids last drawnAll
      refine ⟨congrArg (· + 1) drawnAll.1, ?_⟩
      rw [List.append_cons]
      exact drawnAll.2

theorem wp_embedChunks (rule : PreparationRule spec rt req start loaded unstored prepared post)
    (sourceName : String) (bytes : Bytes) (chunks : List Chunk) (state : σ)
    (chunked : chunkSource rt req.chunkStrategy bytes = .ok chunks)
    (holds : unstored sourceName bytes state) :
    Program.wp spec (embedChunks chunks).run state
      (Settles (fun embeddings after => embeddings.length = chunks.length ∧
        prepared sourceName bytes chunks embeddings [] after) (fun e => post (.error e))) := by
  rw [embedChunks]
  refine wp_seq rule.monotone (rule.embedded sourceName bytes chunks state chunked holds) ?_
    (fun _ _ stop => stop)
  intro embeddings after kept
  by_cases differ : embeddings.length ≠ chunks.length
  · simp only [if_pos differ] at kept ⊢
    exact kept
  · simp only [if_neg differ] at kept ⊢
    exact ⟨not_not.mp differ, kept⟩

theorem wp_prepareJob (rule : PreparationRule spec rt req start loaded unstored prepared post)
    (state : σ) (holds : start state) :
    Program.wp spec (prepareJob (R := R) rt req).run state
      (Settles (fun preparation after =>
        match preparation with
        | .duplicate existingHash => post (.ok (.skippedDuplicate existingHash)) after
        | .ready doc chunks embeddings chunkIds => ∃ bytes,
            Ready rt req bytes doc chunks embeddings chunkIds ∧
              prepared doc.source bytes chunks embeddings (chunkIds ++ [doc.id]) after)
        (fun e => post (.error e))) := by
  have monotone := rule.monotone
  rw [prepareJob]
  refine wp_seq monotone (wp_readSource rule state holds) ?_ (fun _ _ stop => stop)
  intro read afterRead kept
  rcases read with ⟨sourceName, bytes⟩
  refine wp_seq monotone (rule.checked sourceName bytes afterRead kept) ?_ (fun _ _ stop => stop)
  intro found afterCheck settled
  rcases found with _ | _
  · simp only [Bool.false_eq_true, ↓reduceIte] at settled ⊢
    rw [Fallible.wp_bind, wp_ofExcept]
    rcases chunked : chunkSource rt req.chunkStrategy bytes with e | chunks
    · exact rule.unchunked sourceName bytes e afterCheck chunked settled
    refine wp_seq monotone (wp_embedChunks rule sourceName bytes chunks afterCheck chunked settled)
      ?_ (fun _ _ stop => stop)
    intro embeddings afterEmbed embedded
    refine wp_lift_seq monotone
      (wp_newUuids rule sourceName bytes chunks embeddings chunks [] afterEmbed embedded.2) ?_
    intro chunkIds afterIds drawn
    refine wp_lift_seq monotone (rule.minted _ _ _ _ chunkIds afterIds drawn.2) ?_
    intro docId middle minted
    exact ⟨bytes, ⟨chunked, embedded.1, drawn.1, rfl, rfl, rfl⟩, minted⟩
  · exact settled

theorem wp_runJob [F32 R]
    (rule : PreparationRule spec rt req start loaded unstored prepared post) (state : σ)
    (holds : start state)
    (persisted : ∀ doc bytes chunks embeddings chunkIds middle,
      Ready rt req bytes doc chunks embeddings chunkIds →
      prepared doc.source bytes chunks embeddings (chunkIds ++ [doc.id]) middle →
      Program.wp spec (persistDocument (R := R) doc chunks embeddings chunkIds).run middle
        (fun result after => Program.wp spec (finishJob doc.id result).run after post)) :
    Program.wp spec (runJob (R := R) rt req).run state post := by
  rw [runJob]
  refine wp_seq rule.monotone (wp_prepareJob rule state holds) ?_ (fun _ _ stop => stop)
  intro preparation middle settled
  rcases preparation with existingHash | ⟨doc, chunks, embeddings, chunkIds⟩
  · exact settled
  · rcases settled with ⟨bytes, ready, prepared⟩
    rw [storePrepared, Fallible.wp_bind, wp_lift]
    exact persisted doc bytes chunks embeddings chunkIds middle ready prepared

end Preparation

end PgRaggraph

import PgRaggraph.Core.Resolve

/-! `run_job`, the pipeline that ingests one document. -/

namespace PgRaggraph

open Interaction

variable {R : Type} [F32 R]

def readSource : IngestSource → Job R (String × Bytes)
  | .path p => do
      match ← ExceptT.lift (readFile p) with
      | .ok bytes => pure (p, bytes)
      | .error e => throw (.invalidConfig s!"read {p}: {e}")
  | .text name content => pure (name, content.toUTF8)
  | .bytes name bytes => pure (name, bytes)

omit [F32 R] in
def contentOf (env : Environment R) : IngestSource → Option (String × Bytes)
  | .path path =>
      match env.readFile 0 path with
      | .ok bytes => some (path, bytes)
      | .error _ => none
  | .text name content => some (name, content.toUTF8)
  | .bytes name bytes => some (name, bytes)

def readTicks : IngestSource → Nat
  | .path _ => 1
  | _ => 0

def noChunks : CoreError := .invalidConfig "chunkshop produced 0 chunks for non-empty source"

/-- Step 4: decode the bytes and chunk the text. -/
def chunkSource (rt : Runtime) (chunkStrategy : String) (bytes : Bytes) : CoreResult (List Chunk) :=
  let strategy := (ChunkStrategy.parse chunkStrategy).getD .auto
  match String.fromUTF8? bytes with
  | none => .error (.invalidConfig s!"source not valid utf-8: {rt.utf8Error bytes}")
  | some text =>
      match Chunker.chunk rt.chunkshop strategy text with
      | .error e => .error e
      | .ok [] => .error noChunks
      | .ok (chunk :: rest) => .ok (chunk :: rest)

theorem chunkSource_ok {rt : Runtime} {strategy : String} {bytes : Bytes} {chunks : List Chunk}
    (chunked : chunkSource rt strategy bytes = .ok chunks) : chunks ≠ [] ∧ ∃ text,
      Chunker.chunk rt.chunkshop ((ChunkStrategy.parse strategy).getD .auto) text = .ok chunks := by
  rw [chunkSource] at chunked
  split at chunked
  · cases chunked
  · split at chunked
    · cases chunked
    · cases chunked
    · rename_i produced
      cases chunked
      exact ⟨List.cons_ne_nil _ _, _, produced⟩

theorem chunkSource_nonempty {rt : Runtime} {strategy : String} {bytes : Bytes}
    {chunks : List Chunk} (chunked : chunkSource rt strategy bytes = .ok chunks) : chunks ≠ [] :=
  (chunkSource_ok chunked).1

theorem chunkSource_ords {rt : Runtime} (numbering : rt.chunkshop.Numbering) {strategy : String}
    {bytes : Bytes} {chunks : List Chunk} (chunked : chunkSource rt strategy bytes = .ok chunks) :
    (chunks.map (fun chunk => chunk.ord)).Nodup := by
  rcases (chunkSource_ok chunked).2 with ⟨text, produced⟩
  exact chunk_ords numbering produced

/-- Step 5: one embedding for each chunk. -/
def embedChunks (chunks : List Chunk) : Job R (List (List R)) := do
  let embeddings ← embedBatch (chunks.map (·.text))
  if embeddings.length ≠ chunks.length then
    throw (.invalidConfig
      s!"embedder returned {embeddings.length} vectors for {chunks.length} chunks")
  else
    pure embeddings

def newUuids : List Chunk → Program (Ingest R) (List Uuid)
  | [] => pure []
  | _ :: rest => do
      let id ← newUuid
      let ids ← newUuids rest
      pure (id :: ids)

/-- The body of the entity loop. The newest binding of a name stands first in `nameToId`. -/
def persistEntity (ns : String) (chunkId : Uuid) (nameToId : List (String × Uuid))
    (ent : ExtractedEntity R) : Job R (List (String × Uuid)) := do
  match ← embedBatch [ent.name] with
  | [] => throw (.invalidConfig "entity-name embed returned empty")
  | nameEmb :: _ =>
      let entityId ← resolveOrInsertEntity ns ent.name ent.kind nameEmb ent.description
      insertChunkEntity { chunkId := chunkId, entityId := entityId, confidence := ent.confidence }
      pure ((ent.name, entityId) :: nameToId)

/-- The body of the relationship loop; a dangling endpoint drops the relationship. -/
def persistRelationship (ns : String) (nameToId : List (String × Uuid)) (_ : Unit)
    (rel : ExtractedRelationship R) : Job R Unit := do
  match nameToId.lookup rel.srcName, nameToId.lookup rel.dstName with
  | some src, some dst =>
      let id ← ExceptT.lift newUuid
      insertRelationship
        { id := id, ns := ns, srcId := src, dstId := dst, kind := rel.kind, weight := rel.weight,
          description := none }
  | _, _ => pure ()

def persistChunkExtraction (ns : String) (chunkId : Uuid) (chunkText : String) : Job R Unit := do
  let extraction ← extract chunkText ns
  let nameToId ← extraction.entities.foldlM (persistEntity ns chunkId) []
  extraction.relationships.foldlM (persistRelationship ns nameToId) ()

def chunkRow (docId : Uuid) (ns : String) (chunk : Chunk) (embedding : List R) (chunkId : Uuid) :
    ChunkRow R :=
  { id := chunkId, documentId := docId, ns := ns, ord := chunk.ord, text := chunk.text,
    tokenCount := chunk.tokenCount, embedding := embedding }

def persistChunk (docId : Uuid) (ns : String) (_ : Unit)
    (item : (Chunk × List R) × Uuid) : Job R Unit := do
  insertChunk (chunkRow docId ns item.1.1 item.1.2 item.2)
  persistChunkExtraction ns item.2 item.1.1.text

def persistDocument (doc : DocRow) (chunks : List Chunk) (embeddings : List (List R))
    (chunkIds : List Uuid) : Job R Nat := do
  insertDocument doc
  ((chunks.zip embeddings).zip chunkIds).foldlM (persistChunk doc.id doc.ns) ()
  pure chunks.length

def finishJob (docId : Uuid) : CoreResult Nat → Job R RunJobOutcome
  | .ok n => do
      commit
      pure (.completed docId n)
  | .error e => do
      let _ ← ExceptT.lift rollback.run
      throw e

def jobDocument (rt : Runtime) (req : IngestRequest) (sourceName : String) (bytes : Bytes)
    (id : Uuid) : DocRow :=
  { id := id, ns := req.ns, source := sourceName, contentHash := contentHash rt bytes,
    title := none }

/-- Steps 1 to 6, before the first write. -/
inductive Preparation (R : Type) where
  | duplicate (existingHash : String)
  | ready (doc : DocRow) (chunks : List Chunk) (embeddings : List (List R)) (chunkIds : List Uuid)

def prepareJob (rt : Runtime) (req : IngestRequest) : Job R (Preparation R) := do
  let (sourceName, bytes) ← readSource req.source
  let hash := contentHash rt bytes
  if ← documentExistsByHash req.ns hash then
    pure (.duplicate hash)
  else
    let chunks ← Fallible.ofExcept (chunkSource rt req.chunkStrategy bytes)
    let embeddings ← embedChunks chunks
    let chunkIds ← ExceptT.lift (newUuids chunks)
    let docId ← ExceptT.lift newUuid
    pure (.ready (jobDocument rt req sourceName bytes docId) chunks embeddings chunkIds)

def storePrepared : Preparation R → Job R RunJobOutcome
  | .duplicate existingHash => pure (.skippedDuplicate existingHash)
  | .ready doc chunks embeddings chunkIds => do
      let persistResult ← ExceptT.lift (persistDocument doc chunks embeddings chunkIds).run
      finishJob doc.id persistResult

def runJob (rt : Runtime) (req : IngestRequest) : Job R RunJobOutcome :=
  prepareJob rt req >>= storePrepared

end PgRaggraph

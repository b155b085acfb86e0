import PgRaggraph.Core.Chunking
import PgRaggraph.Library.Interaction
import Mathlib.Data.Finset.Basic
import Mathlib.Data.Finset.Card
import Mathlib.Data.List.Sort

/-! The calls `run_job` makes: to its environment, and through the `PgClient` trait.

`FakePgClient` is the in-memory implementation of the trait; the SQL adapters are in
`Store.Adapters`. -/

namespace PgRaggraph

open Interaction

/-- The `f32` operations of the pipeline. No law is assumed of them. -/
class F32 (R : Type) extends Zero R, NatCast R, Add R, Mul R, Div R where
  sqrt : R → R
  lt : R → R → Bool
  le : R → R → Bool
  eq : R → R → Bool

inductive EnvCall where
  | readFile (path : String)
  | embedBatch (texts : List String)
  | extract (chunkText ns : String)
  | newUuid
  deriving DecidableEq

@[reducible] def EnvCall.Answer (R : Type) : EnvCall → Type
  | .readFile _ => Except String Bytes
  | .embedBatch _ => CoreResult (List (List R))
  | .extract _ _ => CoreResult (Extraction R)
  | .newUuid => Uuid

inductive ClientCall (R : Type) where
  | documentExistsByHash (ns contentHash : String)
  | insertDocument (doc : DocRow)
  | insertChunk (chunk : ChunkRow R)
  | insertEntity (row : EntityRow R)
  | insertRelationship (row : RelRow R)
  | insertChunkEntity (row : ChunkEntityRow R)
  | fuzzyMatchEntity (ns name : String) (limit : Nat)
  | rollback
  | commit
  deriving DecidableEq

@[reducible] def ClientCall.Value {R : Type} : ClientCall R → Type
  | .documentExistsByHash _ _ => Bool
  | .fuzzyMatchEntity _ _ _ => List (EntityCandidate R)
  | _ => Unit

inductive Call (R : Type) where
  | env (request : EnvCall)
  | client (request : ClientCall R)
  deriving DecidableEq

@[reducible] def Call.Answer {R : Type} : Call R → Type
  | .env request => request.Answer R
  | .client request => CoreResult request.Value

abbrev Ingest (R : Type) : Signature := ⟨Call R, Call.Answer⟩

abbrev Job (R α : Type) := Fallible (Ingest R) CoreError α

/-- The environment's answer to its `n`-th call. Nothing relates the answers to equal calls, so
an embedder or provider may fail at any call. `Uuid::new_v4` never repeats a value. -/
structure Environment (R : Type) where
  readFile : Nat → String → Except String Bytes
  embedBatch : Nat → List String → CoreResult (List (List R))
  extract : Nat → String → String → CoreResult (Extraction R)
  newUuid : Nat → Uuid
  fresh : Function.Injective newUuid

def Minted {R : Type} (env : Environment R) (id : Uuid) : Prop := ∃ k, env.newUuid k = id

def Environment.answer {R : Type} (env : Environment R) (n : Nat) :
    (request : EnvCall) → request.Answer R
  | .readFile path => env.readFile n path
  | .embedBatch texts => env.embedBatch n texts
  | .extract chunkText ns => env.extract n chunkText ns
  | .newUuid => env.newUuid n

section Calls

variable {R : Type}

def readFile (path : String) : Program (Ingest R) (Except String Bytes) :=
  Program.perform (S := Ingest R) (.env (.readFile path))

def newUuid : Program (Ingest R) Uuid :=
  Program.perform (S := Ingest R) (.env .newUuid)

def embedBatch (texts : List String) : Job R (List (List R)) :=
  ExceptT.mk (Program.perform (S := Ingest R) (.env (.embedBatch texts)))

def extract (chunkText ns : String) : Job R (Extraction R) :=
  ExceptT.mk (Program.perform (S := Ingest R) (.env (.extract chunkText ns)))

def documentExistsByHash (ns contentHash : String) : Job R Bool :=
  ExceptT.mk (Program.perform (S := Ingest R) (.client (.documentExistsByHash ns contentHash)))

def insertDocument (doc : DocRow) : Job R Unit :=
  ExceptT.mk (Program.perform (S := Ingest R) (.client (.insertDocument doc)))

def insertChunk (chunk : ChunkRow R) : Job R Unit :=
  ExceptT.mk (Program.perform (S := Ingest R) (.client (.insertChunk chunk)))

def insertEntity (row : EntityRow R) : Job R Unit :=
  ExceptT.mk (Program.perform (S := Ingest R) (.client (.insertEntity row)))

def insertRelationship (row : RelRow R) : Job R Unit :=
  ExceptT.mk (Program.perform (S := Ingest R) (.client (.insertRelationship row)))

def insertChunkEntity (row : ChunkEntityRow R) : Job R Unit :=
  ExceptT.mk (Program.perform (S := Ingest R) (.client (.insertChunkEntity row)))

def fuzzyMatchEntity (ns name : String) (limit : Nat) : Job R (List (EntityCandidate R)) :=
  ExceptT.mk (Program.perform (S := Ingest R) (.client (.fuzzyMatchEntity ns name limit)))

def rollback : Job R Unit :=
  ExceptT.mk (Program.perform (S := Ingest R) (.client .rollback))

def commit : Job R Unit :=
  ExceptT.mk (Program.perform (S := Ingest R) (.client .commit))

variable {σ : Type} (spec : Spec (Ingest R) σ) (state : σ)

@[simp] theorem wp_readFile (path : String) (post : Except String Bytes → σ → Prop) :
    Program.wp spec (readFile path) state post ↔ spec (.env (.readFile path)) state post := Iff.rfl

@[simp] theorem wp_newUuid (post : Uuid → σ → Prop) :
    Program.wp spec newUuid state post ↔ spec (.env .newUuid) state post := Iff.rfl

@[simp] theorem wp_embedBatch (texts : List String)
    (post : CoreResult (List (List R)) → σ → Prop) :
    Program.wp spec (embedBatch texts).run state post ↔
      spec (.env (.embedBatch texts)) state post := Iff.rfl

@[simp] theorem wp_extract (chunkText ns : String) (post : CoreResult (Extraction R) → σ → Prop) :
    Program.wp spec (extract chunkText ns).run state post ↔
      spec (.env (.extract chunkText ns)) state post := Iff.rfl

@[simp] theorem wp_documentExistsByHash (ns contentHash : String)
    (post : CoreResult Bool → σ → Prop) :
    Program.wp spec (documentExistsByHash ns contentHash).run state post ↔
      spec (.client (.documentExistsByHash ns contentHash)) state post := Iff.rfl

@[simp] theorem wp_insertDocument (doc : DocRow) (post : CoreResult Unit → σ → Prop) :
    Program.wp spec (insertDocument doc).run state post ↔
      spec (.client (.insertDocument doc)) state post := Iff.rfl

@[simp] theorem wp_insertChunk (chunk : ChunkRow R) (post : CoreResult Unit → σ → Prop) :
    Program.wp spec (insertChunk chunk).run state post ↔
      spec (.client (.insertChunk chunk)) state post := Iff.rfl

@[simp] theorem wp_insertEntity (row : EntityRow R) (post : CoreResult Unit → σ → Prop) :
    Program.wp spec (insertEntity row).run state post ↔
      spec (.client (.insertEntity row)) state post := Iff.rfl

@[simp] theorem wp_insertRelationship (row : RelRow R) (post : CoreResult Unit → σ → Prop) :
    Program.wp spec (insertRelationship row).run state post ↔
      spec (.client (.insertRelationship row)) state post := Iff.rfl

@[simp] theorem wp_insertChunkEntity (row : ChunkEntityRow R)
    (post : CoreResult Unit → σ → Prop) :
    Program.wp spec (insertChunkEntity row).run state post ↔
      spec (.client (.insertChunkEntity row)) state post := Iff.rfl

@[simp] theorem wp_fuzzyMatchEntity (ns name : String) (limit : Nat)
    (post : CoreResult (List (EntityCandidate R)) → σ → Prop) :
    Program.wp spec (fuzzyMatchEntity ns name limit).run state post ↔
      spec (.client (.fuzzyMatchEntity ns name limit)) state post := Iff.rfl

@[simp] theorem wp_rollback (post : CoreResult Unit → σ → Prop) :
    Program.wp spec rollback.run state post ↔ spec (.client .rollback) state post := Iff.rfl

@[simp] theorem wp_commit (post : CoreResult Unit → σ → Prop) :
    Program.wp spec commit.run state post ↔ spec (.client .commit) state post := Iff.rfl

end Calls

def trigrams : List Char → List (List Char)
  | a :: b :: c :: rest => [a, b, c] :: trigrams (b :: c :: rest)
  | _ => []

def trigramSet (rt : Runtime) (s : String) : Finset (List Char) :=
  (trigrams ("  " ++ rt.toLowercase s ++ "  ").toList).toFinset

variable {R : Type} [F32 R]

def trgmSim (rt : Runtime) (a b : String) : R :=
  let ta := trigramSet rt a
  let tb := trigramSet rt b
  let inter : R := ((ta ∩ tb).card : R)
  let union : R := ((ta ∪ tb).card : R)
  if F32.eq union 0 then 0 else inter / union

/-- `sort_by` on descending similarity is stable and treats incomparable values as equal. -/
def sortCandidates (hits : List (EntityCandidate R)) : List (EntityCandidate R) :=
  hits.insertionSort (fun a b => F32.lt a.trgmSimilarity b.trgmSimilarity = false)

def candidatesOf (similarity : String → String → R) (entities : List (EntityRow R))
    (ns name : String) (limit : Nat) : List (EntityCandidate R) :=
  (sortCandidates ((entities.filter (fun e => e.ns == ns)).map (fun e =>
    { id := e.id, name := e.name, trgmSimilarity := similarity e.name name,
      nameEmb := e.nameEmb }))).take limit

theorem candidate_stored {similarity : String → String → R} {entities : List (EntityRow R)}
    {ns name : String} {limit : Nat} {c : EntityCandidate R}
    (member : c ∈ candidatesOf similarity entities ns name limit) :
    ∃ e ∈ entities, e.id = c.id ∧ e.ns = ns := by
  have sorted := List.mem_of_mem_take member
  rw [sortCandidates, List.mem_insertionSort] at sorted
  obtain ⟨e, kept, rfl⟩ := List.mem_map.mp sorted
  obtain ⟨stored, same⟩ := List.mem_filter.mp kept
  exact ⟨e, stored, rfl, by simpa using same⟩

structure FakePgClient (R : Type) where
  documents : List DocRow := []
  chunks : List (ChunkRow R) := []
  entities : List (EntityRow R) := []
  relationships : List (RelRow R) := []
  chunkEntities : List (ChunkEntityRow R) := []
  chunkFailAt : Option Nat := none
  chunkInserts : Nat := 0
  bufferedDocuments : List DocRow := []
  bufferedChunks : List (ChunkRow R) := []
  bufferedEntities : List (EntityRow R) := []
  bufferedRelationships : List (RelRow R) := []
  bufferedChunkEntities : List (ChunkEntityRow R) := []

namespace FakePgClient

def handle (rt : Runtime) (client : FakePgClient R) :
    (request : ClientCall R) → CoreResult request.Value × FakePgClient R
  | .documentExistsByHash ns contentHash =>
      (.ok (client.documents.any (fun d => d.ns == ns && d.contentHash == contentHash)), client)
  | .insertDocument doc =>
      (.ok (), { client with bufferedDocuments := client.bufferedDocuments ++ [doc] })
  | .insertChunk chunk =>
      if some client.chunkInserts = client.chunkFailAt then
        (.error (.invalidConfig "synthetic chunk write failure"),
          { client with chunkInserts := client.chunkInserts + 1 })
      else
        (.ok (), { client with
          chunkInserts := client.chunkInserts + 1
          bufferedChunks := client.bufferedChunks ++ [chunk] })
  | .insertEntity row =>
      (.ok (), { client with bufferedEntities := client.bufferedEntities ++ [row] })
  | .insertRelationship row =>
      (.ok (), { client with bufferedRelationships := client.bufferedRelationships ++ [row] })
  | .insertChunkEntity row =>
      (.ok (), { client with bufferedChunkEntities := client.bufferedChunkEntities ++ [row] })
  | .fuzzyMatchEntity ns name limit =>
      (.ok (candidatesOf (trgmSim rt) client.entities ns name limit), client)
  | .rollback =>
      (.ok (), { client with
        bufferedDocuments := []
        bufferedChunks := []
        bufferedEntities := []
        bufferedRelationships := []
        bufferedChunkEntities := []
        chunkInserts := 0 })
  | .commit =>
      (.ok (), { client with
        documents := client.documents ++ client.bufferedDocuments
        chunks := client.chunks ++ client.bufferedChunks
        entities := client.entities ++ client.bufferedEntities
        relationships := client.relationships ++ client.bufferedRelationships
        chunkEntities := client.chunkEntities ++ client.bufferedChunkEntities
        bufferedDocuments := []
        bufferedChunks := []
        bufferedEntities := []
        bufferedRelationships := []
        bufferedChunkEntities := []
        chunkInserts := 0 })

end FakePgClient

end PgRaggraph

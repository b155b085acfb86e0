import Mathlib.Init

/-! Requests, rows, extractions and errors of the ingest pipeline.

`R` is the type of the `f32` values a row carries. The pipeline's results hold for every `R`,
so IEEE rounding, infinities and NaN are covered. -/

namespace PgRaggraph

abbrev Uuid := Nat

abbrev Bytes := ByteArray

instance : DecidableEq Bytes := ByteArray.decEq

inductive CoreError where
  | namespaceNotFound (name : String)
  | providerNotFound (name : String)
  | invalidConfig (message : String)
  | json (message : String)
  | crypto (message : String)
  | http (message : String)
  | llm (message : String)
  deriving DecidableEq, Repr

abbrev CoreResult (α : Type) := Except CoreError α

instance {α : Type} [DecidableEq α] : DecidableEq (CoreResult α)
  | .ok a, .ok b => decidable_of_iff (a = b) (by rw [Except.ok.injEq])
  | .error a, .error b => decidable_of_iff (a = b) (by rw [Except.error.injEq])
  | .ok _, .error _ => isFalse nofun
  | .error _, .ok _ => isFalse nofun

inductive IngestSource where
  | path (path : String)
  | text (name content : String)
  | bytes (name : String) (bytes : Bytes)
  deriving DecidableEq

structure IngestRequest where
  source : IngestSource
  ns : String
  chunkStrategy : String
  deriving DecidableEq

inductive RunJobOutcome where
  | completed (documentId : Uuid) (chunkCount : Nat)
  | skippedDuplicate (existingHash : String)
  deriving DecidableEq, Repr

structure DocRow where
  id : Uuid
  ns : String
  source : String
  contentHash : String
  title : Option String
  deriving DecidableEq, Repr

structure ChunkRow (R : Type) where
  id : Uuid
  documentId : Uuid
  ns : String
  ord : Int
  text : String
  tokenCount : Int
  embedding : List R
  deriving DecidableEq, Repr

structure EntityRow (R : Type) where
  id : Uuid
  ns : String
  name : String
  kind : Option String
  nameEmb : Option (List R)
  description : Option String
  deriving DecidableEq, Repr

structure RelRow (R : Type) where
  id : Uuid
  ns : String
  srcId : Uuid
  dstId : Uuid
  kind : String
  weight : R
  description : Option String
  deriving DecidableEq, Repr

structure ChunkEntityRow (R : Type) where
  chunkId : Uuid
  entityId : Uuid
  confidence : R
  deriving DecidableEq, Repr

structure EntityCandidate (R : Type) where
  id : Uuid
  name : String
  trgmSimilarity : R
  nameEmb : Option (List R)
  deriving DecidableEq, Repr

structure ExtractedEntity (R : Type) where
  name : String
  kind : Option String
  description : Option String
  confidence : R
  deriving DecidableEq, Repr

structure ExtractedRelationship (R : Type) where
  srcName : String
  dstName : String
  kind : String
  weight : R
  confidence : R
  deriving DecidableEq, Repr

structure Extraction (R : Type) where
  entities : List (ExtractedEntity R) := []
  relationships : List (ExtractedRelationship R) := []
  deriving DecidableEq, Repr

end PgRaggraph

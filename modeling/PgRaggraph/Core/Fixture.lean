import PgRaggraph.Core.Chunking
import PgRaggraph.Core.Json
import PgRaggraph.Core.Providers

/-! The records of a JSONL fixture and the parser of one line. -/

namespace PgRaggraph

/-- What `serde_json` and the crate `uuid` read of a text or a value. An error is the text it
displays. -/
structure Serde (N R : Type) where
  fromStr : String → Except String (Json N)
  uuid : Json N → Option Uuid
  i32 : Json N → Option Int
  f32 : Json N → Option R
  f64 : Json N → Option R
  fromValueError : (target : String) → Json N → String

namespace Fixture

variable {N R : Type}

structure Document (N : Type) where
  id : Uuid
  ns : String
  source : String
  contentHash : String
  title : Option String
  metadata : Json N

structure Chunk (N R : Type) where
  id : Uuid
  ns : String
  documentId : Uuid
  ord : Int
  text : String
  tokenCount : Int
  embedding : List R
  metadata : Json N

structure Entity (R : Type) where
  id : Uuid
  ns : String
  name : String
  kindLabel : Option String
  nameEmb : List R
  description : Option String

structure Relationship (R : Type) where
  id : Uuid
  ns : String
  srcId : Uuid
  dstId : Uuid
  kind : String
  weight : R

structure ChunkEntity (R : Type) where
  chunkId : Uuid
  entityId : Uuid
  confidence : R
  classification : String

inductive Record (N R : Type) where
  | document (d : Document N)
  | chunk (c : Chunk N R)
  | entity (e : Entity R)
  | relationship (r : Relationship R)
  | chunkEntity (ce : ChunkEntity R)

section Decode

def defaultObj : Json N := .object []

def required {α : Type} (decode : Json N → Option α) (v : Json N) (key : String) : Option α :=
  (v.get? key).bind decode

def withDefault {α : Type} (default : α) (decode : Json N → Option α) (v : Json N) (key : String) :
    Option α :=
  match v.get? key with
  | none => some default
  | some value => decode value

def nullable : Json N → Option (Option String)
  | .null => some none
  | .string s => some (some s)
  | _ => none

def floats (serde : Serde N R) (v : Json N) : Option (List R) :=
  v.asArray.bind (fun elements => elements.mapM serde.f32)

variable [NatCast R] (serde : Serde N R) (v : Json N)

def Document.fromValue : Option (Document N) := do
  let id ← required serde.uuid v "id"
  let ns ← required Json.asStr v "namespace"
  let source ← required Json.asStr v "source"
  let contentHash ← required Json.asStr v "content_hash"
  let title ← withDefault none nullable v "title"
  let metadata ← withDefault defaultObj some v "metadata"
  return { id, ns, source, contentHash, title, metadata }

def Chunk.fromValue : Option (Chunk N R) := do
  let id ← required serde.uuid v "id"
  let ns ← required Json.asStr v "namespace"
  let documentId ← required serde.uuid v "document_id"
  let ord ← required serde.i32 v "ord"
  let text ← required Json.asStr v "text"
  let tokenCount ← required serde.i32 v "token_count"
  let embedding ← required (floats serde) v "embedding"
  let metadata ← withDefault defaultObj some v "metadata"
  return { id, ns, documentId, ord, text, tokenCount, embedding, metadata }

/-- The field is not named `kind`, which tells the records apart. -/
def Entity.fromValue : Option (Entity R) := do
  let id ← required serde.uuid v "id"
  let ns ← required Json.asStr v "namespace"
  let name ← required Json.asStr v "name"
  let kindLabel ← withDefault none nullable v "kind_label"
  let nameEmb ← required (floats serde) v "name_emb"
  let description ← withDefault none nullable v "description"
  return { id, ns, name, kindLabel, nameEmb, description }

def Relationship.fromValue : Option (Relationship R) := do
  let id ← required serde.uuid v "id"
  let ns ← required Json.asStr v "namespace"
  let srcId ← required serde.uuid v "src_id"
  let dstId ← required serde.uuid v "dst_id"
  let kind ← required Json.asStr v "kind_label"
  let weight ← withDefault ((1 : Nat) : R) serde.f64 v "weight"
  return { id, ns, srcId, dstId, kind, weight }

def ChunkEntity.fromValue : Option (ChunkEntity R) := do
  let chunkId ← required serde.uuid v "chunk_id"
  let entityId ← required serde.uuid v "entity_id"
  let confidence ← withDefault ((1 : Nat) : R) serde.f64 v "confidence"
  let classification ← withDefault "extracted" Json.asStr v "classification"
  return { chunkId, entityId, confidence, classification }

def fromValue {α : Type} (decode : Json N → Option α) (target : String) : CoreResult α :=
  match decode v with
  | some value => .ok value
  | none => .error (.json (serde.fromValueError target v))

def parseJsonlLine (line : String) : CoreResult (Record N R) := do
  let trimmed := trim isWhiteSpace line
  if trimmed.isEmpty then
    throw (.invalidConfig "empty line")
  let v ← (serde.fromStr trimmed).mapError .json
  let some kind := (v.get? "kind").bind Json.asStr
    | throw (.invalidConfig "missing \x60kind\x60 field")
  match kind with
  | "document" => return .document (← fromValue serde v (Document.fromValue serde) "FixtureDocument")
  | "chunk" => return .chunk (← fromValue serde v (Chunk.fromValue serde) "FixtureChunk")
  | "entity" => return .entity (← fromValue serde v (Entity.fromValue serde) "FixtureEntity")
  | "relationship" =>
      return .relationship
        (← fromValue serde v (Relationship.fromValue serde) "FixtureRelationship")
  | "chunk_entity" =>
      return .chunkEntity (← fromValue serde v (ChunkEntity.fromValue serde) "FixtureChunkEntity")
  | other => throw (.invalidConfig s!"unknown record kind: {other}")

end Decode

end Fixture

end PgRaggraph

import PgRaggraph.Extension.IngestExtracted
import PgRaggraph.Extension.Installation
import PgRaggraph.Retrieval.Renamed
import PgRaggraph.Store.Constraints
import Mathlib.Data.List.ReduceOption

/-! A graph written as a fixture, one record a row, and loaded into another installation. -/

namespace PgRaggraph

variable {R J : Type}

namespace Stored

end Stored

section Moved

variable (ns : String)

def DocRow.moved (d : DocRow) : DocRow := { d with ns := ns }

def ChunkRow.moved (c : ChunkRow R) : ChunkRow R := { c with ns := ns }

def EntityRow.moved (e : EntityRow R) : EntityRow R := { e with ns := ns }

def RelRow.moved (r : RelRow R) : RelRow R := { r with ns := ns, description := none }

def Tables.moved (tables : Tables R) : Tables R where
  documents := tables.documents.map (DocRow.moved ns)
  chunks := tables.chunks.map (ChunkRow.moved ns)
  entities := tables.entities.map (EntityRow.moved ns)
  relationships := tables.relationships.map (RelRow.moved ns)
  chunkEntities := tables.chunkEntities

end Moved

section Fits

variable {tables : Tables R}

end Fits

section Records

variable {ns : String}

def FixtureRecord.row (ns : String) : FixtureRecord R J → Tables R
  | .document d => { documents := [d.moved ns] }
  | .chunk c _ => { chunks := [c.moved ns] }
  | .entity e => { entities := [e.moved ns] }
  | .relationship r => { relationships := [r.moved ns] }
  | .chunkEntity l => { chunkEntities := [l] }

def FixtureRecord.metadataOf : FixtureRecord R J → Uuid → Option J
  | .chunk c metadata, id => if id = c.id then some metadata else none
  | _, _ => none

def FixtureRecord.Apart : FixtureRecord R J → FixtureRecord R J → Prop
  | .document a, .document b => a.id ≠ b.id ∧ a.contentHash ≠ b.contentHash
  | .chunk a _, .chunk b _ => a.id ≠ b.id ∧ ¬ (a.documentId = b.documentId ∧ a.ord = b.ord)
  | .entity a, .entity b =>
      a.id ≠ b.id ∧ ¬ (a.name = b.name ∧ a.kind = b.kind ∧ b.kind.isSome = true)
  | .relationship a, .relationship b =>
      a.id ≠ b.id ∧ ¬ (a.srcId = b.srcId ∧ a.dstId = b.dstId ∧ a.kind = b.kind)
  | .chunkEntity a, .chunkEntity b => ¬ (a.chunkId = b.chunkId ∧ a.entityId = b.entityId)
  | _, _ => True

theorem FixtureRecord.Apart.symm {a b : FixtureRecord R J} (apart : a.Apart b) : b.Apart a := by
  cases a with
  | document a =>
      cases b with
      | document b => exact ⟨apart.1.symm, apart.2.symm⟩
      | _ => trivial
  | chunk a _ =>
      cases b with
      | chunk b _ => exact ⟨apart.1.symm, fun same => apart.2 ⟨same.1.symm, same.2.symm⟩⟩
      | _ => trivial
  | entity a =>
      cases b with
      | entity b =>
          refine ⟨apart.1.symm, fun same => apart.2 ⟨same.1.symm, same.2.1.symm, ?_⟩⟩
          rw [same.2.1]
          exact same.2.2
      | _ => trivial
  | relationship a =>
      cases b with
      | relationship b =>
          exact ⟨apart.1.symm, fun same => apart.2 ⟨same.1.symm, same.2.1.symm, same.2.2.symm⟩⟩
      | _ => trivial
  | chunkEntity a =>
      cases b with
      | chunkEntity b => exact fun same => apart ⟨same.1.symm, same.2.symm⟩
      | _ => trivial

def Stored.placed (ns : String) (s : Stored R J) (record : FixtureRecord R J) : Stored R J where
  tables := s.tables ++ record.row ns
  metadata := fun id => (record.metadataOf id).getD (s.metadata id)

section Members

variable {records : List (FixtureRecord R J)}

end Members

end Records

section Graph

variable {s : Stored R J} {home ns : String}

structure Within (home : String) (tables : Tables R) : Prop where
  chunks : ∀ c ∈ tables.chunks, c.ns = home
  entities : ∀ e ∈ tables.entities, e.ns = home
  relationships : ∀ r ∈ tables.relationships, r.ns = home

structure Rearranged (a b : Tables R) : Prop where
  namespaces : a.namespaces = b.namespaces
  documents : a.documents.Perm b.documents
  chunks : a.chunks.Perm b.chunks
  entities : a.entities.Perm b.entities
  relationships : a.relationships.Perm b.relationships
  chunkEntities : a.chunkEntities.Perm b.chunkEntities

end Graph

namespace Extension

variable {N : Type}

section Text

variable {refuses : Fixture.Record N R → Option String} {ns : String}

variable [NatCast R] {serde : Serde N R}

end Text

end Extension

section Answers

variable {s t : Stored R J} {home ns : String}

theorem Rearranged.keyed {a b : Tables R} (rearranged : Rearranged a b) (keyed : a.Keyed) :
    b.Keyed where
  chunks := (rearranged.chunks.map _).nodup_iff.mp keyed.chunks
  entities := (rearranged.entities.map _).nodup_iff.mp keyed.entities

variable [F32 R] [LinearOrder R] [IntCast R]

end Answers

section Sample

def Serde.lines : Serde Milli Milli :=
  { Serde.sample with
    fromStr := fun text =>
      if text = "d" then
        .ok (.object [("kind", .string "document"), ("id", .string "a"),
          ("namespace", .string "default"), ("source", .string "notes"),
          ("content_hash", .string "h")])
      else if text = "c" then
        .ok (.object [("kind", .string "chunk"), ("id", .string "bb"),
          ("namespace", .string "default"), ("document_id", .string "a"), ("ord", .number ⟨0⟩),
          ("text", .string "hello"), ("token_count", .number ⟨1000⟩),
          ("embedding", .array [.number ⟨0⟩])])
      else
        .ok (.object [("kind", .string "entity"), ("id", .string "ccc"),
          ("namespace", .string "default"), ("name", .string "Ann"),
          ("name_emb", .array [.number ⟨0⟩])]) }

end Sample

end PgRaggraph

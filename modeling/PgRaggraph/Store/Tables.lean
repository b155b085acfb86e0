import PgRaggraph.Core.PgClient

/-! The graph tables of `001_tables.sql` and the statements of the SQL adapters.

Both adapters send the same SQL, so a statement is one function of the rows it can see. -/

namespace PgRaggraph

structure Tables (R : Type) where
  namespaces : List String := []
  documents : List DocRow := []
  chunks : List (ChunkRow R) := []
  entities : List (EntityRow R) := []
  relationships : List (RelRow R) := []
  chunkEntities : List (ChunkEntityRow R) := []
  deriving DecidableEq

namespace Tables

variable {R : Type}

instance : Append (Tables R) where
  append a b :=
    { namespaces := a.namespaces ++ b.namespaces
      documents := a.documents ++ b.documents
      chunks := a.chunks ++ b.chunks
      entities := a.entities ++ b.entities
      relationships := a.relationships ++ b.relationships
      chunkEntities := a.chunkEntities ++ b.chunkEntities }

@[simp] theorem append_namespaces (a b : Tables R) :
    (a ++ b).namespaces = a.namespaces ++ b.namespaces := rfl

@[simp] theorem append_documents (a b : Tables R) :
    (a ++ b).documents = a.documents ++ b.documents := rfl

@[simp] theorem append_chunks (a b : Tables R) : (a ++ b).chunks = a.chunks ++ b.chunks := rfl

@[simp] theorem append_entities (a b : Tables R) :
    (a ++ b).entities = a.entities ++ b.entities := rfl

@[simp] theorem append_relationships (a b : Tables R) :
    (a ++ b).relationships = a.relationships ++ b.relationships := rfl

@[simp] theorem append_chunkEntities (a b : Tables R) :
    (a ++ b).chunkEntities = a.chunkEntities ++ b.chunkEntities := rfl

@[ext] theorem extensional {a b : Tables R} (namespaces : a.namespaces = b.namespaces)
    (documents : a.documents = b.documents) (chunks : a.chunks = b.chunks)
    (entities : a.entities = b.entities) (relationships : a.relationships = b.relationships)
    (chunkEntities : a.chunkEntities = b.chunkEntities) : a = b := by
  cases a
  cases b
  simp_all

@[simp] theorem append_empty (a : Tables R) : a ++ ({} : Tables R) = a := by
  ext : 1 <;> simp

@[simp] theorem empty_append (a : Tables R) : ({} : Tables R) ++ a = a := by
  ext : 1 <;> simp

theorem append_assoc (a b c : Tables R) : a ++ b ++ c = a ++ (b ++ c) := by
  ext : 1 <;> simp [List.append_assoc]

end Tables

inductive Constraint where
  | documentsPkey
  | documentsNamespaceFkey
  | chunksPkey
  | chunksDocumentIdFkey
  | entitiesPkey
  | relationshipsPkey
  | relationshipsSrcIdFkey
  | relationshipsDstIdFkey
  | chunkEntitiesChunkIdFkey
  | chunkEntitiesEntityIdFkey
  deriving DecidableEq, Repr

inductive PgError where
  | uniqueViolation (constraint : Constraint)
  | foreignKeyViolation (constraint : Constraint)
  | dataException (message : String)
  | inFailedSqlTransaction
  | deadlockDetected
  deriving DecidableEq, Repr

/-- What PostgreSQL and `pg_trgm` decide: which statements are refused for the values they carry
(a vector of another dimension, a NaN, a NUL byte), the similarity of two names, the order a
table is scanned in and the text of an error. A finite vector survives its text literal. -/
structure Server (R : Type) where
  refuses : ClientCall R → Option String
  similarity : String → String → R
  scan : List (EntityRow R) → List (EntityRow R)
  scan_perm : ∀ rows, (scan rows).Perm rows
  errorText : PgError → String

def Server.plain (R : Type) [F32 R] : Server R where
  refuses _ := none
  similarity a b := if a = b then ((1 : Nat) : R) else 0
  scan rows := rows
  scan_perm rows := .refl rows
  errorText _ := "db error"

variable {R : Type}

/-- `INSERT ... ON CONFLICT DO NOTHING`: the arbiter index is probed first, then the primary key,
then the foreign keys in order. -/
def insertInto (arbiter : Bool) (duplicateKey : Bool × Constraint)
    (references : List (Bool × Constraint)) (row : Tables R) : Except PgError (Unit × Tables R) :=
  if arbiter then .ok ((), {})
  else if duplicateKey.1 then .error (.uniqueViolation duplicateKey.2)
  else
    match references.find? (fun reference => !reference.1) with
    | some dangling => .error (.foreignKeyViolation dangling.2)
    | none => .ok ((), row)

def insertDocumentInto (visible : Tables R) (doc : DocRow) : Except PgError (Unit × Tables R) :=
  insertInto (visible.documents.any (fun d => d.contentHash = doc.contentHash))
    (visible.documents.any (fun d => d.id = doc.id), .documentsPkey)
    [(visible.namespaces.any (fun name => name = doc.ns), .documentsNamespaceFkey)]
    { documents := [doc] }

def insertChunkInto (visible : Tables R) (chunk : ChunkRow R) : Except PgError (Unit × Tables R) :=
  insertInto (visible.chunks.any (fun c => c.documentId = chunk.documentId ∧ c.ord = chunk.ord))
    (visible.chunks.any (fun c => c.id = chunk.id), .chunksPkey)
    [(visible.documents.any (fun d => d.id = chunk.documentId), .chunksDocumentIdFkey)]
    { chunks := [chunk] }

/-- A NULL `kind` is distinct from every other, so it never meets the arbiter. -/
def insertEntityInto (visible : Tables R) (row : EntityRow R) : Except PgError (Unit × Tables R) :=
  insertInto (visible.entities.any
      (fun e => e.ns = row.ns ∧ e.name = row.name ∧ e.kind = row.kind ∧ row.kind.isSome))
    (visible.entities.any (fun e => e.id = row.id), .entitiesPkey) []
    { entities := [row] }

def insertRelationshipInto (visible : Tables R) (row : RelRow R) :
    Except PgError (Unit × Tables R) :=
  insertInto (visible.relationships.any
      (fun r => r.ns = row.ns ∧ r.srcId = row.srcId ∧ r.dstId = row.dstId ∧ r.kind = row.kind))
    (visible.relationships.any (fun r => r.id = row.id), .relationshipsPkey)
    [(visible.entities.any (fun e => e.id = row.srcId), .relationshipsSrcIdFkey),
      (visible.entities.any (fun e => e.id = row.dstId), .relationshipsDstIdFkey)]
    { relationships := [row] }

def insertChunkEntityInto (visible : Tables R) (row : ChunkEntityRow R) :
    Except PgError (Unit × Tables R) :=
  insertInto (visible.chunkEntities.any
      (fun l => l.chunkId = row.chunkId ∧ l.entityId = row.entityId))
    (false, .chunkEntitiesChunkIdFkey)
    [(visible.chunks.any (fun c => c.id = row.chunkId), .chunkEntitiesChunkIdFkey),
      (visible.entities.any (fun e => e.id = row.entityId), .chunkEntitiesEntityIdFkey)]
    { chunkEntities := [row] }

/-- The value of a statement over the rows it sees and the rows it adds. -/
def evaluate [F32 R] (srv : Server R) (visible : Tables R) :
    (request : ClientCall R) → Except PgError (request.Value × Tables R)
  | .documentExistsByHash ns contentHash =>
      .ok (visible.documents.any (fun d => d.ns = ns ∧ d.contentHash = contentHash), {})
  | .insertDocument doc => insertDocumentInto visible doc
  | .insertChunk chunk => insertChunkInto visible chunk
  | .insertEntity row => insertEntityInto visible row
  | .insertRelationship row => insertRelationshipInto visible row
  | .insertChunkEntity row => insertChunkEntityInto visible row
  | .fuzzyMatchEntity ns name limit =>
      .ok (candidatesOf srv.similarity (srv.scan visible.entities) ns name limit, {})
  | .rollback => .ok ((), {})
  | .commit => .ok ((), {})

def execute [F32 R] (srv : Server R) (visible : Tables R) (request : ClientCall R) :
    Except PgError (request.Value × Tables R) :=
  match srv.refuses request with
  | some message => .error (.dataException message)
  | none => evaluate srv visible request

def rowOf : ClientCall R → Tables R
  | .insertDocument doc => { documents := [doc] }
  | .insertChunk chunk => { chunks := [chunk] }
  | .insertEntity row => { entities := [row] }
  | .insertRelationship row => { relationships := [row] }
  | .insertChunkEntity row => { chunkEntities := [row] }
  | _ => {}

theorem insertInto_added {arbiter : Bool} {duplicateKey : Bool × Constraint}
    {references : List (Bool × Constraint)} {row : Tables R} {outcome : Unit × Tables R}
    (inserted : insertInto arbiter duplicateKey references row = .ok outcome) :
    (arbiter = true ∧ outcome.2 = {}) ∨
      (arbiter = false ∧ duplicateKey.1 = false ∧ (∀ reference ∈ references, reference.1 = true) ∧
        outcome.2 = row) := by
  rw [insertInto] at inserted
  split at inserted
  · rename_i conflict
    cases inserted
    exact .inl ⟨conflict, rfl⟩
  · rename_i clear
    split at inserted
    · cases inserted
    · rename_i distinct
      split at inserted
      · cases inserted
      · rename_i resolved
        cases inserted
        refine .inr ⟨by simpa using clear, by simpa using distinct, ?_, rfl⟩
        intro reference member
        simpa using List.find?_eq_none.mp resolved reference member

theorem insertInto_failed {arbiter : Bool} {duplicateKey : Bool × Constraint}
    {references : List (Bool × Constraint)} {row : Tables R} {e : PgError}
    (failed : insertInto arbiter duplicateKey references row = .error e) :
    e = .uniqueViolation duplicateKey.2 ∨
      ∃ reference ∈ references, reference.1 = false ∧ e = .foreignKeyViolation reference.2 := by
  rw [insertInto] at failed
  split at failed
  · cases failed
  split at failed
  · cases failed
    exact .inl rfl
  split at failed
  · rename_i dangling found
    cases failed
    have unresolved := List.find?_some found
    exact .inr ⟨dangling, List.mem_of_find?_eq_some found, by simpa using unresolved, rfl⟩
  · cases failed

theorem insertInto_inserted {duplicateKey : Bool × Constraint}
    {references : List (Bool × Constraint)} {row : Tables R} (distinct : duplicateKey.1 = false)
    (resolved : ∀ reference ∈ references, reference.1 = true) :
    insertInto false duplicateKey references row = .ok ((), row) := by
  have none : references.find? (fun reference => !reference.1) = none := by
    apply List.find?_eq_none.mpr
    intro reference member
    simp [resolved reference member]
  simp [insertInto, distinct, none]

theorem document_inserts {visible : Tables R} {doc : DocRow}
    (free : ∀ d ∈ visible.documents, d.contentHash ≠ doc.contentHash)
    (distinct : ∀ d ∈ visible.documents, d.id ≠ doc.id) (created : doc.ns ∈ visible.namespaces) :
    insertDocumentInto visible doc = .ok ((), { documents := [doc] }) := by
  have arbiter : visible.documents.any (fun d => d.contentHash = doc.contentHash) = false := by
    simpa [List.any_eq_false] using free
  have key : visible.documents.any (fun d => d.id = doc.id) = false := by
    simpa [List.any_eq_false] using distinct
  have parent : visible.namespaces.any (fun name => name = doc.ns) = true := by
    simpa using created
  rw [insertDocumentInto, arbiter]
  exact insertInto_inserted key (by simpa using parent)

theorem document_drops {visible : Tables R} {doc : DocRow}
    (taken : ∃ d ∈ visible.documents, d.contentHash = doc.contentHash) :
    insertDocumentInto visible doc = .ok ((), {}) := by
  have arbiter : visible.documents.any (fun d => d.contentHash = doc.contentHash) = true := by
    simpa using taken
  rw [insertDocumentInto, arbiter]
  rfl

theorem chunk_clear {visible : Tables R} {chunk : ChunkRow R}
    (free : ∀ c ∈ visible.chunks, ¬ (c.documentId = chunk.documentId ∧ c.ord = chunk.ord))
    (distinct : ∀ c ∈ visible.chunks, c.id ≠ chunk.id) :
    insertChunkInto visible chunk = insertInto false (false, .chunksPkey)
      [(visible.documents.any (fun d => d.id = chunk.documentId), .chunksDocumentIdFkey)]
      { chunks := [chunk] } := by
  have arbiter : visible.chunks.any
      (fun c => c.documentId = chunk.documentId ∧ c.ord = chunk.ord) = false := by
    simpa [List.any_eq_false] using free
  have key : visible.chunks.any (fun c => c.id = chunk.id) = false := by
    simpa [List.any_eq_false] using distinct
  rw [insertChunkInto, arbiter, key]

theorem chunk_inserts {visible : Tables R} {chunk : ChunkRow R}
    (free : ∀ c ∈ visible.chunks, ¬ (c.documentId = chunk.documentId ∧ c.ord = chunk.ord))
    (distinct : ∀ c ∈ visible.chunks, c.id ≠ chunk.id)
    (parent : ∃ d ∈ visible.documents, d.id = chunk.documentId) :
    insertChunkInto visible chunk = .ok ((), { chunks := [chunk] }) := by
  have stored : visible.documents.any (fun d => d.id = chunk.documentId) = true := by
    simpa using parent
  rw [chunk_clear free distinct]
  exact insertInto_inserted rfl (by simpa using stored)

theorem chunk_orphaned {visible : Tables R} {chunk : ChunkRow R}
    (free : ∀ c ∈ visible.chunks, ¬ (c.documentId = chunk.documentId ∧ c.ord = chunk.ord))
    (distinct : ∀ c ∈ visible.chunks, c.id ≠ chunk.id)
    (orphan : ∀ d ∈ visible.documents, d.id ≠ chunk.documentId) :
    insertChunkInto visible chunk = .error (.foreignKeyViolation .chunksDocumentIdFkey) := by
  have absent : visible.documents.any (fun d => d.id = chunk.documentId) = false := by
    simpa [List.any_eq_false] using orphan
  rw [chunk_clear free distinct, absent]
  rfl

theorem evaluate_dangles [F32 R] {srv : Server R} {visible : Tables R} {request : ClientCall R}
    (failed : evaluate srv visible request = .error (.foreignKeyViolation .chunksDocumentIdFkey)) :
    ∃ chunk, request = .insertChunk chunk ∧
      visible.documents.any (fun d => d.id = chunk.documentId) = false := by
  cases request with
  | insertChunk chunk =>
      rcases insertInto_failed failed with unique | ⟨reference, member, unresolved, -⟩
      · cases unique
      · rw [List.mem_singleton.mp member] at unresolved
        exact ⟨chunk, rfl, unresolved⟩
  | insertDocument doc =>
      rcases insertInto_failed failed with unique | ⟨reference, member, -, same⟩
      · cases unique
      · rw [List.mem_singleton.mp member] at same
        cases same
  | insertEntity row =>
      rw [evaluate, insertEntityInto] at failed
      rcases insertInto_failed failed with unique | ⟨reference, member, -⟩
      · cases unique
      · cases member
  | insertRelationship row =>
      rcases insertInto_failed failed with unique | ⟨reference, member, -, same⟩
      · cases unique
      · simp only [List.mem_cons, List.not_mem_nil, or_false] at member
        rcases member with rfl | rfl
        · cases same
        · cases same
  | insertChunkEntity row =>
      rcases insertInto_failed failed with unique | ⟨reference, member, -, same⟩
      · cases unique
      · simp only [List.mem_cons, List.not_mem_nil, or_false] at member
        rcases member with rfl | rfl
        · cases same
        · cases same
  | documentExistsByHash ns contentHash => cases failed
  | fuzzyMatchEntity ns name limit => cases failed
  | rollback => cases failed
  | commit => cases failed

theorem execute_added [F32 R] {srv : Server R} {visible : Tables R} {request : ClientCall R}
    {outcome : request.Value × Tables R} (executed : execute srv visible request = .ok outcome) :
    outcome.2 = {} ∨ outcome.2 = rowOf request := by
  rw [execute] at executed
  split at executed
  · cases executed
  cases request with
  | documentExistsByHash ns contentHash =>
      cases executed
      exact .inl rfl
  | insertDocument doc => exact (insertInto_added executed).imp And.right (fun added => added.2.2.2)
  | insertChunk chunk => exact (insertInto_added executed).imp And.right (fun added => added.2.2.2)
  | insertEntity row =>
      rw [evaluate, insertEntityInto] at executed
      exact (insertInto_added executed).imp And.right (fun added => added.2.2.2)
  | insertRelationship row =>
      exact (insertInto_added executed).imp And.right (fun added => added.2.2.2)
  | insertChunkEntity row =>
      exact (insertInto_added executed).imp And.right (fun added => added.2.2.2)
  | fuzzyMatchEntity ns name limit =>
      cases executed
      exact .inl rfl
  | rollback =>
      cases executed
      exact .inl rfl
  | commit =>
      cases executed
      exact .inl rfl

end PgRaggraph

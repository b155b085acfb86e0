import PgRaggraph.Retrieval.Reachable

/-! What `namespace_drop` leaves of a namespace: the rows that no foreign key ties to it. -/

namespace PgRaggraph

variable {R J : Type}

def Tables.ownsLink (tables : Tables R) (name : String) (m : ChunkEntityRow R) : Bool :=
  tables.chunks.any (fun c => c.id == m.chunkId && c.ns == name) ||
    tables.entities.any (fun e => e.id == m.entityId && e.ns == name)

def withoutNamespace (name : String) (tables : Tables R) : Tables R where
  namespaces := tables.namespaces.filter (fun other => other != name)
  documents := tables.documents.filter (fun d => d.ns != name)
  chunks := tables.chunks.filter (fun c => c.ns != name)
  entities := tables.entities.filter (fun e => e.ns != name)
  relationships := tables.relationships.filter (fun r => r.ns != name)
  chunkEntities := tables.chunkEntities.filter (fun m => !tables.ownsLink name m)

/-- No entity and no relationship is in the namespace, and its chunks are those of its
documents. -/
structure Cascades (name : String) (tables : Tables R) : Prop where
  entities : ∀ e ∈ tables.entities, e.ns ≠ name
  relationships : ∀ r ∈ tables.relationships, r.ns ≠ name
  chunks : ∀ c ∈ tables.chunks,
    c.ns = name ↔ ∃ d ∈ tables.documents, d.id = c.documentId ∧ d.ns = name

theorem namespaceDrop_ok {name : String} {cascade : Bool} {tables dropped : Tables R}
    (drops : namespaceDrop name cascade tables = .ok dropped) :
    dropped = deleteNamespace name tables := by
  rw [namespaceDrop] at drops
  split at drops
  · cases drops
    rfl
  · split at drops
    · cases drops
    · cases drops
      rfl

section Rows

variable {name : String} {tables : Tables R}

theorem filter_agree {α : Type} {p q : α → Bool} {rows : List α}
    (same : rows.filter p = rows.filter q) : ∀ row ∈ rows, p row = q row := by
  intro row member
  have listed : (row ∈ rows ∧ p row = true) ↔ (row ∈ rows ∧ q row = true) := by
    rw [← List.mem_filter, ← List.mem_filter, same]
  rw [Bool.eq_iff_iff]
  exact ⟨fun holds => (listed.mp ⟨member, holds⟩).2, fun holds => (listed.mpr ⟨member, holds⟩).2⟩

theorem kept_all {α : Type} {p : α → Bool} {rows : List α} (same : rows = rows.filter p) :
    ∀ row ∈ rows, p row = true :=
  List.filter_eq_self.mp same.symm

theorem document_of_namespace (documentId : Uuid) :
    ((tables.documents.filter (fun d => d.ns == name)).any (fun d => d.id == documentId)) = true ↔
      ∃ d ∈ tables.documents, d.id = documentId ∧ d.ns = name := by
  rw [List.any_filter, List.any_eq_true]
  constructor
  · rintro ⟨d, member, both⟩
    rw [Bool.and_eq_true, beq_iff_eq, beq_iff_eq] at both
    exact ⟨d, member, both.2, both.1⟩
  · rintro ⟨d, member, same, inside⟩
    refine ⟨d, member, ?_⟩
    rw [Bool.and_eq_true, beq_iff_eq, beq_iff_eq]
    exact ⟨inside, same⟩

theorem Cascades.dropped_chunk (attached : Cascades name tables) {c : ChunkRow R}
    (member : c ∈ tables.chunks) :
    (tables.documents.filter (fun d => d.ns == name)).any (fun d => d.id == c.documentId) =
      (c.ns == name) := by
  rw [Bool.eq_iff_iff, document_of_namespace, beq_iff_eq]
  exact (attached.chunks c member).symm

theorem Cascades.dropped_link (attached : Cascades name tables) (m : ChunkEntityRow R) :
    (tables.chunks.filter (fun c => (tables.documents.filter (fun d => d.ns == name)).any
      (fun d => d.id == c.documentId))).any (fun c => c.id == m.chunkId) =
        tables.ownsLink name m := by
  have no_entity : tables.entities.any (fun e => e.id == m.entityId && e.ns == name) = false := by
    rw [List.any_eq_false]
    intro e member both
    rw [Bool.and_eq_true, beq_iff_eq, beq_iff_eq] at both
    exact attached.entities e member both.2
  have chunks := List.filter_congr (fun c member => attached.dropped_chunk member)
  rw [Tables.ownsLink, no_entity, Bool.or_false, chunks, List.any_filter]
  congr 1
  funext c
  exact Bool.and_comm _ _

/-- The cascade of the one DELETE removes a namespace exactly where it reaches every row. -/
theorem deleteNamespace_iff :
    deleteNamespace name tables = withoutNamespace name tables ↔ Cascades name tables := by
  constructor
  · intro removed
    have entities := kept_all (congrArg Tables.entities removed)
    have relationships := kept_all (congrArg Tables.relationships removed)
    have chunks := filter_agree (congrArg Tables.chunks removed)
    refine ⟨?_, ?_, ?_⟩
    · intro e member
      exact bne_iff_ne.mp (entities e member)
    · intro r member
      exact bne_iff_ne.mp (relationships r member)
    · intro c member
      rw [← document_of_namespace, ← beq_iff_eq (a := c.ns)]
      have same := chunks c member
      rw [bne, Bool.not_inj_iff] at same
      rw [same]
  · intro attached
    have chunks := List.filter_congr (fun c member =>
      congrArg not (attached.dropped_chunk (c := c) member))
    have links := List.filter_congr (l := tables.chunkEntities) (fun m _ =>
      congrArg not (attached.dropped_link m))
    ext : 1
    · rfl
    · rfl
    · exact chunks
    · exact (List.filter_eq_self.mpr (fun e member =>
        bne_iff_ne.mpr (attached.entities e member))).symm
    · exact (List.filter_eq_self.mpr (fun r member =>
        bne_iff_ne.mpr (attached.relationships r member))).symm
    · exact links

theorem mem_withoutNamespace {α : Type} {ns : α → String} {rows : List α} {row : α}
    (kept : row ∈ rows.filter (fun row => ns row != name)) : ns row ≠ name :=
  bne_iff_ne.mp (List.mem_filter.mp kept).2

theorem withoutNamespace_candidates [F32 R] (srv : Server R) (entity : String) (limit : Nat) :
    candidatesOf srv.similarity (srv.scan (withoutNamespace name tables).entities) name entity
      limit = [] := by
  rw [List.eq_nil_iff_forall_not_mem]
  intro c listed
  rcases candidate_stored listed with ⟨e, scanned, -, inside⟩
  exact mem_withoutNamespace ((srv.scan_perm _).mem_iff.mp scanned) inside

end Rows

structure Database.Lacks (db : Database R J) (ns : String) : Prop where
  chunks : ∀ c ∈ db.chunks, c.ns ≠ ns
  entities : ∀ e ∈ db.entities, e.ns ≠ ns

namespace Database.Lacks

variable {db db' : Database R J} {ns : String}

theorem no_rows {α : Type} {column : α → String} {rows : List α}
    (lacks : ∀ row ∈ rows, column row ≠ ns) : rows.filter (fun row => column row == ns) = [] := by
  rw [List.filter_eq_nil_iff]
  intro row member inside
  exact lacks row member (beq_iff_eq.mp inside)

theorem no_links (lacks : db.Lacks ns) : db.chunkEntities.filter (db.linksInto ns) = [] := by
  rw [List.filter_eq_nil_iff]
  intro m _ into
  rw [Database.linksInto, List.any_eq_true] at into
  rcases into with ⟨c, member, both⟩
  rw [Bool.and_eq_true, beq_iff_eq, beq_iff_eq] at both
  exact lacks.chunks c member both.2

theorem same (lacks : db.Lacks ns) (lacks' : db'.Lacks ns) : SameNamespace ns db db' where
  chunks := by
    rw [no_rows lacks.chunks, no_rows lacks'.chunks]
  entities := by
    rw [no_rows lacks.entities, no_rows lacks'.entities]
  links := by
    rw [lacks.no_links, lacks'.no_links]

variable [LinearOrder R] [F32 R] [IntCast R] {engine : Engine R J} {mode : Mode} {p : QueryArgs R J}

theorem query_same (lacks : db.Lacks p.ns) (lacks' : db'.Lacks p.ns) :
    query engine db mode p = query engine db' mode p := by
  apply query_alike (lacks.same lacks')
  intro seed chosen
  rcases List.mem_map.mp chosen with ⟨e, ranked, -⟩
  have hit := (Bag.orderBy_perm _ _).mem_iff.mp (List.mem_of_mem_take ranked)
  rcases List.mem_filter.mp hit with ⟨stored, both⟩
  rw [Bool.and_eq_true, beq_iff_eq] at both
  exact absurd both.1 (lacks.entities e stored)

end Database.Lacks

theorem recreated_lacks {tables : Tables R} {name : String} {metadata : Uuid → J}
    (keyed : (namespaceCreate name (withoutNamespace name tables)).Keyed) :
    (Stored.database ⟨namespaceCreate name (withoutNamespace name tables), metadata⟩
      keyed).Lacks name where
  chunks := by
    intro c listed
    rcases List.mem_map.mp listed with ⟨row, kept, rfl⟩
    exact bne_iff_ne.mp (List.mem_filter.mp kept).2
  entities := by
    intro e kept
    exact mem_withoutNamespace kept

section Dropped

variable [F32 R] {emptyObject : J} {s : Stored R J}
  {tables : Tables R} {name : String} {cascade : Bool}

theorem created_state (R : Type) [F32 R] (emptyObject : J) : Reachable emptyObject
    (⟨{ namespaces := ["default"] }, fun _ => emptyObject⟩ : Stored R J) :=
  .created

theorem Reachable.recreated (before : Reachable emptyObject s)
    (drops : namespaceDrop name cascade s.tables = .ok tables) :
    Reachable emptyObject ⟨namespaceCreate name tables, s.metadata⟩ :=
  .namespaceCreated (.namespaceDropped before name cascade drops) name

variable [IntCast R] [LinearOrder R]

/-- A drop removes the rows of its namespace and no others, so that the namespace starts empty when
it is created again, exactly where the foreign keys lead to all of them. -/
theorem namespace_drop_iff (before : Reachable emptyObject s)
    (drops : namespaceDrop name cascade s.tables = .ok tables) :
    (tables = withoutNamespace name s.tables ∧
      (∀ (engine : Engine R J) (mode : Mode) (p : QueryArgs R J), p.ns = name →
        query engine (Stored.database _ (before.recreated drops).keyed) mode p =
          query engine (Stored.database _ (created_state R emptyObject).keyed) mode p) ∧
      ∀ (srv : Server R) (entity : String) (limit : Nat),
        candidatesOf srv.similarity (srv.scan tables.entities) name entity limit = []) ↔
      Cascades name s.tables := by
  have dropped := namespaceDrop_ok drops
  constructor
  · rintro ⟨removed, -⟩
    rw [← deleteNamespace_iff, ← dropped]
    exact removed
  · intro attached
    have removed := deleteNamespace_iff.mpr attached
    rw [← dropped] at removed
    subst removed
    refine ⟨rfl, ?_, withoutNamespace_candidates⟩
    intro engine mode p same
    subst same
    apply Database.Lacks.query_same (recreated_lacks _)
    exact ⟨fun c listed => absurd listed List.not_mem_nil,
      fun e listed => absurd listed List.not_mem_nil⟩

end Dropped

section Leftover

/-- The entities of a dropped namespace stay. -/
theorem dropped_entities_stay : Reachable "{}" ownStored ∧
    ∃ tables, namespaceDrop "default" true ownStored.tables = .ok tables ∧
      ∃ e ∈ tables.entities, e.ns = "default" := by
  refine ⟨own_reachable, _, rfl, ?_⟩
  exact ⟨_, List.mem_cons_self, rfl⟩

def draftFixture : List (FixtureRecord Milli String) :=
  [.document { id := 200, ns := "", source := "draft", contentHash := "g", title := none },
    .chunk { id := 20, documentId := 200, ns := "", ord := 0, text := "one", tokenCount := 1,
             embedding := [⟨0⟩] } "{}",
    .chunk { id := 21, documentId := 200, ns := "", ord := 1, text := "two", tokenCount := 1,
             embedding := [⟨0⟩] } "{}"]

def draftStored : Stored Milli String where
  tables := namespaceCreate "drafts" ownTables ++
    { documents := [{ id := 200, ns := "drafts", source := "draft", contentHash := "g",
                      title := none }]
      chunks := [{ id := 20, documentId := 200, ns := "drafts", ord := 0, text := "one",
                   tokenCount := 1, embedding := [⟨0⟩] },
        { id := 21, documentId := 200, ns := "drafts", ord := 1, text := "two", tokenCount := 1,
          embedding := [⟨0⟩] }] }
  metadata := fun _ => "{}"

theorem draft_reachable : Reachable "{}" draftStored := by
  have loads : ∃ s, ingestExtracted (fun _ => none) draftFixture "drafts"
      ⟨namespaceCreate "drafts" ownTables, fun _ => "{}"⟩ = .ok (s, 3) ∧ s = draftStored := by
    refine ⟨_, rfl, congrArg (Stored.mk _) ?_⟩
    funext other
    simp only [Stored.addedChunk, Stored.added, ite_self]
  rcases loads with ⟨s, loads, rfl⟩
  exact .loaded (.namespaceCreated own_reachable "drafts") (fun _ => none) draftFixture "drafts" loads

/-- No entity names the namespace, so the cascade takes its document and both chunks, and leaves the
graph of `default`. -/
theorem namespace_drop_drafts :
    namespaceDrop "drafts" true draftStored.tables = .ok ownTables ∧
      ownTables = withoutNamespace "drafts" draftStored.tables := by
  have drops : namespaceDrop "drafts" true draftStored.tables = .ok ownTables := rfl
  have cascades : Cascades "drafts" draftStored.tables := by
    constructor <;> decide
  exact ⟨drops, ((namespace_drop_iff draft_reachable drops).mpr cascades).1⟩

end Leftover

end PgRaggraph

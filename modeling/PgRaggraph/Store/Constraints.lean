import PgRaggraph.Extension.NamespaceDrop

/-! The keys and foreign keys of `001_tables.sql`, and the statements and cascades that keep them. -/

namespace PgRaggraph

open Interaction

variable {R J : Type}

/-- The primary keys and the `UNIQUE` constraints. A NULL `kind` is distinct from every other. -/
structure Tables.Unique (tables : Tables R) : Prop where
  namespaces : tables.namespaces.Nodup
  documents : tables.documents.Pairwise (fun a b => a.id ≠ b.id ∧ a.contentHash ≠ b.contentHash)
  chunks : tables.chunks.Pairwise (fun a b =>
    a.id ≠ b.id ∧ ¬ (a.documentId = b.documentId ∧ a.ord = b.ord))
  entities : tables.entities.Pairwise (fun a b =>
    a.id ≠ b.id ∧ ¬ (a.ns = b.ns ∧ a.name = b.name ∧ a.kind = b.kind ∧ b.kind.isSome = true))
  relationships : tables.relationships.Pairwise (fun a b =>
    a.id ≠ b.id ∧ ¬ (a.ns = b.ns ∧ a.srcId = b.srcId ∧ a.dstId = b.dstId ∧ a.kind = b.kind))
  chunkEntities : tables.chunkEntities.Pairwise (fun a b =>
    ¬ (a.chunkId = b.chunkId ∧ a.entityId = b.entityId))

structure Tables.Referential (tables : Tables R) : Prop where
  documents : ∀ d ∈ tables.documents, d.ns ∈ tables.namespaces
  chunks : ∀ c ∈ tables.chunks, ∃ d ∈ tables.documents, d.id = c.documentId
  sources : ∀ r ∈ tables.relationships, ∃ e ∈ tables.entities, e.id = r.srcId
  targets : ∀ r ∈ tables.relationships, ∃ e ∈ tables.entities, e.id = r.dstId
  linkedChunks : ∀ l ∈ tables.chunkEntities, ∃ c ∈ tables.chunks, c.id = l.chunkId
  linkedEntities : ∀ l ∈ tables.chunkEntities, ∃ e ∈ tables.entities, e.id = l.entityId

structure Tables.Constrained (tables : Tables R) : Prop where
  unique : tables.Unique
  referential : tables.Referential

section Rows

theorem any_mem {α : Type} {p : α → Prop} [DecidablePred p] {rows : List α}
    (found : rows.any (fun row => decide (p row)) = true) : ∃ row ∈ rows, p row := by
  rcases List.any_eq_true.mp found with ⟨row, member, holds⟩
  exact ⟨row, member, of_decide_eq_true holds⟩

theorem none_mem {α : Type} {p : α → Prop} [DecidablePred p] {rows : List α}
    (nothing : rows.any (fun row => decide (p row)) = false) {row : α} (member : row ∈ rows) :
    ¬ p row :=
  fun holds => List.any_eq_false.mp nothing row member (decide_eq_true holds)

theorem exists_later {α : Type} {p : α → Prop} {rows more : List α} (found : ∃ row ∈ rows, p row) :
    ∃ row ∈ rows ++ more, p row := by
  rcases found with ⟨row, member, holds⟩
  exact ⟨row, List.mem_append_left _ member, holds⟩

theorem no_rows_beside {α β : Type} {p : α → β → Prop} {rows : List α} :
    ∀ a ∈ rows, ∀ b ∈ ([] : List β), p a b :=
  fun _ _ => List.forall_mem_nil _

end Rows

section Insert

variable {tables : Tables R}

theorem Tables.Referential.grown (referential : tables.Referential) {delta : Tables R}
    (documents : ∀ d ∈ delta.documents, d.ns ∈ tables.namespaces)
    (chunks : ∀ c ∈ delta.chunks, ∃ d ∈ tables.documents, d.id = c.documentId)
    (relationships : ∀ r ∈ delta.relationships, (∃ e ∈ tables.entities, e.id = r.srcId) ∧
      ∃ e ∈ tables.entities, e.id = r.dstId)
    (links : ∀ l ∈ delta.chunkEntities, (∃ c ∈ tables.chunks, c.id = l.chunkId) ∧
      ∃ e ∈ tables.entities, e.id = l.entityId) : (tables ++ delta).Referential where
  documents := by
    intro d member
    rcases List.mem_append.mp member with old | new
    · exact List.mem_append_left _ (referential.documents d old)
    · exact List.mem_append_left _ (documents d new)
  chunks := by
    intro c member
    rcases List.mem_append.mp member with old | new
    · exact exists_later (referential.chunks c old)
    · exact exists_later (chunks c new)
  sources := by
    intro r member
    rcases List.mem_append.mp member with old | new
    · exact exists_later (referential.sources r old)
    · exact exists_later (relationships r new).1
  targets := by
    intro r member
    rcases List.mem_append.mp member with old | new
    · exact exists_later (referential.targets r old)
    · exact exists_later (relationships r new).2
  linkedChunks := by
    intro l member
    rcases List.mem_append.mp member with old | new
    · exact exists_later (referential.linkedChunks l old)
    · exact exists_later (links l new).1
  linkedEntities := by
    intro l member
    rcases List.mem_append.mp member with old | new
    · exact exists_later (referential.linkedEntities l old)
    · exact exists_later (links l new).2

theorem Tables.Unique.grown (unique : tables.Unique) {delta : Tables R} (alone : delta.Unique)
    (namespaces : delta.namespaces = [])
    (documents : ∀ a ∈ tables.documents, ∀ b ∈ delta.documents,
      a.id ≠ b.id ∧ a.contentHash ≠ b.contentHash)
    (chunks : ∀ a ∈ tables.chunks, ∀ b ∈ delta.chunks,
      a.id ≠ b.id ∧ ¬ (a.documentId = b.documentId ∧ a.ord = b.ord))
    (entities : ∀ a ∈ tables.entities, ∀ b ∈ delta.entities,
      a.id ≠ b.id ∧ ¬ (a.ns = b.ns ∧ a.name = b.name ∧ a.kind = b.kind ∧ b.kind.isSome = true))
    (relationships : ∀ a ∈ tables.relationships, ∀ b ∈ delta.relationships,
      a.id ≠ b.id ∧ ¬ (a.ns = b.ns ∧ a.srcId = b.srcId ∧ a.dstId = b.dstId ∧ a.kind = b.kind))
    (chunkEntities : ∀ a ∈ tables.chunkEntities, ∀ b ∈ delta.chunkEntities,
      ¬ (a.chunkId = b.chunkId ∧ a.entityId = b.entityId)) : (tables ++ delta).Unique where
  namespaces := by
    rw [append_namespaces, namespaces, List.append_nil]
    exact unique.namespaces
  documents := List.pairwise_append.mpr ⟨unique.documents, alone.documents, documents⟩
  chunks := List.pairwise_append.mpr ⟨unique.chunks, alone.chunks, chunks⟩
  entities := List.pairwise_append.mpr ⟨unique.entities, alone.entities, entities⟩
  relationships := List.pairwise_append.mpr
    ⟨unique.relationships, alone.relationships, relationships⟩
  chunkEntities := List.pairwise_append.mpr
    ⟨unique.chunkEntities, alone.chunkEntities, chunkEntities⟩

theorem rowOf_unique (request : ClientCall R) : (rowOf request).Unique := by
  cases request with
  | _ => constructor <;> simp [rowOf]

variable {outcome : Unit × Tables R}

theorem insertDocument_constrained (constrained : tables.Constrained) {doc : DocRow}
    (inserted : insertDocumentInto tables doc = .ok outcome) : (tables ++ outcome.2).Constrained := by
  rcases insertInto_added inserted with ⟨-, dropped⟩ | ⟨clear, distinct, present, stored⟩
  · rw [dropped, Tables.append_empty]
    exact constrained
  · have fresh : ∀ a ∈ tables.documents, ∀ b ∈ [doc], a.id ≠ b.id ∧ a.contentHash ≠ b.contentHash := by
      intro a member b new
      rw [List.mem_singleton.mp new]
      exact ⟨none_mem distinct member, none_mem clear member⟩
    have registered : ∀ d ∈ [doc], d.ns ∈ tables.namespaces := by
      intro d new
      rcases any_mem (present _ List.mem_cons_self) with ⟨name, known, same⟩
      rw [List.mem_singleton.mp new, ← same]
      exact known
    rw [stored]
    exact ⟨constrained.unique.grown (rowOf_unique (.insertDocument doc)) rfl fresh
        no_rows_beside no_rows_beside no_rows_beside no_rows_beside,
      constrained.referential.grown registered (List.forall_mem_nil _) (List.forall_mem_nil _)
        (List.forall_mem_nil _)⟩

theorem insertChunk_constrained (constrained : tables.Constrained) {chunk : ChunkRow R}
    (inserted : insertChunkInto tables chunk = .ok outcome) : (tables ++ outcome.2).Constrained := by
  rcases insertInto_added inserted with ⟨-, dropped⟩ | ⟨clear, distinct, present, stored⟩
  · rw [dropped, Tables.append_empty]
    exact constrained
  · have fresh : ∀ a ∈ tables.chunks, ∀ b ∈ [chunk],
        a.id ≠ b.id ∧ ¬ (a.documentId = b.documentId ∧ a.ord = b.ord) := by
      intro a member b new
      rw [List.mem_singleton.mp new]
      exact ⟨none_mem distinct member, none_mem clear member⟩
    have attached : ∀ c ∈ [chunk], ∃ d ∈ tables.documents, d.id = c.documentId := by
      intro c new
      rw [List.mem_singleton.mp new]
      exact any_mem (present _ List.mem_cons_self)
    rw [stored]
    exact ⟨constrained.unique.grown (rowOf_unique (.insertChunk chunk)) rfl no_rows_beside fresh
        no_rows_beside no_rows_beside no_rows_beside,
      constrained.referential.grown (List.forall_mem_nil _) attached (List.forall_mem_nil _)
        (List.forall_mem_nil _)⟩

theorem insertEntity_constrained (constrained : tables.Constrained) {row : EntityRow R}
    (inserted : insertEntityInto tables row = .ok outcome) : (tables ++ outcome.2).Constrained := by
  rw [insertEntityInto] at inserted
  rcases insertInto_added inserted with ⟨-, dropped⟩ | ⟨clear, distinct, -, stored⟩
  · rw [dropped, Tables.append_empty]
    exact constrained
  · have fresh : ∀ a ∈ tables.entities, ∀ b ∈ [row], a.id ≠ b.id ∧
        ¬ (a.ns = b.ns ∧ a.name = b.name ∧ a.kind = b.kind ∧ b.kind.isSome = true) := by
      intro a member b new
      rw [List.mem_singleton.mp new]
      exact ⟨none_mem distinct member, none_mem clear member⟩
    rw [stored]
    exact ⟨constrained.unique.grown (rowOf_unique (.insertEntity row)) rfl no_rows_beside
        no_rows_beside fresh no_rows_beside no_rows_beside,
      constrained.referential.grown (List.forall_mem_nil _) (List.forall_mem_nil _)
        (List.forall_mem_nil _) (List.forall_mem_nil _)⟩

theorem insertRelationship_constrained (constrained : tables.Constrained) {row : RelRow R}
    (inserted : insertRelationshipInto tables row = .ok outcome) :
    (tables ++ outcome.2).Constrained := by
  rcases insertInto_added inserted with ⟨-, dropped⟩ | ⟨clear, distinct, present, stored⟩
  · rw [dropped, Tables.append_empty]
    exact constrained
  · have fresh : ∀ a ∈ tables.relationships, ∀ b ∈ [row], a.id ≠ b.id ∧
        ¬ (a.ns = b.ns ∧ a.srcId = b.srcId ∧ a.dstId = b.dstId ∧ a.kind = b.kind) := by
      intro a member b new
      rw [List.mem_singleton.mp new]
      exact ⟨none_mem distinct member, none_mem clear member⟩
    have ends : ∀ r ∈ [row], (∃ e ∈ tables.entities, e.id = r.srcId) ∧
        ∃ e ∈ tables.entities, e.id = r.dstId := by
      intro r new
      rw [List.mem_singleton.mp new]
      exact ⟨any_mem (present _ List.mem_cons_self),
        any_mem (present _ (List.mem_cons_of_mem _ List.mem_cons_self))⟩
    rw [stored]
    exact ⟨constrained.unique.grown (rowOf_unique (.insertRelationship row)) rfl no_rows_beside
        no_rows_beside no_rows_beside fresh no_rows_beside,
      constrained.referential.grown (List.forall_mem_nil _) (List.forall_mem_nil _) ends
        (List.forall_mem_nil _)⟩

theorem insertChunkEntity_constrained (constrained : tables.Constrained) {row : ChunkEntityRow R}
    (inserted : insertChunkEntityInto tables row = .ok outcome) :
    (tables ++ outcome.2).Constrained := by
  rcases insertInto_added inserted with ⟨-, dropped⟩ | ⟨clear, -, present, stored⟩
  · rw [dropped, Tables.append_empty]
    exact constrained
  · have fresh : ∀ a ∈ tables.chunkEntities, ∀ b ∈ [row],
        ¬ (a.chunkId = b.chunkId ∧ a.entityId = b.entityId) := by
      intro a member b new
      rw [List.mem_singleton.mp new]
      exact none_mem clear member
    have ends : ∀ l ∈ [row], (∃ c ∈ tables.chunks, c.id = l.chunkId) ∧
        ∃ e ∈ tables.entities, e.id = l.entityId := by
      intro l new
      rw [List.mem_singleton.mp new]
      exact ⟨any_mem (present _ List.mem_cons_self),
        any_mem (present _ (List.mem_cons_of_mem _ List.mem_cons_self))⟩
    rw [stored]
    exact ⟨constrained.unique.grown (rowOf_unique (.insertChunkEntity row)) rfl no_rows_beside
        no_rows_beside no_rows_beside no_rows_beside fresh,
      constrained.referential.grown (List.forall_mem_nil _) (List.forall_mem_nil _)
        (List.forall_mem_nil _) ends⟩

end Insert

section Delete

variable {tables : Tables R}

theorem Tables.Unique.filtered (unique : tables.Unique) {kept : Tables R}
    (namespaces : kept.namespaces.Sublist tables.namespaces)
    (documents : kept.documents.Sublist tables.documents)
    (chunks : kept.chunks.Sublist tables.chunks) (entities : kept.entities = tables.entities)
    (relationships : kept.relationships = tables.relationships)
    (chunkEntities : kept.chunkEntities.Sublist tables.chunkEntities) : kept.Unique where
  namespaces := unique.namespaces.sublist namespaces
  documents := unique.documents.sublist documents
  chunks := unique.chunks.sublist chunks
  entities := entities ▸ unique.entities
  relationships := relationships ▸ unique.relationships
  chunkEntities := unique.chunkEntities.sublist chunkEntities

theorem deleteDocuments_constrained (constrained : tables.Constrained) (gone : DocRow → Bool) :
    (deleteDocuments gone tables).Constrained where
  unique := constrained.unique.filtered (List.Sublist.refl _) List.filter_sublist List.filter_sublist
    rfl rfl List.filter_sublist
  referential := by
    have referential := constrained.referential
    refine ⟨?_, ?_, referential.sources, referential.targets, ?_, ?_⟩
    · intro d member
      exact referential.documents d (List.mem_of_mem_filter member)
    · intro c member
      rcases List.mem_filter.mp member with ⟨old, kept⟩
      rcases referential.chunks c old with ⟨d, stored, same⟩
      refine ⟨d, List.mem_filter.mpr ⟨stored, ?_⟩, same⟩
      by_contra deleted
      have cascades : (tables.documents.filter gone).any (fun d => d.id == c.documentId) = true := by
        refine List.any_eq_true.mpr ⟨d, List.mem_filter.mpr ⟨stored, by simpa using deleted⟩, ?_⟩
        simpa using same
      rw [cascades] at kept
      cases kept
    · intro l member
      rcases List.mem_filter.mp member with ⟨old, kept⟩
      rcases referential.linkedChunks l old with ⟨c, stored, same⟩
      refine ⟨c, List.mem_filter.mpr ⟨stored, ?_⟩, same⟩
      by_contra deleted
      have cascades : (tables.chunks.filter (fun c =>
          (tables.documents.filter gone).any (fun d => d.id == c.documentId))).any
            (fun c => c.id == l.chunkId) = true := by
        refine List.any_eq_true.mpr ⟨c, List.mem_filter.mpr ⟨stored, by simpa using deleted⟩, ?_⟩
        simpa using same
      rw [cascades] at kept
      cases kept
    · intro l member
      exact referential.linkedEntities l (List.mem_of_mem_filter member)

theorem deleteNamespace_constrained (constrained : tables.Constrained) (name : String) :
    (deleteNamespace name tables).Constrained := by
  have kept := deleteDocuments_constrained constrained (fun d => d.ns == name)
  refine ⟨kept.unique.filtered List.filter_sublist (List.Sublist.refl _) (List.Sublist.refl _) rfl rfl
    (List.Sublist.refl _), ?_⟩
  refine { kept.referential with documents := ?_ }
  intro d member
  rcases List.mem_filter.mp member with ⟨stored, other⟩
  refine List.mem_filter.mpr ⟨constrained.referential.documents d stored, ?_⟩
  simpa using other

theorem namespaceCreate_constrained (constrained : tables.Constrained) (name : String) :
    (namespaceCreate name tables).Constrained := by
  refine ⟨{ constrained.unique with namespaces := ?_ },
    { constrained.referential with documents := ?_ }⟩
  · rw [namespaceCreate]
    split
    · exact constrained.unique.namespaces
    · rename_i absent
      exact List.nodup_append.mpr ⟨constrained.unique.namespaces, List.nodup_singleton _, by
        intro other member new only
        rw [List.mem_singleton.mp only]
        exact fun same => absent (same ▸ member)⟩
  · intro d member
    have known := constrained.referential.documents d member
    rw [namespaceCreate]
    split
    · exact known
    · exact List.mem_append_left _ known

end Delete

section Statements

variable [F32 R] {srv : Server R} {env : Environment R}

theorem evaluate_constrained {visible : Tables R} (constrained : visible.Constrained)
    {request : ClientCall R} {outcome : request.Value × Tables R}
    (evaluated : evaluate srv visible request = .ok outcome) : (visible ++ outcome.2).Constrained := by
  have unread : (visible ++ ({} : Tables R)).Constrained := by
    rw [Tables.append_empty]
    exact constrained
  cases request with
  | insertDocument doc => exact insertDocument_constrained constrained evaluated
  | insertChunk chunk => exact insertChunk_constrained constrained evaluated
  | insertEntity row => exact insertEntity_constrained constrained evaluated
  | insertRelationship row => exact insertRelationship_constrained constrained evaluated
  | insertChunkEntity row => exact insertChunkEntity_constrained constrained evaluated
  | documentExistsByHash ns contentHash =>
      cases evaluated
      exact unread
  | fuzzyMatchEntity ns name limit =>
      cases evaluated
      exact unread
  | rollback =>
      cases evaluated
      exact unread
  | commit =>
      cases evaluated
      exact unread

theorem statement_constrained {committed : Tables R} {tx after : Transaction R}
    {request : ClientCall R} {value : request.Value}
    (constrained : (committed ++ tx.own).Constrained)
    (executed : statement srv committed tx request = .ok (value, after)) :
    (committed ++ after.own).Constrained := by
  by_cases silent : request.silent = true
  · rw [statement, if_pos silent] at executed
    rcases map_ok executed with ⟨outcome, -, same⟩
    cases same
    exact constrained
  · rw [Bool.not_eq_true] at silent
    rcases statement_succeeds silent executed with ⟨-, -, delta, evaluated, rfl⟩
    have grown := evaluate_constrained constrained evaluated
    rwa [Tables.append_assoc] at grown

theorem handler_constrained {committed : Tables R} {request : Call R} {session after : Session R}
    {answer : request.Answer} (constrained : (committed ++ session.tx.own).Constrained)
    (answered : Adapter.spi.handler srv env committed request session = .ok (answer, after)) :
    (committed ++ after.tx.own).Constrained := by
  cases request with
  | env request =>
      cases answered
      exact constrained
  | client request =>
      simp only [Adapter.handler] at answered
      split at answered
      · rename_i reply tx performed
        cases answered
        rcases spi_answers performed with ⟨value, rfl, executed⟩
        exact statement_constrained constrained executed
      · cases answered

theorem runClaimed_constrained {tables : Tables R} {rt : Runtime} {job : ClaimedJob}
    (constrained : tables.Constrained) : (runClaimed rt srv env tables job).2.Constrained := by
  have start : (tables ++ ({} : Session R).tx.own).Constrained := by
    rw [Tables.append_empty]
    exact constrained
  rw [runClaimed]
  rcases ended : spiRun rt srv env tables (buildRequest job) with e | ⟨result, session⟩
  · exact constrained
  · exact Program.run_invariant
      (fun request before answer after holds answered => handler_constrained holds answered) _ start
      ended

end Statements

section Load

variable {ns : String} {s t : Stored R J} {record : FixtureRecord R J}

theorem loadRecord_constrained (constrained : s.tables.Constrained)
    (loads : loadRecord ns s record = .ok t) : t.tables.Constrained := by
  cases record with
  | document doc =>
      rcases map_ok loads with ⟨outcome, inserted, rfl⟩
      exact insertDocument_constrained constrained inserted
  | chunk chunk metadata =>
      rcases map_ok loads with ⟨outcome, inserted, rfl⟩
      exact insertChunk_constrained constrained inserted
  | entity row =>
      rcases map_ok loads with ⟨outcome, inserted, rfl⟩
      exact insertEntity_constrained constrained inserted
  | relationship row =>
      rcases map_ok loads with ⟨outcome, inserted, rfl⟩
      exact insertRelationship_constrained constrained inserted
  | chunkEntity row =>
      rcases map_ok loads with ⟨outcome, inserted, rfl⟩
      exact insertChunkEntity_constrained constrained inserted

theorem ingestExtracted_constrained {refuses : FixtureRecord R J → Option String}
    {records : List (FixtureRecord R J)} {count : Nat} (constrained : s.tables.Constrained)
    (loads : ingestExtracted refuses records ns s = .ok (t, count)) : t.tables.Constrained := by
  rcases map_ok loads with ⟨last, folded, same⟩
  cases same
  refine foldlM_invariant (fun u : Stored R J => u.tables.Constrained) ?_ constrained folded
  intro u record v holds line
  rw [loadLine] at line
  split at line
  · cases line
  · exact loadRecord_constrained holds line

end Load

/-- What the functions of the extension lead to meets every constraint. -/
theorem Reachable.constrained [F32 R] {emptyObject : J} {s : Stored R J}
    (reachable : Reachable emptyObject s) : s.tables.Constrained := by
  induction reachable with
  | created =>
      refine ⟨⟨List.nodup_singleton _, .nil, .nil, .nil, .nil, .nil⟩, ?_⟩
      constructor <;> exact nofun
  | ingested before rt srv env job ih => exact runClaimed_constrained ih
  | loaded before refuses records ns loads ih => exact ingestExtracted_constrained ih loads
  | namespaceCreated before name ih => exact namespaceCreate_constrained ih name
  | namespaceDropped before name cascade drops ih =>
      rw [namespaceDrop_ok drops]
      exact deleteNamespace_constrained ih name
  | documentDeleted before id ih => exact deleteDocuments_constrained ih _

end PgRaggraph

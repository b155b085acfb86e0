import PgRaggraph.Core.Samples
import PgRaggraph.Store.Adapters

/-! Whether the entity that `resolve_or_insert_entity` returns is stored. -/

namespace PgRaggraph

open Interaction Interaction.Fallible

variable {R : Type} [F32 R]

def newEntity (id : Uuid) (ns name : String) (kind : Option String) (incomingEmb : List R)
    (description : Option String) : EntityRow R :=
  { id := id, ns := ns, name := name, kind := kind, nameEmb := some incomingEmb,
    description := description }

def searchHits (srv : Server R) (visible : Tables R) (ns name : String) :
    List (EntityCandidate R) :=
  candidatesOf srv.similarity (srv.scan visible.entities) ns name trgmCandidateLimit

def IsStored (visible : Tables R) (ns : String) (id : Uuid) : Prop :=
  ∃ e ∈ visible.entities, e.id = id ∧ e.ns = ns

instance (visible : Tables R) (ns : String) (id : Uuid) : Decidable (IsStored visible ns id) :=
  inferInstanceAs (Decidable (∃ e ∈ visible.entities, e.id = id ∧ e.ns = ns))

/-- One of the resolver's two statements is refused, so it returns no identifier. -/
def ResolverRefused (srv : Server R) (tx : Transaction R) (row : EntityRow R) : Prop :=
  tx.aborted ≠ none ∨
    (∃ message, srv.refuses (.fuzzyMatchEntity row.ns row.name trgmCandidateLimit) = some message) ∨
    ∃ message, srv.refuses (.insertEntity row) = some message

def KeyFree (visible : Tables R) (ns name : String) (kind : Option String) : Prop :=
  kind = none ∨ ∀ e ∈ visible.entities, ¬ (e.ns = ns ∧ e.name = name ∧ e.kind = kind)

variable {adapter : Adapter} {srv : Server R} {env : Environment R} {committed : Tables R}
  {session : Session R} {ns name : String} {kind : Option String} {incomingEmb : List R}
  {description : Option String}

theorem search_hit_stored {visible : Tables R} {c : EntityCandidate R}
    (member : c ∈ searchHits srv visible ns name) : IsStored visible ns c.id := by
  obtain ⟨e, scanned, same⟩ := candidate_stored member
  exact ⟨e, (srv.scan_perm visible.entities).mem_iff.mp scanned, same⟩

omit [F32 R] in
theorem keyFree_iff {visible : Tables R} :
    KeyFree visible ns name kind ↔
      visible.entities.any (fun e => e.ns = ns ∧ e.name = name ∧ e.kind = kind ∧ kind.isSome) =
        false := by
  rw [KeyFree, List.any_eq_false]
  cases kind with
  | none => simp
  | some label => simp

omit [F32 R] in
theorem insertion_dropped {visible : Tables R} {row : EntityRow R}
    (taken : ¬ KeyFree visible row.ns row.name row.kind) :
    insertEntityInto visible row = .ok ((), {}) := by
  rw [keyFree_iff, Bool.not_eq_false] at taken
  rw [insertEntityInto, insertInto, if_pos taken]

theorem search_answered {tx after : Transaction R} {cands : List (EntityCandidate R)}
    (performed : adapter.perform srv committed tx (.fuzzyMatchEntity ns name trgmCandidateLimit) =
      .ok (.ok cands, after)) :
    tx.aborted = none ∧ srv.refuses (.fuzzyMatchEntity ns name trgmCandidateLimit) = none ∧
      cands = searchHits srv (committed ++ tx.own) ns name ∧ after = tx := by
  obtain ⟨running, accepted, delta, evaluated, rfl⟩ :=
    statement_succeeds rfl (perform_ok.mp performed)
  cases evaluated
  rw [Tables.append_empty]
  exact ⟨running, accepted, rfl, rfl⟩

theorem insertion_answered {tx after : Transaction R} {row : EntityRow R}
    (performed : adapter.perform srv committed tx (.insertEntity row) = .ok (.ok (), after)) :
    tx.aborted = none ∧ srv.refuses (.insertEntity row) = none ∧
      (KeyFree (committed ++ tx.own) row.ns row.name row.kind →
        row ∈ (committed ++ after.own).entities) := by
  obtain ⟨running, accepted, delta, evaluated, rfl⟩ :=
    statement_succeeds rfl (perform_ok.mp performed)
  refine ⟨running, accepted, fun free => ?_⟩
  rw [evaluate, insertEntityInto] at evaluated
  rcases insertInto_added evaluated with ⟨conflict, -⟩ | ⟨-, -, -, added⟩
  · rw [keyFree_iff.mp free] at conflict
    cases conflict
  · have added : delta = { entities := [row] } := added
    simp [added]

theorem wp_resolver (fresh : ∀ e ∈ (committed ++ session.tx.own).entities,
      e.id ≠ env.newUuid session.tick) :
    Program.wp (adapter.handler srv env committed).spec
        (resolveOrInsertEntity ns name kind incomingEmb description).run session
        (fun result after => ∀ id, result = .ok id → IsStored (committed ++ after.tx.own) ns id) ↔
      ResolverRefused srv session.tx
          (newEntity (env.newUuid session.tick) ns name kind incomingEmb description) ∨
        (∃ c ∈ searchHits srv (committed ++ session.tx.own) ns name, clears incomingEmb c = true) ∨
        KeyFree (committed ++ session.tx.own) ns name kind := by
  rw [resolveOrInsertEntity, Fallible.wp_bind, wp_fuzzyMatchEntity, adapter_spec_client]
  constructor
  · intro holds
    by_contra stuck
    simp only [not_or, ResolverRefused] at stuck
    obtain ⟨⟨running, searchable, insertable⟩, unmerged, taken⟩ := stuck
    have running : session.tx.aborted = none := by simpa using running
    have accepted : srv.refuses (.fuzzyMatchEntity ns name trgmCandidateLimit) = none :=
      Option.eq_none_iff_forall_ne_some.mpr (fun message refused => searchable ⟨message, refused⟩)
    have searched : adapter.perform srv committed session.tx
        (.fuzzyMatchEntity ns name trgmCandidateLimit) =
          .ok (.ok (searchHits srv (committed ++ session.tx.own) ns name), session.tx) := by
      rw [perform_ok, statement_runs rfl running accepted]
      simp [evaluate, Except.map, searchHits]
    have minted := holds _ _ searched
    have none_ : (searchHits srv (committed ++ session.tx.own) ns name).find?
        (clears incomingEmb) = none := by
      apply List.find?_eq_none.mpr
      intro c member merges
      exact unmerged ⟨c, member, merges⟩
    simp only [none_, Fallible.wp_bind, wp_lift, wp_newUuid, wp_insertEntity, adapter_spec_env,
      adapter_spec_client] at minted
    have inserted : adapter.perform srv committed session.tx (.insertEntity
        (newEntity (env.newUuid session.tick) ns name kind incomingEmb description)) =
          .ok (.ok (), session.tx) := by
      rw [perform_ok, statement_runs rfl running (Option.eq_none_iff_forall_ne_some.mpr
        (fun message refused => insertable ⟨message, refused⟩)), evaluate, insertion_dropped taken]
      simp only [Except.map, Tables.append_empty]
    obtain ⟨e, stored, same, -⟩ := minted _ _ inserted _ rfl
    exact fresh e stored same
  · intro condition answer tx performed
    rcases answer with e | cands
    · intro id failed
      cases failed
    obtain ⟨running, searchable, rfl, rfl⟩ := search_answered performed
    dsimp only
    split
    · rename_i c found
      intro id merged
      cases merged
      exact search_hit_stored (List.mem_of_find?_eq_some found)
    · rename_i unmerged
      simp only [Fallible.wp_bind, wp_lift, wp_newUuid, wp_insertEntity, adapter_spec_env,
        adapter_spec_client]
      intro answer after inserted
      rcases answer with e | _
      · intro id failed
        cases failed
      obtain ⟨-, insertable, placed⟩ := insertion_answered inserted
      rcases condition with (aborted | ⟨message, refused⟩ | ⟨message, refused⟩) |
        ⟨c, member, merges⟩ | free
      · exact absurd running aborted
      · cases searchable.symm.trans refused
      · cases insertable.symm.trans refused
      · exact absurd merges (List.find?_eq_none.mp unmerged c member)
      · intro id returned
        cases returned
        exact ⟨_, placed free, rfl, rfl⟩

/-- The resolver's identifier names a stored row of its namespace exactly when it merges, the
unique key is free, or a statement is refused. -/
theorem resolver_returns_stored_iff (adapter : Adapter) (srv : Server R) (env : Environment R)
    (committed : Tables R) (session : Session R) (ns name : String) (kind : Option String)
    (incomingEmb : List R) (description : Option String)
    (fresh : ∀ e ∈ (committed ++ session.tx.own).entities, e.id ≠ env.newUuid session.tick) :
    (∀ id after, Program.run (adapter.handler srv env committed)
        (resolveOrInsertEntity ns name kind incomingEmb description).run session =
          .ok (.ok id, after) → IsStored (committed ++ after.tx.own) ns id) ↔
      ResolverRefused srv session.tx
          (newEntity (env.newUuid session.tick) ns name kind incomingEmb description) ∨
        (∃ c ∈ searchHits srv (committed ++ session.tx.own) ns name, clears incomingEmb c = true) ∨
        KeyFree (committed ++ session.tx.own) ns name kind := by
  rw [← wp_resolver fresh, Program.wp_run]
  constructor
  · intro holds result after finished id returned
    cases returned
    exact holds id after finished
  · intro holds id after finished
    exact holds _ _ finished id rfl

def loadedWithoutEmbedding : Tables Milli where
  namespaces := ["docs"]
  documents := [{ id := 1, ns := "docs", source := "a.md", contentHash := "00", title := none }]
  chunks :=
    [{ id := 2, documentId := 1, ns := "docs", ord := 0, text := "acme", tokenCount := 1,
       embedding := unitVector }]
  entities :=
    [{ id := 3, ns := "docs", name := "acme", kind := some "org", nameEmb := none,
       description := none }]

def resolveAcme (adapter : Adapter) :
    Except PgError (CoreResult Uuid × Session Milli) :=
  Program.run (adapter.handler (Server.plain Milli) (.scripted 100 fun _ => .ok {})
    loadedWithoutEmbedding) (resolveOrInsertEntity "docs" "acme" (some "org") unitVector none).run {}

/-- The only candidate has no embedding, the insert meets its key, and the minted identifier
names no row: the link that uses it violates its foreign key. -/
theorem resolver_returns_dangling :
    (∃ after, resolveAcme .spi = .ok (.ok 100, after) ∧
      ¬ IsStored (loadedWithoutEmbedding ++ after.tx.own) "docs" 100) ∧
    (∃ after, resolveAcme .tokio = .ok (.ok 100, after) ∧
      ¬ IsStored (loadedWithoutEmbedding ++ after.tx.own) "docs" 100) ∧
    insertChunkEntityInto loadedWithoutEmbedding { chunkId := 2, entityId := 100, confidence := 0 } =
      .error (.foreignKeyViolation .chunkEntitiesEntityIdFkey) :=
  ⟨⟨_, rfl, by decide⟩, ⟨_, rfl, by decide⟩, rfl⟩

theorem resolver_returns_stored_sample :
    (∀ id after, resolveAcme .tokio = .ok (.ok id, after) →
        IsStored (loadedWithoutEmbedding ++ after.tx.own) "docs" id) ↔
      ResolverRefused (Server.plain Milli) {}
          (newEntity 100 "docs" "acme" (some "org") unitVector none) ∨
        (∃ c ∈ searchHits (Server.plain Milli) loadedWithoutEmbedding "docs" "acme",
          clears unitVector c = true) ∨
        KeyFree loadedWithoutEmbedding "docs" "acme" (some "org") := by
  have fresh : ∀ e ∈ (loadedWithoutEmbedding ++ ({} : Tables Milli)).entities,
      e.id ≠ (Environment.scripted 100 fun _ => .ok {}).newUuid 0 := by
    decide
  have general := resolver_returns_stored_iff .tokio (Server.plain Milli)
    (.scripted 100 fun _ => .ok {}) loadedWithoutEmbedding {} "docs" "acme" (some "org")
    unitVector none fresh
  rw [Tables.append_empty] at general
  exact general

end PgRaggraph

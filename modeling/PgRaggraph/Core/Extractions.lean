import PgRaggraph.Core.FakeRuns
import PgRaggraph.Core.Samples

/-! What `persist_chunk_extraction` adds to `FakePgClient`: its links and its relationships. -/

namespace PgRaggraph

open Interaction Interaction.Fallible

variable {R : Type}

structure ResolvedEntity (R : Type) where
  entity : ExtractedEntity R
  nameEmb : List R
  id : Uuid

def lastId (placed : List (ResolvedEntity R)) (name : String) : Option Uuid :=
  (placed.reverse.find? (fun m => name == m.entity.name)).map (·.id)

def namesBoth (entities : List (ExtractedEntity R)) (rel : ExtractedRelationship R) : Bool :=
  entities.any (fun ent => rel.srcName == ent.name) &&
    entities.any (fun ent => rel.dstName == ent.name)

def chunkLinks (chunkId : Uuid) (placed : List (ResolvedEntity R)) : List (ChunkEntityRow R) :=
  placed.map (fun m =>
    { chunkId := chunkId, entityId := m.id, confidence := m.entity.confidence })

structure Relates (env : Environment R) (ns : String) (placed : List (ResolvedEntity R))
    (rel : ExtractedRelationship R) (row : RelRow R) : Prop where
  src : lastId placed rel.srcName = some row.srcId
  dst : lastId placed rel.dstName = some row.dstId
  kind : row.kind = rel.kind
  weight : row.weight = rel.weight
  ns : row.ns = ns
  description : row.description = none
  minted : Minted env row.id

namespace ResolvedEntity

variable [F32 R]

def candidate (rt : Runtime) (stored : List (EntityRow R)) (ns : String) (m : ResolvedEntity R) :
    Option (EntityCandidate R) :=
  (candidatesOf (trgmSim rt) stored ns m.entity.name trgmCandidateLimit).find? (clears m.nameEmb)

def row (ns : String) (m : ResolvedEntity R) : EntityRow R where
  id := m.id
  ns := ns
  name := m.entity.name
  kind := m.entity.kind
  nameEmb := some m.nameEmb
  description := m.entity.description

def newRows (rt : Runtime) (stored : List (EntityRow R)) (ns : String)
    (placed : List (ResolvedEntity R)) : List (EntityRow R) :=
  (placed.filter (fun m => (m.candidate rt stored ns).isNone)).map (row ns)

structure Resolves (rt : Runtime) (env : Environment R) (stored : List (EntityRow R)) (ns : String)
    (m : ResolvedEntity R) : Prop where
  embedded : ∃ n others, env.embedBatch n [m.entity.name] = .ok (m.nameEmb :: others)
  merged : ∀ c, m.candidate rt stored ns = some c → m.id = c.id
  inserted : m.candidate rt stored ns = none → Minted env m.id

end ResolvedEntity

namespace FakePgClient

def extended (client : FakePgClient R) (entities : List (EntityRow R)) (rels : List (RelRow R))
    (links : List (ChunkEntityRow R)) : FakePgClient R :=
  { client with
    bufferedEntities := client.bufferedEntities ++ entities
    bufferedRelationships := client.bufferedRelationships ++ rels
    bufferedChunkEntities := client.bufferedChunkEntities ++ links }

section Names

theorem bindings_lookup (placed : List (ResolvedEntity R)) (name : String) :
    (placed.map (fun m => (m.entity.name, m.id))).lookup name =
      (placed.find? (fun m => name == m.entity.name)).map (·.id) := by
  induction placed with
  | nil => rfl
  | cons m placed ih =>
      rw [List.map_cons, List.lookup_cons, List.find?_cons]
      cases name == m.entity.name with
      | true => rfl
      | false => exact ih

theorem lastId_lookup (placed : List (ResolvedEntity R)) (name : String) :
    (placed.map (fun m => (m.entity.name, m.id))).reverse.lookup name = lastId placed name := by
  rw [← List.map_reverse, bindings_lookup, lastId]

theorem lastId_isSome (placed : List (ResolvedEntity R)) (name : String) :
    (lastId placed name).isSome = (placed.map (·.entity)).any (fun ent => name == ent.name) := by
  rw [lastId, Option.isSome_map, Bool.eq_iff_iff, List.find?_isSome, List.any_map, List.any_eq_true]
  simp only [List.mem_reverse, Function.comp]

theorem lastId_linked {placed : List (ResolvedEntity R)} {name : String} {id : Uuid}
    (found : lastId placed name = some id) (chunkId : Uuid) :
    ∃ link ∈ chunkLinks chunkId placed, link.chunkId = chunkId ∧ link.entityId = id := by
  rcases Option.map_eq_some_iff.mp found with ⟨m, first, rfl⟩
  have member := List.mem_reverse.mp (List.mem_of_find?_eq_some first)
  exact ⟨_, List.mem_map.mpr ⟨m, member, rfl⟩, rfl, rfl⟩

end Names

structure Placing [F32 R] (rt : Runtime) (env : Environment R) (ns : String) (chunkId : Uuid)
    (client : FakePgClient R) (extraction : Extraction R) (rest : List (ExtractedEntity R))
    (nameToId : List (String × Uuid)) (state : FakePgClient R × Nat)
    (placed : List (ResolvedEntity R)) :
    Prop where
  processed : placed.map (·.entity) ++ rest = extraction.entities
  names : nameToId = (placed.map (fun m => (m.entity.name, m.id))).reverse
  resolved : ∀ m ∈ placed, m.Resolves rt env client.entities ns
  state : state.1 = client.extended (ResolvedEntity.newRows rt client.entities ns placed) []
    (chunkLinks chunkId placed)

structure Relating (env : Environment R) (ns : String) (placed : List (ResolvedEntity R))
    (before : FakePgClient R) (extraction : Extraction R) (rest : List (ExtractedRelationship R))
    (state : FakePgClient R × Nat) (rows : List (RelRow R)) : Prop where
  processed : ∃ done, done ++ rest = extraction.relationships ∧
    List.Forall₂ (Relates env ns placed) (done.filter (namesBoth (placed.map (·.entity)))) rows
  state : state.1 = before.extended [] rows []

section Loops

variable [F32 R] {rt : Runtime} {env : Environment R} {ns : String} {chunkId : Uuid}
  {client : FakePgClient R} {extraction : Extraction R} {placed : List (ResolvedEntity R)}

theorem Placing.push {ent : ExtractedEntity R} {rest : List (ExtractedEntity R)}
    {nameToId : List (String × Uuid)} {before : FakePgClient R × Nat}
    (holds : Placing rt env ns chunkId client extraction (ent :: rest) nameToId before placed)
    (m : ResolvedEntity R) (same : m.entity = ent) (resolves : m.Resolves rt env client.entities ns)
    (new : List (EntityRow R)) (added : ResolvedEntity.newRows rt client.entities ns [m] = new)
    {after : FakePgClient R × Nat} (state : after.1 = before.1.extended new [] [
      { chunkId := chunkId, entityId := m.id, confidence := ent.confidence }]) :
    Placing rt env ns chunkId client extraction rest ((ent.name, m.id) :: nameToId) after
      (placed ++ [m]) where
  processed := by
    rw [List.map_append, List.map_singleton, same, List.append_assoc]
    exact holds.processed
  names := by
    rw [holds.names, List.map_append, List.map_singleton, List.reverse_append, same]
    rfl
  resolved := by
    intro other member
    rcases List.mem_append.mp member with earlier | last
    · exact holds.resolved other earlier
    · rw [List.mem_singleton.mp last]
      exact resolves
  state := by
    have rows : ResolvedEntity.newRows rt client.entities ns (placed ++ [m]) =
        ResolvedEntity.newRows rt client.entities ns placed ++ new := by
      rw [← added, ResolvedEntity.newRows, List.filter_append, List.map_append]
      rfl
    have links : chunkLinks chunkId (placed ++ [m]) = chunkLinks chunkId placed ++ [
        { chunkId := chunkId, entityId := m.id, confidence := ent.confidence }] := by
      rw [← same, chunkLinks, List.map_append]
      rfl
    rw [state, holds.state, rows, links]
    simp only [extended, List.append_assoc, List.append_nil]

theorem wp_persistEntity_placed (ent : ExtractedEntity R) (rest : List (ExtractedEntity R))
    (nameToId : List (String × Uuid)) (state : FakePgClient R × Nat)
    (holds : ∃ placed, Placing rt env ns chunkId client extraction (ent :: rest) nameToId state
      placed) :
    Program.wp (handler rt env).spec (persistEntity ns chunkId nameToId ent).run state
      (Settles (fun names after => ∃ placed,
        Placing rt env ns chunkId client extraction rest names after placed) (fun _ _ => True)) := by
  rcases state with ⟨now, tick⟩
  rcases holds with ⟨placed, holds⟩
  have stored : now.entities = client.entities := by
    rw [show now = _ from holds.state]
    rfl
  rw [persistEntity, Fallible.wp_bind, wp_embedBatch, spec_env, Environment.answer]
  rcases embedded : env.embedBatch tick [ent.name] with e | _ | ⟨nameEmb, others⟩
  · trivial
  · trivial
  change Program.wp _ (resolveOrInsertEntity ns ent.name ent.kind nameEmb ent.description
    >>= fun entityId => insertChunkEntity
      { chunkId := chunkId, entityId := entityId, confidence := ent.confidence } >>= fun _ =>
        pure ((ent.name, entityId) :: nameToId)).run _ _
  rw [Fallible.wp_bind, resolveOrInsertEntity, Fallible.wp_bind, wp_fuzzyMatchEntity, spec_client]
  simp only [handle, stored]
  cases found : (candidatesOf (trgmSim rt) client.entities ns ent.name trgmCandidateLimit).find?
      (clears nameEmb) with
  | some c =>
      let m : ResolvedEntity R := ⟨ent, nameEmb, c.id⟩
      have candidate : m.candidate rt client.entities ns = some c := found
      have resolves : m.Resolves rt env client.entities ns :=
        { embedded := ⟨tick, others, embedded⟩
          merged := fun other same =>
            congrArg EntityCandidate.id (Option.some.inj (candidate.symm.trans same))
          inserted := fun missed => by cases candidate.symm.trans missed }
      have added : ResolvedEntity.newRows rt client.entities ns [m] = [] := by
        rw [ResolvedEntity.newRows, List.filter_singleton, candidate]
        rfl
      simp only [Fallible.wp_pure, Fallible.wp_bind, wp_insertChunkEntity, spec_client, handle]
      refine ⟨_, holds.push m rfl resolves [] added ?_⟩
      simp only [extended, List.append_nil]
      rfl
  | none =>
      let m : ResolvedEntity R := ⟨ent, nameEmb, env.newUuid (tick + 1)⟩
      have candidate : m.candidate rt client.entities ns = none := found
      have resolves : m.Resolves rt env client.entities ns :=
        { embedded := ⟨tick, others, embedded⟩
          merged := fun other same => by cases candidate.symm.trans same
          inserted := fun _ => ⟨_, rfl⟩ }
      have added : ResolvedEntity.newRows rt client.entities ns [m] = [m.row ns] := by
        rw [ResolvedEntity.newRows, List.filter_singleton, candidate]
        rfl
      simp only [Fallible.wp_pure, Fallible.wp_bind, Fallible.wp_lift, wp_newUuid, wp_insertEntity,
        wp_insertChunkEntity, spec_client, spec_env, handle, Environment.answer]
      refine ⟨_, holds.push m rfl resolves _ added ?_⟩
      simp only [extended, List.append_nil]
      rfl

omit [F32 R] in
theorem namesBoth_iff (rel : ExtractedRelationship R) :
    namesBoth (placed.map (·.entity)) rel = true ↔
      ∃ src dst, lastId placed rel.srcName = some src ∧ lastId placed rel.dstName = some dst := by
  rw [namesBoth, ← lastId_isSome, ← lastId_isSome, Bool.and_eq_true, Option.isSome_iff_exists,
    Option.isSome_iff_exists]
  exact ⟨fun ⟨⟨src, foundSrc⟩, dst, foundDst⟩ => ⟨src, dst, foundSrc, foundDst⟩,
    fun ⟨src, dst, foundSrc, foundDst⟩ => ⟨⟨src, foundSrc⟩, dst, foundDst⟩⟩

theorem wp_persistRelationship_related {before : FakePgClient R} (rel : ExtractedRelationship R)
    (rest : List (ExtractedRelationship R)) (state : FakePgClient R × Nat)
    (holds : ∃ rows, Relating env ns placed before extraction (rel :: rest) state rows) :
    Program.wp (handler rt env).spec
      (persistRelationship ns (placed.map (fun m => (m.entity.name, m.id))).reverse () rel).run state
      (Settles (fun _ after => ∃ rows, Relating env ns placed before extraction rest after rows)
        (fun _ _ => True)) := by
  rcases state with ⟨now, tick⟩
  rcases holds with ⟨rows, ⟨done, processed, related⟩, grown⟩
  have onward : (done ++ [rel]) ++ rest = extraction.relationships := by
    rw [List.append_assoc]
    exact processed
  rw [persistRelationship, lastId_lookup, lastId_lookup]
  split
  · rename_i src dst foundSrc foundDst
    have kept : namesBoth (placed.map (·.entity)) rel = true :=
      (namesBoth_iff rel).mpr ⟨src, dst, foundSrc, foundDst⟩
    let row : RelRow R :=
      { id := env.newUuid tick, ns := ns, srcId := src, dstId := dst, kind := rel.kind,
        weight := rel.weight, description := none }
    have relates : Relates env ns placed rel row :=
      ⟨foundSrc, foundDst, rfl, rfl, rfl, rfl, tick, rfl⟩
    rw [Fallible.wp_bind, wp_lift, wp_newUuid, spec_env]
    dsimp only
    rw [wp_insertRelationship, spec_client]
    refine ⟨rows ++ [row], ⟨done ++ [rel], onward, ?_⟩, ?_⟩
    · rw [List.filter_append, List.filter_singleton, kept]
      exact List.rel_append related (.cons relates .nil)
    · simp only [handle, show now = _ from grown, extended, List.append_nil, List.append_assoc]
      rfl
  · rename_i dangling
    have dropped : ¬ namesBoth (placed.map (·.entity)) rel = true := by
      intro both
      rcases (namesBoth_iff rel).mp both with ⟨src, dst, foundSrc, foundDst⟩
      exact dangling src dst foundSrc foundDst
    refine ⟨rows, ⟨done ++ [rel], onward, ?_⟩, grown⟩
    rw [List.filter_append, List.filter_singleton, Bool.eq_false_iff.mpr dropped, cond_false,
      List.append_nil]
    exact related

end Loops

/-- What an extraction adds to the client: the rows of its new entities, the relationships that are
not dangling, and a link for each entity. -/
structure Persisted [F32 R] (rt : Runtime) (env : Environment R) (ns : String) (chunkId : Uuid)
    (client after : FakePgClient R) (extraction : Extraction R) (placed : List (ResolvedEntity R))
    (rows : List (RelRow R)) : Prop where
  entities : placed.map (·.entity) = extraction.entities
  resolved : ∀ m ∈ placed, m.Resolves rt env client.entities ns
  after : after = client.extended (ResolvedEntity.newRows rt client.entities ns placed) rows
    (chunkLinks chunkId placed)
  related : List.Forall₂ (Relates env ns placed)
    (extraction.relationships.filter (namesBoth extraction.entities)) rows
  linked : ∀ row ∈ rows, ∀ id ∈ [row.srcId, row.dstId],
    ∃ link ∈ chunkLinks chunkId placed, link.chunkId = chunkId ∧ link.entityId = id

section Extraction

variable [F32 R] (rt : Runtime) (env : Environment R) (ns : String) (chunkId : Uuid)
  (text : String)

theorem wp_persistChunkExtraction_exact (client : FakePgClient R) (tick : Nat) :
    Program.wp (handler rt env).spec (persistChunkExtraction ns chunkId text).run (client, tick)
      (Settles (fun _ after => ∃ extraction placed rows, env.extract tick text ns = .ok extraction ∧
        Persisted rt env ns chunkId client after.1 extraction placed rows) (fun _ _ => True)) := by
  have monotone : (handler (R := R) rt env).spec.Monotone := Handler.spec_monotone _
  rw [persistChunkExtraction, Fallible.wp_bind, wp_extract, spec_env, Environment.answer]
  rcases extracted : env.extract tick text ns with e | extraction
  · trivial
  have start : Placing rt env ns chunkId client extraction extraction.entities []
      (client, tick + 1) [] := by
    refine ⟨rfl, rfl, fun _ member => absurd member List.not_mem_nil, ?_⟩
    simp only [extended, chunkLinks, ResolvedEntity.newRows, List.filter_nil, List.map_nil,
      List.append_nil]
  refine wp_seq monotone (wp_foldlM monotone
    (fun rest names middle => ∃ placed,
      Placing rt env ns chunkId client extraction rest names middle placed)
    (fun ent rest names middle kept => wp_persistEntity_placed ent rest names middle kept) _ [] _
    ⟨[], start⟩) ?_ (fun _ _ _ => trivial)
  rintro nameToId middle ⟨placed, processed, rfl, resolved, grown⟩
  rw [List.append_nil] at processed
  have begun : Relating env ns placed middle.1 extraction extraction.relationships middle [] := by
    refine ⟨⟨[], rfl, .nil⟩, ?_⟩
    simp only [extended, List.append_nil]
  refine Program.wp_mono monotone _ _ ?_ (wp_foldlM monotone
    (fun rest _ last => ∃ rows, Relating env ns placed middle.1 extraction rest last rows)
    (fun rel rest _ last kept => wp_persistRelationship_related rel rest last kept) _ () middle
    ⟨[], begun⟩)
  refine Settles.mono ?_ (fun _ _ stop => stop)
  rintro - last ⟨rows, ⟨done, all, related⟩, finished⟩
  rw [List.append_nil] at all
  rw [all, processed] at related
  refine ⟨extraction, placed, rows, rfl, processed, resolved, ?_, related, ?_⟩
  · rw [finished, grown]
    simp only [extended, List.append_nil]
  · intro row member id endpoint
    rcases List.forall₂_iff_get.mp related with ⟨sameLength, each⟩
    rcases List.mem_iff_get.mp member with ⟨i, rfl⟩
    have relates := each i (by rw [sameLength]; exact i.isLt) i.isLt
    rcases List.mem_cons.mp endpoint with rfl | last
    · exact lastId_linked relates.src chunkId
    · rw [List.mem_singleton.mp last]
      exact lastId_linked relates.dst chunkId

/-- A successful extraction adds its entities' links in order, and exactly those of its relationships
whose names both occur among its entities. -/
theorem persist_chunk_extraction_exact (client : FakePgClient R) (tick : Nat)
    (succeeded : (perform rt env (persistChunkExtraction ns chunkId text).run
      (client, tick)).1 = .ok ()) :
    ∃ extraction placed rows, env.extract tick text ns = .ok extraction ∧
      Persisted rt env ns chunkId client (perform rt env
        (persistChunkExtraction ns chunkId text).run (client, tick)).2.1 extraction placed rows := by
  have settled := perform_meets rt env _ _
    (wp_persistChunkExtraction_exact rt env ns chunkId text client tick)
  rw [succeeded] at settled
  exact settled

end Extraction

section Repeated

def named (name : String) : ExtractedEntity Milli where
  name := name
  kind := none
  description := none
  confidence := ⟨900⟩

def relation (srcName dstName : String) : ExtractedRelationship Milli where
  srcName := srcName
  dstName := dstName
  kind := "orbits"
  weight := ⟨500⟩
  confidence := ⟨900⟩

def repeatedNames : Environment Milli :=
  .scripted 0 (fun _ => .ok
    { entities := [named "moon", named "earth", named "moon"]
      relationships := [relation "moon" "earth", relation "earth" "sun"] })

theorem repeated_names_persisted :
    ∃ extraction placed rows, repeatedNames.extract 0 "text" "docs" = .ok extraction ∧
      Persisted Runtime.plain repeatedNames "docs" 9 {} (perform Runtime.plain repeatedNames
        (persistChunkExtraction "docs" 9 "text").run ({}, 0)).2.1 extraction placed rows :=
  persist_chunk_extraction_exact Runtime.plain repeatedNames "docs" 9 "text" {} 0 (by decide +kernel)

example : (perform Runtime.plain repeatedNames (persistChunkExtraction "docs" 9 "text").run
    ({}, 0)).2.1.bufferedRelationships.map (fun row => (row.srcId, row.dstId)) = [(6, 4)] := by
  decide +kernel

end Repeated

end FakePgClient

end PgRaggraph

import PgRaggraph.Core.ResolveRuns

/-! Mentions of one name under two kinds, in two jobs over `FakePgClient`.

Only the name is embedded and compared, so the kind of a mention decides nothing. -/

namespace PgRaggraph

open Interaction Interaction.Fallible Nearest

variable {R : Type}

structure Linked (R : Type) where
  entity : ExtractedEntity R
  id : Uuid
  deriving DecidableEq

structure Reading (R : Type) where
  pending : List (ExtractedEntity R) := []
  mentions : List (Linked R) := []

def Reading.read (r : Reading R) (exchange : Exchange (Ingest R)) : Reading R :=
  match exchange with
  | ⟨.env (.extract _ _), .ok extraction⟩ => { r with pending := extraction.entities }
  | ⟨.client (.insertChunkEntity link), _⟩ =>
      match r.pending with
      | ent :: rest => { pending := rest, mentions := r.mentions ++ [⟨ent, link.entityId⟩] }
      | [] => r
  | _ => r

def readings (log : List (Exchange (Ingest R))) : Reading R := log.foldl Reading.read {}

@[simp] theorem readings_append (log more : List (Exchange (Ingest R))) :
    readings (log ++ more) = more.foldl Reading.read (readings log) := List.foldl_append

def Linked.row (embed : String → List R) (ns : String) (m : Linked R) : EntityRow R where
  id := m.id
  ns := ns
  name := m.entity.name
  kind := m.entity.kind
  nameEmb := some (embed m.entity.name)
  description := m.entity.description

namespace FakePgClient

section Definitions

variable [F32 R] (rt : Runtime) (env : Environment R)

def recordedJob (state : FakePgClient R × Nat) (req : IngestRequest) :
    CoreResult RunJobOutcome × ((FakePgClient R × Nat) × List (Exchange (Ingest R))) :=
  match Program.run (handler rt env).recorded (PgRaggraph.runJob rt req).run (state, []) with
  | .ok ended => ended
  | .error never => never.elim

def mentionsOf (state : FakePgClient R × Nat) (req : IngestRequest) : List (Linked R) :=
  (readings (recordedJob rt env state req).2.2).mentions

def hit (embed : String → List R) (entities : List (EntityRow R)) (ns name : String) :
    Option (EntityCandidate R) :=
  (candidatesOf (trgmSim rt) entities ns name trgmCandidateLimit).find? (clears (embed name))

def SenseStored (entities : List (EntityRow R)) (ns name kind : String) : Prop :=
  ∃ row ∈ entities, row.ns = ns ∧ row.name = name ∧ row.kind = some kind

/-- What the rows stored before a job must be for it to keep a mention of the second kind apart
from the entity of an earlier mention of the first. -/
def KeepsApart (embed : String → List R) (entities : List (EntityRow R))
    (ns name firstKind secondKind : String) (earlier : Uuid)
    (extracted : List (ExtractedEntity R)) : Prop :=
  match hit rt embed entities ns name with
  | some c => c.id ≠ earlier ∧ SenseStored entities ns name firstKind ∧
      SenseStored entities ns name secondKind
  | none => SenseStored entities ns name firstKind ∨
      ∃ ent ∈ extracted, ent.name = name ∧ ent.kind = some firstKind

theorem recordedJob_same (state : FakePgClient R × Nat) (req : IngestRequest) :
    ((recordedJob rt env state req).1, (recordedJob rt env state req).2.1) =
      runJob rt env state req := by
  have same := Program.run_recorded (handler rt env) (PgRaggraph.runJob rt req).run (state, [])
  rw [recordedJob, runJob]
  rw [← same]
  cases Program.run (handler rt env).recorded (PgRaggraph.runJob rt req).run (state, []) with
  | ok ended => rfl
  | error never => exact never.elim

end Definitions

structure Resolved [F32 R] (rt : Runtime) (embed : String → List R) (ns : String)
    (stored new : List (EntityRow R)) (m : Linked R) : Prop where
  merged : ∀ c, hit rt embed stored ns m.entity.name = some c → m.id = c.id
  inserted : hit rt embed stored ns m.entity.name = none → m.row embed ns ∈ new

structure Added [F32 R] (rt : Runtime) (env : Environment R) (embed : String → List R) (ns : String)
    (stored new : List (EntityRow R)) (mentions : List (Linked R)) (since now : Nat) : Prop where
  resolved : ∀ m ∈ mentions, Resolved rt embed ns stored new m
  origin : ∀ row ∈ new, ∃ m ∈ mentions,
    hit rt embed stored ns m.entity.name = none ∧ m.row embed ns = row
  drawn : ∀ row ∈ new, ∃ k, since ≤ k ∧ k < now ∧ env.newUuid k = row.id

structure Resolving [F32 R] (rt : Runtime) (env : Environment R) (embed : String → List R)
    (ns : String) (stored : List (EntityRow R)) (since : Nat) (pending : List (ExtractedEntity R))
    (state : (FakePgClient R × Nat) × List (Exchange (Ingest R))) : Prop where
  kept : state.1.1.entities = stored
  pending : (readings state.2).pending = pending
  added : Added rt env embed ns stored state.1.1.bufferedEntities (readings state.2).mentions since
    state.1.2
  reached : since ≤ state.1.2

section Jobs

variable [F32 R] {rt : Runtime} {env : Environment R} {embed : String → List R} {ns : String}
  {stored new : List (EntityRow R)} {mentions : List (Linked R)} {since now : Nat}

theorem Added.later (added : Added rt env embed ns stored new mentions since now) {last : Nat}
    (reached : now ≤ last) : Added rt env embed ns stored new mentions since last where
  resolved := added.resolved
  origin := added.origin
  drawn := by
    intro row member
    rcases added.drawn row member with ⟨k, after, before, same⟩
    exact ⟨k, after, Nat.lt_of_lt_of_le before reached, same⟩

theorem Added.merge (added : Added rt env embed ns stored new mentions since now)
    {ent : ExtractedEntity R} {c : EntityCandidate R}
    (found : hit rt embed stored ns ent.name = some c) :
    Added rt env embed ns stored new (mentions ++ [⟨ent, c.id⟩]) since now where
  resolved := by
    intro m member
    rcases List.mem_append.mp member with earlier | last
    · exact added.resolved m earlier
    · rw [List.mem_singleton.mp last]
      constructor
      · intro other same
        rw [found] at same
        cases same
        rfl
      · intro missed
        rw [found] at missed
        cases missed
  origin := by
    intro row member
    rcases added.origin row member with ⟨m, earlier, missed, same⟩
    exact ⟨m, List.mem_append_left _ earlier, missed, same⟩
  drawn := added.drawn

theorem Added.insert (added : Added rt env embed ns stored new mentions since now)
    (reached : since ≤ now) {ent : ExtractedEntity R}
    (missed : hit rt embed stored ns ent.name = none) :
    Added rt env embed ns stored (new ++ [Linked.row embed ns ⟨ent, env.newUuid now⟩])
      (mentions ++ [⟨ent, env.newUuid now⟩]) since (now + 1) where
  resolved := by
    intro m member
    rcases List.mem_append.mp member with earlier | last
    · refine ⟨(added.resolved m earlier).merged, ?_⟩
      intro none_
      exact List.mem_append_left _ ((added.resolved m earlier).inserted none_)
    · rw [List.mem_singleton.mp last]
      constructor
      · intro c found
        rw [missed] at found
        cases found
      · intro _
        exact List.mem_append_right _ (List.mem_singleton.mpr rfl)
  origin := by
    intro row member
    rcases List.mem_append.mp member with earlier | last
    · rcases added.origin row earlier with ⟨m, known, none_, same⟩
      exact ⟨m, List.mem_append_left _ known, none_, same⟩
    · exact ⟨_, List.mem_append_right _ (List.mem_singleton.mpr rfl), missed,
        (List.mem_singleton.mp last).symm⟩
  drawn := by
    intro row member
    rcases List.mem_append.mp member with earlier | last
    · rcases added.drawn row earlier with ⟨k, after, before, same⟩
      exact ⟨k, after, Nat.lt_succ_of_lt before, same⟩
    · rw [List.mem_singleton.mp last]
      exact ⟨now, reached, Nat.lt_succ_self now, rfl⟩

theorem wp_persistEntity_resolving (embeds : ∀ n texts, env.embedBatch n texts = .ok (texts.map embed))
    (chunkId : Uuid) (names : List (String × Uuid)) (ent : ExtractedEntity R)
    (rest : List (ExtractedEntity R))
    (state : (FakePgClient R × Nat) × List (Exchange (Ingest R)))
    (holds : Resolving rt env embed ns stored since (ent :: rest) state) :
    Program.wp (handler rt env).recorded.spec (persistEntity ns chunkId names ent).run state
      (Settles (fun _ => Resolving rt env embed ns stored since rest) (fun _ _ => True)) := by
  rcases state with ⟨⟨client, tick⟩, log⟩
  rcases holds with ⟨kept, pending, added, reached⟩
  dsimp only at kept pending added reached
  rw [persistEntity, Fallible.wp_bind, wp_embedBatch, Handler.recorded_spec, spec_env,
    Environment.answer, embeds]
  change Program.wp _ (resolveOrInsertEntity ns ent.name ent.kind (embed ent.name) ent.description
    >>= fun entityId => insertChunkEntity
      { chunkId := chunkId, entityId := entityId, confidence := ent.confidence } >>= fun _ =>
        pure ((ent.name, entityId) :: names)).run _ _
  rw [Fallible.wp_bind, resolveOrInsertEntity, Fallible.wp_bind, wp_fuzzyMatchEntity,
    Handler.recorded_spec, spec_client]
  simp only [handle, kept]
  cases found : hit rt embed stored ns ent.name with
  | some c =>
      have first : (candidatesOf (trgmSim rt) stored ns ent.name trgmCandidateLimit).find?
          (clears (embed ent.name)) = some c := found
      simp only [first, Fallible.wp_pure, Fallible.wp_bind, wp_insertChunkEntity,
        Handler.recorded_spec, spec_client, handle]
      refine ⟨kept, ?_, ?_, Nat.le_succ_of_le reached⟩
      · simp [Reading.read, pending]
      · simpa [Reading.read, pending] using (added.merge found).later (Nat.le_succ tick)
  | none =>
      have first : (candidatesOf (trgmSim rt) stored ns ent.name trgmCandidateLimit).find?
          (clears (embed ent.name)) = none := found
      simp only [first, Fallible.wp_pure, Fallible.wp_bind, Fallible.wp_lift, wp_newUuid,
        wp_insertEntity, wp_insertChunkEntity, Handler.recorded_spec, spec_client, spec_env, handle,
        Environment.answer]
      refine ⟨kept, ?_, ?_, Nat.le_succ_of_le (Nat.le_succ_of_le reached)⟩
      · simp [Reading.read, pending]
      · simpa [Reading.read, pending, Linked.row] using
          (added.later (Nat.le_succ tick)).insert (Nat.le_succ_of_le reached) found

theorem Resolving.step {pending : List (ExtractedEntity R)} {client after : FakePgClient R}
    {tick last : Nat} {log more : List (Exchange (Ingest R))}
    (holds : Resolving rt env embed ns stored since pending ((client, tick), log))
    (entities : after.entities = client.entities)
    (buffered : after.bufferedEntities = client.bufferedEntities) (later : tick ≤ last)
    (silent : more.foldl Reading.read (readings log) = readings log) :
    Resolving rt env embed ns stored since pending ((after, last), log ++ more) where
  kept := entities.trans holds.kept
  pending := by
    rw [readings_append, silent]
    exact holds.pending
  added := by
    rw [readings_append, silent, buffered]
    exact holds.added.later later
  reached := Nat.le_trans holds.reached later

theorem Resolving.extracted {pending : List (ExtractedEntity R)} {client : FakePgClient R}
    {tick : Nat} {log : List (Exchange (Ingest R))}
    (holds : Resolving rt env embed ns stored since pending ((client, tick), log)) (text : String)
    (extraction : Extraction R) :
    Resolving rt env embed ns stored since extraction.entities
      ((client, tick + 1), log ++ [⟨.env (.extract text ns), .ok extraction⟩]) where
  kept := holds.kept
  pending := by
    rw [readings_append]
    rfl
  added := by
    rw [readings_append]
    exact holds.added.later (Nat.le_succ tick)
  reached := Nat.le_succ_of_le holds.reached

theorem wp_persistRelationship_resolving (names : List (String × Uuid))
    (rel : ExtractedRelationship R) (pending : List (ExtractedEntity R))
    (state : (FakePgClient R × Nat) × List (Exchange (Ingest R)))
    (holds : Resolving rt env embed ns stored since pending state) :
    Program.wp (handler rt env).recorded.spec (persistRelationship ns names () rel).run state
      (Settles (fun _ => Resolving rt env embed ns stored since pending) (fun _ _ => True)) := by
  rcases state with ⟨⟨client, tick⟩, log⟩
  rw [persistRelationship]
  split
  · rw [Fallible.wp_bind, wp_lift, wp_newUuid, Handler.recorded_spec, spec_env]
    dsimp only
    rw [wp_insertRelationship, Handler.recorded_spec, spec_client]
    have drawn : Resolving rt env embed ns stored since pending ((client, tick + 1),
        log ++ [⟨.env .newUuid, env.answer tick .newUuid⟩]) :=
      holds.step rfl rfl (Nat.le_succ tick) rfl
    exact drawn.step rfl rfl le_rfl rfl
  · exact holds

theorem wp_persistChunkExtraction_resolving
    (embeds : ∀ n texts, env.embedBatch n texts = .ok (texts.map embed)) (chunkId : Uuid)
    (text : String) (state : (FakePgClient R × Nat) × List (Exchange (Ingest R)))
    (holds : Resolving rt env embed ns stored since [] state) :
    Program.wp (handler rt env).recorded.spec (persistChunkExtraction ns chunkId text).run state
      (Settles (fun _ => Resolving rt env embed ns stored since []) (fun _ _ => True)) := by
  have monotone : (handler (R := R) rt env).recorded.spec.Monotone := Handler.spec_monotone _
  rcases state with ⟨⟨client, tick⟩, log⟩
  rw [persistChunkExtraction, Fallible.wp_bind, wp_extract, Handler.recorded_spec, spec_env]
  rcases env.answer tick (.extract text ns) with e | extraction
  · trivial
  refine wp_seq monotone (wp_foldlM monotone
    (fun rest _ middle => Resolving rt env embed ns stored since rest middle)
    (fun ent rest names middle kept =>
      wp_persistEntity_resolving embeds chunkId names ent rest middle kept) _ [] _
    (holds.extracted text extraction)) ?_
    (fun _ _ stop => stop)
  intro names middle kept
  exact wp_foldlM monotone
    (fun _ _ last => Resolving rt env embed ns stored since [] last)
    (fun rel _ _ last still => wp_persistRelationship_resolving names rel [] last still) _ () middle
    kept

theorem resolving_persistence (embeds : ∀ n texts, env.embedBatch n texts = .ok (texts.map embed))
    (docId : Uuid) : PersistRule (handler rt env).recorded.spec docId ns
      (fun _ => Resolving rt env embed ns stored since [])
      (fun _ _ => Resolving rt env embed ns stored since []) (fun _ _ => True) where
  monotone := Handler.spec_monotone _
  stored := by
    rintro item rest ⟨⟨client, tick⟩, log⟩ holds
    rw [Handler.recorded_spec, spec_client]
    by_cases injected : some client.chunkInserts = client.chunkFailAt
    · simp only [handle, if_pos injected]
      trivial
    · simp only [handle, if_neg injected]
      exact holds.step rfl rfl le_rfl rfl
  extracted := by
    intro item rest state holds
    exact wp_persistChunkExtraction_resolving embeds item.2 item.1.1.text state holds

structure Idle (before : FakePgClient R) (since : Nat)
    (state : (FakePgClient R × Nat) × List (Exchange (Ingest R))) : Prop where
  untouched : state.1.1 = before
  reached : since ≤ state.1.2
  unread : readings state.2 = {}

omit [F32 R] in
theorem Idle.step {before : FakePgClient R} {tick : Nat}
    {state : (FakePgClient R × Nat) × List (Exchange (Ingest R))} (idle : Idle before since state)
    (later : state.1.2 ≤ tick) {more : List (Exchange (Ingest R))}
    (silent : more.foldl Reading.read {} = {}) :
    Idle before since ((state.1.1, tick), state.2 ++ more) where
  untouched := idle.untouched
  reached := Nat.le_trans idle.reached later
  unread := by rw [readings_append, idle.unread, silent]

theorem Idle.begin {before after : FakePgClient R} {tick : Nat} {log : List (Exchange (Ingest R))}
    (idle : Idle before since ((before, tick), log)) (flushed : before.bufferedEntities = [])
    (entities : after.entities = before.entities)
    (buffered : after.bufferedEntities = before.bufferedEntities)
    {exchange : Exchange (Ingest R)} (silent : Reading.read {} exchange = {}) :
    Resolving rt env embed ns before.entities since [] ((after, tick), log ++ [exchange]) := by
  have read : readings (log ++ [exchange]) = {} := by
    rw [readings_append, idle.unread]
    exact silent
  refine ⟨entities, by rw [read], ?_, idle.reached⟩
  dsimp only
  rw [read, buffered, flushed]
  exact ⟨fun m member => absurd member List.not_mem_nil,
    fun row member => absurd member List.not_mem_nil,
    fun row member => absurd member List.not_mem_nil⟩

def Extends (rt : Runtime) (env : Environment R) (embed : String → List R) (ns : String)
    (before : FakePgClient R × Nat) (result : CoreResult RunJobOutcome)
    (last : (FakePgClient R × Nat) × List (Exchange (Ingest R))) : Prop :=
  ∀ docId n, result = .ok (.completed docId n) →
    ∃ new, last.1.1.entities = before.1.entities ++ new ∧
      Added rt env embed ns before.1.entities new (readings last.2).mentions before.2 last.1.2

theorem resolving_preparation (before : FakePgClient R) (since : Nat) (req : IngestRequest) :
    PreparationRule (handler rt env).recorded.spec rt req (Idle before since)
      (fun _ _ => Idle before since) (fun _ _ => Idle before since)
      (fun _ _ _ _ _ => Idle before since) (Extends rt env embed req.ns (before, since)) where
  monotone := Handler.spec_monotone _
  read := by
    rintro path ⟨⟨client, tick⟩, log⟩ _ idle
    rw [Handler.recorded_spec, spec_env]
    rcases env.answer tick (.readFile path) with e | bytes
    · intro docId n completed
      cases completed
    · exact idle.step (Nat.le_succ tick) rfl
  carried := fun _ _ _ _ idle => idle
  checked := by
    rintro sourceName bytes ⟨⟨client, tick⟩, log⟩ idle
    rw [Handler.recorded_spec, spec_client]
    simp only [handle, Settles]
    split
    · intro docId n completed
      cases completed
    · exact idle.step le_rfl rfl
  unchunked := by
    intro sourceName bytes e state _ _ docId n completed
    cases completed
  embedded := by
    rintro sourceName bytes chunks ⟨⟨client, tick⟩, log⟩ _ idle
    rw [Handler.recorded_spec, spec_env, Environment.answer]
    generalize env.embedBatch tick (chunks.map (·.text)) = answer
    rcases answer with e | embeddings
    · intro docId n completed
      cases completed
    · simp only [Settles]
      split
      · intro docId n completed
        cases completed
      · exact idle.step (Nat.le_succ tick) rfl
  minted := by
    rintro sourceName bytes chunks embeddings ids ⟨⟨client, tick⟩, log⟩ idle
    rw [Handler.recorded_spec, spec_env]
    exact idle.step (Nat.le_succ tick) rfl

/-- A job searches the rows stored before it, and only the mentions that find none add rows. -/
theorem recordedJob_extends (embeds : ∀ n texts, env.embedBatch n texts = .ok (texts.map embed))
    (before : FakePgClient R) (since : Nat) (flushed : before.bufferedEntities = [])
    (req : IngestRequest) :
    Extends rt env embed req.ns (before, since) (recordedJob rt env (before, since) req).1
      (recordedJob rt env (before, since) req).2 := by
  have monotone : (handler (R := R) rt env).recorded.spec.Monotone := Handler.spec_monotone _
  have meets : Program.wp (handler rt env).recorded.spec (PgRaggraph.runJob rt req).run
      ((before, since), []) (Extends rt env embed req.ns (before, since)) := by
    refine wp_runJob (resolving_preparation before since req) ((before, since), [])
      ⟨rfl, le_rfl, rfl⟩ ?_
    intro doc bytes chunks embeddings chunkIds middle ready idle
    rcases middle with ⟨⟨client, tick⟩, log⟩
    have untouched : client = before := idle.untouched
    subst untouched
    have rule : PersistRule (handler rt env).recorded.spec doc.id doc.ns
        (fun _ => Resolving rt env embed doc.ns client.entities since [])
        (fun _ _ => Resolving rt env embed doc.ns client.entities since []) (fun _ _ => True) :=
      resolving_persistence embeds doc.id
    refine Program.wp_mono monotone _ _ ?_
      (wp_persistDocument doc rule chunks embeddings chunkIds _ ?_)
    · intro result last persisted
      rcases last with ⟨⟨after, tick⟩, log⟩
      rcases result with e | n
      · rw [finishJob, Fallible.wp_bind, wp_lift, wp_rollback, Handler.recorded_spec, spec_client]
        intro docId n completed
        cases completed
      · rcases persisted with ⟨rfl, resolving⟩
        rw [finishJob, Fallible.wp_bind, wp_commit, Handler.recorded_spec, spec_client]
        intro docId n _
        have stored : after.entities = client.entities := resolving.kept
        refine ⟨after.bufferedEntities, ?_, ?_⟩
        · simp only [handle, stored]
        · rw [readings_append, ← ready.ns]
          exact resolving.added
    · rw [Handler.recorded_spec, spec_client]
      refine idle.begin flushed ?_ ?_ ?_
      all_goals rfl
  rw [Program.wp_run] at meets
  rw [recordedJob]
  split
  · rename_i ended ran
    exact meets ended.1 ended.2 ran
  · rename_i never _
    exact never.elim

def EntitiesDrawn (env : Environment R) (state : FakePgClient R × Nat) : Prop :=
  ∀ row ∈ state.1.entities, ∃ k < state.2, env.newUuid k = row.id

theorem runJob_extends (embeds : ∀ n texts, env.embedBatch n texts = .ok (texts.map embed))
    {state : FakePgClient R × Nat} (settled : Settled env state) (req : IngestRequest)
    {docId : Uuid} {n : Nat} (completed : (runJob rt env state req).1 = .ok (.completed docId n)) :
    ∃ new, (runJob rt env state req).2.1.entities = state.1.entities ++ new ∧
      Added rt env embed req.ns state.1.entities new (mentionsOf rt env state req) state.2
        (runJob rt env state req).2.2 := by
  have extended : Extends rt env embed req.ns state (recordedJob rt env state req).1
      (recordedJob rt env state req).2 :=
    recordedJob_extends embeds state.1 state.2 settled.flushed.entities req
  have same := recordedJob_same rt env state req
  have result : (recordedJob rt env state req).1 = (runJob rt env state req).1 :=
    congrArg Prod.fst same
  have last : (recordedJob rt env state req).2.1 = (runJob rt env state req).2 :=
    congrArg Prod.snd same
  rw [Extends] at extended
  rw [← last]
  exact extended docId n (result.trans completed)

theorem runJob_later (rt : Runtime) (env : Environment R) (state : FakePgClient R × Nat)
    (req : IngestRequest) : state.2 ≤ (runJob rt env state req).2.2 := by
  have step : ∀ request (middle : FakePgClient R × Nat) answer after, state.2 ≤ middle.2 →
      handler rt env request middle = .ok (answer, after) → state.2 ≤ after.2 := by
    rintro request ⟨client, tick⟩ answer after reached handled
    cases request with
    | env call =>
        cases handled
        exact Nat.le_succ_of_le reached
    | client call =>
        cases handled
        exact reached
  rw [runJob]
  split
  · rename_i ended ran
    exact Program.run_invariant step _ le_rfl ran
  · rename_i never _
    exact never.elim

theorem runJob_drawn (embeds : ∀ n texts, env.embedBatch n texts = .ok (texts.map embed))
    {state : FakePgClient R × Nat} (settled : Settled env state) (drawn : EntitiesDrawn env state)
    (req : IngestRequest) : EntitiesDrawn env (runJob rt env state req).2 := by
  have later := runJob_later rt env state req
  have earlier : ∀ row ∈ state.1.entities,
      ∃ k < (runJob rt env state req).2.2, env.newUuid k = row.id := by
    intro row member
    rcases drawn row member with ⟨k, before, same⟩
    exact ⟨k, Nat.lt_of_lt_of_le before later, same⟩
  intro row member
  by_cases ended : ∃ docId n, (runJob rt env state req).1 = .ok (.completed docId n)
  · rcases ended with ⟨docId, n, completed⟩
    rcases runJob_extends embeds settled req completed with ⟨new, grown, added⟩
    rw [grown] at member
    rcases List.mem_append.mp member with stored | inserted
    · exact earlier row stored
    · rcases added.drawn row inserted with ⟨k, -, before, same⟩
      exact ⟨k, before, same⟩
  · have unchanged := (runJob_outcome rt settled req).unchanged
      (fun docId n completed => ended ⟨docId, n, completed⟩)
    rw [unchanged.entities] at member
    exact earlier row member

theorem attempts_drawn (rt : Runtime)
    (embeds : ∀ n texts, env.embedBatch n texts = .ok (texts.map embed))
    (calls : List Attempt) :
    Settled env (attempts rt env calls) ∧ EntitiesDrawn env (attempts rt env calls) := by
  rw [attempts]
  refine List.foldlRecOn (motive := fun state => Settled env state ∧ EntitiesDrawn env state)
    calls _ ⟨attempts_settled rt env [], nofun⟩ ?_
  intro state holds a _
  rcases holds with ⟨settled, drawn⟩
  refine ⟨(attempt_outcome rt state settled a).settled, ?_⟩
  rw [attempt]
  split
  · rename_i n _
    exact runJob_drawn embeds (settled.injected n) drawn a.request
  · exact runJob_drawn embeds settled drawn a.request

theorem hit_stored {name : String} {c : EntityCandidate R}
    (found : hit rt embed stored ns name = some c) : ∃ row ∈ stored, row.id = c.id := by
  rcases candidate_stored (List.mem_of_find?_eq_some found) with ⟨row, member, same, -⟩
  exact ⟨row, member, same⟩

theorem Added.linked (added : Added rt env embed ns stored new mentions since now) {m : Linked R}
    (member : m ∈ mentions) : ∃ row ∈ stored ++ new, row.id = m.id := by
  cases found : hit rt embed stored ns m.entity.name with
  | some c =>
      rcases hit_stored found with ⟨row, kept, same⟩
      refine ⟨row, List.mem_append_left _ kept, ?_⟩
      rw [same, (added.resolved m member).merged c found]
  | none => exact ⟨_, List.mem_append_right _ ((added.resolved m member).inserted found), rfl⟩

theorem Added.stored_iff (added : Added rt env embed ns stored new mentions since now)
    {name : String} {c : EntityCandidate R} (found : hit rt embed stored ns name = some c)
    (kind : String) : SenseStored (stored ++ new) ns name kind ↔ SenseStored stored ns name kind := by
  constructor
  · intro sense
    rcases sense with ⟨row, member, here, sameName, sameKind⟩
    rcases List.mem_append.mp member with kept | inserted
    · exact ⟨row, kept, here, sameName, sameKind⟩
    · rcases added.origin row inserted with ⟨m, -, missed, rfl⟩
      have name_ : m.entity.name = name := sameName
      rw [name_, found] at missed
      cases missed
  · intro sense
    rcases sense with ⟨row, kept, same⟩
    exact ⟨row, List.mem_append_left _ kept, same⟩

theorem Added.inserted_iff (added : Added rt env embed ns stored new mentions since now)
    {name : String} (missed : hit rt embed stored ns name = none) (kind : String) :
    SenseStored (stored ++ new) ns name kind ↔ SenseStored stored ns name kind ∨
      ∃ ent ∈ mentions.map (·.entity), ent.name = name ∧ ent.kind = some kind := by
  constructor
  · intro sense
    rcases sense with ⟨row, member, here, sameName, sameKind⟩
    rcases List.mem_append.mp member with kept | inserted
    · exact .inl ⟨row, kept, here, sameName, sameKind⟩
    · rcases added.origin row inserted with ⟨m, mentioned, -, rfl⟩
      exact .inr ⟨m.entity, List.mem_map_of_mem mentioned, sameName, sameKind⟩
  · intro sense
    rcases sense with ⟨row, kept, same⟩ | ⟨ent, extracted, sameName, sameKind⟩
    · exact ⟨row, List.mem_append_left _ kept, same⟩
    · rcases List.mem_map.mp extracted with ⟨m, mentioned, rfl⟩
      rw [← sameName] at missed
      refine ⟨_, List.mem_append_right _ ((added.resolved m mentioned).inserted missed), rfl, ?_⟩
      exact ⟨sameName, sameKind⟩

theorem Added.unlike (added : Added rt env embed ns stored new mentions since now)
    (drawn : ∀ row ∈ stored, ∃ k < since, env.newUuid k = row.id) {old row : EntityRow R}
    (kept : old ∈ stored) (inserted : row ∈ new) : old.id ≠ row.id := by
  intro same
  rcases drawn old kept with ⟨k, before, oldId⟩
  rcases added.drawn row inserted with ⟨j, after, -, rowId⟩
  have equal : k = j := env.fresh (by rw [oldId, rowId, same])
  omega

theorem Added.apart_iff (added : Added rt env embed ns stored new mentions since now)
    (drawn : ∀ row ∈ stored, ∃ k < since, env.newUuid k = row.id) {earlier : Uuid}
    (linked : ∃ row ∈ stored, row.id = earlier) {b : Linked R} (member : b ∈ mentions)
    {firstKind secondKind : String} (kind : b.entity.kind = some secondKind) :
    (earlier ≠ b.id ∧ SenseStored (stored ++ new) ns b.entity.name firstKind ∧
        SenseStored (stored ++ new) ns b.entity.name secondKind) ↔
      KeepsApart rt embed stored ns b.entity.name firstKind secondKind earlier
        (mentions.map (·.entity)) := by
  have resolved := added.resolved b member
  rw [KeepsApart]
  cases found : hit rt embed stored ns b.entity.name with
  | some c =>
      simp only [added.stored_iff found, resolved.merged c found, ne_comm]
  | none =>
      have own : b.row embed ns ∈ new := resolved.inserted found
      have second : SenseStored (stored ++ new) ns b.entity.name secondKind :=
        ⟨_, List.mem_append_right _ own, rfl, rfl, kind⟩
      have different : earlier ≠ b.id := by
        rcases linked with ⟨row, kept, rfl⟩
        exact added.unlike drawn kept own
      rw [added.inserted_iff found firstKind]
      exact ⟨fun apart => apart.2.1, fun first => ⟨different, first, second⟩⟩

/-- Two completed jobs of one namespace, one after the other: the mentions of a name that they
extract are linked to different entities, with both senses stored, exactly where the rows stored
before the second job keep the senses apart. -/
theorem senses_apart_iff (rt : Runtime) (env : Environment R) (embed : String → List R)
    (embeds : ∀ n texts, env.embedBatch n texts = .ok (texts.map embed)) (calls : List Attempt)
    (first second : IngestRequest) (here : second.ns = first.ns) (a b : Linked R)
    (firstKind secondKind : String) :
    let before := attempts rt env calls
    let middle := (runJob rt env before first).2
    let after := (runJob rt env middle second).2
    (∃ docId n, (runJob rt env before first).1 = .ok (.completed docId n)) →
    (∃ docId n, (runJob rt env middle second).1 = .ok (.completed docId n)) →
    a ∈ mentionsOf rt env before first → b ∈ mentionsOf rt env middle second →
    b.entity.name = a.entity.name → a.entity.kind = some firstKind →
    b.entity.kind = some secondKind → firstKind ≠ secondKind →
    ((a.id ≠ b.id ∧ SenseStored after.1.entities first.ns a.entity.name firstKind ∧
        SenseStored after.1.entities first.ns a.entity.name secondKind) ↔
      KeepsApart rt embed middle.1.entities first.ns a.entity.name firstKind secondKind a.id
        ((mentionsOf rt env middle second).map (·.entity))) := by
  intro before middle after firstEnded secondEnded firstMention secondMention sameName _ kind _
  rcases attempts_drawn rt embeds calls with ⟨settled, drawn⟩
  rcases firstEnded with ⟨_, _, completed⟩
  rcases secondEnded with ⟨_, _, completed'⟩
  rcases runJob_extends embeds settled first completed with ⟨new, grown, added⟩
  have settled' : Settled env middle := (runJob_outcome rt settled first).settled
  have drawn' : EntitiesDrawn env middle := runJob_drawn embeds settled drawn first
  rcases runJob_extends embeds settled' second completed' with ⟨new', grown', added'⟩
  have linked : ∃ row ∈ middle.1.entities, row.id = a.id := by
    rw [show middle.1.entities = before.1.entities ++ new from grown]
    exact added.linked firstMention
  rw [show after.1.entities = middle.1.entities ++ new' from grown', ← here, ← sameName]
  exact added'.apart_iff drawn' linked secondMention kind

end Jobs

section ExactArithmetic

/-- The row of a name is hit by the search for the name, unless as many rows as the search ranks
are as close to it. -/
theorem hit_own (rt : Runtime) (embed : String → List ℝ) {entities : List (EntityRow ℝ)}
    {row : EntityRow ℝ} (member : row ∈ entities) (own : row.nameEmb = some (embed row.name))
    (nonzero : ∃ x ∈ embed row.name, x ≠ 0)
    (few : ((entities.filter (fun e => e.ns == row.ns)).filter
      (fun e => 1 ≤ trgmSim (R := ℝ) rt e.name row.name)).length < trgmCandidateLimit) :
    ∃ c, hit rt embed entities row.ns row.name = some c := by
  let m : Mention ℝ :=
    { name := row.name, kind := row.kind, emb := embed row.name, description := row.description }
  have searched : candidatesOf (trgmSim rt) (entities.filter (fun e => e.ns == row.ns)) row.ns
      row.name trgmCandidateLimit =
        candidatesOf (trgmSim rt) entities row.ns row.name trgmCandidateLimit := by
    rw [candidatesOf, List.filter_filter, candidatesOf]
    simp only [Bool.and_self]
  have inside : ∀ e ∈ entities.filter (fun e => e.ns == row.ns), e.ns = row.ns := by
    intro e kept
    simpa using (List.mem_filter.mp kept).2
  have same := candidates_found rt row.ns inside m
  cases missed : found rt (entities.filter (fun e => e.ns == row.ns)) m with
  | some e =>
      rw [missed, Option.map_some, Option.map_eq_some_iff] at same
      rcases same with ⟨c, first, -⟩
      refine ⟨c, ?_⟩
      rw [hit, ← searched]
      exact first
  | none =>
      have close : row ∈ (entities.filter (fun e => e.ns == row.ns)).filter
          (fun e => 1 ≤ closeness rt m e) := by
        refine List.mem_filter.mpr ⟨List.mem_filter.mpr ⟨member, beq_self_eq_true _⟩, ?_⟩
        rw [closeness, trgmSim_same rt rfl]
        exact decide_eq_true le_rfl
      have itself : m.row row.ns row.id = row := by
        rw [Mention.row, ← own]
      have merged := merges_own (m := m) rt row.ns row.id nonzero
      rw [itself, search_eq_none missed 1 few row close] at merged
      cases merged

theorem second_sense_merged (rt : Runtime) (embed : String → List ℝ) {entities : List (EntityRow ℝ)}
    {row : EntityRow ℝ} (member : row ∈ entities) (own : row.nameEmb = some (embed row.name))
    (nonzero : ∃ x ∈ embed row.name, x ≠ 0)
    (few : ((entities.filter (fun e => e.ns == row.ns)).filter
      (fun e => 1 ≤ trgmSim (R := ℝ) rt e.name row.name)).length < trgmCandidateLimit)
    {secondKind : String} (unknown : ¬ SenseStored entities row.ns row.name secondKind)
    (firstKind : String) (earlier : Uuid) (extracted : List (ExtractedEntity ℝ)) :
    ¬ KeepsApart rt embed entities row.ns row.name firstKind secondKind earlier extracted := by
  rcases hit_own rt embed member own nonzero few with ⟨c, found⟩
  rw [KeepsApart, found]
  exact fun apart => unknown apart.2.2

end ExactArithmetic

section Mercury

instance {R : Type} (entities : List (EntityRow R)) (ns name kind : String) :
    Decidable (SenseStored entities ns name kind) :=
  inferInstanceAs (Decidable (∃ row ∈ entities, row.ns = ns ∧ row.name = name ∧ row.kind = some kind))

def mercuryOf (kind : String) : ExtractedEntity Milli where
  name := "mercury"
  kind := some kind
  description := none
  confidence := ⟨1000⟩

def mercuryTexts : Environment Milli :=
  { Environment.scripted 0 (fun _ => .ok {}) with
    extract := fun _ text _ => .ok { entities := [mercuryOf text] } }

def mercuryRequest (kind : String) : IngestRequest where
  source := .text "doc" kind
  ns := "docs"
  chunkStrategy := "sentence_aware"

theorem element_merged :
    let before := attempts Runtime.plain mercuryTexts []
    let middle := (runJob Runtime.plain mercuryTexts before (mercuryRequest "planet")).2
    let after := (runJob Runtime.plain mercuryTexts middle (mercuryRequest "element")).2
    (runJob Runtime.plain mercuryTexts before (mercuryRequest "planet")).1 =
        .ok (.completed 2 1) ∧
      (runJob Runtime.plain mercuryTexts middle (mercuryRequest "element")).1 =
        .ok (.completed 8 1) ∧
      (∃ x ∈ unitVector, x ≠ ⟨0⟩) ∧
      mentionsOf Runtime.plain mercuryTexts before (mercuryRequest "planet") =
        [⟨mercuryOf "planet", 5⟩] ∧
      mentionsOf Runtime.plain mercuryTexts middle (mercuryRequest "element") =
        [⟨mercuryOf "element", 5⟩] ∧
      SenseStored after.1.entities "docs" "mercury" "planet" ∧
      ¬ SenseStored after.1.entities "docs" "mercury" "element" := by
  decide +kernel

def faintTexts : Environment Milli :=
  { mercuryTexts with embedBatch := fun _ texts => .ok (texts.map (fun _ => [⟨1⟩])) }

/-- What the two texts leave, under two embedders of non-zero vectors: unit vectors merge the two
senses, and the rows that faint ones leave keep them apart. -/
theorem mercury_senses :
    let unit := (runJob Runtime.plain mercuryTexts (attempts Runtime.plain mercuryTexts [])
      (mercuryRequest "planet")).2
    let faint := (runJob Runtime.plain faintTexts (attempts Runtime.plain faintTexts [])
      (mercuryRequest "planet")).2
    let last := (runJob Runtime.plain faintTexts faint (mercuryRequest "element")).2
    ¬ KeepsApart Runtime.plain (fun _ => unitVector) unit.1.entities "docs" "mercury" "planet"
        "element" 5 ((mentionsOf Runtime.plain mercuryTexts unit (mercuryRequest "element")).map
          (·.entity)) ∧
      SenseStored last.1.entities "docs" "mercury" "planet" ∧
      SenseStored last.1.entities "docs" "mercury" "element" := by
  intro unit faint last
  constructor
  · intro kept
    have planet : (⟨mercuryOf "planet", 5⟩ : Linked Milli) ∈ mentionsOf Runtime.plain mercuryTexts
        (attempts Runtime.plain mercuryTexts []) (mercuryRequest "planet") := by
      decide +kernel
    have element : (⟨mercuryOf "element", 5⟩ : Linked Milli) ∈
        mentionsOf Runtime.plain mercuryTexts unit (mercuryRequest "element") := by
      decide +kernel
    have apart := (senses_apart_iff Runtime.plain mercuryTexts (fun _ => unitVector)
      (fun _ _ => rfl) [] (mercuryRequest "planet") (mercuryRequest "element") rfl _ _ "planet"
      "element" ⟨2, 1, by decide +kernel⟩ ⟨8, 1, by decide +kernel⟩ planet element rfl rfl rfl
      (by decide)).mpr kept
    exact apart.1 rfl
  · have planet : (⟨mercuryOf "planet", 5⟩ : Linked Milli) ∈ mentionsOf Runtime.plain faintTexts
        (attempts Runtime.plain faintTexts []) (mercuryRequest "planet") := by
      decide +kernel
    have element : (⟨mercuryOf "element", 11⟩ : Linked Milli) ∈
        mentionsOf Runtime.plain faintTexts faint (mercuryRequest "element") := by
      decide +kernel
    have missed : hit Runtime.plain (fun _ => [⟨1⟩]) faint.1.entities "docs" "mercury" = none := by
      decide +kernel
    have stored : SenseStored faint.1.entities "docs" "mercury" "planet" := by decide +kernel
    have kept : KeepsApart Runtime.plain (fun _ => [⟨1⟩]) faint.1.entities "docs" "mercury"
        "planet" "element" 5 ((mentionsOf Runtime.plain faintTexts faint
          (mercuryRequest "element")).map (·.entity)) := by
      rw [KeepsApart, missed]
      exact .inl stored
    have apart := (senses_apart_iff Runtime.plain faintTexts (fun _ => [⟨1⟩])
      (fun _ _ => rfl) [] (mercuryRequest "planet") (mercuryRequest "element") rfl _ _ "planet"
      "element" ⟨2, 1, by decide +kernel⟩ ⟨8, 1, by decide +kernel⟩ planet element rfl rfl rfl
      (by decide)).mpr kept
    exact apart.2

end Mercury

end FakePgClient

end PgRaggraph

import PgRaggraph.Core.Samples
import PgRaggraph.Queue.Exclusion
import PgRaggraph.Store.Adapters

/-! The background worker of the extension: one claimed job inside `BackgroundWorker::transaction`. -/

namespace PgRaggraph

open Interaction Interaction.Fallible

variable {R : Type}

inductive JobOutcome where
  | completed (documentId : Uuid) (chunkCount : Nat)
  | skipped (existingHash : String)
  | failed (message : String)
  deriving DecidableEq, Repr

def JobOutcome.ofResult (rt : Runtime) : CoreResult RunJobOutcome → JobOutcome
  | .ok (.completed documentId chunkCount) => .completed documentId chunkCount
  | .ok (.skippedDuplicate existingHash) => .skipped existingHash
  | .error e => .failed (rt.debug e)

/-- `BackgroundWorker::transaction` commits when its closure returns and aborts when it unwinds. -/
def backgroundTransaction {α : Type} (committed : Tables R)
    (closure : Except PgError (α × Session R)) : Option α × Tables R :=
  match closure with
  | .ok (value, session) => (some value, committed ++ session.tx.own)
  | .error _ => (none, committed)

section Worker

variable [F32 R] (rt : Runtime) (srv : Server R) (env : Environment R) (committed : Tables R)

def spiRun (req : IngestRequest) : Except PgError (CoreResult RunJobOutcome × Session R) :=
  Program.run (Adapter.spi.handler srv env committed) (runJob rt req).run {}

/-- The outcome of a claimed job and the tables after its transaction. An unwound job has no
outcome: the worker process ends and is restarted. -/
def runClaimed (job : ClaimedJob) : Option JobOutcome × Tables R :=
  let ended := backgroundTransaction committed (spiRun rt srv env committed (buildRequest job))
  (ended.1.map (JobOutcome.ofResult rt), ended.2)

end Worker

def recordOutcome (now : Int) (id : Uuid) (jobs : List JobRow) : Option JobOutcome → List JobRow
  | some (.completed _ _) => completeJob now id jobs
  | some (.skipped _) => completeJob now id jobs
  | some (.failed message) => failJob now id message jobs
  | none => jobs

/-- Marking the row is a finaliser of the queue, so what holds of its runs holds of this worker. -/
theorem record_outcome_steps {s : Queue.System} {worker : Nat} {ex : Queue.Executing}
    (executing : s.workers worker = some ex) (outcome : JobOutcome) :
    ∃ action, Queue.Action.finalises action = some worker ∧
      Queue.step s action = some { s with
        jobs := recordOutcome s.now ex.job s.jobs (some outcome)
        workers := s.assign worker none } := by
  cases outcome with
  | completed documentId chunkCount =>
      exact ⟨.complete worker, rfl, by simp [Queue.step, executing, recordOutcome]⟩
  | skipped existingHash =>
      exact ⟨.complete worker, rfl, by simp [Queue.step, executing, recordOutcome]⟩
  | failed message =>
      exact ⟨.fail worker message, rfl, by simp [Queue.step, executing, recordOutcome]⟩

def Event.insertsDocument (event : Event R) : Bool :=
  match event.request with
  | .client (.insertDocument _) => true
  | _ => false

def Event.fails : Event R → Bool
  | ⟨.env (.extract _ _), .error _⟩ => true
  | ⟨.env (.embedBatch _), .error _⟩ => true
  | ⟨.env (.embedBatch _), .ok []⟩ => true
  | _ => false

def lateFailure : List (Event R) → Bool
  | [] => false
  | event :: rest => if event.insertsDocument then rest.any Event.fails else lateFailure rest

theorem late_failure_before {log : List (Event R)} (before : log.any Event.insertsDocument = false) :
    lateFailure log = false := by
  induction log with
  | nil => rfl
  | cons event rest ih =>
      rw [List.any_cons, Bool.or_eq_false_iff] at before
      rw [lateFailure, if_neg (by simp [before.1])]
      exact ih before.2

theorem late_failure_after {log : List (Event R)} (inserted : log.any Event.insertsDocument = true)
    (event : Event R) : lateFailure (log ++ [event]) = (lateFailure log || event.fails) := by
  induction log with
  | nil => cases inserted
  | cons first rest ih =>
      rw [List.cons_append, lateFailure, lateFailure]
      by_cases here : first.insertsDocument = true
      · rw [if_pos here, if_pos here, List.any_append]
        simp
      · rw [if_neg here, if_neg here]
        rw [List.any_cons, Bool.or_eq_true] at inserted
        exact ih (inserted.resolve_left here)

theorem late_failure_harmless (log : List (Event R)) {event : Event R}
    (succeeds : event.fails = false) : lateFailure (log ++ [event]) = lateFailure log := by
  induction log with
  | nil => simp [lateFailure]
  | cons first rest ih =>
      rw [List.cons_append, lateFailure, lateFailure, ih, List.any_append]
      simp [succeeds]

variable {srv : Server R} {env : Environment R} {committed : Tables R}

structure Unwritten (session : Session R) : Prop where
  clean : session.tx = {}
  before : session.log.any Event.insertsDocument = false

structure Written (session : Session R) : Prop where
  running : session.tx.aborted = none
  stored : session.tx.own.documents ≠ []
  inserted : session.log.any Event.insertsDocument = true
  undisturbed : lateFailure session.log = false

/-- A stored document of another namespace took the hash, and `doc` was dropped. -/
structure Dropped (env : Environment R) (docId : Uuid) (session : Session R) : Prop where
  clean : session.tx = {}
  drawn : ∃ k, env.newUuid k = docId

def WorkerPost (result : CoreResult RunJobOutcome) (session : Session R) : Prop :=
  match result with
  | .ok _ => lateFailure session.log = false
  | .error _ => (session.tx = {} ∧ lateFailure session.log = false) ∨
      (session.tx.own.documents ≠ [] ∧ lateFailure session.log = true)

theorem Unwritten.later {session : Session R} (unwritten : Unwritten session) {tick : Nat}
    {event : Event R} (other : event.insertsDocument = false) :
    Unwritten { session with tick := tick, log := session.log ++ [event] } where
  clean := unwritten.clean
  before := by
    rw [List.any_append, unwritten.before]
    simp [other]

theorem Unwritten.post {session : Session R} (unwritten : Unwritten session) (e : CoreError) :
    WorkerPost (.error e) session :=
  .inl ⟨unwritten.clean, late_failure_before unwritten.before⟩

theorem Written.later {session : Session R} (written : Written session) {tick : Nat}
    {event : Event R} (succeeds : event.fails = false) :
    Written { session with tick := tick, log := session.log ++ [event] } where
  running := written.running
  stored := written.stored
  inserted := by
    rw [List.any_append, written.inserted, Bool.true_or]
  undisturbed := by
    rw [late_failure_harmless _ succeeds]
    exact written.undisturbed

theorem Written.failed {session : Session R} (written : Written session) {tick : Nat}
    {event : Event R} (fails : event.fails = true) (e : CoreError) :
    WorkerPost (.error e) { session with tick := tick, log := session.log ++ [event] } := by
  refine .inr ⟨written.stored, ?_⟩
  rw [late_failure_after written.inserted, fails, Bool.or_true]

theorem persisted_rolls_back {session : Session R} {e : CoreError} {event : Event R}
    (failed : WorkerPost (.error e) session) (succeeds : event.fails = false) :
    WorkerPost (.error e) { session with log := session.log ++ [event] } := by
  simpa only [WorkerPost, late_failure_harmless _ succeeds] using failed

variable [F32 R]

theorem spi_answers {tx after : Transaction R} {request : ClientCall R}
    {answer : CoreResult request.Value}
    (performed : Adapter.spi.perform srv committed tx request = .ok (answer, after)) :
    ∃ value, answer = .ok value ∧ statement srv committed tx request = .ok (value, after) := by
  rw [Adapter.perform] at performed
  split at performed
  · rename_i value reached executed
    cases performed
    exact ⟨value, rfl, executed⟩
  · cases performed

theorem Written.performed {session : Session R} (written : Written session)
    {request : ClientCall R} (asks : request.silent = false) {answer : CoreResult request.Value}
    {tx : Transaction R}
    (performed : Adapter.spi.perform srv committed session.tx request = .ok (answer, tx)) :
    ∃ value, answer = .ok value ∧
      Written { session with tx := tx, log := session.log ++ [⟨.client request, answer⟩] } := by
  rcases spi_answers performed with ⟨value, rfl, executed⟩
  rcases statement_succeeds asks executed with ⟨running, -, delta, -, rfl⟩
  have later : Written { session with log := session.log ++ [⟨.client request, .ok value⟩] } :=
    written.later rfl
  refine ⟨value, rfl, running, ?_, later.inserted, later.undisturbed⟩
  rw [Tables.append_documents]
  exact List.append_ne_nil_of_left_ne_nil written.stored _

theorem written_extraction (ns : String) (chunkId : Uuid) :
    ExtractionRule (Adapter.spi.handler srv env committed).spec ns chunkId
      (fun _ => Written) (fun e => WorkerPost (.error e)) where
  monotone := Handler.spec_monotone _
  forget := fun _ _ written => written
  extracted := by
    intro chunkText session written
    rw [adapter_spec_env]
    rcases answered : env.answer session.tick (.extract chunkText ns) with e | extraction
    · exact written.failed rfl e
    · exact written.later rfl
  embedded := by
    intro name ids session written
    rw [adapter_spec_env]
    rcases answered : env.answer session.tick (.embedBatch [name]) with e | vectors
    · exact written.failed rfl e
    · rcases vectors with _ | ⟨nameEmb, rest⟩
      · exact ⟨fun none_ => absurd rfl none_, fun _ => written.failed rfl _⟩
      · exact ⟨fun _ => written.later rfl, fun none_ => absurd none_ (List.cons_ne_nil _ _)⟩
  resolved := by
    intro name kind nameEmb description ids session written
    rw [adapter_spec_client]
    intro answer tx performed
    rcases written.performed rfl performed with ⟨cands, rfl, searched⟩
    refine ⟨fun _ _ => searched, ?_⟩
    rw [adapter_spec_env, adapter_spec_client]
    intro answer tx performed
    rcases (searched.later rfl).performed rfl performed with ⟨_, rfl, inserted⟩
    exact inserted
  linked := by
    intro id confidence ids session _ written
    rw [adapter_spec_client]
    intro answer tx performed
    rcases written.performed rfl performed with ⟨_, rfl, linked⟩
    exact linked
  related := by
    intro src dst kind weight ids session _ _ written
    rw [adapter_spec_env, adapter_spec_client]
    intro answer tx performed
    rcases (written.later rfl).performed rfl performed with ⟨_, rfl, related⟩
    exact related

theorem dropped_unwinds (fresh : FreshFor env committed) {docId : Uuid} {session : Session R}
    (dropped : Dropped env docId session) {chunk : ChunkRow R} (owned : chunk.documentId = docId)
    {answer : CoreResult Unit} {tx : Transaction R} :
    Adapter.spi.perform srv committed session.tx (.insertChunk chunk) ≠ .ok (answer, tx) := by
  intro performed
  rcases dropped.drawn with ⟨k, drawn⟩
  rcases spi_answers performed with ⟨_, -, executed⟩
  rcases statement_succeeds rfl executed with ⟨-, -, delta, evaluated, -⟩
  rw [dropped.clean, Tables.append_empty] at evaluated
  rcases insertInto_added evaluated with ⟨conflict, -⟩ | ⟨-, -, resolved, -⟩
  · rcases List.any_eq_true.mp conflict with ⟨stored, member, same⟩
    have same := (of_decide_eq_true same).1
    exact fresh.parents stored member k (by rw [same, owned, drawn])
  · have parent := resolved _ List.mem_cons_self
    rcases List.any_eq_true.mp parent with ⟨stored, member, same⟩
    have same := of_decide_eq_true same
    exact fresh.documents stored member k (by rw [same, owned, drawn])

theorem worker_persistence (fresh : FreshFor env committed) (docId : Uuid) (ns : String) :
    PersistRule (Adapter.spi.handler srv env committed).spec docId ns
      (fun rest session => Written session ∨ (Dropped env docId session ∧ rest ≠ []))
      (fun _ _ => Written) (fun e => WorkerPost (.error e)) where
  monotone := Handler.spec_monotone _
  stored := by
    intro item rest session holds
    rw [adapter_spec_client]
    intro answer tx performed
    rcases holds with written | ⟨dropped, -⟩
    · rcases written.performed rfl performed with ⟨_, rfl, stored⟩
      exact stored
    · exact absurd performed (dropped_unwinds fresh dropped rfl)
  extracted := by
    intro item rest session written
    refine Program.wp_mono (Handler.spec_monotone _) _ _ ?_
      (wp_persistChunkExtraction (written_extraction ns item.2) item.1.1.text session written)
    exact Settles.mono (fun _ _ kept => .inl kept) (fun _ _ stop => stop)

theorem worker_preparation (rt : Runtime) (req : IngestRequest) :
    PreparationRule (Adapter.spi.handler srv env committed).spec rt req Unwritten
      (fun _ _ => Unwritten) (fun _ _ => Unwritten)
      (fun _ _ _ _ ids session => Unwritten session ∧ ∀ id ∈ ids, ∃ k, env.newUuid k = id)
      WorkerPost where
  monotone := Handler.spec_monotone _
  read := by
    intro path session _ unwritten
    rw [adapter_spec_env, Environment.answer]
    have later : ∀ answer, Unwritten { session with
        tick := session.tick + 1
        log := session.log ++ [⟨.env (.readFile path), answer⟩] } :=
      fun _ => unwritten.later rfl
    generalize env.readFile session.tick path = answer
    rcases answer with e | bytes
    · exact (later _).post _
    · exact later _
  carried := fun _ _ _ _ unwritten => unwritten
  checked := by
    intro sourceName bytes session unwritten
    rw [adapter_spec_client]
    intro answer tx performed
    rcases spi_answers performed with ⟨found, rfl, -⟩
    rcases check_answered performed with ⟨-, rfl⟩
    have later : Unwritten { session with log := session.log ++
        [⟨.client (.documentExistsByHash req.ns (contentHash rt bytes)), .ok found⟩] } :=
      unwritten.later rfl
    rcases found with _ | _
    · exact later
    · exact late_failure_before later.before
  unchunked := fun _ _ e _ _ unwritten => unwritten.post e
  embedded := by
    intro sourceName bytes chunks session _ unwritten
    rw [adapter_spec_env, Environment.answer]
    have later : ∀ answer, Unwritten { session with
        tick := session.tick + 1
        log := session.log ++ [⟨.env (.embedBatch (chunks.map (·.text))), answer⟩] } :=
      fun _ => unwritten.later rfl
    generalize env.embedBatch session.tick (chunks.map (·.text)) = answer
    rcases answer with e | embeddings
    · exact (later _).post e
    · simp only [Settles]
      split
      · exact (later _).post _
      · exact ⟨later _, fun id member => absurd member List.not_mem_nil⟩
  minted := by
    intro sourceName bytes chunks embeddings ids session holds
    rw [adapter_spec_env]
    refine ⟨holds.1.later rfl, ?_⟩
    intro id member
    rcases List.mem_append.mp member with earlier | new
    · exact holds.2 id earlier
    · exact ⟨session.tick, (List.mem_singleton.mp new).symm⟩

theorem document_inserted {doc : DocRow} {session : Session R} (unwritten : Unwritten session)
    (drawn : ∃ k, env.newUuid k = doc.id) :
    (Adapter.spi.handler srv env committed).spec (.client (.insertDocument doc)) session
      (Settles (fun _ after => Written after ∨ Dropped env doc.id after)
        (fun e => WorkerPost (.error e))) := by
  rw [adapter_spec_client]
  intro answer tx performed
  rcases spi_answers performed with ⟨_, rfl, executed⟩
  rcases statement_succeeds rfl executed with ⟨running, -, delta, evaluated, rfl⟩
  rcases insertInto_added evaluated with ⟨-, none_⟩ | ⟨-, -, -, added⟩
  · have none_ : delta = {} := none_
    refine .inr ⟨?_, drawn⟩
    rw [none_, Tables.append_empty]
    exact unwritten.clean
  · have added : delta = { documents := [doc] } := added
    refine .inl ⟨running, ?_, ?_, ?_⟩
    · rw [added, Tables.append_documents]
      exact List.append_ne_nil_of_right_ne_nil _ (List.cons_ne_nil _ _)
    · rw [List.any_append]
      exact Bool.or_true _
    · rw [late_failure_harmless _ rfl]
      exact late_failure_before unwritten.before

theorem worker_run (rt : Runtime) (fresh : FreshFor env committed) (req : IngestRequest)
    (result : CoreResult RunJobOutcome) (session : Session R)
    (finished : spiRun rt srv env committed req = .ok (result, session)) :
    WorkerPost result session := by
  have monotone : (Adapter.spi.handler srv env committed).spec.Monotone :=
    Handler.spec_monotone _
  refine (Program.wp_run _ _ _ _).mp (wp_runJob (worker_preparation rt req) {} ⟨rfl, rfl⟩ ?_)
    result session finished
  intro doc bytes chunks embeddings chunkIds middle ready holds
  have drawn : ∃ k, env.newUuid k = doc.id := holds.2 doc.id (by simp)
  refine Program.wp_mono monotone _ _ ?_ (wp_persistDocument _
    (worker_persistence fresh doc.id doc.ns) chunks embeddings chunkIds middle ?_)
  · intro persisted after settled
    rcases persisted with e | n
    · rw [finishJob, Fallible.wp_bind, wp_lift, wp_rollback, adapter_spec_client]
      intro answer tx performed
      cases performed
      exact persisted_rolls_back settled rfl
    · rw [finishJob, Fallible.wp_bind, wp_commit, adapter_spec_client]
      intro answer tx performed
      cases performed
      rcases settled.2 with written | ⟨-, none_⟩
      · exact (written.later rfl).undisturbed
      · exact absurd rfl none_
  · refine monotone _ _ _ _ ?_ (document_inserted holds.1 drawn)
    exact Settles.mono
      (fun _ _ either => either.imp id (fun dropped => ⟨dropped, ready.items_nonempty⟩))
      (fun _ _ stop => stop)

/-- A job that ends on the Failed branch leaves the tables as they were exactly when no provider or
embedder call failed after its document was inserted. -/
theorem failed_branch_atomic_iff (rt : Runtime) (srv : Server R) (env : Environment R)
    (committed : Tables R) (job : ClaimedJob) (fresh : FreshFor env committed) :
    (∀ message, (runClaimed rt srv env committed job).1 = some (.failed message) →
        (runClaimed rt srv env committed job).2 = committed) ↔
      ∀ result session, spiRun rt srv env committed (buildRequest job) = .ok (result, session) →
        lateFailure session.log = false := by
  rcases ended : spiRun rt srv env committed (buildRequest job) with e | ⟨result, session⟩
  · simp [runClaimed, ended, backgroundTransaction]
  have post := worker_run rt fresh (buildRequest job) result session ended
  simp only [runClaimed, ended, backgroundTransaction, Option.map_some, Option.some_inj,
    Except.ok.injEq, Prod.mk.injEq]
  rcases result with e | outcome
  · constructor
    · intro unchanged reached last same
      rw [← same.2]
      rcases post with ⟨-, undisturbed⟩ | ⟨stored, -⟩
      · exact undisturbed
      · have same := congrArg Tables.documents (unchanged (rt.debug e) rfl)
        rw [Tables.append_documents] at same
        exact absurd (List.append_right_eq_self.mp same) stored
    · intro undisturbed message _
      rcases post with ⟨clean, -⟩ | ⟨-, late⟩
      · rw [clean]
        exact Tables.append_empty committed
      · rw [undisturbed _ session ⟨rfl, rfl⟩] at late
        cases late
  · constructor
    · intro _ reached last same
      rw [← same.2]
      exact post
    · intro _ message failed
      rcases outcome with ⟨documentId, chunkCount⟩ | hash
      · cases failed
      · cases failed

def helloJob : ClaimedJob where
  id := 1
  source := some "hello.md"
  ns := "docs"
  chunkStrategy := some "auto"
  payload := some "hello".toUTF8
  attemptCount := 1

def emptyNamespace : Tables Milli := { namespaces := ["docs"] }

def timingOut : Environment Milli := .scripted 100 fun _ => .error (.llm "timeout")

/-- The failed job's document and chunk are committed, and the retry is skipped as a duplicate. -/
theorem failed_job_leaves_document :
    ∃ message hash after,
      runClaimed .plain (.plain Milli) timingOut emptyNamespace helloJob =
          (some (.failed message), after) ∧
        after.documents ≠ emptyNamespace.documents ∧
        (runClaimed .plain (.plain Milli) (.scripted 200 fun _ => .ok {}) after helloJob).1 =
          some (.skipped hash) :=
  ⟨_, _, _, rfl, by decide, rfl⟩

theorem failed_branch_atomic_sample :
    (∀ message, (runClaimed .plain (.plain Milli) timingOut emptyNamespace helloJob).1 =
          some (.failed message) →
        (runClaimed .plain (.plain Milli) timingOut emptyNamespace helloJob).2 = emptyNamespace) ↔
      ∀ result session, spiRun .plain (.plain Milli) timingOut emptyNamespace
          (buildRequest helloJob) = .ok (result, session) → lateFailure session.log = false :=
  failed_branch_atomic_iff .plain (.plain Milli) timingOut emptyNamespace helloJob
    ⟨nofun, nofun, nofun⟩

end PgRaggraph

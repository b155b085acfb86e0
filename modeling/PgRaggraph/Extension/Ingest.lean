import PgRaggraph.Sidecar.Completeness

/-! `pgrg.ingest`, `pgrg.ingest_text` and `pgrg.ingest_bytes`: from the call to the request that a
worker of the extension or the sidecar rebuilds from the claimed row. -/

namespace PgRaggraph

open Interaction

def enqueuePayload (name : String) (bytes : Bytes) (ns chunkStrategy : String) (id : Uuid) :
    Queue.Action :=
  .enqueue id name ns chunkStrategy (some bytes)

def enqueuePath (path ns chunkStrategy : String) (id : Uuid) : Queue.Action :=
  .enqueue id path ns chunkStrategy none

inductive IngestCall where
  | ingest (path : String)
  | ingestText (name content : String)
  | ingestBytes (name : String) (bytes : Bytes)
  deriving DecidableEq

namespace IngestCall

def enqueue : IngestCall → String → String → Uuid → Queue.Action
  | ingest path => enqueuePath path
  | ingestText name content => enqueuePayload name content.toUTF8
  | ingestBytes name bytes => enqueuePayload name bytes

def submitted : IngestCall → Option (String × Bytes)
  | ingest _ => none
  | ingestText name content => some (name, content.toUTF8)
  | ingestBytes name bytes => some (name, bytes)

def columns (ns chunkStrategy : String) (id : Uuid) : IngestCall → Submission
  | ingest path => ⟨id, path, ns, chunkStrategy, none⟩
  | ingestText name content => ⟨id, name, ns, chunkStrategy, some content.toUTF8⟩
  | ingestBytes name bytes => ⟨id, name, ns, chunkStrategy, some bytes⟩

theorem enqueue_submitted (call : IngestCall) (ns chunkStrategy : String) (id : Uuid) :
    (call.enqueue ns chunkStrategy id).submitted = [call.columns ns chunkStrategy id] := by
  cases call <;> rfl

end IngestCall

def Worker.buildRequest (job : ClaimedJob) : Except String IngestRequest :=
  let chunkStrategy := job.chunkStrategy.getD "auto"
  let ns := job.ns
  let sourceName := job.source.getD "(unnamed)"
  let source :=
    match job.payload with
    | some bytes =>
        match String.fromUTF8? bytes with
        | some text => .text sourceName text
        | none => .bytes sourceName bytes
    | none => .path sourceName
  .ok { source := source, ns := ns, chunkStrategy := chunkStrategy }

/-- The extension's worker rebuilds the sidecar's request. -/
theorem Worker.buildRequest_eq (job : ClaimedJob) :
    Worker.buildRequest job = .ok (PgRaggraph.buildRequest job) := by
  rcases job with ⟨id, source, ns, chunkStrategy, payload, attemptCount⟩
  cases payload with
  | none => rfl
  | some bytes => rfl

section Reading

variable {R : Type}

theorem readSource_carries {source : IngestSource} {name : String} {bytes : Bytes}
    (carries : Carries source name bytes) : readSource (R := R) source = pure (name, bytes) := by
  cases source with
  | path path => exact carries.elim
  | text name' content =>
      rcases carries with ⟨rfl, rfl⟩
      rfl
  | bytes name' content =>
      rcases carries with ⟨rfl, rfl⟩
      rfl

theorem prepareJob_carries (rt : Runtime) {req : IngestRequest} (other : IngestRequest)
    {name : String} {bytes : Bytes} (carries : Carries req.source name bytes)
    (carries' : Carries other.source name bytes) (ns : other.ns = req.ns)
    (strategy : other.chunkStrategy = req.chunkStrategy) :
    prepareJob (R := R) rt req = prepareJob rt other := by
  rw [prepareJob, prepareJob, readSource_carries carries, readSource_carries carries', ns, strategy]
  simp only [jobDocument, ns]

theorem prepareJob_hash (rt : Runtime) {req : IngestRequest} {name : String} {bytes : Bytes}
    (carries : Carries req.source name bytes) :
    ∃ next, prepareJob (R := R) rt req =
      documentExistsByHash req.ns (contentHash rt bytes) >>= next := by
  rw [prepareJob, readSource_carries carries]
  exact ⟨_, rfl⟩

end Reading

structure Rebuilt (R : Type) [F32 R] (rt : Runtime) (call : IngestCall) (ns chunkStrategy : String)
    (job : ClaimedJob) : Prop where
  alike : Worker.buildRequest job = .ok (buildRequest job)
  named : (buildRequest job).ns = ns
  strategy : (buildRequest job).chunkStrategy = chunkStrategy
  path : ∀ path, call = .ingest path → (buildRequest job).source = .path path
  read : ∀ name bytes, call.submitted = some (name, bytes) →
    readSource (R := R) (buildRequest job).source = pure (name, bytes)
  hashed : ∀ name bytes, call.submitted = some (name, bytes) → ∃ next,
    prepareJob (R := R) rt (buildRequest job) =
      documentExistsByHash ns (contentHash rt bytes) >>= next
  ran : ∀ name bytes, call.submitted = some (name, bytes) →
    runJob (R := R) rt (buildRequest job) =
      runJob rt { source := .bytes name bytes, ns := ns, chunkStrategy := chunkStrategy }

section Runs

variable {ns chunkStrategy : String} {id : Uuid} {call : IngestCall}

theorem rebuilt_columns (R : Type) [F32 R] (rt : Runtime) {job : JobRow}
    (same : job.submission = call.columns ns chunkStrategy id) :
    Rebuilt R rt call ns chunkStrategy (.ofRow job) := by
  have request := buildRequest_row job
  rw [same] at request
  have carried : ∀ name bytes, call.submitted = some (name, bytes) →
      Carries (buildRequest (.ofRow job)).source name bytes := by
    intro name bytes submitted
    rw [request]
    cases call with
    | ingest path => cases submitted
    | ingestText name' content =>
        cases submitted
        exact payload_carried _ rfl
    | ingestBytes name' bytes' =>
        cases submitted
        exact payload_carried _ rfl
  have named : (buildRequest (.ofRow job)).ns = ns := by
    rw [request]
    cases call <;> rfl
  have strategy : (buildRequest (.ofRow job)).chunkStrategy = chunkStrategy := by
    rw [request]
    cases call <;> rfl
  refine ⟨Worker.buildRequest_eq _, named, strategy, ?_, ?_, ?_, ?_⟩
  · rintro path rfl
    rw [request]
    rfl
  · intro name bytes submitted
    exact readSource_carries (carried name bytes submitted)
  · intro name bytes submitted
    rw [← named]
    exact prepareJob_hash rt (carried name bytes submitted)
  · intro name bytes submitted
    have inline : Carries (.bytes name bytes) name bytes := ⟨rfl, rfl⟩
    rw [runJob, runJob, prepareJob_carries rt ⟨.bytes name bytes, ns, chunkStrategy⟩
      (carried name bytes submitted) inline named.symm strategy.symm]

theorem run_submission {s last : Queue.System} {actions : List Queue.Action}
    {submission : Submission} (present : submission ∈ s.jobs.map JobRow.submission)
    (finished : Transition.run Queue.step s actions = some last) :
    submission ∈ last.jobs.map JobRow.submission := by
  have preserved : ∀ s action after, submission ∈ s.jobs.map JobRow.submission → True →
      Queue.step s action = some after → submission ∈ after.jobs.map JobRow.submission := by
    intro s action after present _ stepped
    rw [Queue.step_submissions stepped]
    exact List.mem_append_left _ present
  exact Transition.run_invariant preserved present
    (Transition.meets_always Queue.step (fun _ _ => trivial) s actions) finished

/-- Whatever happens to the queue before and after a call, its row stays there with what the call
submitted, and a worker of either kind rebuilds that from it. -/
theorem queue_payload_round_trip (R : Type) [F32 R] (rt : Runtime) (call : IngestCall)
    (ns chunkStrategy : String) (id : Uuid) (start : Int) (before after : List Queue.Action)
    {s queued last : Queue.System}
    (reached : Transition.run Queue.step { now := start } before = some s)
    (enqueued : Queue.step s (call.enqueue ns chunkStrategy id) = some queued)
    (later : Transition.run Queue.step queued after = some last) :
    (∃ job ∈ last.jobs, job.id = id) ∧
      ∀ job ∈ last.jobs, job.id = id → Rebuilt R rt call ns chunkStrategy (.ofRow job) := by
  have submitted : call.columns ns chunkStrategy id ∈ queued.jobs.map JobRow.submission := by
    rw [Queue.step_submissions enqueued, call.enqueue_submitted]
    exact List.mem_append_right _ List.mem_cons_self
  rcases List.mem_map.mp (run_submission submitted later) with ⟨row, member, same⟩
  have rowId : row.id = id := by
    have ids := congrArg Submission.id same
    cases call <;> exact ids
  have accounted : Queue.Accounted last :=
    Queue.accounted_run (Queue.accounted_step
      (Queue.accounted_run (Queue.Accounted.initial start) reached) _ enqueued) later
  refine ⟨⟨row, member, rowId⟩, ?_⟩
  intro job present own
  rw [row_unique accounted.unique present member (own.trans rowId.symm)]
  exact rebuilt_columns R rt same

end Runs

theorem queue_payload_sample : Rebuilt Milli Runtime.plain (.ingestBytes "scan" ⟨#[255]⟩) "docs"
    "auto" (.ofRow
      { id := 7, status := .running, source := "scan", ns := "docs", chunkStrategy := "auto",
        error := none, attemptCount := 1, payload := some ⟨#[255]⟩, enqueuedAt := 0,
        startedAt := some 1000000, finishedAt := none, updatedAt := 1000000 }) := by
  have trip := queue_payload_round_trip Milli Runtime.plain (.ingestBytes "scan" ⟨#[255]⟩) "docs"
    "auto" 7 0 [] [.advance 1000000, .claim 0 [] 7] rfl rfl rfl
  exact trip.2 _ List.mem_cons_self rfl

end PgRaggraph

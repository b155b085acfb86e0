import PgRaggraph.Core.Types
import Mathlib.Data.List.Nodup
import Mathlib.Tactic.Common

/-! The rows of `pgrg.ingest_jobs` and the statements that claim, finish and reap them.

The extension worker and the sidecar send the same statements. Times are microseconds. -/

namespace PgRaggraph

inductive JobStatus where
  | queued
  | running
  | completed
  | failed
  deriving DecidableEq, Repr

structure JobRow where
  id : Uuid
  status : JobStatus
  source : String
  ns : String
  chunkStrategy : String
  error : Option String
  attemptCount : Nat
  payload : Option Bytes
  enqueuedAt : Int
  startedAt : Option Int
  finishedAt : Option Int
  updatedAt : Int
  deriving DecidableEq

namespace JobRow

def terminal (job : JobRow) : Bool :=
  job.status = .completed ∨ job.status = .failed

/-- `updated_at < now() - make_interval(secs := $1)`. -/
def stale (now secs : Int) (job : JobRow) : Bool :=
  job.status = .running ∧ job.updatedAt < now - secs * 1000000

def claimed (now : Int) (job : JobRow) : JobRow :=
  { job with
    status := .running
    startedAt := some (job.startedAt.getD now)
    updatedAt := now
    attemptCount := job.attemptCount + 1 }

def completed (now : Int) (job : JobRow) : JobRow :=
  { job with status := .completed, finishedAt := some now, updatedAt := now, error := none }

def failed (now : Int) (error : String) (job : JobRow) : JobRow :=
  { job with status := .failed, finishedAt := some now, updatedAt := now, error := some error }

def requeued (now : Int) (job : JobRow) : JobRow :=
  { job with status := .queued, updatedAt := now }

def cappedOut (now : Int) (job : JobRow) : JobRow :=
  { job with
    status := .failed
    error := some (job.error.getD "" ++ " (reaper: max attempts reached)")
    finishedAt := some now
    updatedAt := now }

end JobRow

structure ClaimedJob where
  id : Uuid
  source : Option String
  ns : String
  chunkStrategy : Option String
  payload : Option Bytes
  attemptCount : Nat
  deriving DecidableEq

/-- The columns that a producer fills in and no statement changes. -/
structure Submission where
  id : Uuid
  source : String
  ns : String
  chunkStrategy : String
  payload : Option Bytes
  deriving DecidableEq

def JobRow.submission (job : JobRow) : Submission where
  id := job.id
  source := job.source
  ns := job.ns
  chunkStrategy := job.chunkStrategy
  payload := job.payload

def ClaimedJob.ofRow (job : JobRow) : ClaimedJob where
  id := job.id
  source := some job.source
  ns := job.ns
  chunkStrategy := some job.chunkStrategy
  payload := job.payload
  attemptCount := job.attemptCount

/-- `row_to_ingest_source`: a payload that is not UTF-8 stays bytes. -/
def rowToIngestSource (source : String) : Option Bytes → IngestSource
  | some bytes =>
      match String.fromUTF8? bytes with
      | some text => .text source text
      | none => .bytes source bytes
  | none => .path source

def buildRequest (job : ClaimedJob) : IngestRequest where
  source := rowToIngestSource (job.source.getD "(unnamed)") job.payload
  ns := job.ns
  chunkStrategy := job.chunkStrategy.getD "auto"

def updateWhere (condition : JobRow → Bool) (change : JobRow → JobRow) (jobs : List JobRow) :
    List JobRow :=
  jobs.map (fun job => if condition job then change job else job)

/-- The producer's transaction commits at once. `Queue.Commit.publish` has one that takes time. -/
def enqueue (now : Int) (id : Uuid) (source ns chunkStrategy : String) (payload : Option Bytes)
    (jobs : List JobRow) : List JobRow :=
  jobs ++
    [{ id := id, status := .queued, source := source, ns := ns, chunkStrategy := chunkStrategy,
       error := none, attemptCount := 0, payload := payload, enqueuedAt := now, startedAt := none,
       finishedAt := none, updatedAt := now }]

/-- `ORDER BY enqueued_at LIMIT 1 FOR UPDATE SKIP LOCKED`: a queued row that is not locked and that
no other such row precedes. -/
def isNextJob (locked : List Uuid) (jobs : List JobRow) (job : JobRow) : Bool :=
  job.status = .queued ∧ job.id ∉ locked ∧
    ∀ other ∈ jobs, other.status = .queued → other.id ∉ locked → job.enqueuedAt ≤ other.enqueuedAt

def claimJob (now : Int) (id : Uuid) : List JobRow → List JobRow :=
  updateWhere (fun job => job.id = id) (JobRow.claimed now)

def completeJob (now : Int) (id : Uuid) : List JobRow → List JobRow :=
  updateWhere (fun job => job.id = id) (JobRow.completed now)

def failJob (now : Int) (id : Uuid) (error : String) : List JobRow → List JobRow :=
  updateWhere (fun job => job.id = id) (JobRow.failed now error)

def maxAttempts : Nat := 3

/-- The first statement of `reap_stale_jobs`. -/
def reapRequeue (now secs : Int) : List JobRow → List JobRow :=
  updateWhere (fun job => job.stale now secs && job.attemptCount < maxAttempts)
    (JobRow.requeued now)

/-- The second statement of `reap_stale_jobs`. -/
def reapFail (now secs : Int) : List JobRow → List JobRow :=
  updateWhere (fun job => job.stale now secs && maxAttempts ≤ job.attemptCount)
    (JobRow.cappedOut now)

section Updates

variable {condition : JobRow → Bool} {change : JobRow → JobRow} {jobs : List JobRow}

theorem forall_updateWhere {property : JobRow → Prop} :
    (∀ job ∈ updateWhere condition change jobs, property job) ↔
      ∀ job ∈ jobs, property (if condition job then change job else job) := by
  simp only [updateWhere, List.forall_mem_map]

theorem mem_updateWhere {job : JobRow} (member : job ∈ updateWhere condition change jobs) :
    (job ∈ jobs ∧ condition job = false) ∨ ∃ old ∈ jobs, condition old = true ∧ job = change old := by
  rcases List.mem_map.mp member with ⟨old, present, rfl⟩
  by_cases matched : condition old = true
  · rw [if_pos matched]
    exact .inr ⟨old, present, matched, rfl⟩
  · rw [if_neg matched]
    exact .inl ⟨present, by simpa using matched⟩

theorem updateWhere_map {α : Type} {column : JobRow → α}
    (keeps : ∀ job, column (change job) = column job) :
    (updateWhere condition change jobs).map column = jobs.map column := by
  rw [updateWhere, List.map_map]
  apply List.map_congr_left
  intro job _
  by_cases matched : condition job
  · simp [matched, keeps]
  · simp [matched]

theorem claimJob_ids (now : Int) (id : Uuid) :
    (claimJob now id jobs).map JobRow.id = jobs.map JobRow.id :=
  updateWhere_map (fun _ => rfl)

theorem updateWhere_get (k : Nat) :
    (updateWhere condition change jobs)[k]? =
      jobs[k]?.map (fun job => if condition job then change job else job) := by
  rw [updateWhere, List.getElem?_map]

theorem row_unique (unique : (jobs.map JobRow.id).Nodup) {a b : JobRow} (first : a ∈ jobs)
    (second : b ∈ jobs) (same : a.id = b.id) : a = b :=
  List.inj_on_of_nodup_map unique first second same

end Updates

end PgRaggraph

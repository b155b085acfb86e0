import PgRaggraph.Queue.Progress

/-! Producers whose transactions take time: `now()` stamps a row with the begin of its transaction, and
the row is visible from the commit on. -/

namespace PgRaggraph.Queue

/-- What the other connections see: a statement of its own transaction, or the commit of a producer
whose transaction began earlier. -/
inductive Commit where
  | statement (action : Action)
  | publish (began : Int) (id : Uuid) (source ns chunkStrategy : String) (payload : Option Bytes)
  deriving DecidableEq

def commitStep (s : System) : Commit → Option System
  | .statement action => step s action
  | .publish began id source ns chunkStrategy payload =>
      if began ≤ s.now then
        (step { s with now := began } (.enqueue id source ns chunkStrategy payload)).map
          (fun after => { after with now := s.now })
      else none

namespace Commit

def elapsed : Commit → Nat
  | .statement action => action.elapsed
  | .publish _ _ _ _ _ _ => 0

def worker : Commit → Option Nat
  | .statement action => action.worker
  | .publish _ _ _ _ _ _ => none

end Commit

theorem step_publish {s after : System} {began : Int} {id : Uuid}
    {source ns chunkStrategy : String} {payload : Option Bytes}
    (stepped : commitStep s (.publish began id source ns chunkStrategy payload) = some after) :
    id ∉ s.jobs.map JobRow.id ∧
      after = { s with jobs := enqueue began id source ns chunkStrategy payload s.jobs } := by
  rw [commitStep] at stepped
  split at stepped
  · rcases Option.map_eq_some_iff.mp stepped with ⟨stamped, moved, rfl⟩
    rcases step_enqueue moved with ⟨fresh, rfl⟩
    exact ⟨fresh, rfl⟩
  · cases stepped

section Steps

variable {s after : System} {commit : Commit}

theorem accounted_commit (accounted : Accounted s) (stepped : commitStep s commit = some after) :
    Accounted after := by
  cases commit with
  | statement action => exact accounted_step accounted action stepped
  | publish began id source ns chunkStrategy payload =>
      rcases step_publish stepped with ⟨fresh, rfl⟩
      have stamped : Accounted { s with now := began } :=
        ⟨accounted.unique, accounted.counted, accounted.capped, accounted.known, accounted.past,
          accounted.distinct, accounted.held⟩
      have added := stamped.enqueued fresh source ns chunkStrategy payload
      exact ⟨added.unique, added.counted, added.capped, added.known, added.past, added.distinct,
        added.held⟩

theorem accounted_commits {commits : List Commit} (accounted : Accounted s)
    (finished : Transition.run commitStep s commits = some after) : Accounted after :=
  Transition.run_invariant (fun _ _ _ holds _ stepped => accounted_commit holds stepped) accounted
    (Transition.meets_always commitStep (fun _ _ => trivial) s commits) finished

theorem commit_clock (stepped : commitStep s commit = some after) :
    after.now = s.now + commit.elapsed := by
  cases commit with
  | statement action => exact step_clock stepped
  | publish began id source ns chunkStrategy payload =>
      rcases step_publish stepped with ⟨-, rfl⟩
      exact (Int.add_zero _).symm

theorem commit_now (stepped : commitStep s commit = some after) : s.now ≤ after.now := by
  rw [commit_clock stepped]
  omega

theorem commit_row (unique : (s.jobs.map JobRow.id).Nodup)
    (stepped : commitStep s commit = some after) {k : Nat} {job : JobRow}
    (stored : s.jobs[k]? = some job) : ∃ next, after.jobs[k]? = some next ∧
      (next = job ∨ ∃ action, commit = .statement action ∧ RowStep s action job next) := by
  cases commit with
  | statement action =>
      rcases step_row unique stepped stored with ⟨next, placed, moved⟩
      exact ⟨next, placed, .inr ⟨action, rfl, moved⟩⟩
  | publish began id source ns chunkStrategy payload =>
      rcases step_publish stepped with ⟨-, rfl⟩
      refine ⟨job, ?_, .inl rfl⟩
      exact (List.getElem?_append_left (List.getElem?_eq_some_iff.mp stored).1).trans stored

end Steps

end PgRaggraph.Queue

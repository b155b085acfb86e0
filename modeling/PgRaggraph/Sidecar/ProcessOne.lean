import PgRaggraph.Queue.Exclusion
import PgRaggraph.Store.Concurrent

/-! Any number of sidecar workers and reapers over one queue and one database.

A worker is a process that repeats `process_one`; every statement it sends is one step, and it may
crash or lose its connection between any two of them. -/

namespace PgRaggraph

open Interaction

variable {R : Type}

def Environment.mocked (env : Environment R) : Environment R :=
  { env with extract := fun _ _ _ => .ok {} }

namespace Sidecar

/-- Where `process_one` stands with the job it claimed. -/
inductive Phase (R : Type) where
  | claimed
  | working (r : Running R)
  | committed
  | rolledBack (error : String)

structure Process (R : Type) where
  run : Nat
  job : ClaimedJob
  phase : Phase R

structure System (R : Type) where
  queue : Queue.System
  tables : Tables R
  processes : Nat → Option (Process R) := fun _ => none

/-- What the run of a sidecar fleet depends on. Each claim gets an embedder and UUID source of its
own; no two of them draw the same identifier. -/
structure Deployment (R : Type) where
  rt : Runtime
  srv : Server R
  workers : Nat
  env : Nat → Environment R
  distinct : ∀ m n i j, (env m).newUuid i = (env n).newUuid j → m = n

inductive Action where
  | enqueue (id : Uuid) (source ns chunkStrategy : String) (payload : Bytes)
  | reapRequeue (secs : Int)
  | reapFail (secs : Int)
  | advance (micros : Nat)
  | claim (w : Nat) (locked : List Uuid) (id : Uuid)
  | beginJob (w : Nat)
  | call (w : Nat)
  | commit (w : Nat)
  | rollback (w : Nat)
  | complete (w : Nat)
  | fail (w : Nat)
  | crash (w : Nat)
  deriving DecidableEq

namespace System

def assign (s : System R) (w : Nat) (process : Option (Process R)) : Nat → Option (Process R) :=
  fun v => if v = w then process else s.processes v

def running (s : System R) (w : Nat) : Option (Running R) :=
  match s.processes w with
  | some ⟨_, _, .working r⟩ => some r
  | _ => none

/-- Another worker holds an uncommitted row that the next statement of `w` meets. -/
def waits (d : Deployment R) (s : System R) (w : Nat) : Bool :=
  (s.running w).any (fun r =>
    (List.range d.workers).any (fun v =>
      v ≠ w && (s.running v).any (fun holder => r.waitsFor d.srv holder)))

end System

def queueStep (s : System R) (action : Queue.Action) : Option (System R) :=
  (Queue.step s.queue action).map (fun queue => { s with queue := queue })

def endCycle (s : System R) (w : Nat) (action : Queue.Action) : Option (System R) :=
  (Queue.step s.queue action).map (fun queue =>
    { s with queue := queue, processes := s.assign w none })

variable [F32 R]

def step (d : Deployment R) (s : System R) : Action → Option (System R)
  | .enqueue id source ns chunkStrategy payload =>
      queueStep s (.enqueue id source ns chunkStrategy (some payload))
  | .reapRequeue secs => queueStep s (.reapRequeue secs)
  | .reapFail secs => queueStep s (.reapFail secs)
  | .advance micros => queueStep s (.advance micros)
  | .claim w locked id =>
      if w < d.workers then
        (Queue.step s.queue (.claim w locked id)).bind (fun queue =>
          (queue.jobs.find? (fun job => job.id = id)).map (fun job =>
            { s with
              queue := queue
              processes := s.assign w
                (some { run := s.queue.claims.length, job := .ofRow job, phase := .claimed }) }))
      else none
  | .beginJob w =>
      match s.processes w with
      | some ⟨run, job, .claimed⟩ =>
          some { s with processes := s.assign w (some ⟨run, job, .working
            { env := (d.env run).mocked, rest := (runJob d.rt (buildRequest job)).run }⟩) }
      | _ => none
  | .call w =>
      match s.processes w with
      | some ⟨run, job, .working r⟩ =>
          if s.waits d w then none
          else
            match r.advance .tokio d.srv s.tables with
            | some (.ok after) =>
                some { s with processes := s.assign w (some ⟨run, job, .working after⟩) }
            | _ => none
      | _ => none
  | .commit w =>
      match s.processes w with
      | some ⟨run, job, .working { session := session, rest := .done (.ok _), .. }⟩ =>
          some { s with
            tables := s.tables ++ session.tx.own
            processes := s.assign w (some ⟨run, job, .committed⟩) }
      | _ => none
  | .rollback w =>
      match s.processes w with
      | some ⟨run, job, .working { rest := .done (.error e), .. }⟩ =>
          some { s with processes := s.assign w (some ⟨run, job, .rolledBack (d.rt.debug e)⟩) }
      | _ => none
  | .complete w =>
      match s.processes w with
      | some ⟨_, _, .committed⟩ => endCycle s w (.complete w)
      | _ => none
  | .fail w =>
      match s.processes w with
      | some ⟨_, _, .rolledBack error⟩ => endCycle s w (.fail w error)
      | _ => none
  | .crash w => endCycle s w (.crash w)

def Action.outside : Action → Option Queue.Action
  | .enqueue id source ns chunkStrategy payload =>
      some (.enqueue id source ns chunkStrategy (some payload))
  | .reapRequeue secs => some (.reapRequeue secs)
  | .reapFail secs => some (.reapFail secs)
  | .advance micros => some (.advance micros)
  | _ => none

inductive Moves (d : Deployment R) (s : System R) : Action → System R → Prop where
  | queue (action : Action) (sent : Queue.Action) (queue : Queue.System)
      (outside : action.outside = some sent) (stepped : Queue.step s.queue sent = some queue) :
      Moves d s action { s with queue := queue }
  | claim (w : Nat) (locked : List Uuid) (id : Uuid) (queue : Queue.System) (row : JobRow)
      (listed : w < d.workers) (stepped : Queue.step s.queue (.claim w locked id) = some queue)
      (stored : row ∈ queue.jobs) (same : row.id = id) :
      Moves d s (.claim w locked id)
        { s with
          queue := queue
          processes := s.assign w
            (some { run := s.queue.claims.length, job := .ofRow row, phase := .claimed }) }
  | beginJob (w run : Nat) (job : ClaimedJob)
      (process : s.processes w = some ⟨run, job, .claimed⟩) :
      Moves d s (.beginJob w)
        { s with processes := s.assign w (some ⟨run, job, .working
            { env := (d.env run).mocked, rest := (runJob d.rt (buildRequest job)).run }⟩) }
  | call (w run : Nat) (job : ClaimedJob) (r after : Running R)
      (process : s.processes w = some ⟨run, job, .working r⟩) (free : s.waits d w = false)
      (advanced : r.advance .tokio d.srv s.tables = some (.ok after)) :
      Moves d s (.call w) { s with processes := s.assign w (some ⟨run, job, .working after⟩) }
  | commit (w run : Nat) (job : ClaimedJob) (env : Environment R) (session : Session R)
      (outcome : RunJobOutcome)
      (process : s.processes w = some ⟨run, job, .working ⟨env, session, .done (.ok outcome)⟩⟩) :
      Moves d s (.commit w)
        { s with
          tables := s.tables ++ session.tx.own
          processes := s.assign w (some ⟨run, job, .committed⟩) }
  | rollback (w run : Nat) (job : ClaimedJob) (env : Environment R) (session : Session R)
      (e : CoreError)
      (process : s.processes w = some ⟨run, job, .working ⟨env, session, .done (.error e)⟩⟩) :
      Moves d s (.rollback w)
        { s with processes := s.assign w (some ⟨run, job, .rolledBack (d.rt.debug e)⟩) }
  | complete (w run : Nat) (job : ClaimedJob) (queue : Queue.System)
      (process : s.processes w = some ⟨run, job, .committed⟩)
      (stepped : Queue.step s.queue (.complete w) = some queue) :
      Moves d s (.complete w) { s with queue := queue, processes := s.assign w none }
  | fail (w run : Nat) (job : ClaimedJob) (error : String) (queue : Queue.System)
      (process : s.processes w = some ⟨run, job, .rolledBack error⟩)
      (stepped : Queue.step s.queue (.fail w error) = some queue) :
      Moves d s (.fail w) { s with queue := queue, processes := s.assign w none }
  | crash (w : Nat) (queue : Queue.System)
      (stepped : Queue.step s.queue (.crash w) = some queue) :
      Moves d s (.crash w) { s with queue := queue, processes := s.assign w none }

omit [F32 R] in
theorem queueStep_some {s after : System R} {sent : Queue.Action}
    (stepped : queueStep s sent = some after) :
    ∃ queue, Queue.step s.queue sent = some queue ∧ after = { s with queue := queue } := by
  rcases Option.map_eq_some_iff.mp stepped with ⟨queue, moved, rfl⟩
  exact ⟨queue, moved, rfl⟩

omit [F32 R] in
theorem endCycle_some {s after : System R} {w : Nat} {sent : Queue.Action}
    (stepped : endCycle s w sent = some after) :
    ∃ queue, Queue.step s.queue sent = some queue ∧
      after = { s with queue := queue, processes := s.assign w none } := by
  rcases Option.map_eq_some_iff.mp stepped with ⟨queue, moved, rfl⟩
  exact ⟨queue, moved, rfl⟩

omit [F32 R] in
theorem outside_unowned {action : Action} {sent : Queue.Action}
    (outside : action.outside = some sent) :
    sent.worker = none ∧ ∀ row ∈ sent.submitted, row.payload.isSome := by
  cases action with
  | enqueue id source ns chunkStrategy payload =>
      cases outside
      refine ⟨rfl, ?_⟩
      intro row member
      rw [List.mem_singleton.mp member]
      rfl
  | reapRequeue secs =>
      cases outside
      exact ⟨rfl, fun _ member => absurd member List.not_mem_nil⟩
  | reapFail secs =>
      cases outside
      exact ⟨rfl, fun _ member => absurd member List.not_mem_nil⟩
  | advance micros =>
      cases outside
      exact ⟨rfl, fun _ member => absurd member List.not_mem_nil⟩
  | _ => cases outside

theorem step_moves {d : Deployment R} {s after : System R} {action : Action}
    (stepped : step d s action = some after) : Moves d s action after := by
  cases action with
  | enqueue id source ns chunkStrategy payload =>
      rcases queueStep_some stepped with ⟨queue, moved, rfl⟩
      exact .queue _ _ queue rfl moved
  | reapRequeue secs =>
      rcases queueStep_some stepped with ⟨queue, moved, rfl⟩
      exact .queue _ _ queue rfl moved
  | reapFail secs =>
      rcases queueStep_some stepped with ⟨queue, moved, rfl⟩
      exact .queue _ _ queue rfl moved
  | advance micros =>
      rcases queueStep_some stepped with ⟨queue, moved, rfl⟩
      exact .queue _ _ queue rfl moved
  | claim w locked id =>
      simp only [step] at stepped
      split at stepped
      · rename_i listed
        rcases Option.bind_eq_some_iff.mp stepped with ⟨queue, moved, returned⟩
        rcases Option.map_eq_some_iff.mp returned with ⟨row, found, rfl⟩
        exact .claim w locked id queue row listed moved (List.mem_of_find?_eq_some found)
          (by simpa using List.find?_some found)
      · cases stepped
  | beginJob w =>
      simp only [step] at stepped
      split at stepped
      · rename_i run job process
        rcases Option.some.inj stepped
        exact .beginJob w run job process
      · cases stepped
  | call w =>
      simp only [step] at stepped
      split at stepped
      · rename_i run job r process
        split at stepped
        · cases stepped
        · rename_i free
          split at stepped
          · rename_i next advanced
            cases stepped
            exact .call w run job r next process (by simpa using free) advanced
          · cases stepped
      · cases stepped
  | commit w =>
      simp only [step] at stepped
      split at stepped
      · rename_i run job env session outcome process
        cases stepped
        exact .commit w run job env session outcome process
      · cases stepped
  | rollback w =>
      simp only [step] at stepped
      split at stepped
      · rename_i run job env session e process
        cases stepped
        exact .rollback w run job env session e process
      · cases stepped
  | complete w =>
      simp only [step] at stepped
      split at stepped
      · rename_i run job process
        rcases endCycle_some stepped with ⟨queue, moved, rfl⟩
        exact .complete w run job queue process moved
      · cases stepped
  | fail w =>
      simp only [step] at stepped
      split at stepped
      · rename_i run job error process
        rcases endCycle_some stepped with ⟨queue, moved, rfl⟩
        exact .fail w run job error queue process moved
      · cases stepped
  | crash w =>
      rcases endCycle_some stepped with ⟨queue, moved, rfl⟩
      exact .crash w queue moved

theorem Moves.refines {d : Deployment R} {s after : System R} {action : Action}
    (moves : Moves d s action after) :
    after.queue = s.queue ∨ ∃ sent, Queue.step s.queue sent = some after.queue := by
  cases moves with
  | queue _ sent queue _ stepped => exact .inr ⟨sent, stepped⟩
  | claim w locked id queue row listed stepped => exact .inr ⟨_, stepped⟩
  | beginJob w run job process => exact .inl rfl
  | call w run job r next process free advanced => exact .inl rfl
  | commit w run job env session outcome process => exact .inl rfl
  | rollback w run job env session e process => exact .inl rfl
  | complete w run job queue process stepped => exact .inr ⟨_, stepped⟩
  | fail w run job error queue process stepped => exact .inr ⟨_, stepped⟩
  | crash w queue stepped => exact .inr ⟨_, stepped⟩

/-- Every run of the fleet is a run of the job queue, so what holds of those holds of it. -/
theorem run_refines {d : Deployment R} {s last : System R} {actions : List Action}
    (finished : Transition.run (step d) s actions = some last) :
    ∃ sent, Transition.run Queue.step s.queue sent = some last.queue := by
  induction actions generalizing s with
  | nil =>
      cases Option.some.inj finished
      exact ⟨[], rfl⟩
  | cons action rest ih =>
      rcases Transition.run_cons finished with ⟨after, stepped, remaining⟩
      rcases ih remaining with ⟨sent, reached⟩
      rcases (step_moves stepped).refines with same | ⟨first, stepped⟩
      · exact ⟨sent, same ▸ reached⟩
      · refine ⟨first :: sent, ?_⟩
        rw [Transition.run, stepped]
        exact reached

end Sidecar

end PgRaggraph

import PgRaggraph.Core.Prompt
import PgRaggraph.Queue.Progress

/-! `spawn_reaper` of the sidecar: its sweeps, the clock, and whatever else happens to the queue. -/

namespace PgRaggraph.Sidecar

/-- The interval as `reap_stale_jobs` binds it: what is no `i32` becomes the largest one. -/
def reaperSecs (interval : Int) : Int := if inI32 interval then interval else 2147483647

def reaperPeriod (interval : Int) : Int := max interval 1 * 1000000

/-- The age from which a sweep takes a job, in microseconds. A negative interval takes every job. -/
def staleAfter (interval : Int) : Int := max (reaperSecs interval) 0 * 1000000

inductive SweepPhase where
  | waiting
  | ticked
  | requeued (since : Int)
  deriving DecidableEq

/-- `tick` is the tick that the loop waits for or serves. `sweptAt` is the time of the last sweep that
got through both statements, and `missed` counts the ticks after it that ended in an error. -/
structure ReaperTask where
  queue : Queue.System
  startedAt : Int
  tick : Nat := 0
  phase : SweepPhase := .waiting
  sweptAt : Option Int := none
  missed : Nat := 0

inductive ReaperAction where
  | other (action : Queue.Action)
  | advance (micros : Nat)
  | tick
  | requeue
  | fail
  | err
  deriving DecidableEq

namespace ReaperTask

def deadline (interval : Int) (task : ReaperTask) : Int :=
  task.startedAt + task.tick * reaperPeriod interval

/-- A tick that is late does not delay the ones behind it. -/
def next (task : ReaperTask) : ReaperTask := { task with tick := task.tick + 1, phase := .waiting }

def step (interval : Int) (slack : Nat) (task : ReaperTask) : ReaperAction → Option ReaperTask
  | .other action =>
      if action.elapsed = 0 then
        (Queue.step task.queue action).map (fun queue => { task with queue := queue })
      else none
  | .advance micros =>
      if task.queue.now + micros ≤ task.deadline interval + slack then
        (Queue.step task.queue (.advance micros)).map (fun queue => { task with queue := queue })
      else none
  | .tick =>
      if task.phase = .waiting ∧ task.deadline interval ≤ task.queue.now then
        some { task with phase := .ticked }
      else none
  | .requeue =>
      if task.phase = .ticked then
        (Queue.step task.queue (.reapRequeue (reaperSecs interval))).map (fun queue =>
          { task with queue := queue, phase := .requeued task.queue.now })
      else none
  | .fail =>
      match task.phase with
      | .requeued since =>
          (Queue.step task.queue (.reapFail (reaperSecs interval))).map (fun queue =>
            { task.next with queue := queue, sweptAt := some since, missed := 0 })
      | _ => none
  | .err =>
      if task.phase = .waiting then none else some { task.next with missed := task.missed + 1 }

def start (queue : Queue.System) : ReaperTask where
  queue := queue
  startedAt := queue.now

end ReaperTask

def RunsSince (condition : JobRow → Prop) (since : Int) (jobs : List JobRow) : Prop :=
  ∀ job ∈ jobs, job.status = .running → condition job → since ≤ job.updatedAt

section RunsSince

variable {s after : Queue.System} {condition : JobRow → Prop} {since interval : Int}

theorem RunsSince.kept (runs : RunsSince condition since s.jobs)
    (unique : (s.jobs.map JobRow.id).Nodup) (past : since ≤ s.now) {action : Queue.Action}
    (stepped : Queue.step s action = some after) : RunsSince condition since after.jobs := by
  intro job member running meets
  rcases Queue.running_since unique stepped member running with old | now
  · exact runs job old running meets
  · rw [now]
    exact past

theorem fresh_since {now : Int} {job : JobRow} (running : job.status = .running)
    (fresh : job.stale now (reaperSecs interval) = false) : now - staleAfter interval ≤ job.updatedAt := by
  simp only [JobRow.stale, running, true_and, decide_eq_false_iff_not, Int.not_lt] at fresh
  simp only [staleAfter]
  omega

theorem requeue_since (s : Queue.System) (interval : Int) :
    RunsSince (fun job => job.attemptCount < maxAttempts) (s.now - staleAfter interval)
      (reapRequeue s.now (reaperSecs interval) s.jobs) := by
  intro job member running unspent
  rcases mem_updateWhere member with ⟨-, passed⟩ | ⟨old, -, -, rfl⟩
  · simp only [unspent, decide_true, Bool.and_true] at passed
    exact fresh_since running passed
  · cases running

theorem fail_since (past : since ≤ s.now)
    (runs : RunsSince (fun job => job.attemptCount < maxAttempts) (since - staleAfter interval) s.jobs) :
    RunsSince (fun _ => True) (since - staleAfter interval)
      (reapFail s.now (reaperSecs interval) s.jobs) := by
  intro job member running _
  rcases mem_updateWhere member with ⟨old, passed⟩ | ⟨old, -, -, rfl⟩
  · by_cases unspent : job.attemptCount < maxAttempts
    · exact runs job old running unspent
    · simp only [Nat.not_lt.mp unspent, decide_true, Bool.and_true] at passed
      have young := fresh_since running passed
      omega
  · cases running

end RunsSince

namespace ReaperTask

variable {interval : Int} {slack : Nat} {task after : ReaperTask}

structure Sweeping (interval : Int) (slack : Nat) (task : ReaperTask) : Prop where
  accounted : Queue.Accounted task.queue
  due : task.queue.now ≤ task.deadline interval + slack
  reached : task.phase ≠ .waiting → task.deadline interval ≤ task.queue.now
  half : ∀ since, task.phase = .requeued since →
    task.deadline interval ≤ since ∧ since ≤ task.queue.now ∧
      RunsSince (fun job => job.attemptCount < maxAttempts) (since - staleAfter interval)
        task.queue.jobs
  swept : ∀ since, task.sweptAt = some since →
    task.deadline interval ≤ since + (task.missed + 1) * reaperPeriod interval ∧
      since ≤ task.queue.now ∧
      RunsSince (fun _ => True) (since - staleAfter interval) task.queue.jobs

theorem period_pos (interval : Int) : 0 < reaperPeriod interval := by
  simp only [reaperPeriod]
  omega

theorem stale_nonneg (interval : Int) : 0 ≤ staleAfter interval := by
  simp only [staleAfter]
  omega

theorem deadline_next (interval : Int) (task : ReaperTask) :
    task.next.deadline interval = task.deadline interval + reaperPeriod interval := by
  simp only [deadline, next, Int.natCast_add, Int.add_mul]
  omega

theorem Sweeping.kept (sweeping : Sweeping interval slack task) {action : Queue.Action}
    {queue : Queue.System} (stepped : Queue.step task.queue action = some queue)
    (due : queue.now ≤ task.deadline interval + slack) :
    Sweeping interval slack { task with queue := queue } where
  accounted := Queue.accounted_step sweeping.accounted action stepped
  due := due
  reached := by
    intro serving
    exact Int.le_trans (sweeping.reached serving) (Queue.step_now stepped)
  half := by
    intro since phase
    rcases sweeping.half since phase with ⟨begun, past, runs⟩
    have young := stale_nonneg interval
    exact ⟨begun, Int.le_trans past (Queue.step_now stepped),
      runs.kept sweeping.accounted.unique (by omega) stepped⟩
  swept := by
    intro since last
    rcases sweeping.swept since last with ⟨lately, past, runs⟩
    have young := stale_nonneg interval
    exact ⟨lately, Int.le_trans past (Queue.step_now stepped),
      runs.kept sweeping.accounted.unique (by omega) stepped⟩

theorem step_sweeping (sweeping : Sweeping interval slack task) {action : ReaperAction}
    (stepped : step interval slack task action = some after) : Sweeping interval slack after := by
  have period := period_pos interval
  cases action with
  | other action =>
      rw [step] at stepped
      split at stepped
      · rename_i still
        rcases Option.map_eq_some_iff.mp stepped with ⟨queue, moved, rfl⟩
        refine sweeping.kept moved ?_
        rw [Queue.step_clock moved, still]
        simpa using sweeping.due
      · cases stepped
  | advance micros =>
      rw [step] at stepped
      split at stepped
      · rename_i timely
        rcases Option.map_eq_some_iff.mp stepped with ⟨queue, moved, rfl⟩
        refine sweeping.kept moved ?_
        rw [Queue.step_clock moved]
        exact timely
      · cases stepped
  | tick =>
      rw [step] at stepped
      split at stepped
      · rename_i waited
        cases stepped
        exact { sweeping with
          reached := fun _ => waited.2
          half := fun _ phase => nomatch phase }
      · cases stepped
  | requeue =>
      rw [step] at stepped
      split at stepped
      · rename_i ticked
        rcases Option.map_eq_some_iff.mp stepped with ⟨queue, moved, rfl⟩
        have reached := sweeping.reached (by simp [ticked])
        have kept := sweeping.kept moved (by
          rw [Queue.step_clock moved]
          simpa [Queue.Action.elapsed] using sweeping.due)
        refine { kept with
          reached := fun _ => Int.le_trans reached (Queue.step_now moved)
          half := ?_ }
        intro since phase
        cases phase
        cases moved
        exact ⟨reached, Int.le_refl _, requeue_since task.queue interval⟩
      · cases stepped
  | fail =>
      rw [step] at stepped
      split at stepped
      · rename_i since phase
        rcases Option.map_eq_some_iff.mp stepped with ⟨queue, moved, rfl⟩
        rcases sweeping.half since phase with ⟨begun, past, runs⟩
        have later := deadline_next interval task
        cases moved
        refine ⟨Queue.accounted_step sweeping.accounted (.reapFail (reaperSecs interval)) rfl, ?_,
          nofun, nofun, ?_⟩
        · have due := sweeping.due
          change task.queue.now ≤ task.next.deadline interval + slack
          omega
        · intro last same
          cases same
          refine ⟨?_, past, fail_since past runs⟩
          change task.next.deadline interval ≤ since + ((0 : Nat) + 1) * reaperPeriod interval
          omega
      · cases stepped
  | err =>
      rw [step] at stepped
      split at stepped
      · cases stepped
      · cases stepped
        have later := deadline_next interval task
        refine ⟨sweeping.accounted, ?_, nofun, nofun, ?_⟩
        · have due := sweeping.due
          change task.queue.now ≤ task.next.deadline interval + slack
          omega
        · intro since last
          rcases sweeping.swept since last with ⟨lately, past, runs⟩
          refine ⟨?_, past, runs⟩
          change task.next.deadline interval ≤
            since + ((task.missed + 1 : Nat) + 1) * reaperPeriod interval
          rw [later, Int.natCast_succ, Int.add_mul _ 1]
          omega

theorem run_sweeping {last : ReaperTask} {actions : List ReaperAction}
    (sweeping : Sweeping interval slack task)
    (finished : Transition.run (step interval slack) task actions = some last) :
    Sweeping interval slack last :=
  Transition.run_invariant (fun _ _ _ holds _ stepped => step_sweeping holds stepped) sweeping
    (Transition.meets_always (step interval slack) (fun _ _ => trivial) task actions) finished

theorem start_sweeping {queue : Queue.System} (accounted : Queue.Accounted queue) :
    Sweeping interval slack (start queue) where
  accounted := accounted
  due := by
    simp only [start, deadline]
    omega
  reached := fun serving => absurd rfl serving
  half := nofun
  swept := nofun

/-- Whatever producers, workers, crashes and other reapers do, and from whatever queue: once a sweep
has got through, every job that is still running was claimed at most so long ago. Each tick that has
failed since adds a period. `slack` is how late the cycle of a tick may end. -/
theorem running_jobs_young (interval : Int) (slack : Nat) (now : Int) (before : List Queue.Action)
    (queue : Queue.System) (begun : Transition.run Queue.step { now := now } before = some queue)
    (actions : List ReaperAction) (task : ReaperTask)
    (finished : Transition.run (step interval slack) (start queue) actions = some task)
    (swept : task.sweptAt.isSome = true) (job : JobRow) (member : job ∈ task.queue.jobs)
    (running : job.status = .running) :
    task.queue.now - job.updatedAt ≤
      staleAfter interval + (task.missed + 1) * reaperPeriod interval + slack := by
  have accounted := Queue.accounted_run (.initial now) begun
  have sweeping := run_sweeping (start_sweeping accounted) finished
  rcases Option.isSome_iff_exists.mp swept with ⟨since, last⟩
  rcases sweeping.swept since last with ⟨lately, -, runs⟩
  have young := runs job member running trivial
  have due := sweeping.due
  omega

theorem crashed_job_young : ∃ queue task,
    Transition.run Queue.step { now := 0 }
      [.enqueue 7 "a.txt" "default" "auto" none, .claim 0 [] 7, .crash 0] = some queue ∧
    Transition.run (step 5 0) (start queue)
      [.tick, .requeue, .fail, .advance 5000000, .tick, .err, .advance 5000000] = some task ∧
    task.missed = 1 ∧ task.queue.now = 10000000 ∧
    ∀ job ∈ task.queue.jobs, job.status = .running → task.queue.now - job.updatedAt ≤ 15000000 := by
  have ran : ∃ queue task, Transition.run Queue.step { now := 0 }
        [.enqueue 7 "a.txt" "default" "auto" none, .claim 0 [] 7, .crash 0] = some queue ∧
      Transition.run (step 5 0) (start queue)
        [.tick, .requeue, .fail, .advance 5000000, .tick, .err, .advance 5000000] = some task :=
    ⟨_, _, rfl, rfl⟩
  rcases ran with ⟨queue, task, begun, finished⟩
  have first := begun
  cases Option.some.inj first
  have reached := finished
  cases Option.some.inj reached
  refine ⟨_, _, begun, finished, rfl, rfl, fun job member running => ?_⟩
  exact running_jobs_young 5 0 0 _ _ begun _ _ finished rfl job member running

end ReaperTask

end PgRaggraph.Sidecar

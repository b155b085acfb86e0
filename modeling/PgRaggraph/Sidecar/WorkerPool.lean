import PgRaggraph.Queue.Publication

/-! `run_worker` of the sidecar: the workers poll the queue, and sleep longer while they find nothing. -/

namespace PgRaggraph.Sidecar

open Queue (Executing)

structure Backoff where
  currentSecs : Nat
  deriving DecidableEq

namespace Backoff

def new : Backoff := ⟨1⟩

def reset (_ : Backoff) : Backoff := ⟨1⟩

def nextDelay (backoff : Backoff) : Nat × Backoff :=
  (backoff.currentSecs,
    ⟨match backoff.currentSecs with
      | 1 => 5
      | 5 => 10
      | secs => min (secs * 2) 30⟩)

def delays (k : Nat) : Nat := [1, 5, 10, 20].getD k 30

theorem nextDelay_delays (k : Nat) : nextDelay ⟨delays k⟩ = (delays k, ⟨delays (k + 1)⟩) := by
  match k with
  | 0 => rfl
  | 1 => rfl
  | 2 => rfl
  | 3 => rfl
  | k + 4 => rfl

end Backoff

/-- A task of `run_worker` outside `process_one`. `wakeAt` is the end of its sleep, `streak` the polls
that found nothing since the backoff was reset, `emptyAt` the time of the last poll if that found
nothing, and `skipped` the rows that others had locked then. -/
structure WorkerTask where
  backoff : Backoff := .new
  wakeAt : Int
  streak : Nat := 0
  emptyAt : Option Int := none
  skipped : List Uuid := []
  deriving DecidableEq

/-- The place of a task is its `worker_id`. `visibleAt` is when a queued job came to be seen so. -/
structure WorkerPool where
  queue : Queue.System
  tasks : List WorkerTask
  visibleAt : Uuid → Int

/-- How `process_one` returns after a claim. An `UPDATE` of `fail_job` that fails goes unnoticed. -/
inductive CycleEnd where
  | completed
  | failed (error : String)
  | unrecorded
  | err
  deriving DecidableEq

/-- `other` is what a producer, a reaper or a worker elsewhere commits, and `err` an error of
`process_one` before it has a job. A poll skips the rows that are locked. -/
inductive PoolAction where
  | other (commit : Queue.Commit)
  | advance (micros : Nat)
  | idle (w : Nat) (locked : List Uuid)
  | err (w : Nat)
  | claim (w : Nat) (locked : List Uuid) (id : Uuid)
  | finish (w : Nat) (ending : CycleEnd)
  deriving DecidableEq

def seconds (secs : Nat) : Int := secs * 1000000

namespace WorkerTask

def idled (now : Int) (locked : List Uuid) (task : WorkerTask) : WorkerTask where
  backoff := task.backoff.nextDelay.2
  wakeAt := now + seconds task.backoff.nextDelay.1
  streak := task.streak + 1
  emptyAt := some now
  skipped := locked

def released (now : Int) (task : WorkerTask) : WorkerTask where
  backoff := task.backoff.reset
  wakeAt := now
  streak := 0
  emptyAt := none

def erred (now : Int) (task : WorkerTask) : WorkerTask :=
  { task with wakeAt := now + seconds 1, emptyAt := none }

end WorkerTask

def CycleEnd.action (w : Nat) : CycleEnd → Queue.Action
  | .completed => .complete w
  | .failed error => .fail w error
  | .unrecorded => .crash w
  | .err => .crash w

def CycleEnd.next (now : Int) (task : WorkerTask) : CycleEnd → WorkerTask
  | .err => task.erred now
  | _ => task.released now

namespace WorkerPool

def ready (pool : WorkerPool) (w : Nat) : Option WorkerTask :=
  (pool.tasks[w]?).filter (fun task =>
    (pool.queue.workers w).isNone && decide (task.wakeAt ≤ pool.queue.now))

def place (pool : WorkerPool) (w : Nat) (task : WorkerTask) : WorkerPool :=
  { pool with tasks := pool.tasks.set w task }

def foreign (pool : WorkerPool) (commit : Queue.Commit) : Bool :=
  commit.elapsed = 0 && commit.worker.all (fun w => decide (pool.tasks.length ≤ w))

def queues (queue : Queue.System) (id : Uuid) : Bool :=
  queue.jobs.any (fun job => job.id = id && job.status = .queued)

def moved (pool : WorkerPool) (queue : Queue.System) : WorkerPool where
  queue := queue
  tasks := pool.tasks
  visibleAt := fun id =>
    if queues queue id && !queues pool.queue id then queue.now else pool.visibleAt id

def timely (slack : Nat) (pool : WorkerPool) (micros : Nat) : Bool :=
  (List.range pool.tasks.length).all (fun w => (pool.queue.workers w).isSome ||
    (pool.tasks[w]?).all (fun task => decide (pool.queue.now + micros ≤ task.wakeAt + slack)))

def step (slack : Nat) (pool : WorkerPool) : PoolAction → Option WorkerPool
  | .other commit =>
      if pool.foreign commit then (Queue.commitStep pool.queue commit).map pool.moved else none
  | .advance micros =>
      if pool.timely slack micros then (Queue.step pool.queue (.advance micros)).map pool.moved
      else none
  | .idle w locked =>
      (pool.ready w).bind (fun task =>
        if pool.queue.jobs.all (fun job => job.status ≠ .queued || decide (job.id ∈ locked)) then
          some (pool.place w (task.idled pool.queue.now locked))
        else none)
  | .err w => (pool.ready w).map (fun task => pool.place w (task.erred pool.queue.now))
  | .claim w locked id =>
      (pool.ready w).bind (fun task =>
        (Queue.step pool.queue (.claim w locked id)).map (fun queue =>
          (pool.moved queue).place w { task with emptyAt := none }))
  | .finish w ending =>
      (pool.tasks[w]?).bind (fun task =>
        (Queue.step pool.queue (ending.action w)).map (fun queue =>
          (pool.moved queue).place w (ending.next queue.now task)))

def start (now : Int) (workers : Nat) : WorkerPool where
  queue := { now := now }
  tasks := List.replicate workers { wakeAt := now }
  visibleAt := fun _ => now

variable {slack : Nat} {pool after : WorkerPool} {w : Nat} {task : WorkerTask}

structure Punctual (slack : Nat) (pool : WorkerPool) (w : Nat) (task : WorkerTask) : Prop where
  backoff : task.backoff = ⟨Backoff.delays task.streak⟩
  due : pool.queue.workers w = none → pool.queue.now ≤ task.wakeAt + slack
  free : ∀ p, task.emptyAt = some p → pool.queue.workers w = none
  asleep : ∀ p, task.emptyAt = some p → 0 < task.streak ∧ p ≤ pool.queue.now ∧
    task.wakeAt = p + seconds (Backoff.delays (task.streak - 1))
  empty : ∀ p, task.emptyAt = some p → ∀ job ∈ pool.queue.jobs, job.status = .queued →
    job.id ∉ task.skipped → p ≤ pool.visibleAt job.id

theorem Punctual.kept (punctual : Punctual slack pool w task) {queue : Queue.System}
    (later : pool.queue.now ≤ queue.now)
    (same : (queue.workers w).isNone = (pool.queue.workers w).isNone)
    (due : queue.workers w = none → queue.now ≤ task.wakeAt + slack) :
    Punctual slack (pool.moved queue) w task where
  backoff := punctual.backoff
  due := due
  free := by
    intro p empty
    rw [punctual.free p empty] at same
    exact Option.isNone_iff_eq_none.mp same
  asleep := by
    intro p empty
    rcases punctual.asleep p empty with ⟨streak, past, wakes⟩
    exact ⟨streak, Int.le_trans past later, wakes⟩
  empty := by
    intro p empty job member queued unlocked
    have now : queues queue job.id = true :=
      List.any_eq_true.mpr ⟨job, member, by simp [queued]⟩
    cases before : queues pool.queue job.id with
    | false =>
        simp only [moved, now, before, Bool.not_false, Bool.and_self, if_true]
        exact Int.le_trans (punctual.asleep p empty).2.1 later
    | true =>
        rcases List.any_eq_true.mp before with ⟨old, stored, both⟩
        rw [Bool.and_eq_true, decide_eq_true_eq, decide_eq_true_eq] at both
        simp only [moved, before, Bool.not_true, Bool.and_false, Bool.false_eq_true, if_false]
        rw [← both.1] at unlocked ⊢
        exact punctual.empty p empty old stored both.2 unlocked

theorem Punctual.idled (punctual : Punctual slack pool w task) (free : pool.queue.workers w = none)
    {locked : List Uuid}
    (none_ : ∀ job ∈ pool.queue.jobs, job.status = .queued → job.id ∈ locked) :
    Punctual slack pool w (task.idled pool.queue.now locked) where
  backoff := by
    rw [WorkerTask.idled, punctual.backoff, Backoff.nextDelay_delays]
  due := by
    intro _
    simp only [WorkerTask.idled, seconds]
    omega
  free := fun _ _ => free
  asleep := by
    intro p empty
    cases empty
    refine ⟨Nat.succ_pos _, Int.le_refl _, ?_⟩
    rw [WorkerTask.idled, punctual.backoff, Backoff.nextDelay_delays]
    rfl
  empty := fun p _ job member queued unlocked => absurd (none_ job member queued) unlocked

theorem placed {tasks : List WorkerTask} {w v : Nat} {new task : WorkerTask}
    (listed : (tasks.set w new)[v]? = some task) :
    (v = w ∧ task = new) ∨ (v ≠ w ∧ tasks[v]? = some task) := by
  rw [List.getElem?_set] at listed
  split at listed
  · rename_i same
    split at listed
    · cases listed
      exact .inl ⟨same.symm, rfl⟩
    · cases listed
  · rename_i different
    exact .inr ⟨fun same => different same.symm, listed⟩

end WorkerPool

end PgRaggraph.Sidecar

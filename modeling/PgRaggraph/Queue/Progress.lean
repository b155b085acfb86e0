import PgRaggraph.Library.Behaviour
import PgRaggraph.Queue.Runs
import Mathlib.Algebra.BigOperators.Group.List.Basic
import Mathlib.Algebra.Order.BigOperators.Group.List
import Mathlib.Algebra.Order.Ring.Nat

/-! Every job ends, whatever crashes, while workers poll, the clock runs and the reaper sweeps. -/

namespace PgRaggraph

open Transition

namespace Queue

inductive RowStep (s : System) : Action → JobRow → JobRow → Prop where
  | kept (action : Action) (job : JobRow) : RowStep s action job job
  | claimed (worker : Nat) (locked : List Uuid) (job : JobRow) (queued : job.status = .queued) :
      RowStep s (.claim worker locked job.id) job (job.claimed s.now)
  | completed (worker : Nat) (job : JobRow) : RowStep s (.complete worker) job (job.completed s.now)
  | failed (worker : Nat) (error : String) (job : JobRow) :
      RowStep s (.fail worker error) job (job.failed s.now error)
  | requeued (secs : Int) (job : JobRow) (stale : job.stale s.now secs = true)
      (unspent : job.attemptCount < maxAttempts) :
      RowStep s (.reapRequeue secs) job (job.requeued s.now)
  | cappedOut (secs : Int) (job : JobRow) (stale : job.stale s.now secs = true)
      (spent : maxAttempts ≤ job.attemptCount) :
      RowStep s (.reapFail secs) job (job.cappedOut s.now)

structure Inserted (now : Int) (job : JobRow) : Prop where
  queued : job.status = .queued
  unclaimed : job.attemptCount = 0
  unreported : job.error = none
  enqueued : job.enqueuedAt = now
  updated : job.updatedAt = now

theorem step_updated {s : System} {action : Action} {condition : JobRow → Bool}
    {change : JobRow → JobRow}
    (matched : ∀ job ∈ s.jobs, condition job = true → RowStep s action job (change job)) :
    ∃ next added, updateWhere condition change s.jobs = s.jobs.map next ++ added ∧
      (∀ job ∈ s.jobs, RowStep s action job (next job)) ∧ ∀ job ∈ added, Inserted s.now job := by
  refine ⟨fun job => if condition job then change job else job, [], ?_, ?_, by simp⟩
  · rw [List.append_nil]
    rfl
  · intro job member
    by_cases selected : condition job = true
    · simpa only [selected, if_true] using matched job member selected
    · simpa only [selected, if_false] using .kept action job

theorem step_unchanged (s : System) (action : Action) :
    ∃ next added, s.jobs = s.jobs.map next ++ added ∧
      (∀ job ∈ s.jobs, RowStep s action job (next job)) ∧ ∀ job ∈ added, Inserted s.now job :=
  ⟨id, [], by simp, fun job _ => .kept action job, by simp⟩

theorem step_rows {s after : System} {action : Action} (unique : (s.jobs.map JobRow.id).Nodup)
    (stepped : step s action = some after) :
    ∃ next added, after.jobs = s.jobs.map next ++ added ∧
      (∀ job ∈ s.jobs, RowStep s action job (next job)) ∧ ∀ job ∈ added, Inserted s.now job := by
  cases action with
  | enqueue id source ns chunkStrategy payload =>
      rcases step_enqueue stepped with ⟨-, rfl⟩
      refine ⟨fun job => job, _, by rw [enqueue, List.map_id'], fun job _ => .kept _ job, ?_⟩
      intro job member
      rw [List.mem_singleton.mp member]
      exact ⟨rfl, rfl, rfl, rfl, rfl⟩
  | claim worker locked id =>
      rcases step_claim stepped with ⟨next, member, rfl, queued, -, rfl⟩
      apply step_updated
      intro job stored same
      rw [row_unique unique stored member (of_decide_eq_true same)]
      exact .claimed worker locked next queued
  | complete worker =>
      rcases Option.map_eq_some_iff.mp stepped with ⟨ex, -, rfl⟩
      exact step_updated (fun job _ _ => .completed worker job)
  | fail worker error =>
      rcases Option.map_eq_some_iff.mp stepped with ⟨ex, -, rfl⟩
      exact step_updated (fun job _ _ => .failed worker error job)
  | crash worker =>
      rcases Option.map_eq_some_iff.mp stepped with ⟨ex, -, rfl⟩
      exact step_unchanged s _
  | reapRequeue secs =>
      cases stepped
      apply step_updated
      intro job _ selected
      simp only [Bool.and_eq_true, decide_eq_true_eq] at selected
      exact .requeued secs job selected.1 selected.2
  | reapFail secs =>
      cases stepped
      apply step_updated
      intro job _ selected
      simp only [Bool.and_eq_true, decide_eq_true_eq] at selected
      exact .cappedOut secs job selected.1 selected.2
  | advance micros =>
      cases stepped
      exact step_unchanged s _

theorem step_row {s after : System} {action : Action} (unique : (s.jobs.map JobRow.id).Nodup)
    (stepped : step s action = some after) {k : Nat} {job : JobRow} (stored : s.jobs[k]? = some job) :
    ∃ next, after.jobs[k]? = some next ∧ RowStep s action job next := by
  rcases step_rows unique stepped with ⟨next, added, rows, steps, -⟩
  have short : k < s.jobs.length := (List.getElem?_eq_some_iff.mp stored).1
  refine ⟨next job, ?_, steps job (List.mem_of_getElem? stored)⟩
  rw [rows, List.getElem?_append_left (by simpa using short), List.getElem?_map, stored]
  rfl

def Action.elapsed : Action → Nat
  | .advance micros => micros
  | _ => 0

theorem step_clock {s after : System} {action : Action} (stepped : step s action = some after) :
    after.now = s.now + action.elapsed := by
  cases action with
  | enqueue id source ns chunkStrategy payload =>
      rcases step_enqueue stepped with ⟨-, rfl⟩
      exact (Int.add_zero _).symm
  | claim worker locked id =>
      rcases step_claim stepped with ⟨job, -, -, -, -, rfl⟩
      exact (Int.add_zero _).symm
  | complete worker =>
      rcases Option.map_eq_some_iff.mp stepped with ⟨ex, -, rfl⟩
      exact (Int.add_zero _).symm
  | fail worker error =>
      rcases Option.map_eq_some_iff.mp stepped with ⟨ex, -, rfl⟩
      exact (Int.add_zero _).symm
  | crash worker =>
      rcases Option.map_eq_some_iff.mp stepped with ⟨ex, -, rfl⟩
      exact (Int.add_zero _).symm
  | reapRequeue secs =>
      cases stepped
      exact (Int.add_zero _).symm
  | reapFail secs =>
      cases stepped
      exact (Int.add_zero _).symm
  | advance micros =>
      cases stepped
      rfl

theorem step_now {s after : System} {action : Action} (stepped : step s action = some after) :
    s.now ≤ after.now := by
  rw [step_clock stepped]
  omega

theorem RowStep.running {s : System} {action : Action} {job next : JobRow}
    (stepped : RowStep s action job next) (running : next.status = .running) :
    next = job ∨ next.updatedAt = s.now := by
  cases stepped with
  | kept => exact .inl rfl
  | claimed => exact .inr rfl
  | completed => cases running
  | failed => cases running
  | requeued => cases running
  | cappedOut => cases running

theorem running_since {s after : System} {action : Action} (unique : (s.jobs.map JobRow.id).Nodup)
    (stepped : step s action = some after) {job : JobRow} (member : job ∈ after.jobs)
    (running : job.status = .running) : job ∈ s.jobs ∨ job.updatedAt = s.now := by
  rcases step_rows unique stepped with ⟨next, added, rows, steps, inserted⟩
  rw [rows] at member
  rcases List.mem_append.mp member with old | new
  · rcases List.mem_map.mp old with ⟨before, present, rfl⟩
    rcases (steps before present).running running with same | now
    · rw [same]
      exact .inl present
    · exact .inr now
  · exact .inr (inserted job new).updated

end Queue

/-- The changes a row can still go through: a claim and a sweep for each attempt that is left. -/
def JobRow.rank (job : JobRow) : Nat :=
  match job.status with
  | .queued => 2 * (maxAttempts - job.attemptCount)
  | .running => 2 * (maxAttempts - job.attemptCount) + 1
  | .completed => 0
  | .failed => 0

theorem JobRow.terminal_iff (job : JobRow) :
    job.terminal = true ↔ job.status = .completed ∨ job.status = .failed :=
  decide_eq_true_iff

theorem JobRow.rank_terminal {job : JobRow} (terminal : job.terminal = true) : job.rank = 0 := by
  rcases job.terminal_iff.mp terminal with status | status
  · rw [rank, status]
  · rw [rank, status]

namespace Queue

theorem Capped.rank_pos {job : JobRow} (capped : Capped job) (open_ : job.terminal = false) :
    0 < job.rank := by
  rw [Capped] at capped
  rw [JobRow.rank]
  rcases status : job.status with _ | _ | _ | _
  · rw [status] at capped
    simp only [maxAttempts]
    dsimp only at capped
    omega
  · exact Nat.succ_pos _
  · simp [JobRow.terminal, status] at open_
  · simp [JobRow.terminal, status] at open_

theorem RowStep.descends {s : System} {action : Action} {job next : JobRow} (capped : Capped job)
    (stepped : RowStep s action job next) :
    next = job ∨ next.rank < job.rank ∨ (job.terminal = true ∧ next.terminal = true) := by
  have ended : next.terminal = true → next = job ∨ next.rank < job.rank ∨
      (job.terminal = true ∧ next.terminal = true) := by
    intro terminal
    by_cases before : job.terminal = true
    · exact .inr (.inr ⟨before, terminal⟩)
    · rw [JobRow.rank_terminal terminal]
      exact .inr (.inl (capped.rank_pos (by simpa using before)))
  cases stepped with
  | kept => exact .inl rfl
  | claimed worker locked _ queued =>
      rw [Capped, queued] at capped
      dsimp only at capped
      right
      left
      simp only [JobRow.rank, JobRow.claimed, queued, maxAttempts]
      omega
  | completed => exact ended rfl
  | failed => exact ended rfl
  | requeued secs _ stale unspent =>
      have running : job.status = .running := (of_decide_eq_true stale).1
      right
      left
      simp only [JobRow.rank, JobRow.requeued, running]
      omega
  | cappedOut => exact ended rfl

theorem RowStep.rank_le {s : System} {action : Action} {job next : JobRow} (capped : Capped job)
    (stepped : RowStep s action job next) : next.rank ≤ job.rank := by
  rcases stepped.descends capped with rfl | lower | ⟨-, terminal⟩
  · exact Nat.le_refl _
  · exact Nat.le_of_lt lower
  · rw [JobRow.rank_terminal terminal]
    exact Nat.zero_le _

theorem RowStep.submission {s : System} {action : Action} {job next : JobRow}
    (stepped : RowStep s action job next) : next.submission = job.submission := by
  cases stepped with
  | kept => rfl
  | claimed => rfl
  | completed => rfl
  | failed => rfl
  | requeued => rfl
  | cappedOut => rfl

theorem RowStep.enqueuedAt {s : System} {action : Action} {job next : JobRow}
    (stepped : RowStep s action job next) : next.enqueuedAt = job.enqueuedAt := by
  cases stepped with
  | kept => rfl
  | claimed => rfl
  | completed => rfl
  | failed => rfl
  | requeued => rfl
  | cappedOut => rfl

def outstanding (measure : JobRow → Nat) (until_ : Int) (jobs : List JobRow) : Nat :=
  (jobs.map (fun job => if job.enqueuedAt ≤ until_ then measure job else 0)).sum

/-- What is left of the jobs that were enqueued by then. -/
def backlog (until_ : Int) (jobs : List JobRow) : Nat := outstanding JobRow.rank until_ jobs

section Backlog

variable {s after : System} {action : Action} {until_ : Int} {measure : JobRow → Nat}

theorem outstanding_stepped (measure : JobRow → Nat) (unique : (s.jobs.map JobRow.id).Nodup)
    (past : until_ < s.now) (stepped : step s action = some after) :
    ∃ next, (∀ job ∈ s.jobs, RowStep s action job (next job)) ∧
      (∀ (k : Nat) (job : JobRow), s.jobs[k]? = some job → after.jobs[k]? = some (next job)) ∧
      outstanding measure until_ after.jobs = outstanding measure until_ (s.jobs.map next) := by
  rcases step_rows unique stepped with ⟨next, added, rows, steps, inserted⟩
  refine ⟨next, steps, ?_, ?_⟩
  · intro k job stored
    have short : k < s.jobs.length := (List.getElem?_eq_some_iff.mp stored).1
    rw [rows, List.getElem?_append_left (by simpa using short), List.getElem?_map, stored]
    rfl
  · have none_ : outstanding measure until_ added = 0 := by
      apply List.sum_eq_zero
      intro size member
      rcases List.mem_map.mp member with ⟨job, new, rfl⟩
      have late : ¬ job.enqueuedAt ≤ until_ := by
        rw [(inserted job new).enqueued]
        omega
      rw [if_neg late]
    calc
      outstanding measure until_ after.jobs
          = outstanding measure until_ (s.jobs.map next) + outstanding measure until_ added := by
        simp only [outstanding, rows, List.map_append, List.sum_append]
      _ = outstanding measure until_ (s.jobs.map next) := by rw [none_, Nat.add_zero]

theorem outstanding_shrinks (unique : (s.jobs.map JobRow.id).Nodup) (past : until_ < s.now)
    (lowers : ∀ job ∈ s.jobs, ∀ next, RowStep s action job next → measure next ≤ measure job)
    (stepped : step s action = some after) :
    outstanding measure until_ after.jobs ≤ outstanding measure until_ s.jobs := by
  rcases outstanding_stepped measure unique past stepped with ⟨next, steps, -, same⟩
  rw [same, outstanding, outstanding, List.map_map]
  apply List.sum_le_sum
  intro job member
  have step := steps job member
  simp only [Function.comp, step.enqueuedAt]
  split
  · exact lowers job member _ step
  · exact Nat.le_refl _

theorem backlog_shrinks (accounted : Accounted s) (past : until_ < s.now)
    (stepped : step s action = some after) :
    backlog until_ after.jobs ≤ backlog until_ s.jobs :=
  outstanding_shrinks accounted.unique past
    (fun job member _ moved => moved.rank_le (accounted.capped job member)) stepped

theorem claim_oldest {worker : Nat} {locked : List Uuid} {id : Uuid}
    (stepped : step s (.claim worker locked id) = some after) :
    ∃ job ∈ s.jobs, job.id = id ∧ isNextJob locked s.jobs job = true := by
  simp only [step] at stepped
  split at stepped
  · rename_i job _ found
    split at stepped
    · rename_i next
      exact ⟨job, List.mem_of_find?_eq_some found, by simpa using List.find?_some found, next⟩
    · cases stepped
  · cases stepped

theorem outstanding_claimed (unique : (s.jobs.map JobRow.id).Nodup) (past : until_ < s.now)
    {worker : Nat} {locked : List Uuid} {id : Uuid}
    (lowers : ∀ job ∈ s.jobs, ∀ next, RowStep s (.claim worker locked id) job next →
      measure next ≤ measure job)
    (claimed : ∀ job ∈ s.jobs, job.id = id → job.status = .queued →
      measure (job.claimed s.now) < measure job)
    (stepped : step s (.claim worker locked id) = some after) {job : JobRow} (member : job ∈ s.jobs)
    (queued : job.status = .queued) (free : job.id ∉ locked) (due : job.enqueuedAt ≤ until_) :
    outstanding measure until_ after.jobs < outstanding measure until_ s.jobs := by
  rcases claim_oldest stepped with ⟨first, stored, rfl, next⟩
  have oldest := of_decide_eq_true next
  have early : first.enqueuedAt ≤ until_ := Int.le_trans (oldest.2.2 job member queued free) due
  rcases outstanding_stepped measure unique past stepped with ⟨change, steps, placed, same⟩
  rcases step_claim stepped with ⟨row, present, id, -, -, rfl⟩
  have row_first : row = first := row_unique unique present stored id
  subst row_first
  rcases List.mem_iff_getElem?.mp stored with ⟨k, at_⟩
  have here := placed k row at_
  rw [claimJob, updateWhere_get, at_, Option.map_some, if_pos (decide_eq_true rfl)] at here
  have changed : change row = row.claimed s.now := (Option.some.inj here).symm
  rw [same, outstanding, outstanding, List.map_map]
  apply List.sum_lt_sum
  · intro other listed
    have moved := steps other listed
    simp only [Function.comp, moved.enqueuedAt]
    split
    · exact lowers other listed _ moved
    · exact Nat.le_refl _
  · refine ⟨row, stored, ?_⟩
    have lower := claimed row stored rfl oldest.1
    simpa [Function.comp, changed, early, JobRow.claimed] using lower

theorem backlog_claimed (accounted : Accounted s) (past : until_ < s.now) {worker : Nat} {id : Uuid}
    (stepped : step s (.claim worker [] id) = some after) {job : JobRow} (member : job ∈ s.jobs)
    (queued : job.status = .queued) (due : job.enqueuedAt ≤ until_) :
    backlog until_ after.jobs < backlog until_ s.jobs := by
  refine outstanding_claimed accounted.unique past
    (fun row listed _ moved => moved.rank_le (accounted.capped row listed)) ?_ stepped member queued
    List.not_mem_nil due
  intro row listed _ waits
  have capped := accounted.capped row listed
  rw [Capped, waits] at capped
  dsimp only at capped
  simp only [JobRow.claimed, JobRow.rank, waits, maxAttempts]
  omega

end Backlog

/-- Workers poll, the clock runs and the reaper sweeps without an end. -/
structure Fair (secs : Int) (run : Behaviour step) : Prop where
  clock : ∀ time : Int, ∃ n, time < (run.state n).now
  polls : Often (fun n => (∀ job ∈ (run.state n).jobs, job.status ≠ .queued) ∨
    ∃ worker id, run.action n = .claim worker [] id)
  requeues : Often (fun n => run.action n = .reapRequeue secs)
  fails : Often (fun n => run.action n = .reapFail secs)

section Ends

variable {secs : Int} {run : Behaviour step} {k start : Nat} {job : JobRow}

theorem accounted_always (accounted : Accounted (run.state 0)) (n : Nat) :
    Accounted (run.state n) :=
  run.always (fun _ action _ holds stepped => accounted_step holds action stepped) accounted
    (Nat.zero_le n)

theorem Fair.passes (fair : Fair secs run) (time : Int) (start : Nat) :
    ∃ n, start ≤ n ∧ ∀ m, n ≤ m → time < (run.state m).now := by
  rcases fair.clock time with ⟨n, reached⟩
  refine ⟨max start n, Nat.le_max_left _ _, fun m later => ?_⟩
  have kept : ∀ s action after, time < System.now s → step s action = some after →
      time < after.now :=
    fun s action after before stepped => Int.lt_of_lt_of_le before (step_now stepped)
  exact run.always kept reached (Nat.le_trans (Nat.le_max_right _ _) later)

def rankAt (run : Behaviour step) (k n : Nat) : Nat :=
  (((run.state n).jobs[k]?).map JobRow.rank).getD 0

theorem rankAt_stored {n : Nat} (stored : (run.state n).jobs[k]? = some job) :
    rankAt run k n = job.rank := by
  rw [rankAt, stored]
  rfl

theorem row_next (accounted : Accounted (run.state 0)) {n : Nat}
    (stored : (run.state n).jobs[k]? = some job) :
    ∃ next, (run.state (n + 1)).jobs[k]? = some next ∧
      RowStep (run.state n) (run.action n) job next :=
  step_row (accounted_always accounted n).unique (run.steps n) stored

theorem row_later (accounted : Accounted (run.state 0))
    (stored : (run.state start).jobs[k]? = some job) {n : Nat} (later : start ≤ n) :
    ∃ row, (run.state n).jobs[k]? = some row ∧ row.submission = job.submission := by
  induction later with
  | refl => exact ⟨job, stored, rfl⟩
  | step _ ih =>
      rcases ih with ⟨row, present, same⟩
      rcases row_next accounted present with ⟨next, placed, stepped⟩
      exact ⟨next, placed, stepped.submission.trans same⟩

theorem rankAt_shrinks (accounted : Accounted (run.state 0))
    (stored : (run.state start).jobs[k]? = some job) {n : Nat} (later : start ≤ n) :
    rankAt run k (n + 1) ≤ rankAt run k n := by
  rcases row_later accounted stored later with ⟨row, present, -⟩
  rcases row_next accounted present with ⟨next, placed, stepped⟩
  rw [rankAt_stored present, rankAt_stored placed]
  exact stepped.rank_le
    ((accounted_always accounted n).capped row (List.mem_of_getElem? present))

theorem row_stuck (accounted : Accounted (run.state 0))
    (stored : (run.state start).jobs[k]? = some job) (open_ : job.terminal = false)
    (stuck : ∀ m, start ≤ m → ¬ rankAt run k (m + 1) < rankAt run k m) {n : Nat}
    (later : start ≤ n) : (run.state n).jobs[k]? = some job := by
  induction later with
  | refl => exact stored
  | step reached ih =>
      rename_i m
      rcases row_next accounted ih with ⟨next, placed, stepped⟩
      have level := stuck m reached
      rw [rankAt_stored ih, rankAt_stored placed] at level
      have capped := (accounted_always accounted m).capped job (List.mem_of_getElem? ih)
      rcases stepped.descends capped with same | lower | ⟨terminal, -⟩
      · rw [placed, same]
      · exact absurd lower level
      · rw [terminal] at open_
        cases open_

/-- A queued job does not wait for ever: each poll takes one that was enqueued no later. -/
theorem queued_moves (accounted : Accounted (run.state 0)) (fair : Fair secs run)
    (queued : job.status = .queued)
    (stays : ∀ n, start ≤ n → (run.state n).jobs[k]? = some job) : False := by
  rcases fair.passes job.enqueuedAt start with ⟨begin_, after, past⟩
  have shrinks : ∀ n, begin_ ≤ n →
      backlog job.enqueuedAt (run.state (n + 1)).jobs ≤ backlog job.enqueuedAt (run.state n).jobs :=
    fun n later => backlog_shrinks (accounted_always accounted n) (past n later) (run.steps n)
  rcases stops_falling (f := fun n => backlog job.enqueuedAt (run.state n).jobs) shrinks with
    ⟨level, reached, settled⟩
  rcases fair.polls level with ⟨m, later, idle | ⟨worker, id, polled⟩⟩
  · exact idle job (List.mem_of_getElem? (stays m (by omega))) queued
  · have stepped := run.steps m
    rw [polled] at stepped
    have member := List.mem_of_getElem? (stays m (by omega))
    have lower := backlog_claimed (accounted_always accounted m) (past m (by omega)) stepped member
      queued (Int.le_refl _)
    have same := settled m later
    omega

/-- A job does not run for ever: a sweep finds it stale at last. -/
theorem running_moves (fair : Fair secs run) (running : job.status = .running)
    (stays : ∀ n, start ≤ n → (run.state n).jobs[k]? = some job) : False := by
  rcases fair.passes (job.updatedAt + secs * 1000000) start with ⟨begin_, after, past⟩
  have stale : ∀ m, begin_ ≤ m → job.stale (run.state m).now secs = true := by
    intro m later
    have elapsed := past m later
    apply decide_eq_true
    exact ⟨running, by omega⟩
  by_cases unspent : job.attemptCount < maxAttempts
  · rcases fair.requeues begin_ with ⟨m, later, swept⟩
    have stepped := run.steps m
    rw [swept] at stepped
    have next := stays (m + 1) (by omega)
    rw [← Option.some.inj stepped] at next
    dsimp only [reapRequeue] at next
    rw [updateWhere_get, stays m (by omega), Option.map_some,
      if_pos (by rw [stale m later]; exact decide_eq_true unspent)] at next
    have status := congrArg JobRow.status (Option.some.inj next)
    rw [running] at status
    cases status
  · rcases fair.fails begin_ with ⟨m, later, swept⟩
    have stepped := run.steps m
    rw [swept] at stepped
    have next := stays (m + 1) (by omega)
    rw [← Option.some.inj stepped] at next
    dsimp only [reapFail] at next
    rw [updateWhere_get, stays m (by omega), Option.map_some,
      if_pos (by rw [stale m later]; exact decide_eq_true (Nat.le_of_not_lt unspent))] at next
    have status := congrArg JobRow.status (Option.some.inj next)
    rw [running] at status
    cases status

theorem rankAt_falls (accounted : Accounted (run.state 0)) (fair : Fair secs run)
    (stored : (run.state start).jobs[k]? = some job) (positive : 0 < rankAt run k start) :
    ∃ m, start ≤ m ∧ rankAt run k (m + 1) < rankAt run k m := by
  by_contra never
  have stuck : ∀ m, start ≤ m → ¬ rankAt run k (m + 1) < rankAt run k m :=
    fun m later lower => never ⟨m, later, lower⟩
  have open_ : job.terminal = false := by
    rcases terminal : job.terminal with _ | _
    · rfl
    · rw [rankAt_stored stored, JobRow.rank_terminal terminal] at positive
      cases positive
  have stays : ∀ n, start ≤ n → (run.state n).jobs[k]? = some job :=
    fun n later => row_stuck accounted stored open_ stuck later
  rcases status : job.status with _ | _ | _ | _
  · exact queued_moves accounted fair status stays
  · exact running_moves fair status stays
  · simp [JobRow.terminal, status] at open_
  · simp [JobRow.terminal, status] at open_

end Ends

/-- Over any interleaving without an end in which workers go on polling, the clock goes on and the
reaper goes on sweeping, every job that is ever enqueued ends and stays ended, after one to three
claims, whatever crashes and however late a worker finishes. -/
theorem every_job_ends (secs now : Int) (run : Behaviour step) (empty : run.state 0 = { now := now })
    (fair : Fair secs run) (n k : Nat) (job : JobRow)
    (stored : (run.state n).jobs[k]? = some job) :
    ∃ m, n ≤ m ∧ ∀ later, m ≤ later → ∃ row, (run.state later).jobs[k]? = some row ∧
      row.submission = job.submission ∧ row.terminal = true ∧
      1 ≤ row.attemptCount ∧ row.attemptCount ≤ 3 := by
  have accounted : Accounted (run.state 0) := by
    rw [empty]
    exact .initial now
  have falls : ∀ m, n ≤ m → 0 < rankAt run k m →
      ∃ later, m ≤ later ∧ rankAt run k (later + 1) < rankAt run k later := by
    intro m later positive
    rcases row_later accounted stored later with ⟨row, present, -⟩
    exact rankAt_falls accounted fair present positive
  rcases reaches_zero (fun _ later => rankAt_shrinks accounted stored later) falls with
    ⟨m, reached, ended⟩
  refine ⟨m, reached, fun later after => ?_⟩
  rcases row_later accounted stored (Nat.le_trans reached after) with ⟨row, present, same⟩
  have zero := ended later after
  rw [rankAt_stored present] at zero
  have capped := (accounted_always accounted later).capped row (List.mem_of_getElem? present)
  have terminal : row.terminal = true := by
    by_contra open_
    have positive := capped.rank_pos (by simpa using open_)
    omega
  refine ⟨row, present, same, terminal, ?_⟩
  rw [Capped] at capped
  rcases row.terminal_iff.mp terminal with status | status
  · rw [status] at capped
    exact capped
  · rw [status] at capped
    exact capped

section Sample

def recovery : List Action :=
  [.enqueue 7 "a.txt" "default" "auto" none, .claim 0 [] 7, .crash 0, .advance 300000001,
   .reapRequeue 300, .claim 1 [] 7, .complete 1]

def recoveryAction (n : Nat) : Action :=
  recovery[n]?.getD
    (if n % 3 = 0 then .advance 1 else if n % 3 = 1 then .reapRequeue 300 else .reapFail 300)

def recoveryState : Nat → System
  | 0 => { now := 0 }
  | n + 1 => (step (recoveryState n) (recoveryAction n)).getD (recoveryState n)

theorem recovery_later {n : Nat} (later : 7 ≤ n) : recoveryAction n =
    if n % 3 = 0 then .advance 1 else if n % 3 = 1 then .reapRequeue 300 else .reapFail 300 := by
  have past : recovery[n]? = none := List.getElem?_eq_none later
  rw [recoveryAction, past]
  rfl

theorem recovery_enabled (n : Nat) :
    (step (recoveryState n) (recoveryAction n)).isSome = true := by
  by_cases early : n < 7
  · have first : ∀ n < 7, (step (recoveryState n) (recoveryAction n)).isSome = true := by decide
    exact first n early
  · rw [recovery_later (by omega)]
    split
    · rfl
    · split
      · rfl
      · rfl

def recoveryRun : Behaviour step where
  state := recoveryState
  action := recoveryAction
  steps := by
    intro n
    rcases Option.isSome_iff_exists.mp (recovery_enabled n) with ⟨after, stepped⟩
    rw [recoveryState, stepped]
    rfl

theorem recovery_next {n : Nat} (later : 7 ≤ n) :
    (recoveryState (n + 1)).jobs =
        (if n % 3 = 0 then (recoveryState n).jobs
        else if n % 3 = 1 then reapRequeue (recoveryState n).now 300 (recoveryState n).jobs
        else reapFail (recoveryState n).now 300 (recoveryState n).jobs) ∧
      (recoveryState (n + 1)).now =
        if n % 3 = 0 then (recoveryState n).now + 1 else (recoveryState n).now := by
  rw [recoveryState, recovery_later later]
  split
  · exact ⟨rfl, rfl⟩
  · split
    · exact ⟨rfl, rfl⟩
    · exact ⟨rfl, rfl⟩

theorem ended_unswept {jobs : List JobRow} (ended : ∀ job ∈ jobs, job.terminal = true)
    (now secs : Int) (other : JobRow → Bool) (change : JobRow → JobRow) :
    updateWhere (fun job => job.stale now secs && other job) change jobs = jobs := by
  have kept : ∀ job ∈ jobs,
      (if (job.stale now secs && other job) = true then change job else job) = job := by
    intro job member
    have fresh : job.stale now secs = false := by
      rcases job.terminal_iff.mp (ended job member) with status | status
      · simp [JobRow.stale, status]
      · simp [JobRow.stale, status]
    simp [fresh]
  rw [updateWhere, List.map_congr_left kept, List.map_id']

theorem recovery_ended {n : Nat} (later : 7 ≤ n) :
    ∀ job ∈ (recoveryState n).jobs, job.terminal = true := by
  induction later with
  | refl => decide
  | step later ih =>
      rw [(recovery_next later).1]
      split
      · exact ih
      · split
        · rw [reapRequeue, ended_unswept ih]
          exact ih
        · rw [reapFail, ended_unswept ih]
          exact ih

theorem recovery_clock (k : Nat) : (k : Int) ≤ (recoveryState (9 + 3 * k)).now := by
  induction k with
  | zero => decide
  | succ k ih =>
      have first : (recoveryState (9 + 3 * k + 1)).now = (recoveryState (9 + 3 * k)).now + 1 := by
        rw [(recovery_next (by omega)).2, if_pos (by omega)]
      have second : (recoveryState (9 + 3 * k + 2)).now = (recoveryState (9 + 3 * k + 1)).now := by
        rw [(recovery_next (by omega)).2, if_neg (by omega)]
      have third : (recoveryState (9 + 3 * k + 3)).now = (recoveryState (9 + 3 * k + 2)).now := by
        rw [(recovery_next (by omega)).2, if_neg (by omega)]
      have place : 9 + 3 * (k + 1) = 9 + 3 * k + 3 := by omega
      rw [place, third, second, first]
      push_cast
      omega

theorem recovery_fair : Fair 300 recoveryRun where
  clock := by
    intro time
    refine ⟨9 + 3 * (time.toNat + 1), ?_⟩
    have reached : ((time.toNat + 1 : Nat) : Int) ≤
        (recoveryRun.state (9 + 3 * (time.toNat + 1))).now := recovery_clock (time.toNat + 1)
    omega
  polls := by
    intro n
    refine ⟨n + 7, by omega, .inl fun job member queued => ?_⟩
    have terminal := recovery_ended (Nat.le_add_left 7 n) job member
    simp [JobRow.terminal, queued] at terminal
  requeues := by
    intro n
    refine ⟨3 * n + 7, by omega, ?_⟩
    change recoveryAction (3 * n + 7) = .reapRequeue 300
    rw [recovery_later (by omega), if_neg (by omega), if_pos (by omega)]
  fails := by
    intro n
    refine ⟨3 * n + 8, by omega, ?_⟩
    change recoveryAction (3 * n + 8) = .reapFail 300
    rw [recovery_later (by omega), if_neg (by omega), if_neg (by omega)]

theorem recovery_ends : ∃ m, 1 ≤ m ∧ ∀ later, m ≤ later → ∃ row,
    (recoveryState later).jobs[0]? = some row ∧ row.terminal = true := by
  have stored : ∃ job, (recoveryRun.state 1).jobs[0]? = some job := ⟨_, rfl⟩
  rcases stored with ⟨job, stored⟩
  rcases every_job_ends 300 0 recoveryRun rfl recovery_fair 1 0 job stored with ⟨m, reached, ended⟩
  refine ⟨m, reached, fun later after => ?_⟩
  rcases ended later after with ⟨row, present, -, terminal, -⟩
  exact ⟨row, present, terminal⟩

end Sample

end Queue

end PgRaggraph

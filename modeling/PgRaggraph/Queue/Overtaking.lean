import PgRaggraph.Queue.Publication

/-! How many jobs are claimed before one that waits. -/

namespace PgRaggraph

def JobRow.attemptsLeft (job : JobRow) : Nat :=
  if job.terminal then 0 else maxAttempts - job.attemptCount

namespace Queue

/-- A claim by which the job could have been taken: its row was not locked. -/
def Action.passesOver (id : Uuid) : Action → Bool
  | .claim _ locked _ => decide (id ∉ locked)
  | _ => false

def Commit.passesOver (id : Uuid) : Commit → Bool
  | .statement action => action.passesOver id
  | .publish _ _ _ _ _ _ => false

def Commit.joinsAhead (enqueuedAt : Int) : Commit → Bool
  | .statement _ => false
  | .publish began _ _ _ _ _ => decide (began ≤ enqueuedAt)

/-- The claims left to the other jobs that were enqueued no later. -/
def claimsAhead (job : JobRow) (jobs : List JobRow) : Nat :=
  outstanding (fun row => if row.id = job.id then 0 else row.attemptsLeft) job.enqueuedAt jobs

theorem RowStep.attemptsLeft_le {s : System} {action : Action} {job next : JobRow}
    (stepped : RowStep s action job next) : next.attemptsLeft ≤ job.attemptsLeft := by
  cases stepped with
  | kept => exact Nat.le_refl _
  | claimed worker locked _ queued =>
      simp [JobRow.attemptsLeft, JobRow.terminal, JobRow.claimed, queued]
      omega
  | completed => exact Nat.zero_le _
  | failed => exact Nat.zero_le _
  | requeued secs _ stale unspent =>
      have running : job.status = .running := (of_decide_eq_true stale).1
      simp [JobRow.attemptsLeft, JobRow.terminal, JobRow.requeued, running]
  | cappedOut => exact Nat.zero_le _

theorem RowStep.id {s : System} {action : Action} {job next : JobRow}
    (stepped : RowStep s action job next) : next.id = job.id :=
  congrArg Submission.id stepped.submission

def Over (claims : Nat) (job : JobRow) : Prop := job.terminal = true ∨ claims < job.attemptCount

theorem RowStep.beyond {s : System} {action : Action} {job next : JobRow} {claims : Nat}
    (stepped : RowStep s action job next) (beyond : Over claims job) : Over claims next := by
  cases stepped with
  | kept => exact beyond
  | claimed worker locked _ queued =>
      rcases beyond with terminal | more
      · simp [JobRow.terminal, queued] at terminal
      · exact .inr (Nat.lt_succ_of_lt more)
  | completed => exact .inl rfl
  | failed => exact .inl rfl
  | requeued secs _ stale unspent =>
      have running : job.status = .running := (of_decide_eq_true stale).1
      rcases beyond with terminal | more
      · simp [JobRow.terminal, running] at terminal
      · exact .inr more
  | cappedOut => exact .inl rfl

theorem RowStep.leaves {s : System} {action : Action} {job next : JobRow}
    (stepped : RowStep s action job next) (queued : job.status = .queued) :
    next = job ∨ Over job.attemptCount next := by
  cases stepped with
  | kept => exact .inl rfl
  | claimed => exact .inr (.inr (Nat.lt_succ_self _))
  | completed => exact .inr (.inl rfl)
  | failed => exact .inr (.inl rfl)
  | requeued secs _ stale unspent =>
      have running : job.status = .running := (of_decide_eq_true stale).1
      rw [queued] at running
      cases running
  | cappedOut => exact .inr (.inl rfl)

section Ahead

variable {s after : System} {action : Action} {job : JobRow}

theorem ahead_lowers {row next : JobRow} (moved : RowStep s action row next) :
    (if next.id = job.id then 0 else next.attemptsLeft) ≤
      if row.id = job.id then 0 else row.attemptsLeft := by
  rw [moved.id]
  split
  · exact Nat.le_refl _
  · exact moved.attemptsLeft_le

theorem ahead_shrinks (unique : (s.jobs.map JobRow.id).Nodup) (past : job.enqueuedAt < s.now)
    (stepped : step s action = some after) : claimsAhead job after.jobs ≤ claimsAhead job s.jobs :=
  outstanding_shrinks unique past (fun _ _ _ moved => ahead_lowers moved) stepped

theorem ahead_passed (accounted : Accounted s) (past : job.enqueuedAt < s.now)
    (stepped : step s action = some after) (passes : action.passesOver job.id = true)
    (member : job ∈ s.jobs) (queued : job.status = .queued) (stays : job ∈ after.jobs) :
    claimsAhead job after.jobs < claimsAhead job s.jobs := by
  cases action with
  | claim worker locked id =>
      have free : job.id ∉ locked := of_decide_eq_true passes
      refine outstanding_claimed accounted.unique past (fun _ _ _ moved => ahead_lowers moved) ?_
        stepped member queued free (Int.le_refl _)
      intro row listed same waits
      have other : row.id ≠ job.id := by
        intro taken
        have claimed : job.claimed s.now ∈ after.jobs := by
          rcases step_claim stepped with ⟨first, -, rfl, -, -, rfl⟩
          exact List.mem_map.mpr ⟨job, member, if_pos (decide_eq_true (taken.symm.trans same))⟩
        have unique := (accounted_step accounted _ stepped).unique
        have equal := congrArg JobRow.status (row_unique unique stays claimed rfl)
        rw [queued] at equal
        cases equal
      have capped := accounted.capped row listed
      rw [Capped, waits] at capped
      dsimp only at capped
      have different : (row.claimed s.now).id ≠ job.id := other
      rw [if_neg different, if_neg other]
      simp [JobRow.attemptsLeft, JobRow.terminal, JobRow.claimed, waits, maxAttempts]
      omega
  | _ => cases passes

theorem ahead_joined (job : JobRow) {began : Int} {id : Uuid} {source ns chunkStrategy : String}
    {payload : Option Bytes} (jobs : List JobRow) :
    claimsAhead job (enqueue began id source ns chunkStrategy payload jobs) ≤
      claimsAhead job jobs + maxAttempts * (if began ≤ job.enqueuedAt then 1 else 0) := by
  simp only [claimsAhead, outstanding, enqueue, List.map_append, List.sum_append, List.map_cons,
    List.map_nil, List.sum_cons, List.sum_nil, JobRow.attemptsLeft, maxAttempts]
  apply Nat.add_le_add_left
  split
  · split
    · exact Nat.zero_le _
    · simp [JobRow.terminal]
  · exact Nat.zero_le _

theorem ahead_commit (accounted : Accounted s) (past : job.enqueuedAt < s.now) {commit : Commit}
    (stepped : commitStep s commit = some after) (member : job ∈ s.jobs)
    (queued : job.status = .queued) (stays : job ∈ after.jobs) :
    claimsAhead job after.jobs + (if commit.passesOver job.id then 1 else 0) ≤
      claimsAhead job s.jobs + maxAttempts * (if commit.joinsAhead job.enqueuedAt then 1 else 0) := by
  cases commit with
  | statement action =>
      cases passes : action.passesOver job.id with
      | false =>
          have shrinks := ahead_shrinks accounted.unique past stepped
          simpa [Commit.passesOver, Commit.joinsAhead, passes] using shrinks
      | true =>
          have lower := ahead_passed accounted past stepped passes member queued stays
          simpa [Commit.passesOver, Commit.joinsAhead, passes] using Nat.succ_le_of_lt lower
  | publish began id source ns chunkStrategy payload =>
      rcases step_publish stepped with ⟨-, rfl⟩
      simpa [Commit.passesOver, Commit.joinsAhead] using ahead_joined job s.jobs

theorem ahead_le (job : JobRow) (jobs : List JobRow) :
    claimsAhead job jobs ≤ maxAttempts * jobs.countP (fun other =>
      decide (other.id ≠ job.id) && decide (other.enqueuedAt ≤ job.enqueuedAt) &&
        !other.terminal) := by
  rw [claimsAhead, outstanding]
  induction jobs with
  | nil => exact Nat.zero_le _
  | cons first rest ih =>
      rw [List.map_cons, List.sum_cons, List.countP_cons, Nat.mul_add]
      refine Nat.le_trans (Nat.add_le_add_left ih _) ?_
      rw [Nat.add_comm]
      apply Nat.add_le_add_left
      by_cases due : first.enqueuedAt ≤ job.enqueuedAt
      · by_cases same : first.id = job.id
        · simp [same]
        · cases terminal : first.terminal with
          | false => simp [due, same, terminal, JobRow.attemptsLeft]
          | true => simp [same, terminal, JobRow.attemptsLeft]
      · simp [due]

end Ahead

section Run

variable {s last : System} {k : Nat} {job row : JobRow} {commits : List Commit}

theorem run_over (accounted : Accounted s) {claims : Nat} (stored : s.jobs[k]? = some job)
    (beyond : Over claims job) (finished : Transition.run commitStep s commits = some last) :
    ∃ row, last.jobs[k]? = some row ∧ Over claims row := by
  induction commits generalizing s job with
  | nil =>
      cases Option.some.inj finished
      exact ⟨job, stored, beyond⟩
  | cons commit rest ih =>
      rcases Transition.run_cons finished with ⟨after, stepped, remaining⟩
      rcases commit_row accounted.unique stepped stored with ⟨next, placed, same | ⟨_, -, moved⟩⟩
      · exact ih (accounted_commit accounted stepped) placed (same ▸ beyond) remaining
      · exact ih (accounted_commit accounted stepped) placed (moved.beyond beyond) remaining

theorem waiting_not_over {claims : Nat} (waits : row.status = .queued)
    (unclaimed : row.attemptCount = claims) : ¬ Over claims row := by
  rintro (terminal | more)
  · simp [JobRow.terminal, waits] at terminal
  · omega

theorem run_overtaken (accounted : Accounted s) (stored : s.jobs[k]? = some job)
    (queued : job.status = .queued) (past : job.enqueuedAt < s.now)
    (finished : Transition.run commitStep s commits = some last)
    (present : last.jobs[k]? = some row) (waits : row.status = .queued)
    (unclaimed : row.attemptCount = job.attemptCount) :
    commits.countP (Commit.passesOver job.id) ≤
      claimsAhead job s.jobs + maxAttempts * commits.countP (Commit.joinsAhead job.enqueuedAt) := by
  induction commits generalizing s with
  | nil => exact Nat.zero_le _
  | cons commit rest ih =>
      rcases Transition.run_cons finished with ⟨after, stepped, remaining⟩
      have later := accounted_commit accounted stepped
      rcases commit_row accounted.unique stepped stored with ⟨next, placed, moved⟩
      have leaves : next = job ∨ Over job.attemptCount next := by
        rcases moved with same | ⟨action, -, moved⟩
        · exact .inl same
        · exact moved.leaves queued
      rcases leaves with rfl | beyond
      · have rest_le := ih later placed (Int.lt_of_lt_of_le past (commit_now stepped)) remaining
        have here := ahead_commit accounted past stepped (List.mem_of_getElem? stored) queued
          (List.mem_of_getElem? placed)
        rw [List.countP_cons, List.countP_cons, Nat.mul_add]
        omega
      · rcases run_over later placed beyond remaining with ⟨end_, found, passed⟩
        rw [present] at found
        cases Option.some.inj found
        exact absurd passed (waiting_not_over waits unclaimed)

end Run

/-- Whatever happens, a job that still waits for its next claim at the end of a run has been passed
over, with its row free, at most as often as the jobs enqueued no later could still be claimed, and
three times for each job of a producer that began no later and commits in the run. -/
theorem overtaking_bounded (now : Int) (before : List Commit) (s : System)
    (begun : Transition.run commitStep { now := now } before = some s) (k : Nat) (job : JobRow)
    (stored : s.jobs[k]? = some job) (queued : job.status = .queued)
    (past : job.enqueuedAt < s.now) (commits : List Commit) (last : System)
    (finished : Transition.run commitStep s commits = some last) (row : JobRow)
    (present : last.jobs[k]? = some row) (waits : row.status = .queued)
    (unclaimed : row.attemptCount = job.attemptCount) :
    commits.countP (Commit.passesOver job.id) ≤
        claimsAhead job s.jobs + maxAttempts * commits.countP (Commit.joinsAhead job.enqueuedAt) ∧
      claimsAhead job s.jobs ≤ maxAttempts * s.jobs.countP (fun other =>
        decide (other.id ≠ job.id) && decide (other.enqueuedAt ≤ job.enqueuedAt) &&
          !other.terminal) := by
  refine ⟨run_overtaken (accounted_commits (.initial now) begun) stored queued past finished present
    waits unclaimed, ?_⟩
  exact ahead_le job s.jobs

def twoWaiting : List Commit :=
  [.statement (.enqueue 7 "a.txt" "default" "auto" none), .statement (.advance 1),
    .statement (.enqueue 8 "b.txt" "default" "auto" none), .statement (.advance 1)]

/-- The first job crashes its worker, and a third one, whose producer began first, commits last. -/
def passingBy : List Commit :=
  [.statement (.claim 0 [] 7), .statement (.crash 0), .statement (.advance 300000001),
    .statement (.reapRequeue 300), .statement (.claim 1 [] 7),
    .publish 0 6 "c.txt" "default" "auto" none, .statement (.claim 2 [] 6)]

theorem passed_thrice : ∃ s last job, Transition.run commitStep { now := 0 } twoWaiting = some s ∧
    s.jobs[1]? = some job ∧ Transition.run commitStep s passingBy = some last ∧
    3 = passingBy.countP (Commit.passesOver job.id) ∧
    passingBy.countP (Commit.passesOver job.id) ≤
      claimsAhead job s.jobs + maxAttempts * passingBy.countP (Commit.joinsAhead job.enqueuedAt) := by
  have ran : ∃ s last, Transition.run commitStep { now := 0 } twoWaiting = some s ∧
      Transition.run commitStep s passingBy = some last := ⟨_, _, rfl, rfl⟩
  rcases ran with ⟨s, last, begun, finished⟩
  have first := begun
  cases Option.some.inj first
  have reached := finished
  cases Option.some.inj reached
  have bounds := overtaking_bounded 0 _ _ begun 1 _ rfl rfl (by decide) _ _ finished _ rfl rfl rfl
  exact ⟨_, _, _, begun, rfl, finished, rfl, bounds.1⟩

end Queue

end PgRaggraph

import PgRaggraph.Library.Transition
import PgRaggraph.Queue.Jobs
import Mathlib.Data.List.MinMax

/-! Any interleaving of producers, workers, reapers and the clock over one job queue. -/

namespace PgRaggraph.Queue

/-- A live worker between its claim and its finaliser. `overtaken` records that a sweep with the
matching attempt bound ran when the claim was already older than the sweep's interval. -/
structure Executing where
  job : Uuid
  attempt : Nat
  claimedAt : Int
  overtaken : Bool
  deriving DecidableEq

/-- `claims` is the history of the pairs that claims returned. -/
structure System where
  now : Int
  jobs : List JobRow := []
  workers : Nat → Option Executing := fun _ => none
  claims : List (Uuid × Nat) := []

inductive Action where
  | enqueue (id : Uuid) (source ns chunkStrategy : String) (payload : Option Bytes)
  | claim (worker : Nat) (locked : List Uuid) (id : Uuid)
  | complete (worker : Nat)
  | fail (worker : Nat) (error : String)
  | crash (worker : Nat)
  | reapRequeue (secs : Int)
  | reapFail (secs : Int)
  | advance (micros : Nat)
  deriving DecidableEq

def System.assign (s : System) (worker : Nat) (executing : Option Executing) :
    Nat → Option Executing :=
  fun w => if w = worker then executing else s.workers w

def Executing.late (now secs : Int) (ex : Executing) : Bool :=
  ex.claimedAt < now - secs * 1000000

def System.sweep (s : System) (secs : Int) (reaches : Executing → Bool) : Nat → Option Executing :=
  fun w => (s.workers w).map (fun ex =>
    { ex with overtaken := ex.overtaken || (reaches ex && ex.late s.now secs) })

def step (s : System) : Action → Option System
  | .enqueue id source ns chunkStrategy payload =>
      if id ∈ s.jobs.map JobRow.id then none
      else some { s with jobs := enqueue s.now id source ns chunkStrategy payload s.jobs }
  | .claim worker locked id =>
      match s.workers worker, s.jobs.find? (fun job => job.id = id) with
      | none, some job =>
          if isNextJob locked s.jobs job then
            some { s with
              jobs := claimJob s.now id s.jobs
              workers := s.assign worker (some
                { job := id, attempt := job.attemptCount + 1, claimedAt := s.now,
                  overtaken := false })
              claims := (id, job.attemptCount + 1) :: s.claims }
          else none
      | _, _ => none
  | .complete worker =>
      (s.workers worker).map (fun ex =>
        { s with jobs := completeJob s.now ex.job s.jobs, workers := s.assign worker none })
  | .fail worker error =>
      (s.workers worker).map (fun ex =>
        { s with jobs := failJob s.now ex.job error s.jobs, workers := s.assign worker none })
  | .crash worker =>
      (s.workers worker).map (fun _ => { s with workers := s.assign worker none })
  | .reapRequeue secs =>
      some { s with
        jobs := reapRequeue s.now secs s.jobs
        workers := s.sweep secs (fun ex => ex.attempt < maxAttempts) }
  | .reapFail secs =>
      some { s with
        jobs := reapFail s.now secs s.jobs
        workers := s.sweep secs (fun ex => maxAttempts ≤ ex.attempt) }
  | .advance micros => some { s with now := s.now + micros }

def Action.worker : Action → Option Nat
  | .claim worker _ _ => some worker
  | .complete worker => some worker
  | .fail worker _ => some worker
  | .crash worker => some worker
  | _ => none

def Action.submitted : Action → List Submission
  | .enqueue id source ns chunkStrategy payload =>
      [{ id := id, source := source, ns := ns, chunkStrategy := chunkStrategy, payload := payload }]
  | _ => []

def Capped (job : JobRow) : Prop :=
  match job.status with
  | .queued => job.attemptCount ≤ 2
  | .running => 1 ≤ job.attemptCount ∧ job.attemptCount ≤ 3
  | .completed => 1 ≤ job.attemptCount ∧ job.attemptCount ≤ 3
  | .failed => 1 ≤ job.attemptCount ∧ job.attemptCount ≤ 3

structure Accounted (s : System) : Prop where
  unique : (s.jobs.map JobRow.id).Nodup
  counted : ∀ job ∈ s.jobs, job.attemptCount = s.claims.countP (fun c => c.1 = job.id)
  capped : ∀ job ∈ s.jobs, Capped job
  known : ∀ c ∈ s.claims, c.1 ∈ s.jobs.map JobRow.id
  past : ∀ c ∈ s.claims, ∀ job ∈ s.jobs, job.id = c.1 → c.2 ≤ job.attemptCount
  distinct : s.claims.Nodup
  held : ∀ w ex, s.workers w = some ex → (ex.job, ex.attempt) ∈ s.claims

theorem Accounted.initial (now : Int) : Accounted { now := now } where
  unique := List.nodup_nil
  counted := fun _ stored => absurd stored List.not_mem_nil
  capped := fun _ stored => absurd stored List.not_mem_nil
  known := nofun
  past := nofun
  distinct := List.nodup_nil
  held := nofun

theorem Accounted.updated {s : System} (accounted : Accounted s) {condition : JobRow → Bool}
    (change : JobRow → JobRow) {workers : Nat → Option Executing}
    (keepsId : ∀ job, (change job).id = job.id)
    (keepsAttempts : ∀ job, (change job).attemptCount = job.attemptCount)
    (capped : ∀ job ∈ s.jobs, condition job = true → Capped (change job))
    (held : ∀ w ex, workers w = some ex → ∃ v old, s.workers v = some old ∧
      ex.job = old.job ∧ ex.attempt = old.attempt) :
    Accounted { s with jobs := updateWhere condition change s.jobs, workers := workers } where
  unique := by
    rw [updateWhere_map keepsId]
    exact accounted.unique
  counted := by
    refine forall_updateWhere.mpr ?_
    intro job member
    have count := accounted.counted job member
    by_cases matched : condition job
    · simpa only [matched, if_true, keepsId, keepsAttempts] using count
    · simpa only [matched, Bool.false_eq_true, if_false] using count
  capped := by
    refine forall_updateWhere.mpr ?_
    intro job member
    by_cases matched : condition job
    · simpa only [matched, if_true] using capped job member matched
    · simpa only [matched, Bool.false_eq_true, if_false] using accounted.capped job member
  known := by
    rw [updateWhere_map keepsId]
    exact accounted.known
  past := by
    intro c claim
    refine forall_updateWhere.mpr ?_
    intro job member
    have bound := accounted.past c claim job member
    by_cases matched : condition job
    · simpa only [matched, if_true, keepsId, keepsAttempts] using bound
    · simpa only [matched, Bool.false_eq_true, if_false] using bound
  distinct := accounted.distinct
  held := by
    intro w ex executing
    rcases held w ex executing with ⟨v, old, before, sameJob, sameAttempt⟩
    rw [sameJob, sameAttempt]
    exact accounted.held v old before

theorem assign_none {s : System} {worker w : Nat} {ex : Executing}
    (executing : s.assign worker none w = some ex) : s.workers w = some ex := by
  rw [System.assign] at executing
  split at executing
  · cases executing
  · exact executing

theorem sweep_held {s : System} {secs : Int} {reaches : Executing → Bool} {w : Nat}
    {ex : Executing} (executing : s.sweep secs reaches w = some ex) :
    ∃ old, s.workers w = some old ∧
      ex = { old with overtaken := old.overtaken || (reaches old && old.late s.now secs) } := by
  rw [System.sweep, Option.map_eq_some_iff] at executing
  rcases executing with ⟨old, before, same⟩
  exact ⟨old, before, same.symm⟩

theorem Accounted.claimedOnce {s : System} (accounted : Accounted s) {w : Nat} {ex : Executing}
    (executing : s.workers w = some ex) {job : JobRow} (member : job ∈ s.jobs)
    (same : job.id = ex.job) : 1 ≤ job.attemptCount := by
  have claim := accounted.held w ex executing
  rw [accounted.counted job member]
  apply List.countP_pos_iff.mpr
  exact ⟨_, claim, by simp [same]⟩

theorem Capped.finished {job : JobRow} (capped : Capped job) (once : 1 ≤ job.attemptCount) :
    1 ≤ job.attemptCount ∧ job.attemptCount ≤ 3 := by
  rw [Capped] at capped
  rcases status : job.status with _ | _ | _ | _
  all_goals
    rw [status] at capped
    dsimp only at capped
    omega

theorem Accounted.finalised {s : System} (accounted : Accounted s) {w : Nat} {ex : Executing}
    (executing : s.workers w = some ex) (change : JobRow → JobRow)
    (keepsId : ∀ job, (change job).id = job.id)
    (keepsAttempts : ∀ job, (change job).attemptCount = job.attemptCount)
    (ends : ∀ job, (change job).status = .completed ∨ (change job).status = .failed) :
    Accounted { s with
      jobs := updateWhere (fun job => job.id = ex.job) change s.jobs
      workers := s.assign w none } := by
  apply accounted.updated change keepsId keepsAttempts
  · intro job member matched
    have once := accounted.claimedOnce executing member (of_decide_eq_true matched)
    have bounds := (accounted.capped job member).finished once
    rw [Capped]
    rcases ends job with status | status
    · rw [status, keepsAttempts]
      exact bounds
    · rw [status, keepsAttempts]
      exact bounds
  · intro v old before
    exact ⟨v, old, assign_none before, rfl, rfl⟩

theorem Accounted.enqueued {s : System} (accounted : Accounted s) {id : Uuid}
    (fresh : id ∉ s.jobs.map JobRow.id) (source ns chunkStrategy : String)
    (payload : Option Bytes) :
    Accounted { s with jobs := enqueue s.now id source ns chunkStrategy payload s.jobs } where
  unique := by
    simp only [enqueue, List.map_append, List.map_cons, List.map_nil]
    apply List.nodup_append.mpr
    refine ⟨accounted.unique, List.nodup_singleton _, ?_⟩
    intro a old b new same
    rw [List.mem_singleton.mp new] at same
    exact fresh (same ▸ old)
  counted := by
    intro job member
    rcases List.mem_append.mp member with old | new
    · exact accounted.counted job old
    · rw [List.mem_singleton.mp new]
      symm
      apply List.countP_eq_zero.mpr
      intro c claim matched
      have same : c.1 = id := of_decide_eq_true matched
      exact fresh (same ▸ accounted.known c claim)
  capped := by
    intro job member
    rcases List.mem_append.mp member with old | new
    · exact accounted.capped job old
    · rw [List.mem_singleton.mp new]
      exact Nat.zero_le 2
  known := by
    intro c claim
    simp only [enqueue, List.map_append]
    exact List.mem_append_left _ (accounted.known c claim)
  past := by
    intro c claim job member same
    rcases List.mem_append.mp member with old | new
    · exact accounted.past c claim job old same
    · rw [List.mem_singleton.mp new] at same
      have known := accounted.known c claim
      rw [← same] at known
      exact absurd known fresh
  distinct := accounted.distinct
  held := accounted.held

theorem Accounted.claimed {s : System} (accounted : Accounted s) {job : JobRow}
    (member : job ∈ s.jobs) (queued : job.status = .queued) (worker : Nat) :
    Accounted { s with
      jobs := claimJob s.now job.id s.jobs
      workers := s.assign worker (some
        { job := job.id, attempt := job.attemptCount + 1, claimedAt := s.now, overtaken := false })
      claims := (job.id, job.attemptCount + 1) :: s.claims } where
  unique := by
    rw [claimJob_ids]
    exact accounted.unique
  counted := by
    refine forall_updateWhere.mpr ?_
    intro other present
    have count := accounted.counted other present
    by_cases same : other.id = job.id
    · simp [same, JobRow.claimed, count]
    · simp [same, Ne.symm same, count]
  capped := by
    refine forall_updateWhere.mpr ?_
    intro other present
    by_cases same : other.id = job.id
    · have equal := row_unique accounted.unique present member same
      have capped := accounted.capped job member
      rw [Capped, queued] at capped
      simp only [equal, JobRow.claimed, Capped, decide_true, if_true]
      dsimp only at capped
      omega
    · simpa [same] using accounted.capped other present
  known := by
    rw [claimJob_ids]
    intro c claim
    rcases List.mem_cons.mp claim with new | old
    · rw [new]
      exact List.mem_map_of_mem member
    · exact accounted.known c old
  past := by
    intro c claim
    refine forall_updateWhere.mpr ?_
    intro other present
    rcases List.mem_cons.mp claim with new | old
    · intro same
      by_cases matched : other.id = job.id
      · have equal := row_unique accounted.unique present member matched
        simp [new, equal, JobRow.claimed]
      · simp [matched, new] at same
    · have bound := accounted.past c old other present
      by_cases matched : other.id = job.id
      · simp only [matched, decide_true, if_true, JobRow.claimed]
        intro same
        have earlier := bound (matched.trans same)
        omega
      · simpa [matched] using bound
  distinct := by
    refine List.nodup_cons.mpr ⟨?_, accounted.distinct⟩
    intro claimed
    have bound := accounted.past _ claimed job member rfl
    dsimp only at bound
    omega
  held := by
    intro w ex executing
    simp only [System.assign] at executing
    split at executing
    · cases executing
      exact List.mem_cons_self
    · exact List.mem_cons_of_mem _ (accounted.held w ex executing)

theorem step_enqueue {s after : System} {id : Uuid} {source ns chunkStrategy : String}
    {payload : Option Bytes}
    (stepped : step s (.enqueue id source ns chunkStrategy payload) = some after) :
    id ∉ s.jobs.map JobRow.id ∧
      after = { s with jobs := enqueue s.now id source ns chunkStrategy payload s.jobs } := by
  simp only [step] at stepped
  split at stepped
  · cases stepped
  · rename_i fresh
    exact ⟨fresh, (Option.some.inj stepped).symm⟩

theorem step_claim {s after : System} {worker : Nat} {locked : List Uuid} {id : Uuid}
    (stepped : step s (.claim worker locked id) = some after) :
    ∃ job ∈ s.jobs, job.id = id ∧ job.status = .queued ∧ s.workers worker = none ∧
      after = { s with
        jobs := claimJob s.now job.id s.jobs
        workers := s.assign worker (some
          { job := job.id, attempt := job.attemptCount + 1, claimedAt := s.now,
            overtaken := false })
        claims := (job.id, job.attemptCount + 1) :: s.claims } := by
  simp only [step] at stepped
  split at stepped
  · rename_i job idle found
    split at stepped
    · rename_i next
      have same : job.id = id := by simpa using List.find?_some found
      subst same
      cases stepped
      exact ⟨job, List.mem_of_find?_eq_some found, rfl, (of_decide_eq_true next).1, idle, rfl⟩
    · cases stepped
  · cases stepped

theorem claim_enabled {s : System} (unique : (s.jobs.map JobRow.id).Nodup) {worker : Nat}
    (idle : s.workers worker = none) {job : JobRow} (member : job ∈ s.jobs)
    (queued : job.status = .queued) :
    ∃ next ∈ s.jobs, ∃ after, step s (.claim worker [] next.id) = some after := by
  have waiting : job ∈ s.jobs.filter (fun row => row.status = .queued) :=
    List.mem_filter.mpr ⟨member, decide_eq_true queued⟩
  rcases first : (s.jobs.filter (fun row => row.status = .queued)).argmin JobRow.enqueuedAt with
    _ | next
  · rw [List.argmin_eq_none.mp first] at waiting
    cases waiting
  · rcases List.mem_filter.mp (List.argmin_mem first) with ⟨present, status⟩
    have status := of_decide_eq_true status
    have oldest : isNextJob [] s.jobs next = true := by
      apply decide_eq_true
      refine ⟨status, List.not_mem_nil, ?_⟩
      intro other stored otherQueued _
      exact List.le_of_mem_argmin (List.mem_filter.mpr ⟨stored, decide_eq_true otherQueued⟩) first
    have found : ∃ row, s.jobs.find? (fun row => row.id = next.id) = some row := by
      apply Option.isSome_iff_exists.mp
      exact List.find?_isSome.mpr ⟨next, present, decide_eq_true rfl⟩
    rcases found with ⟨row, found⟩
    have same : row.id = next.id := by simpa using List.find?_some found
    have equal := row_unique unique (List.mem_of_find?_eq_some found) present same
    rw [equal] at found
    refine ⟨next, present, ?_⟩
    simp only [step, idle, found, oldest, if_true]
    exact ⟨_, rfl⟩

theorem accounted_step {s after : System} (accounted : Accounted s) (action : Action)
    (stepped : step s action = some after) : Accounted after := by
  cases action with
  | enqueue id source ns chunkStrategy payload =>
      rcases step_enqueue stepped with ⟨fresh, rfl⟩
      exact accounted.enqueued fresh source ns chunkStrategy payload
  | claim worker locked id =>
      rcases step_claim stepped with ⟨job, member, -, queued, -, rfl⟩
      exact accounted.claimed member queued worker
  | complete worker =>
      rcases Option.map_eq_some_iff.mp stepped with ⟨ex, executing, rfl⟩
      exact accounted.finalised executing (JobRow.completed s.now) (fun _ => rfl) (fun _ => rfl)
        (fun _ => .inl rfl)
  | fail worker error =>
      rcases Option.map_eq_some_iff.mp stepped with ⟨ex, executing, rfl⟩
      exact accounted.finalised executing (JobRow.failed s.now error) (fun _ => rfl)
        (fun _ => rfl) (fun _ => .inr rfl)
  | crash worker =>
      rcases Option.map_eq_some_iff.mp stepped with ⟨ex, executing, rfl⟩
      exact { accounted with held := fun w old before => accounted.held w old (assign_none before) }
  | reapRequeue secs =>
      cases stepped
      apply accounted.updated (JobRow.requeued s.now) (fun _ => rfl) (fun _ => rfl)
      · intro job member matched
        have under : job.attemptCount < 3 := of_decide_eq_true ((Bool.and_eq_true _ _).mp matched).2
        exact Nat.le_of_lt_succ under
      · intro w ex executing
        rcases sweep_held executing with ⟨old, before, rfl⟩
        exact ⟨w, old, before, rfl, rfl⟩
  | reapFail secs =>
      cases stepped
      apply accounted.updated (JobRow.cappedOut s.now) (fun _ => rfl) (fun _ => rfl)
      · intro job member matched
        simp only [Bool.and_eq_true, JobRow.stale, decide_eq_true_eq] at matched
        have capped := accounted.capped job member
        rw [Capped, matched.1.1] at capped
        exact capped
      · intro w ex executing
        rcases sweep_held executing with ⟨old, before, rfl⟩
        exact ⟨w, old, before, rfl, rfl⟩
  | advance micros =>
      cases stepped
      exact { accounted with }

theorem accounted_run {s last : System} (accounted : Accounted s) {actions : List Action}
    (finished : Transition.run step s actions = some last) : Accounted last :=
  Transition.run_invariant (fun _ action _ holds _ stepped => accounted_step holds action stepped)
    accounted (Transition.meets_always step (fun _ _ => trivial) s actions) finished

theorem step_submissions {s after : System} {action : Action}
    (stepped : step s action = some after) :
    after.jobs.map JobRow.submission = s.jobs.map JobRow.submission ++ action.submitted := by
  have kept : ∀ condition change, (∀ job, (change job).submission = job.submission) →
      (updateWhere condition change s.jobs).map JobRow.submission =
        s.jobs.map JobRow.submission ++ [] := by
    intro condition change keeps
    rw [List.append_nil]
    exact updateWhere_map keeps
  cases action with
  | enqueue id source ns chunkStrategy payload =>
      rcases step_enqueue stepped with ⟨-, rfl⟩
      rw [enqueue, List.map_append]
      rfl
  | claim worker locked id =>
      rcases step_claim stepped with ⟨job, -, -, -, -, rfl⟩
      exact kept _ _ (fun _ => rfl)
  | complete worker =>
      rcases Option.map_eq_some_iff.mp stepped with ⟨ex, -, rfl⟩
      exact kept _ _ (fun _ => rfl)
  | fail worker error =>
      rcases Option.map_eq_some_iff.mp stepped with ⟨ex, -, rfl⟩
      exact kept _ _ (fun _ => rfl)
  | crash worker =>
      rcases Option.map_eq_some_iff.mp stepped with ⟨ex, -, rfl⟩
      exact (List.append_nil _).symm
  | reapRequeue secs =>
      cases stepped
      exact kept _ _ (fun _ => rfl)
  | reapFail secs =>
      cases stepped
      exact kept _ _ (fun _ => rfl)
  | advance micros =>
      cases stepped
      exact (List.append_nil _).symm

theorem step_terminal {s after : System} {action : Action} (stepped : step s action = some after)
    {job : JobRow} (member : job ∈ after.jobs) (terminal : job.terminal = true) :
    (∃ old ∈ s.jobs, old.submission = job.submission ∧ old.status = job.status) ∨
      (∃ w ex, s.workers w = some ex ∧ job.id = ex.job ∧
        ((action = .complete w ∧ job.status = .completed) ∨
          ∃ error, action = .fail w error ∧ job.status = .failed)) ∨
      ∃ secs, action = .reapFail secs ∧ job.status = .failed := by
  cases action with
  | enqueue id source ns chunkStrategy payload =>
      rcases step_enqueue stepped with ⟨-, rfl⟩
      rcases List.mem_append.mp member with old | new
      · exact .inl ⟨job, old, rfl, rfl⟩
      · rw [List.mem_singleton.mp new] at terminal
        cases terminal
  | claim worker locked id =>
      rcases step_claim stepped with ⟨next, -, -, -, -, rfl⟩
      rcases mem_updateWhere member with ⟨kept, -⟩ | ⟨old, -, -, rfl⟩
      · exact .inl ⟨job, kept, rfl, rfl⟩
      · cases terminal
  | complete worker =>
      rcases Option.map_eq_some_iff.mp stepped with ⟨ex, executing, rfl⟩
      rcases mem_updateWhere member with ⟨kept, -⟩ | ⟨old, -, matched, rfl⟩
      · exact .inl ⟨job, kept, rfl, rfl⟩
      · exact .inr (.inl ⟨worker, ex, executing, of_decide_eq_true matched, .inl ⟨rfl, rfl⟩⟩)
  | fail worker error =>
      rcases Option.map_eq_some_iff.mp stepped with ⟨ex, executing, rfl⟩
      rcases mem_updateWhere member with ⟨kept, -⟩ | ⟨old, -, matched, rfl⟩
      · exact .inl ⟨job, kept, rfl, rfl⟩
      · exact .inr (.inl ⟨worker, ex, executing, of_decide_eq_true matched,
          .inr ⟨error, rfl, rfl⟩⟩)
  | crash worker =>
      rcases Option.map_eq_some_iff.mp stepped with ⟨ex, -, rfl⟩
      exact .inl ⟨job, member, rfl, rfl⟩
  | reapRequeue secs =>
      cases stepped
      rcases mem_updateWhere member with ⟨kept, -⟩ | ⟨old, -, -, rfl⟩
      · exact .inl ⟨job, kept, rfl, rfl⟩
      · cases terminal
  | reapFail secs =>
      cases stepped
      rcases mem_updateWhere member with ⟨kept, -⟩ | ⟨old, -, -, rfl⟩
      · exact .inl ⟨job, kept, rfl, rfl⟩
      · exact .inr (.inr ⟨secs, rfl, rfl⟩)
  | advance micros =>
      cases stepped
      exact .inl ⟨job, member, rfl, rfl⟩

theorem step_unowned {s after : System} {action : Action} (stepped : step s action = some after)
    (unowned : action.worker = none) :
    after.claims = s.claims ∧
      ∀ w, (after.workers w).map Executing.job = (s.workers w).map Executing.job := by
  have swept : ∀ secs reaches w,
      (s.sweep secs reaches w).map Executing.job = (s.workers w).map Executing.job := by
    intro secs reaches w
    rw [System.sweep, Option.map_map]
    rfl
  cases action with
  | enqueue id source ns chunkStrategy payload =>
      rcases step_enqueue stepped with ⟨-, rfl⟩
      exact ⟨rfl, fun _ => rfl⟩
  | reapRequeue secs =>
      cases stepped
      exact ⟨rfl, swept secs _⟩
  | reapFail secs =>
      cases stepped
      exact ⟨rfl, swept secs _⟩
  | advance micros =>
      cases stepped
      exact ⟨rfl, fun _ => rfl⟩
  | _ => cases unowned

def Action.ends : Action → Option Nat
  | .complete worker => some worker
  | .fail worker _ => some worker
  | .crash worker => some worker
  | _ => none

theorem step_ended {s after : System} {action : Action} {w : Nat}
    (stepped : step s action = some after) (ends : action.ends = some w) :
    after.claims = s.claims ∧ after.workers = s.assign w none ∧ action.submitted = [] := by
  cases action with
  | complete worker =>
      cases ends
      rcases Option.map_eq_some_iff.mp stepped with ⟨ex, -, rfl⟩
      exact ⟨rfl, rfl, rfl⟩
  | fail worker error =>
      cases ends
      rcases Option.map_eq_some_iff.mp stepped with ⟨ex, -, rfl⟩
      exact ⟨rfl, rfl, rfl⟩
  | crash worker =>
      cases ends
      rcases Option.map_eq_some_iff.mp stepped with ⟨ex, -, rfl⟩
      exact ⟨rfl, rfl, rfl⟩
  | _ => cases ends

def Action.sweeps : Action → Option Int
  | .reapRequeue secs => some secs
  | .reapFail secs => some secs
  | _ => none

theorem unmatched_kept (condition : JobRow → Bool) (change : JobRow → JobRow)
    {jobs : List JobRow} {k : Nat} {job : JobRow} (stored : jobs[k]? = some job) :
    ∃ kept, (updateWhere condition change jobs)[k]? = some kept ∧
      (kept ≠ job → condition job = true) := by
  refine ⟨if condition job then change job else job, by rw [updateWhere_get, stored]; rfl, ?_⟩
  intro differs
  by_contra unmatched
  simp [unmatched] at differs

theorem sweep_changes_stale {s after : System} {action : Action} {secs : Int}
    (sweeps : action.sweeps = some secs) (stepped : step s action = some after) (k : Nat)
    (job : JobRow) (stored : s.jobs[k]? = some job) :
    ∃ kept, after.jobs[k]? = some kept ∧
      (kept ≠ job → job.status = .running ∧ job.updatedAt < s.now - secs * 1000000) := by
  have stale : ∀ other : Bool, (job.stale s.now secs && other) = true →
      job.status = .running ∧ job.updatedAt < s.now - secs * 1000000 := by
    intro other matched
    have matched := (Bool.and_eq_true _ _).mp matched
    exact of_decide_eq_true matched.1
  cases action with
  | reapRequeue interval =>
      cases sweeps
      cases stepped
      rcases unmatched_kept _ _ stored with ⟨kept, stays, implies⟩
      exact ⟨kept, stays, fun differs => stale _ (implies differs)⟩
  | reapFail interval =>
      cases sweeps
      cases stepped
      rcases unmatched_kept _ _ stored with ⟨kept, stays, implies⟩
      exact ⟨kept, stays, fun differs => stale _ (implies differs)⟩
  | _ => cases sweeps

/-- In every run: a row's attempts are the claims made of it, at most three, within the bounds of
its status; no claim is returned twice; a sweep changes only stale running rows. -/
theorem attempts_capped (start : Int) (actions : List Action) (s : System)
    (finished : Transition.run step { now := start } actions = some s) :
    (∀ job ∈ s.jobs, job.attemptCount = s.claims.countP (fun c => c.1 = job.id) ∧
      job.attemptCount ≤ 3 ∧
      (job.status = .queued → job.attemptCount ≤ 2) ∧
      (job.status = .running → 1 ≤ job.attemptCount) ∧
      (job.status = .completed ∨ job.status = .failed → 1 ≤ job.attemptCount)) ∧
    s.claims.Nodup ∧
    ∀ action secs after, action.sweeps = some secs → step s action = some after →
      ∀ (k : Nat) (job : JobRow), s.jobs[k]? = some job → ∃ kept, after.jobs[k]? = some kept ∧
        (kept ≠ job → job.status = .running ∧ job.updatedAt < s.now - secs * 1000000) := by
  have accounted := accounted_run (.initial start) finished
  refine ⟨?_, accounted.distinct, ?_⟩
  · intro job member
    have capped := accounted.capped job member
    refine ⟨accounted.counted job member, ?_⟩
    rw [Capped] at capped
    rcases status : job.status with _ | _ | _ | _
    all_goals
      rw [status] at capped
      dsimp only at capped
      simp only [reduceCtorEq, false_implies, or_self, or_true, true_or, true_implies, and_true,
        true_and]
      omega
  · intro action secs after sweeps stepped k job stored
    exact sweep_changes_stale sweeps stepped k job stored

theorem attempts_capped_sample :
    ∃ s, Transition.run step { now := 0 }
        [.enqueue 1 "a.md" "docs" "auto" none, .claim 0 [] 1, .crash 0, .advance 301000000,
          .reapRequeue 300, .claim 1 [] 1, .complete 1] = some s ∧
      s.claims.Nodup ∧ ∀ job ∈ s.jobs, job.attemptCount ≤ 3 := by
  have finishes : ∃ s, Transition.run step { now := 0 }
      [.enqueue 1 "a.md" "docs" "auto" none, .claim 0 [] 1, .crash 0, .advance 301000000,
        .reapRequeue 300, .claim 1 [] 1, .complete 1] = some s := ⟨_, rfl⟩
  rcases finishes with ⟨s, finished⟩
  have capped := attempts_capped 0 _ s finished
  exact ⟨s, finished, capped.2.1, fun job member => (capped.1 job member).2.1⟩

end PgRaggraph.Queue

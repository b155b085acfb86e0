import PgRaggraph.Queue.Runs

/-! When the outcome of a job belongs to its current attempt, and when a job has one live worker.

The finalisers match on the identifier alone and nothing renews `updated_at` while a worker runs,
so both depend on how long the sweeps let a live worker run. -/

namespace PgRaggraph.Queue

def Action.finalises : Action → Option Nat
  | .complete worker => some worker
  | .fail worker _ => some worker
  | _ => none

def Prompt (s : System) (action : Action) : Prop :=
  ∀ w ex, action.finalises = some w → s.workers w = some ex → ex.overtaken = false

structure FinalOutcomes (s : System) (action : Action) : Prop where
  kept : ∀ after, step s action = some after → ∀ (k : Nat) (job : JobRow), s.jobs[k]? = some job →
    job.terminal = true → ∃ later, after.jobs[k]? = some later ∧ later.status = job.status
  current : ∀ w ex, action.finalises = some w → s.workers w = some ex →
    ∀ job ∈ s.jobs, job.id = ex.job → job.status = .running ∧ job.attemptCount = ex.attempt

def Action.reaches : Action → Nat → Bool
  | .reapRequeue _ => fun attempt => attempt < maxAttempts
  | .reapFail _ => fun attempt => maxAttempts ≤ attempt
  | _ => fun _ => false

/-- No sweep runs while a live worker's claim is older than the sweep's interval. -/
def Patient (s : System) (action : Action) : Prop :=
  ∀ secs, action.sweeps = some secs → ∀ w ex, s.workers w = some ex →
    action.reaches ex.attempt = true → ex.late s.now secs = false

def OneWorker (s : System) : Prop :=
  ∀ w v ex old, s.workers w = some ex → s.workers v = some old → ex.job = old.job → w = v

/-- A job has at most one live worker, and a sweep leaves alone the rows of live workers. -/
structure Exclusive (s : System) (action : Action) : Prop where
  before : OneWorker s
  after : ∀ after, step s action = some after → OneWorker after
  spared : ∀ after, action.sweeps.isSome = true → step s action = some after →
    ∀ w ex, s.workers w = some ex → ∀ (k : Nat) (job : JobRow), s.jobs[k]? = some job →
      job.id = ex.job → job.status = .running → job.attemptCount = ex.attempt →
      after.jobs[k]? = some job

/-- A claim that no sweep overtook still owns its row; one that was overtaken no longer does. -/
structure Tracked (s : System) : Prop where
  accounted : Accounted s
  owns : ∀ w ex, s.workers w = some ex → ex.overtaken = false →
    ∀ job ∈ s.jobs, job.id = ex.job →
      job.status = .running ∧ job.attemptCount = ex.attempt ∧ job.updatedAt = ex.claimedAt
  lost : ∀ w ex, s.workers w = some ex → ex.overtaken = true →
    ∀ job ∈ s.jobs, job.id = ex.job → ¬ (job.status = .running ∧ job.attemptCount = ex.attempt)
  sole : ∀ w v ex old, s.workers w = some ex → s.workers v = some old →
    ex.overtaken = false → old.overtaken = false → ex.job = old.job → w = v

theorem Tracked.initial (now : Int) : Tracked { now := now } where
  accounted := .initial now
  owns := nofun
  lost := nofun
  sole := nofun

theorem Tracked.attempt_le {s : System} (tracked : Tracked s) {w : Nat} {ex : Executing}
    (executing : s.workers w = some ex) {job : JobRow} (member : job ∈ s.jobs)
    (same : job.id = ex.job) : ex.attempt ≤ job.attemptCount :=
  tracked.accounted.past _ (tracked.accounted.held w ex executing) job member same

theorem Tracked.row {s : System} (tracked : Tracked s) {w : Nat} {ex : Executing}
    (executing : s.workers w = some ex) : ∃ job ∈ s.jobs, job.id = ex.job :=
  List.mem_map.mp (tracked.accounted.known _ (tracked.accounted.held w ex executing))

theorem assign_some {s : System} {worker w : Nat} {new ex : Executing}
    (executing : s.assign worker (some new) w = some ex) :
    (w = worker ∧ ex = new) ∨ (w ≠ worker ∧ s.workers w = some ex) := by
  simp only [System.assign] at executing
  split at executing
  · rename_i same
    cases executing
    exact .inl ⟨same, rfl⟩
  · rename_i other
    exact .inr ⟨other, executing⟩

theorem assign_none_other {s : System} {worker w : Nat} {ex : Executing}
    (executing : s.assign worker none w = some ex) : w ≠ worker ∧ s.workers w = some ex := by
  refine ⟨?_, assign_none executing⟩
  intro same
  simp [System.assign, same] at executing

theorem Tracked.claimed {s : System} (tracked : Tracked s) {job : JobRow} (member : job ∈ s.jobs)
    (queued : job.status = .queued) (worker : Nat) :
    Tracked { s with
      jobs := claimJob s.now job.id s.jobs
      workers := s.assign worker (some
        { job := job.id, attempt := job.attemptCount + 1, claimedAt := s.now, overtaken := false })
      claims := (job.id, job.attemptCount + 1) :: s.claims } where
  accounted := tracked.accounted.claimed member queued worker
  owns := by
    intro w ex executing current
    refine forall_updateWhere.mpr ?_
    intro other present
    rcases assign_some executing with ⟨-, new⟩ | ⟨-, old⟩
    · by_cases same : other.id = job.id
      · have equal := row_unique tracked.accounted.unique present member same
        simp [new, equal, JobRow.claimed]
      · simp [new, same]
    · by_cases same : other.id = job.id
      · have equal := row_unique tracked.accounted.unique present member same
        simp only [same, decide_true, if_true, JobRow.claimed]
        intro held
        have running := (tracked.owns w ex old current other present (same.trans held)).1
        rw [equal, queued] at running
        cases running
      · simpa [same] using tracked.owns w ex old current other present
  lost := by
    intro w ex executing overtaken
    refine forall_updateWhere.mpr ?_
    intro other present
    rcases assign_some executing with ⟨-, new⟩ | ⟨-, old⟩
    · rw [new] at overtaken
      cases overtaken
    · by_cases same : other.id = job.id
      · simp only [same, decide_true, if_true, JobRow.claimed]
        intro held claimed
        have bound := tracked.attempt_le old present (same.trans held)
        omega
      · simpa [same] using tracked.lost w ex old overtaken other present
  sole := by
    have none_here : ∀ v old, s.workers v = some old → old.overtaken = false → old.job ≠ job.id := by
      intro v old executing current same
      have running := (tracked.owns v old executing current job member same.symm).1
      rw [queued] at running
      cases running
    intro w v ex old first second currentFirst currentSecond same
    rcases assign_some first with ⟨here, newFirst⟩ | ⟨-, first⟩
    · rcases assign_some second with ⟨there, -⟩ | ⟨-, second⟩
      · exact here.trans there.symm
      · rw [newFirst] at same
        exact absurd same.symm (none_here v old second currentSecond)
    · rcases assign_some second with ⟨-, newSecond⟩ | ⟨-, second⟩
      · rw [newSecond] at same
        exact absurd same (none_here w ex first currentFirst)
      · exact tracked.sole w v ex old first second currentFirst currentSecond same

theorem Tracked.finalised {s : System} (tracked : Tracked s) {w : Nat} {ex : Executing}
    (executing : s.workers w = some ex) (current : ex.overtaken = false)
    (change : JobRow → JobRow) (keepsId : ∀ job, (change job).id = job.id)
    (keepsAttempts : ∀ job, (change job).attemptCount = job.attemptCount)
    (ends : ∀ job, (change job).status = .completed ∨ (change job).status = .failed) :
    Tracked { s with
      jobs := updateWhere (fun job => job.id = ex.job) change s.jobs
      workers := s.assign w none } where
  accounted := tracked.accounted.finalised executing change keepsId keepsAttempts ends
  owns := by
    intro v old held currentOld
    refine forall_updateWhere.mpr ?_
    intro job member
    rcases assign_none_other held with ⟨other, before⟩
    by_cases same : job.id = ex.job
    · simp only [same, decide_true, if_true, keepsId]
      intro both
      exact absurd (tracked.sole v w old ex before executing currentOld current both.symm) other
    · simpa [same] using tracked.owns v old before currentOld job member
  lost := by
    intro v old held overtaken
    refine forall_updateWhere.mpr ?_
    intro job member
    rcases assign_none_other held with ⟨-, before⟩
    by_cases same : job.id = ex.job
    · simp only [same, decide_true, if_true]
      intro _ still
      rcases ends job with status | status
      · rw [status] at still
        cases still.1
      · rw [status] at still
        cases still.1
    · simpa [same] using tracked.lost v old before overtaken job member
  sole := by
    intro v u old older first second
    exact tracked.sole v u old older (assign_none first) (assign_none second)

theorem Tracked.swept {s : System} (tracked : Tracked s) (secs : Int) (reaches : Nat → Bool)
    (change : JobRow → JobRow) (keepsId : ∀ job, (change job).id = job.id)
    (stops : ∀ job, (change job).status ≠ .running)
    (accounted : Accounted { s with
      jobs := updateWhere (fun job => job.stale s.now secs && reaches job.attemptCount) change s.jobs
      workers := s.sweep secs (fun ex => reaches ex.attempt) }) :
    Tracked { s with
      jobs := updateWhere (fun job => job.stale s.now secs && reaches job.attemptCount) change s.jobs
      workers := s.sweep secs (fun ex => reaches ex.attempt) } where
  accounted := accounted
  owns := by
    intro w ex executing current
    refine forall_updateWhere.mpr ?_
    intro job member
    rcases sweep_held executing with ⟨old, before, rfl⟩
    rcases Bool.or_eq_false_iff.mp current with ⟨currentOld, timely⟩
    by_cases same : job.id = old.job
    · rcases tracked.owns w old before currentOld job member same with ⟨running, attempt, claimed⟩
      have unmatched : (job.stale s.now secs && reaches job.attemptCount) = false := by
        rw [← timely, attempt, Bool.and_comm]
        simp only [JobRow.stale, Executing.late, running, claimed, true_and]
      simp only [unmatched, Bool.false_eq_true, if_false]
      exact fun _ => ⟨running, attempt, claimed⟩
    · by_cases matched : (job.stale s.now secs && reaches job.attemptCount) = true
      · simp only [matched, if_true, keepsId]
        exact fun held => absurd held same
      · simp only [matched]
        exact fun held => absurd held same
  lost := by
    intro w ex executing overtaken
    refine forall_updateWhere.mpr ?_
    intro job member
    rcases sweep_held executing with ⟨old, before, rfl⟩
    by_cases matched : (job.stale s.now secs && reaches job.attemptCount) = true
    · simp only [matched, if_true]
      exact fun _ still => stops job still.1
    · simp only [matched]
      intro same still
      rcases overtakenBefore : old.overtaken with _ | _
      · rcases tracked.owns w old before overtakenBefore job member same with
          ⟨running, attempt, claimed⟩
        have late : (reaches old.attempt && old.late s.now secs) = true := by
          simpa [overtakenBefore] using overtaken
        apply matched
        rw [← late, attempt, Bool.and_comm]
        simp only [JobRow.stale, Executing.late, running, claimed, true_and]
      · exact tracked.lost w old before overtakenBefore job member same still
  sole := by
    intro w v ex old first second currentFirst currentSecond same
    rcases sweep_held first with ⟨exBefore, executing, rfl⟩
    rcases sweep_held second with ⟨oldBefore, held, rfl⟩
    exact tracked.sole w v exBefore oldBefore executing held
      (Bool.or_eq_false_iff.mp currentFirst).1 (Bool.or_eq_false_iff.mp currentSecond).1 same

theorem Tracked.enqueued {s : System} (tracked : Tracked s) {id : Uuid}
    (fresh : id ∉ s.jobs.map JobRow.id) (source ns chunkStrategy : String)
    (payload : Option Bytes) :
    Tracked { s with jobs := enqueue s.now id source ns chunkStrategy payload s.jobs } := by
  have unheld : ∀ w ex, s.workers w = some ex → ex.job ≠ id := by
    intro w ex executing same
    rcases tracked.row executing with ⟨job, member, held⟩
    exact fresh (same ▸ held ▸ List.mem_map_of_mem member)
  constructor
  · exact tracked.accounted.enqueued fresh source ns chunkStrategy payload
  · intro w ex executing current job member same
    rcases List.mem_append.mp member with old | new
    · exact tracked.owns w ex executing current job old same
    · rw [List.mem_singleton.mp new] at same
      exact absurd same.symm (unheld w ex executing)
  · intro w ex executing overtaken job member same
    rcases List.mem_append.mp member with old | new
    · exact tracked.lost w ex executing overtaken job old same
    · rw [List.mem_singleton.mp new] at same
      exact absurd same.symm (unheld w ex executing)
  · exact tracked.sole

theorem tracked_step {s after : System} (tracked : Tracked s) (action : Action)
    (prompt : Prompt s action) (stepped : step s action = some after) : Tracked after := by
  have accounted := accounted_step tracked.accounted action stepped
  cases action with
  | enqueue id source ns chunkStrategy payload =>
      rcases step_enqueue stepped with ⟨fresh, rfl⟩
      exact tracked.enqueued fresh source ns chunkStrategy payload
  | claim worker locked id =>
      rcases step_claim stepped with ⟨job, member, -, queued, -, rfl⟩
      exact tracked.claimed member queued worker
  | complete worker =>
      rcases Option.map_eq_some_iff.mp stepped with ⟨ex, executing, rfl⟩
      exact tracked.finalised executing (prompt worker ex rfl executing) (JobRow.completed s.now)
        (fun _ => rfl) (fun _ => rfl) (fun _ => .inl rfl)
  | fail worker error =>
      rcases Option.map_eq_some_iff.mp stepped with ⟨ex, executing, rfl⟩
      exact tracked.finalised executing (prompt worker ex rfl executing)
        (JobRow.failed s.now error) (fun _ => rfl) (fun _ => rfl) (fun _ => .inr rfl)
  | crash worker =>
      rcases Option.map_eq_some_iff.mp stepped with ⟨ex, executing, rfl⟩
      exact
        { accounted := accounted
          owns := fun w old held => tracked.owns w old (assign_none held)
          lost := fun w old held => tracked.lost w old (assign_none held)
          sole := fun w v old older first second =>
            tracked.sole w v old older (assign_none first) (assign_none second) }
  | reapRequeue secs =>
      cases stepped
      exact tracked.swept secs (fun attempt => attempt < maxAttempts) (JobRow.requeued s.now)
        (fun _ => rfl) (fun _ => nofun) accounted
  | reapFail secs =>
      cases stepped
      exact tracked.swept secs (fun attempt => maxAttempts ≤ attempt) (JobRow.cappedOut s.now)
        (fun _ => rfl) (fun _ => nofun) accounted
  | advance micros =>
      cases stepped
      exact { tracked with accounted := accounted }

theorem finished_unmatched {jobs : List JobRow} {k : Nat} {job : JobRow}
    (stored : jobs[k]? = some job) (finished : job.terminal = true) (condition : JobRow → Bool)
    (change : JobRow → JobRow)
    (open_ : condition job = true → job.status = .queued ∨ job.status = .running) :
    ∃ later, (updateWhere condition change jobs)[k]? = some later ∧ later.status = job.status := by
  have ended : job.status = .completed ∨ job.status = .failed := of_decide_eq_true finished
  rcases unmatched_kept condition change stored with ⟨kept, stays, implies⟩
  refine ⟨kept, stays, ?_⟩
  by_contra differs
  have changed : kept ≠ job := fun same => differs (congrArg JobRow.status same)
  rcases open_ (implies changed) with status | status
  · rw [status] at ended
    rcases ended with ended | ended <;> cases ended
  · rw [status] at ended
    rcases ended with ended | ended <;> cases ended

theorem finished_kept {s after : System} {action : Action} (stepped : step s action = some after)
    (current : ∀ w ex, action.finalises = some w → s.workers w = some ex →
      ∀ job ∈ s.jobs, job.id = ex.job → job.status = .running)
    (unique : (s.jobs.map JobRow.id).Nodup) (k : Nat) (job : JobRow)
    (stored : s.jobs[k]? = some job) (finished : job.terminal = true) :
    ∃ later, after.jobs[k]? = some later ∧ later.status = job.status := by
  have member := List.mem_of_getElem? stored
  cases action with
  | enqueue id source ns chunkStrategy payload =>
      rcases step_enqueue stepped with ⟨-, rfl⟩
      refine ⟨job, ?_, rfl⟩
      rw [← stored]
      exact List.getElem?_append_left (List.getElem?_eq_some_iff.mp stored).1
  | claim worker locked id =>
      rcases step_claim stepped with ⟨next, present, -, queued, -, rfl⟩
      apply finished_unmatched stored finished
      intro matched
      have equal := row_unique unique member present (of_decide_eq_true matched)
      exact .inl (equal ▸ queued)
  | complete worker =>
      rcases Option.map_eq_some_iff.mp stepped with ⟨ex, executing, rfl⟩
      apply finished_unmatched stored finished
      intro matched
      exact .inr (current worker ex rfl executing job member (of_decide_eq_true matched))
  | fail worker error =>
      rcases Option.map_eq_some_iff.mp stepped with ⟨ex, executing, rfl⟩
      apply finished_unmatched stored finished
      intro matched
      exact .inr (current worker ex rfl executing job member (of_decide_eq_true matched))
  | crash worker =>
      rcases Option.map_eq_some_iff.mp stepped with ⟨ex, executing, rfl⟩
      exact ⟨job, stored, rfl⟩
  | reapRequeue secs =>
      cases stepped
      apply finished_unmatched stored finished
      intro matched
      exact .inr (of_decide_eq_true ((Bool.and_eq_true _ _).mp matched).1).1
  | reapFail secs =>
      cases stepped
      apply finished_unmatched stored finished
      intro matched
      exact .inr (of_decide_eq_true ((Bool.and_eq_true _ _).mp matched).1).1
  | advance micros =>
      cases stepped
      exact ⟨job, stored, rfl⟩

theorem prompt_iff {s : System} (tracked : Tracked s) (action : Action) :
    Prompt s action ↔ FinalOutcomes s action := by
  constructor
  · intro prompt
    have current : ∀ w ex, action.finalises = some w → s.workers w = some ex →
        ∀ job ∈ s.jobs, job.id = ex.job →
          job.status = .running ∧ job.attemptCount = ex.attempt := by
      intro w ex finalises executing job member same
      have owned := tracked.owns w ex executing (prompt w ex finalises executing) job member same
      exact ⟨owned.1, owned.2.1⟩
    refine ⟨fun after stepped k job stored finished => ?_, current⟩
    exact finished_kept stepped (fun w ex finalises executing job member same =>
      (current w ex finalises executing job member same).1) tracked.accounted.unique k job stored
      finished
  · intro outcomes w ex finalises executing
    rcases overtaken : ex.overtaken with _ | _
    · rfl
    · rcases tracked.row executing with ⟨job, member, same⟩
      exact absurd (outcomes.current w ex finalises executing job member same)
        (tracked.lost w ex executing overtaken job member same)

/-- Outcomes are final and belong to the current attempt exactly in the runs in which no finaliser
follows a sweep that overtook its claim. -/
theorem outcomes_final_iff (start : Int) (actions : List Action) :
    Transition.Meets step FinalOutcomes { now := start } actions ↔
      Transition.Meets step Prompt { now := start } actions :=
  (Transition.meets_congr (fun _ action _ tracked prompt stepped =>
    tracked_step tracked action prompt stepped) (fun _ action tracked => prompt_iff tracked action)
    (.initial start) actions).symm

def lateFinaliser : List Action :=
  [.enqueue 1 "a.md" "docs" "auto" none, .claim 0 [] 1, .advance 301000000, .reapRequeue 300,
    .claim 1 [] 1, .complete 1]

theorem outcomes_not_final :
    ¬ Transition.Meets step FinalOutcomes { now := 0 } (lateFinaliser ++ [.fail 0 "late"]) := by
  intro met
  have last := (Transition.meets_append met rfl).1
  rcases last.kept _ rfl 0 _ rfl rfl with ⟨later, stored, same⟩
  cases stored
  cases same

structure Unhurried (s : System) : Prop where
  tracked : Tracked s
  current : ∀ w ex, s.workers w = some ex → ex.overtaken = false

theorem Unhurried.initial (now : Int) : Unhurried { now := now } where
  tracked := .initial now
  current := nofun

theorem Unhurried.oneWorker {s : System} (unhurried : Unhurried s) : OneWorker s := by
  intro w v ex old first second same
  exact unhurried.tracked.sole w v ex old first second (unhurried.current w ex first)
    (unhurried.current v old second) same

theorem unhurried_step {s after : System} (unhurried : Unhurried s) (action : Action)
    (patient : Patient s action) (stepped : step s action = some after) : Unhurried after := by
  have prompt : Prompt s action := fun w ex _ executing => unhurried.current w ex executing
  refine ⟨tracked_step unhurried.tracked action prompt stepped, ?_⟩
  have reaped : ∀ secs (reaches : Nat → Bool),
      (∀ w ex, s.workers w = some ex → reaches ex.attempt = true → ex.late s.now secs = false) →
      ∀ w ex, s.sweep secs (fun ex => reaches ex.attempt) w = some ex → ex.overtaken = false := by
    intro secs reaches timely w ex executing
    rcases sweep_held executing with ⟨old, before, rfl⟩
    have current := unhurried.current w old before
    rcases reached : reaches old.attempt with _ | _
    · simp only [current, Bool.false_and, Bool.or_self]
    · simp only [current, timely w old before reached, Bool.and_false, Bool.or_self]
  cases action with
  | enqueue id source ns chunkStrategy payload =>
      rcases step_enqueue stepped with ⟨-, rfl⟩
      exact unhurried.current
  | claim worker locked id =>
      rcases step_claim stepped with ⟨job, -, -, -, -, rfl⟩
      intro w ex executing
      rcases assign_some executing with ⟨-, new⟩ | ⟨-, old⟩
      · rw [new]
      · exact unhurried.current w ex old
  | complete worker =>
      rcases Option.map_eq_some_iff.mp stepped with ⟨ex, executing, rfl⟩
      exact fun w old held => unhurried.current w old (assign_none held)
  | fail worker error =>
      rcases Option.map_eq_some_iff.mp stepped with ⟨ex, executing, rfl⟩
      exact fun w old held => unhurried.current w old (assign_none held)
  | crash worker =>
      rcases Option.map_eq_some_iff.mp stepped with ⟨ex, executing, rfl⟩
      exact fun w old held => unhurried.current w old (assign_none held)
  | reapRequeue secs =>
      cases stepped
      exact reaped secs _ (patient secs rfl)
  | reapFail secs =>
      cases stepped
      exact reaped secs _ (patient secs rfl)
  | advance micros =>
      cases stepped
      exact unhurried.current

theorem spared_iff {s : System} (unhurried : Unhurried s) {w : Nat} {ex : Executing}
    (executing : s.workers w = some ex) {k : Nat} {job : JobRow} (stored : s.jobs[k]? = some job)
    (same : job.id = ex.job) (secs : Int) (reaches : Nat → Bool) (change : JobRow → JobRow)
    (stops : ∀ row, (change row).status ≠ .running) :
    (updateWhere (fun row => row.stale s.now secs && reaches row.attemptCount) change
        s.jobs)[k]? = some job ↔
      (reaches ex.attempt = true → ex.late s.now secs = false) := by
  rcases unhurried.tracked.owns w ex executing (unhurried.current w ex executing) job
    (List.mem_of_getElem? stored) same with ⟨running, attempt, claimed⟩
  have matched : (job.stale s.now secs && reaches job.attemptCount) =
      (reaches ex.attempt && ex.late s.now secs) := by
    rw [attempt, Bool.and_comm]
    simp only [JobRow.stale, Executing.late, running, claimed, true_and]
  rw [updateWhere_get, stored, Option.map_some, Option.some_inj, matched]
  rcases reached : reaches ex.attempt with _ | _
  · simp
  · rcases late : ex.late s.now secs with _ | _
    · simp
    · simp only [Bool.and_self, if_true, true_implies, Bool.true_eq_false, iff_false]
      intro unchanged
      apply stops job
      rw [unchanged]
      exact running

theorem patient_iff {s : System} (unhurried : Unhurried s) (action : Action) :
    Patient s action ↔ Exclusive s action := by
  constructor
  · intro patient
    refine ⟨unhurried.oneWorker, fun after stepped =>
      (unhurried_step unhurried action patient stepped).oneWorker, ?_⟩
    intro after sweeps stepped w ex executing k job stored same _ _
    cases action with
    | reapRequeue secs =>
        cases stepped
        exact (spared_iff unhurried executing stored same secs _ (JobRow.requeued s.now)
          (fun _ => nofun)).mpr
          (patient secs rfl w ex executing)
    | reapFail secs =>
        cases stepped
        exact (spared_iff unhurried executing stored same secs _ (JobRow.cappedOut s.now)
          (fun _ => nofun)).mpr
          (patient secs rfl w ex executing)
    | _ => cases sweeps
  · intro exclusive secs sweeps w ex executing
    rcases unhurried.tracked.row executing with ⟨job, member, same⟩
    rcases List.getElem?_of_mem member with ⟨k, stored⟩
    rcases unhurried.tracked.owns w ex executing (unhurried.current w ex executing) job member same
      with ⟨running, attempt, -⟩
    have spared := fun after stepped =>
      exclusive.spared after (by rw [sweeps]; rfl) stepped w ex executing k job stored same running
        attempt
    cases action with
    | reapRequeue interval =>
        cases sweeps
        exact (spared_iff unhurried executing stored same secs _ (JobRow.requeued s.now)
          (fun _ => nofun)).mp
          (spared _ rfl)
    | reapFail interval =>
        cases sweeps
        exact (spared_iff unhurried executing stored same secs _ (JobRow.cappedOut s.now)
          (fun _ => nofun)).mp
          (spared _ rfl)
    | _ => cases sweeps

/-- A job has one live worker and the reaper spares live workers exactly in the runs in which no
sweep's interval is shorter than the time a live worker has spent since its claim. -/
theorem exclusive_iff_patient (start : Int) (actions : List Action) :
    Transition.Meets step Exclusive { now := start } actions ↔
      Transition.Meets step Patient { now := start } actions :=
  (Transition.meets_congr (fun _ action _ unhurried patient stepped =>
    unhurried_step unhurried action patient stepped)
    (fun _ action unhurried => patient_iff unhurried action) (.initial start) actions).symm

/-- The sweep takes the job from worker 0, which is alive, and worker 1 claims it as well. -/
theorem live_job_reaped :
    ¬ Transition.Meets step Exclusive { now := 0 }
      [.enqueue 1 "a.md" "docs" "auto" none, .claim 0 [] 1, .advance 301000000, .reapRequeue 300,
        .claim 1 [] 1] := by
  intro met
  have last := met.2 _ rfl |>.2 _ rfl |>.2 _ rfl |>.2 _ rfl |>.1
  have one := last.after _ rfl 0 1 _ _ rfl rfl rfl
  cases one

end PgRaggraph.Queue

import PgRaggraph.Core.Json
import PgRaggraph.Library.Bag
import PgRaggraph.Queue.Progress

/-! `pgrg.status` and `pgrg.health`, and what they tell of the queue in any of its runs. -/

namespace PgRaggraph

open Bag

def JobStatus.text : JobStatus → String
  | .queued => "queued"
  | .running => "running"
  | .completed => "completed"
  | .failed => "failed"

/-- `SELECT status, count(*) ... GROUP BY status`. -/
def statusCounts (jobs : List JobRow) : List (String × Nat) :=
  (groupBy JobRow.status jobs).map (fun g => (g.1.text, g.2.length))

def assignMember (members : List (String × Json Int)) (count : String × Nat) :
    List (String × Json Int) :=
  match members with
  | [] => [(count.1, .number count.2)]
  | member :: rest =>
      if member.1 = count.1 then (member.1, .number count.2) :: rest
      else member :: assignMember rest count

def emptySummary : List (String × Json Int) :=
  [("queued", .number 0), ("running", .number 0), ("completed", .number 0), ("failed", .number 0)]

def status (uuidText : Uuid → String) (jobs : List JobRow) : Option Uuid → Option (Json Int)
  | none => some (.object ((statusCounts jobs).foldl assignMember emptySummary))
  | some id =>
      (jobs.find? (fun job => job.id = id)).map (fun job => .object
        [("id", .string (uuidText id)), ("status", .string job.status.text),
         ("source", .string job.source), ("error", (job.error.map Json.string).getD .null)])

/-- The columns of `pgrg.migrations` and the setting it reads stand for themselves. -/
def health (version : String) (schemaVersion : Option Int) (bgwWorkers : Int)
    (jobs : List JobRow) : Json Int :=
  .object
    [("version", .string version), ("schema_version", .number (schemaVersion.getD 0)),
     ("queue_depth", .number
       (jobs.countP (fun job => job.status = .queued ∨ job.status = .running))),
     ("bgw_workers", .number bgwWorkers), ("model_loaded", .null), ("last_error", .null)]

section Summary

def counted (jobs : List JobRow) (status : JobStatus) : Nat :=
  jobs.countP (fun job => job.status = status)

def summaryOf (counts : JobStatus → Nat) : List (String × Json Int) :=
  [("queued", .number (counts .queued)), ("running", .number (counts .running)),
   ("completed", .number (counts .completed)), ("failed", .number (counts .failed))]

theorem assignMember_summary (counts : JobStatus → Nat) (status : JobStatus) (n : Nat) :
    assignMember (summaryOf counts) (status.text, n) =
      summaryOf (Function.update counts status n) := by
  cases status with
  | queued => simp [assignMember, summaryOf, JobStatus.text]
  | running => simp [assignMember, summaryOf, JobStatus.text]
  | completed => simp [assignMember, summaryOf, JobStatus.text]
  | failed => simp [assignMember, summaryOf, JobStatus.text]

theorem assign_counts {jobs : List JobRow} {groups : List (JobStatus × List JobRow)}
    (grouped : ∀ g ∈ groups, g.2.length = counted jobs g.1) (counts : JobStatus → Nat) :
    (groups.map (fun g => (g.1.text, g.2.length))).foldl assignMember (summaryOf counts) =
      summaryOf (fun status =>
        if status ∈ groups.map Prod.fst then counted jobs status else counts status) := by
  induction groups generalizing counts with
  | nil => simp
  | cons g rest ih =>
      rw [List.map_cons, List.foldl_cons, assignMember_summary,
        ih (fun other member => grouped other (List.mem_cons_of_mem _ member))]
      congr 1
      funext status
      have here := grouped g List.mem_cons_self
      by_cases same : status = g.1
      · simp [same, here]
      · simp only [List.map_cons, List.mem_cons, same, false_or, Function.update_of_ne same]

theorem status_summary (uuidText : Uuid → String) (jobs : List JobRow) :
    status uuidText jobs none = some (.object (summaryOf (counted jobs))) := by
  have grouped : ∀ g ∈ groupBy JobRow.status jobs, g.2.length = counted jobs g.1 := by
    rintro ⟨key, rows⟩ member
    rw [(mem_groupBy.mp member).2, counted, List.countP_eq_length_filter]
  have initial : emptySummary = summaryOf (fun _ => 0) := rfl
  rw [status, statusCounts, initial, assign_counts grouped]
  congr 2
  apply congrArg
  funext key
  rw [groupBy_keys]
  simp only [List.mem_dedup]
  by_cases present : key ∈ jobs.map JobRow.status
  · rw [if_pos present]
  · rw [if_neg present, counted]
    symm
    apply List.countP_eq_zero.mpr
    intro job member same
    exact present (List.mem_map.mpr ⟨job, member, of_decide_eq_true same⟩)

theorem counted_total (jobs : List JobRow) :
    counted jobs .queued + counted jobs .running + counted jobs .completed + counted jobs .failed =
      jobs.length := by
  induction jobs with
  | nil => rfl
  | cons job rest ih =>
      simp only [counted] at ih
      simp only [counted, List.countP_cons, List.length_cons]
      rcases status : job.status with _ | _ | _ | _
      · simp
        omega
      · simp
        omega
      · simp
        omega
      · simp
        omega

theorem counted_either {a b : JobStatus} (apart : a ≠ b) (jobs : List JobRow) :
    jobs.countP (fun job => job.status = a ∨ job.status = b) = counted jobs a + counted jobs b := by
  induction jobs with
  | nil => rfl
  | cons job rest ih =>
      simp only [counted] at ih
      simp only [counted, List.countP_cons, ih]
      by_cases first : job.status = a
      · simp [first, apart]
        omega
      · simp [first]
        omega

end Summary

namespace Queue

def Told (job : JobRow) : Prop := job.error.isSome = true ↔ job.status = .failed

theorem RowStep.told {s : System} {action : Action} {job next : JobRow} (told : Told job)
    (stepped : RowStep s action job next) : Told next := by
  rw [Told] at told
  cases stepped with
  | kept => exact told
  | claimed worker locked _ queued =>
      have silent : job.error.isSome = false := by
        rw [Bool.eq_false_iff]
        intro some_
        rw [told.mp some_] at queued
        cases queued
      simp [Told, JobRow.claimed, silent]
  | completed => simp [Told, JobRow.completed]
  | failed => simp [Told, JobRow.failed]
  | requeued secs _ stale =>
      have running : job.status = .running := (of_decide_eq_true stale).1
      have silent : job.error.isSome = false := by
        rw [Bool.eq_false_iff]
        intro some_
        rw [told.mp some_] at running
        cases running
      simp [Told, JobRow.requeued, silent]
  | cappedOut => simp [Told, JobRow.cappedOut]

theorem RowStep.finished {s : System} {action : Action} {job next : JobRow}
    (stepped : RowStep s action job next) (terminal : job.terminal = true) :
    next.terminal = true := by
  have ended := job.terminal_iff.mp terminal
  cases stepped with
  | kept => exact terminal
  | claimed worker locked _ queued =>
      rw [queued] at ended
      simp at ended
  | completed => rfl
  | failed => rfl
  | requeued secs _ stale =>
      have running : job.status = .running := (of_decide_eq_true stale).1
      rw [running] at ended
      simp at ended
  | cappedOut => rfl

def finished (s : System) : Nat := s.jobs.countP JobRow.terminal

structure Reported (least : Nat) (s : System) : Prop where
  accounted : Accounted s
  told : ∀ job ∈ s.jobs, Told job
  least : least ≤ finished s

theorem reported_step {least : Nat} {s after : System} {action : Action}
    (reported : Reported least s) (stepped : step s action = some after) :
    Reported least after := by
  rcases step_rows reported.accounted.unique stepped with ⟨next, added, rows, steps, inserted⟩
  refine ⟨accounted_step reported.accounted action stepped, ?_, ?_⟩
  · intro job member
    rw [rows] at member
    rcases List.mem_append.mp member with old | new
    · rcases List.mem_map.mp old with ⟨before, present, rfl⟩
      exact (steps before present).told (reported.told before present)
    · simp [Told, (inserted job new).unreported, (inserted job new).queued]
  · have kept : s.jobs.countP JobRow.terminal ≤ s.jobs.countP (JobRow.terminal ∘ next) := by
      apply List.countP_mono_left
      intro job member terminal
      exact (steps job member).finished terminal
    have least_ := reported.least
    rw [finished] at least_
    rw [finished, rows, List.countP_append, List.countP_map]
    omega

theorem reported_run {least : Nat} {s last : System} {actions : List Action}
    (reported : Reported least s) (finished : Transition.run step s actions = some last) :
    Reported least last :=
  Transition.run_invariant (fun _ _ _ holds _ stepped => reported_step holds stepped) reported
    (Transition.meets_always step (fun _ _ => trivial) s actions) finished

theorem run_submissions {s last : System} {actions : List Action}
    (finished : Transition.run step s actions = some last) :
    last.jobs.map JobRow.submission =
      s.jobs.map JobRow.submission ++ actions.flatMap Action.submitted := by
  induction actions generalizing s with
  | nil =>
      cases finished
      rw [List.flatMap_nil, List.append_nil]
  | cons action rest ih =>
      rcases Transition.run_cons finished with ⟨after, stepped, remaining⟩
      rw [ih remaining, step_submissions stepped, List.flatMap_cons, List.append_assoc]

end Queue

section Reports

variable {uuidText : Uuid → String} {jobs : List JobRow}

theorem status_absent (id : Uuid) :
    status uuidText jobs (some id) = none ↔ id ∉ jobs.map JobRow.id := by
  rw [status, Option.map_eq_none_iff, List.find?_eq_none]
  constructor
  · intro nowhere listed
    rcases List.mem_map.mp listed with ⟨job, member, same⟩
    exact nowhere job member (decide_eq_true same)
  · intro absent job member same
    exact absent (List.mem_map.mpr ⟨job, member, of_decide_eq_true same⟩)

theorem status_present (unique : (jobs.map JobRow.id).Nodup) {job : JobRow} (member : job ∈ jobs) :
    status uuidText jobs (some job.id) = some (.object
      [("id", .string (uuidText job.id)), ("status", .string job.status.text),
       ("source", .string job.source), ("error", (job.error.map Json.string).getD .null)]) := by
  have found : ∃ row, jobs.find? (fun row => row.id = job.id) = some row :=
    Option.isSome_iff_exists.mp (List.find?_isSome.mpr ⟨job, member, decide_eq_true rfl⟩)
  rcases found with ⟨row, found⟩
  have same : row.id = job.id := by simpa using List.find?_some found
  rw [row_unique unique (List.mem_of_find?_eq_some found) member same] at found
  rw [status, found]
  rfl

theorem error_null (job : JobRow) (told : Queue.Told job) :
    (job.error.map Json.string).getD (.null : Json Int) = .null ↔ job.status ≠ .failed := by
  rw [Queue.Told] at told
  rcases reason : job.error with _ | text
  · simpa [reason] using told
  · simpa [reason] using told

/-- In every state of every run of the queue: the summary has the count of each status, the four add up
to the calls that enqueued, and the depth of `health` is the part that is left. A job is reported from
its submission on, under its own source, with an error exactly if it failed. The finished jobs never
become fewer. -/
theorem queue_reported (uuidText : Uuid → String) (now : Int) (before later : List Queue.Action)
    (s last : Queue.System) (ran : Transition.run Queue.step { now := now } before = some s)
    (went : Transition.run Queue.step s later = some last) :
    status uuidText s.jobs none = some (.object (summaryOf (counted s.jobs))) ∧
      counted s.jobs .queued + counted s.jobs .running + counted s.jobs .completed +
          counted s.jobs .failed = (before.flatMap Queue.Action.submitted).length ∧
      (∀ version schemaVersion bgwWorkers,
        (health version schemaVersion bgwWorkers s.jobs).field "queue_depth" =
          .number (counted s.jobs .queued + counted s.jobs .running : Nat)) ∧
      (∀ id, status uuidText s.jobs (some id) = none ↔
        ∀ submission ∈ before.flatMap Queue.Action.submitted, submission.id ≠ id) ∧
      (∀ submission ∈ before.flatMap Queue.Action.submitted, ∃ (now_ : JobStatus) (error : Json Int),
        status uuidText s.jobs (some submission.id) = some (.object
          [("id", .string (uuidText submission.id)), ("status", .string now_.text),
           ("source", .string submission.source), ("error", error)]) ∧
        (error = .null ↔ now_ ≠ .failed)) ∧
      counted s.jobs .completed + counted s.jobs .failed ≤
        counted last.jobs .completed + counted last.jobs .failed := by
  have start : Queue.Reported 0 { now := now } :=
    ⟨Queue.Accounted.initial now, by simp, Nat.zero_le _⟩
  have reported : Queue.Reported 0 s := Queue.reported_run start ran
  have unique := reported.accounted.unique
  have rows : s.jobs.map JobRow.submission = before.flatMap Queue.Action.submitted := by
    rw [Queue.run_submissions ran, List.map_nil, List.nil_append]
  have finished : ∀ t : Queue.System,
      Queue.finished t = counted t.jobs .completed + counted t.jobs .failed :=
    fun t => counted_either (by decide) t.jobs
  rw [← rows]
  refine ⟨status_summary uuidText s.jobs, ?_, ?_, ?_, ?_, ?_⟩
  · rw [counted_total, List.length_map]
  · intro version schemaVersion bgwWorkers
    rw [← counted_either (by decide) s.jobs]
    rfl
  · intro id
    rw [status_absent, List.forall_mem_map]
    simp [JobRow.submission]
  · intro submission member
    rcases List.mem_map.mp member with ⟨job, stored, rfl⟩
    exact ⟨job.status, _, status_present unique stored, error_null job (reported.told job stored)⟩
  · have later_ : Queue.Reported (Queue.finished s) last :=
      Queue.reported_run ⟨reported.accounted, reported.told, Nat.le_refl _⟩ went
    rw [← finished, ← finished]
    exact later_.least

def crashActions : List Queue.Action :=
  [.enqueue 7 "notes" "default" "auto" none, .enqueue 8 "scan" "default" "auto" none,
    .claim 0 [] 7, .claim 1 [] 8, .fail 0 "boom", .crash 1]

def afterCrash : Queue.System :=
  (Transition.run Queue.step { now := 0 } crashActions).getD { now := 0 }

theorem crash_reported : status toString afterCrash.jobs none = some (.object
      [("queued", .number 0), ("running", .number 1), ("completed", .number 0),
       ("failed", .number 1)]) ∧
    status toString afterCrash.jobs (some 9) = none := by
  have reports := queue_reported toString 0 crashActions [.advance 1] afterCrash
    { afterCrash with now := 1 } rfl rfl
  refine ⟨reports.1, (reports.2.2.2.1 9).mpr ?_⟩
  decide

end Reports

end PgRaggraph

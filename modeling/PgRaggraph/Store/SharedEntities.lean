import PgRaggraph.Core.Samples
import PgRaggraph.Library.Transition
import PgRaggraph.Store.Footprint

/-! Two concurrent `run_job` calls with different contents.

An entity search sees only committed rows, so two calls that resolve one entity at the same time
both insert it. Where their searches do not overlap, the calls are serializable. -/

namespace PgRaggraph

open Interaction Interaction.Fallible

variable {R : Type}

structure Pair (R : Type) where
  tables : Tables R
  running : Bool → Option (Running R)
  ended : Bool → Option (Except PgError (CoreResult RunJobOutcome))

namespace Pair

inductive Action where
  | call (w : Bool)
  | deadlock (w : Bool)
  | finish (w : Bool)
  deriving DecidableEq, Repr

def waits (srv : Server R) (s : Pair R) (w : Bool) : Bool :=
  match s.running w, s.running (!w) with
  | some r, some other => r.waitsFor srv other
  | _, _ => false

def stop (s : Pair R) (w : Bool) (tables : Tables R)
    (result : Except PgError (CoreResult RunJobOutcome)) : Pair R where
  tables := tables
  running := fun v => if v = w then none else s.running v
  ended := fun v => if v = w then some result else s.ended v

def proceed (s : Pair R) (w : Bool) : Except PgError (Running R) → Pair R
  | .ok r => { s with running := fun v => if v = w then some r else s.running v }
  | .error e => s.stop w s.tables (.error e)

/-- A statement that would close a cycle of waits is cancelled as the victim of a deadlock. -/
def step [F32 R] (adapter : Adapter) (srv : Server R) (s : Pair R) : Action → Option (Pair R)
  | .call w =>
      if s.waits srv w then none
      else (s.running w).bind (fun r => (r.advance adapter srv s.tables).map (s.proceed w))
  | .deadlock w =>
      if s.waits srv w && s.waits srv (!w) then
        (s.running w).bind (fun r =>
          (r.interrupt adapter srv .deadlockDetected).map (s.proceed w))
      else none
  | .finish w =>
      (s.running w).bind (fun r =>
        match r.rest with
        | .done result =>
            some (s.stop w (s.tables ++ adapter.settle result r.session.tx.own) (.ok result))
        | .call _ _ => none)

section Steps

variable [F32 R] {adapter : Adapter} {srv : Server R} {s after : Pair R} {w : Bool}

theorem step_call (stepped : step adapter srv s (.call w) = some after) :
    ∃ r outcome, s.running w = some r ∧ r.advance adapter srv s.tables = some outcome ∧
      after = s.proceed w outcome := by
  simp only [step] at stepped
  split at stepped
  · cases stepped
  · rcases Option.bind_eq_some_iff.mp stepped with ⟨r, running, advanced⟩
    rcases Option.map_eq_some_iff.mp advanced with ⟨outcome, advanced, proceeds⟩
    exact ⟨r, outcome, running, advanced, proceeds.symm⟩

theorem step_deadlock (stepped : step adapter srv s (.deadlock w) = some after) :
    s.waits srv w = true := by
  simp only [step] at stepped
  split at stepped
  · rename_i cycle
    exact ((Bool.and_eq_true _ _).mp cycle).1
  · cases stepped

theorem step_finish (stepped : step adapter srv s (.finish w) = some after) :
    ∃ r result, s.running w = some r ∧ r.rest = .done result ∧
      after = s.stop w (s.tables ++ adapter.settle result r.session.tx.own) (.ok result) := by
  simp only [step] at stepped
  rcases Option.bind_eq_some_iff.mp stepped with ⟨r, running, ends⟩
  split at ends
  · rename_i result done
    cases ends
    exact ⟨r, result, running, done, rfl⟩
  · cases ends

omit [F32 R] in
theorem waits_running (waits : s.waits srv w = true) :
    ∃ r other, s.running w = some r ∧ s.running (!w) = some other ∧
      r.waitsFor srv other = true := by
  rw [Pair.waits] at waits
  split at waits
  · rename_i r other here there
    exact ⟨r, other, here, there, waits⟩
  · cases waits

end Steps

end Pair

structure TwoCalls (R : Type) where
  adapter : Adapter
  rt : Runtime
  srv : Server R
  committed : Tables R
  env : Bool → Environment R
  req : Bool → IngestRequest
  distinctIds : ∀ w n m, (env w).newUuid n ≠ (env (!w)).newUuid m
  distinctContents : ∀ w content other, contentOf (env w) (req w).source = some content →
    contentOf (env (!w)) (req (!w)).source = some other →
    contentHash rt content.2 ≠ contentHash rt other.2

namespace TwoCalls

variable [F32 R] (c : TwoCalls R)

def start : Pair R where
  tables := c.committed
  running := fun w => some { env := c.env w, rest := (runJob c.rt (c.req w)).run }
  ended := fun _ => none

def serial (first : Bool) : (Bool → Except PgError (CoreResult RunJobOutcome)) × Tables R :=
  let one := runAlone c.adapter c.rt c.srv (c.env first) c.committed (c.req first)
  let two := runAlone c.adapter c.rt c.srv (c.env (!first)) one.2 (c.req (!first))
  (fun w => if w = first then one.1 else two.1, two.2)

end TwoCalls

def returnedOk : Except PgError (CoreResult RunJobOutcome) → Bool
  | .ok (.ok _) => true
  | _ => false

def Running.searching (r : Running R) : Bool := r.session.log.any Event.searches

def Running.resolves (r : Running R) : Bool :=
  match r.pending with
  | some (.fuzzyMatchEntity _ _ _) => true
  | _ => false

/-- No entity search while the other call is between its first search and its end. -/
def Unshared (s : Pair R) : Pair.Action → Prop
  | .call w => (s.running w).any Running.resolves = true →
      (s.running (!w)).any Running.searching = false
  | _ => True

instance (s : Pair R) (action : Pair.Action) : Decidable (Unshared s action) :=
  match action with
  | .call _ => inferInstanceAs (Decidable (_ → _))
  | .deadlock _ => isTrue trivial
  | .finish _ => isTrue trivial

namespace TwoCalls

variable [F32 R] (c : TwoCalls R)

def alone (w : Bool) (tables : Tables R) :
    Except PgError (CoreResult RunJobOutcome) × Tables R :=
  runAlone c.adapter c.rt c.srv (c.env w) tables (c.req w)

structure Progress (w : Bool) (r : Running R) : Prop where
  env : r.env = c.env w
  keeps : Program.wp (footprint c.rt (c.env w) (c.req w)) r.rest r.session (fun _ _ => True)
  rows : OwnRows c.rt (c.env w) (c.req w) r.session.log r.session.tx.own

def Replays (w : Bool) (tables : Tables R) (r : Running R) : Prop :=
  Program.run (c.adapter.handler c.srv (c.env w) tables) (runJob c.rt (c.req w)).run {} =
    Program.run (c.adapter.handler c.srv (c.env w) tables) r.rest r.session

/-- Neither call has ended: whatever the other one stores, this one replays over it. -/
structure Both (s : Pair R) : Prop where
  tables : s.tables = c.committed
  calls : ∀ w, ∃ r, s.running w = some r ∧ c.Progress w r ∧
    ∀ delta, Unseen c.rt (c.env w) (c.req w) r.session.log delta →
      c.Replays w (c.committed ++ delta) r
  apart : ∀ w r other, s.running w = some r → s.running (!w) = some other →
    r.searching = true → other.searching = false
  ended : ∀ w, s.ended w = none

structure One (first : Bool) (s : Pair R) : Prop where
  tables : s.tables = (c.alone first c.committed).2
  ended : s.ended first = some (c.alone first c.committed).1
  gone : s.running first = none
  other : ∃ r, s.running (!first) = some r ∧ c.Progress (!first) r ∧ c.Replays (!first) s.tables r
  open_ : s.ended (!first) = none

structure Over (first : Bool) (s : Pair R) : Prop where
  tables : s.tables = (c.serial first).2
  ended : ∀ w, s.ended w = some ((c.serial first).1 w)
  gone : ∀ w, s.running w = none

variable {c} {w : Bool} {r after : Running R} {tables delta : Tables R}

omit [F32 R] in
theorem Progress.allowed (progress : c.Progress w r) {request : ClientCall R}
    {next : CoreResult request.Value → Program (Ingest R) (CoreResult RunJobOutcome)}
    (issued : r.rest = .call (.client request) next) :
    Allowed c.rt (c.env w) (c.req w) r.session.log request := by
  have keeps := progress.keeps
  rw [issued] at keeps
  exact keeps.1

theorem Progress.advanced (progress : c.Progress w r)
    (advanced : r.advance c.adapter c.srv tables = some (.ok after)) : c.Progress w after := by
  rcases advance_ok advanced with ⟨request, next, answer, session, issued, answered, rfl⟩
  rw [progress.env] at answered
  have keeps := progress.keeps
  rw [issued] at keeps
  refine ⟨progress.env, keeps.2 answer session (handler_answered answered), ?_⟩
  refine progress.rows.answered answered ?_
  intro statement same
  cases same
  exact progress.allowed issued

theorem advanced_log (advanced : r.advance c.adapter c.srv tables = some (.ok after)) :
    ∃ event, after.session.log = r.session.log ++ [event] ∧
      (event.searches = true → r.resolves = true) := by
  rcases advance_ok advanced with ⟨request, next, answer, session, issued, answered, rfl⟩
  refine ⟨_, (handler_answered answered).log, ?_⟩
  intro searches
  rw [Event.searches] at searches
  split at searches
  · rename_i ns name limit same
    have same : request = .client (.fuzzyMatchEntity ns name limit) := same
    cases same
    rw [Running.resolves, Running.pending, issued]
  · cases searches

theorem Replays.advanced (replays : c.Replays w (tables ++ delta) r) (progress : c.Progress w r)
    (advanced : r.advance c.adapter c.srv tables = some (.ok after))
    (unseen : Unseen c.rt (c.env w) (c.req w) after.session.log delta) :
    c.Replays w (tables ++ delta) after := by
  rcases advance_ok advanced with ⟨request, next, answer, session, issued, answered, rfl⟩
  rw [progress.env] at answered
  have same : c.adapter.handler c.srv (c.env w) (tables ++ delta) request r.session =
      .ok (answer, session) := by
    refine handler_unseen answered ?_ unseen
    intro statement isStatement
    cases isStatement
    exact progress.allowed issued
  rw [Replays] at replays ⊢
  rw [replays, issued, Program.run, same]

theorem Replays.finished (replays : c.Replays w tables r) {result : CoreResult RunJobOutcome}
    (done : r.rest = .done result) :
    c.alone w tables = (.ok result, tables ++ c.adapter.settle result r.session.tx.own) := by
  rw [Replays, done, Program.run] at replays
  rw [alone, runAlone, replays]

theorem Replays.unwound (replays : c.Replays w tables r) (progress : c.Progress w r) {e : PgError}
    (advanced : r.advance c.adapter c.srv tables = some (.error e)) :
    c.alone w tables = (.error e, tables) := by
  rcases advance_error advanced with ⟨request, next, issued, failed⟩
  rw [progress.env] at failed
  rw [Replays, issued, Program.run, failed] at replays
  rw [alone, runAlone, replays]

variable {s next : Pair R}

omit [F32 R] in
theorem Progress.unseen {other : Running R} (progress : c.Progress (!w) other)
    {log : List (Event R)} (apart : log.any Event.searches = true → other.searching = false) :
    Unseen c.rt (c.env w) (c.req w) log other.session.tx.own := by
  refine progress.rows.unseen (c.distinctIds w) ?_ apart
  intro hash here there
  rcases here with ⟨content, reads, same⟩
  rcases there with ⟨otherContent, otherReads, otherSame⟩
  exact c.distinctContents w content otherContent reads otherReads (same.trans otherSame.symm)

theorem Both.waits_not (both : c.Both s) (w : Bool) : s.waits c.srv w = false := by
  rw [← Bool.not_eq_true]
  intro waits
  rcases Pair.waits_running waits with ⟨r, other, running, otherRunning, waits⟩
  rcases both.calls w with ⟨_, same, progress, -⟩
  rcases both.calls (!w) with ⟨_, otherSame, otherProgress, -⟩
  cases running.symm.trans same
  cases otherRunning.symm.trans otherSame
  rw [Running.waitsFor] at waits
  split at waits
  · rename_i request pending
    rw [Running.pending] at pending
    split at pending
    · rename_i issued
      cases pending
      have unnoticed := conflicts_unseen
        (otherProgress.unseen (both.apart w r other running otherRunning))
        (progress.allowed issued)
      rw [unnoticed, Bool.and_false] at waits
      cases waits
    · cases pending
  · cases waits

theorem Both.refused (both : c.Both s) {e : PgError} (running : s.running w = some r)
    (advanced : r.advance c.adapter c.srv s.tables = some (.error e)) :
    c.One w (s.proceed w (.error e)) := by
  rcases both.calls w with ⟨_, same, progress, replays⟩
  cases running.symm.trans same
  rcases both.calls (!w) with ⟨other, otherRunning, otherProgress, otherReplays⟩
  have unwound := replays {} (.empty _ _ _ _)
  rw [Tables.append_empty, ← both.tables] at unwound
  have ended := unwound.unwound progress advanced
  rw [both.tables] at ended
  refine ⟨?_, ?_, ?_, ?_, ?_⟩
  · rw [ended]
    exact both.tables
  · rw [ended]
    simp [Pair.proceed, Pair.stop]
  · simp [Pair.proceed, Pair.stop]
  · have kept := otherReplays {} (.empty _ _ _ _)
    rw [Tables.append_empty, ← both.tables] at kept
    exact ⟨other, by simpa [Pair.proceed, Pair.stop] using otherRunning, otherProgress, kept⟩
  · simpa [Pair.proceed, Pair.stop] using both.ended (!w)

theorem Both.answered (both : c.Both s) (unshared : Unshared s (.call w))
    (running : s.running w = some r)
    (advanced : r.advance c.adapter c.srv s.tables = some (.ok after)) :
    c.Both (s.proceed w (.ok after)) := by
  rcases both.calls w with ⟨_, same, progress, replays⟩
  cases running.symm.trans same
  rcases both.calls (!w) with ⟨other, otherRunning, otherProgress, otherReplays⟩
  rcases advanced_log advanced with ⟨event, log, search⟩
  have apart : after.searching = true → other.searching = false := by
    intro searching
    rw [Running.searching, log, List.any_append, Bool.or_eq_true] at searching
    rcases searching with before | now
    · exact both.apart w r other running otherRunning before
    · have apart : (s.running (!w)).any Running.searching = false := by
        apply unshared
        rw [running]
        exact search (by simpa using now)
      rw [otherRunning] at apart
      exact apart
  refine ⟨both.tables, ?_, ?_, both.ended⟩
  · intro v
    by_cases here : v = w
    · subst here
      refine ⟨after, by simp [Pair.proceed], progress.advanced advanced, ?_⟩
      intro delta unseen
      have before := unseen
      rw [log] at before
      rw [both.tables] at advanced
      exact (replays delta before.earlier).advanced progress advanced unseen
    · have there : v = !w := Bool.eq_not.mpr here
      subst there
      exact ⟨other, by simpa [Pair.proceed] using otherRunning, otherProgress, otherReplays⟩
  · intro v r' other' first second searching
    by_cases here : v = w
    · subst here
      simp only [Pair.proceed, if_true, Bool.not_eq_self, if_false] at first second
      cases first
      cases second.symm.trans otherRunning
      exact apart searching
    · have there : v = !w := Bool.eq_not.mpr here
      subst there
      simp only [Pair.proceed, Bool.not_not, if_true, Bool.not_eq_self, if_false] at first second
      cases second
      cases first.symm.trans otherRunning
      rw [← Bool.not_eq_true]
      intro both_
      rw [apart both_] at searching
      cases searching

theorem Both.called (both : c.Both s) (unshared : Unshared s (.call w))
    (stepped : Pair.step c.adapter c.srv s (.call w) = some next) :
    c.Both next ∨ c.One w next := by
  rcases Pair.step_call stepped with ⟨r, outcome, running, advanced, rfl⟩
  rcases outcome with e | after
  · exact .inr (both.refused running advanced)
  · exact .inl (both.answered unshared running advanced)

theorem Both.finished (both : c.Both s)
    (stepped : Pair.step c.adapter c.srv s (.finish w) = some next) : c.One w next := by
  rcases Pair.step_finish stepped with ⟨r, result, running, done, rfl⟩
  rcases both.calls w with ⟨_, same, progress, replays⟩
  cases running.symm.trans same
  rcases both.calls (!w) with ⟨other, otherRunning, otherProgress, otherReplays⟩
  have replay := replays {} (.empty _ _ _ _)
  rw [Tables.append_empty] at replay
  have ended := replay.finished done
  have settled : c.Replays (!w)
      (c.committed ++ c.adapter.settle result r.session.tx.own) other := by
    apply otherReplays
    have mine : c.Progress (!(!w)) r := by
      rw [Bool.not_not]
      exact progress
    have unseen := mine.unseen
      (both.apart (!w) other r otherRunning (by rw [Bool.not_not]; exact running))
    rcases c.adapter.settle_cases result r.session.tx.own with kept | dropped
    · rw [kept]
      exact unseen
    · rw [dropped]
      exact .empty _ _ _ _
  refine ⟨?_, ?_, ?_, ?_, ?_⟩
  · rw [ended]
    simp [Pair.stop, both.tables]
  · rw [ended]
    simp [Pair.stop]
  · simp [Pair.stop]
  · refine ⟨other, by simpa [Pair.stop] using otherRunning, otherProgress, ?_⟩
    simpa only [Pair.stop, both.tables] using settled
  · simpa [Pair.stop] using both.ended (!w)

theorem One.running_other {first : Bool} (one : c.One first s) (running : s.running w = some r) :
    w = !first ∧ c.Progress (!first) r ∧ c.Replays (!first) s.tables r := by
  by_cases same : w = first
  · rw [same, one.gone] at running
    cases running
  · have there : w = !first := Bool.eq_not.mpr same
    rcases one.other with ⟨_, otherRunning, progress, replays⟩
    rw [there] at running
    cases running.symm.trans otherRunning
    exact ⟨there, progress, replays⟩

theorem One.closes {first : Bool} (one : c.One first s)
    {result : Except PgError (CoreResult RunJobOutcome)} {left : Tables R}
    (ended : c.alone (!first) s.tables = (result, left)) :
    c.Over first (s.stop (!first) left result) := by
  have two : c.alone (!first) (c.alone first c.committed).2 = (result, left) := by
    rw [← one.tables]
    exact ended
  have serial : c.serial first =
      (fun w => if w = first then (c.alone first c.committed).1 else result, left) := by
    rw [alone, alone] at two
    simp only [TwoCalls.serial, two]
    rfl
  refine ⟨?_, ?_, ?_⟩
  · rw [serial]
    rfl
  · intro w
    rw [serial]
    by_cases same : w = first
    · subst same
      simpa [Pair.stop] using one.ended
    · have there : w = !first := Bool.eq_not.mpr same
      simp [Pair.stop, there]
  · intro w
    by_cases same : w = first
    · subst same
      simpa [Pair.stop] using one.gone
    · have there : w = !first := Bool.eq_not.mpr same
      simp [Pair.stop, there]

theorem One.called {first : Bool} (one : c.One first s)
    (stepped : Pair.step c.adapter c.srv s (.call w) = some next) :
    c.One first next ∨ c.Over first next := by
  rcases Pair.step_call stepped with ⟨r, outcome, running, advanced, rfl⟩
  rcases one.running_other running with ⟨rfl, progress, replays⟩
  rcases outcome with e | after
  · exact .inr (one.closes (replays.unwound progress advanced))
  · have kept : c.Replays (!first) (s.tables ++ {}) r := by
      rw [Tables.append_empty]
      exact replays
    have later := kept.advanced progress advanced (.empty _ _ _ _)
    rw [Tables.append_empty] at later
    refine .inl ⟨one.tables, one.ended, ?_, ?_, one.open_⟩
    · simpa [Pair.proceed] using one.gone
    · exact ⟨after, by simp [Pair.proceed], progress.advanced advanced, later⟩

theorem One.finished {first : Bool} (one : c.One first s)
    (stepped : Pair.step c.adapter c.srv s (.finish w) = some next) : c.Over first next := by
  rcases Pair.step_finish stepped with ⟨r, result, running, done, rfl⟩
  rcases one.running_other running with ⟨rfl, progress, replays⟩
  exact one.closes (replays.finished done)

theorem One.waits_not {first : Bool} (one : c.One first s) (w : Bool) :
    s.waits c.srv w = false := by
  rw [← Bool.not_eq_true]
  intro waits
  rcases Pair.waits_running waits with ⟨r, other, running, otherRunning, -⟩
  have here := (one.running_other running).1
  have there := (one.running_other otherRunning).1
  rw [← here] at there
  exact Bool.not_not_eq.mpr rfl there

variable (c) in
inductive Stage (s : Pair R) : Prop where
  | both (both : c.Both s)
  | one (first : Bool) (one : c.One first s)
  | closed (first : Bool) (closed : c.Over first s)

theorem stage_step (stage : c.Stage s) (action : Pair.Action) (unshared : Unshared s action)
    (stepped : Pair.step c.adapter c.srv s action = some next) : c.Stage next := by
  rcases stage with both | ⟨first, one⟩ | ⟨first, closed⟩
  · cases action with
    | call w =>
        rcases both.called unshared stepped with still | ended
        · exact .both still
        · exact .one w ended
    | deadlock w =>
        have waits := Pair.step_deadlock stepped
        rw [both.waits_not] at waits
        cases waits
    | finish w => exact .one w (both.finished stepped)
  · cases action with
    | call w =>
        rcases one.called stepped with still | ended
        · exact .one first still
        · exact .closed first ended
    | deadlock w =>
        have waits := Pair.step_deadlock stepped
        rw [one.waits_not] at waits
        cases waits
    | finish w => exact .closed first (one.finished stepped)
  · cases action with
    | call w =>
        rcases Pair.step_call stepped with ⟨r, outcome, running, -⟩
        rw [closed.gone] at running
        cases running
    | deadlock w =>
        rcases Pair.waits_running (Pair.step_deadlock stepped) with ⟨r, other, running, -⟩
        rw [closed.gone] at running
        cases running
    | finish w =>
        rcases Pair.step_finish stepped with ⟨r, result, running, -⟩
        rw [closed.gone] at running
        cases running

theorem start_stage : c.Stage c.start := by
  refine .both ⟨rfl, ?_, ?_, fun _ => rfl⟩
  · intro w
    exact ⟨_, rfl, ⟨rfl, runJob_footprint c.rt (c.env w) (c.req w), .empty _ _ _ _⟩,
      fun delta _ => rfl⟩
  · intro w r other running _ searching
    cases running
    cases searching

theorem Stage.proceeds (stage : c.Stage s) (w : Bool) (open_ : s.ended w = none) :
    (Pair.step c.adapter c.srv s (.call w)).isSome ∨
      (Pair.step c.adapter c.srv s (.finish w)).isSome := by
  have issues : ∀ r, s.waits c.srv w = false → s.running w = some r →
      (Pair.step c.adapter c.srv s (.call w)).isSome ∨
        (Pair.step c.adapter c.srv s (.finish w)).isSome := by
    intro r free running
    rcases rest : r.rest with result | ⟨request, next⟩
    · right
      simp [Pair.step, running, rest]
    · left
      simp [Pair.step, free, running, Running.advance, rest]
  rcases stage with both | ⟨first, one⟩ | ⟨first, closed⟩
  · rcases both.calls w with ⟨r, running, -⟩
    exact issues r (both.waits_not w) running
  · by_cases same : w = first
    · rw [same, one.ended] at open_
      cases open_
    · have there : w = !first := Bool.eq_not.mpr same
      rcases one.other with ⟨r, running, -⟩
      rw [← there] at running
      exact issues r (one.waits_not w) running
  · rw [closed.ended] at open_
    cases open_

/-- In every interleaving in which no call searches for an entity while the other is between its
first search and its end, no call waits or is stuck, and when both have ended their results, the
entities and the links are those of one serial order. -/
theorem searches_apart_serializable (c : TwoCalls R) (actions : List Pair.Action) (s : Pair R)
    (apart : Transition.Meets (Pair.step c.adapter c.srv) Unshared c.start actions)
    (finished : Transition.run (Pair.step c.adapter c.srv) c.start actions = some s) :
    (∀ w, s.ended w = none → (Pair.step c.adapter c.srv s (.call w)).isSome ∨
      (Pair.step c.adapter c.srv s (.finish w)).isSome) ∧
    ((∀ w, s.ended w ≠ none) →
      (∀ w, (∀ first, returnedOk ((c.serial first).1 w) = true) →
        ∃ result, s.ended w = some result ∧ returnedOk result = true) ∧
      ∃ first, (∀ w, s.ended w = some ((c.serial first).1 w)) ∧
        s.tables.entities = (c.serial first).2.entities ∧
        s.tables.chunkEntities = (c.serial first).2.chunkEntities) := by
  have stage : c.Stage s := Transition.run_invariant
    (fun _ action _ stage unshared stepped => stage_step stage action unshared stepped)
    c.start_stage apart finished
  refine ⟨stage.proceeds, ?_⟩
  intro bothEnded
  rcases stage with both | ⟨first, one⟩ | ⟨first, closed⟩
  · exact absurd (both.ended true) (bothEnded true)
  · exact absurd one.open_ (bothEnded (!first))
  · refine ⟨?_, first, closed.ended, ?_, ?_⟩
    · intro w serially
      exact ⟨_, closed.ended w, serially first⟩
    · rw [closed.tables]
    · rw [closed.tables]

end TwoCalls

def mentionsAcme : Extraction Milli where
  entities := [{ name := "acme", kind := some "org", description := none, confidence := ⟨1000⟩ }]

def twoNotes : TwoCalls Milli where
  adapter := .tokio
  rt := .plain
  srv := .plain Milli
  committed := { namespaces := ["docs"] }
  env w := .numbered w.toNat fun _ => .ok mentionsAcme
  req w :=
    { source := .text "n.md" (if w then "one" else "two"), ns := "docs", chunkStrategy := "auto" }
  distinctIds := by
    intro w n m same
    have lanes := Environment.numbered_distinct same
    cases w <;> cases lanes
  distinctContents := by
    intro w content other first second
    cases w <;> cases first <;> cases second <;> decide

def overlappingSearches : List Pair.Action :=
  List.replicate 11 (Pair.Action.call false) ++ List.replicate 10 (Pair.Action.call true) ++
    ([.call false, .call false, .finish false] : List Pair.Action) ++
    List.replicate 3 (Pair.Action.call true) ++ ([.finish true] : List Pair.Action)

/-- Both calls succeed in either serial order. Here the second one inserts the entity again, which
does nothing, and its link to the identifier it drew violates a foreign key. -/
theorem shared_entity_fails :
    (∀ first w, returnedOk ((twoNotes.serial first).1 w) = true) ∧
    ∃ s message, Transition.run (Pair.step twoNotes.adapter twoNotes.srv) twoNotes.start
        overlappingSearches = some s ∧
      s.ended false ≠ none ∧ s.ended true = some (.ok (.error (.invalidConfig message))) :=
  ⟨by decide, _, _, rfl, nofun, rfl⟩

def separateSearches : List Pair.Action :=
  List.replicate 8 (Pair.Action.call true) ++ List.replicate 13 (Pair.Action.call false) ++
    ([.finish false] : List Pair.Action) ++ List.replicate 3 (Pair.Action.call true) ++
    ([.finish true] : List Pair.Action)

theorem searches_apart_sample :
    ∃ s : Pair Milli, (∀ w, s.ended w ≠ none) ∧ ∃ first,
      s.tables.entities = (twoNotes.serial first).2.entities := by
  have finishes : ∃ s, Transition.run (Pair.step twoNotes.adapter twoNotes.srv) twoNotes.start
      separateSearches = some s ∧ s.ended false ≠ none ∧ s.ended true ≠ none :=
    ⟨_, rfl, nofun, nofun⟩
  rcases finishes with ⟨s, finished, endedFirst, endedSecond⟩
  have ended : ∀ w, s.ended w ≠ none := by
    intro w
    cases w
    · exact endedFirst
    · exact endedSecond
  have apart : Transition.Meets (Pair.step twoNotes.adapter twoNotes.srv) Unshared twoNotes.start
      separateSearches := by
    decide +kernel
  rcases (TwoCalls.searches_apart_serializable twoNotes separateSearches s apart finished).2 ended
    with ⟨-, first, -, same, -⟩
  exact ⟨s, ended, first, same⟩

end PgRaggraph

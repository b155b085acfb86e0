import PgRaggraph.Sidecar.Completeness
import PgRaggraph.Store.Footprint

/-! Two jobs with the same content in one namespace.

A run that finds no stored duplicate is underway until it commits. Unless another namespace holds
the content, the two jobs complete, and store one document, in the runs in which no duplicate check
is made while the other run is underway. -/

namespace PgRaggraph.Sidecar

open Interaction

variable {R : Type}

def System.underway (s : System R) (w : Nat) : Bool :=
  (s.running w).any (fun r => PgRaggraph.Sidecar.underway r.session)

def System.checking (s : System R) (w : Nat) : Bool :=
  match (s.running w).bind Running.pending with
  | some (.documentExistsByHash _ _) => true
  | _ => false

def Action.undisturbed : Action → Bool
  | .enqueue _ _ _ _ _ => false
  | .reapRequeue _ => false
  | .reapFail _ => false
  | .crash _ => false
  | _ => true

/-- A duplicate check is made only while no other run is underway. -/
def checksApart (d : Deployment R) (s : System R) : Action → Bool
  | .call w => !s.checking w || (List.range d.workers).all (fun v => v = w || !s.underway v)
  | _ => true

def Permitted (d : Deployment R) (s : System R) (action : Action) : Prop :=
  (action.undisturbed && checksApart d s action) = true

instance (d : Deployment R) (s : System R) (action : Action) : Decidable (Permitted d s action) :=
  inferInstanceAs (Decidable (_ = true))

def duplicateOf (rt : Runtime) (payload : Bytes) (doc : DocRow) : Bool :=
  doc.contentHash = contentHash rt payload

/-- No other namespace holds the content. `content_hash` is unique over all namespaces, while the
duplicate check looks into one. -/
def HeldAtHome (d : Deployment R) (base : Tables R) (ns : String) (payload : Bytes) : Prop :=
  ∀ doc ∈ base.documents, duplicateOf d.rt payload doc = true → doc.ns = ns

/-- Two queued jobs with one content, which the database and the environment let complete. -/
structure Duplicates (d : Deployment R) (queue : Queue.System) (base : Tables R) (a b : JobRow)
    (payload : Bytes) : Prop where
  jobs : queue.jobs = [a, b]
  queued : a.status = .queued ∧ b.status = .queued
  ns : b.ns = a.ns
  payloads : a.payload = some payload ∧ b.payload = some payload
  accounted : Queue.Accounted queue
  idle : ∀ w, queue.workers w = none
  fresh : ∀ n, queue.claims.length ≤ n → FreshFor (d.env n) base
  created : a.ns ∈ base.namespaces
  single : (base.documents.filter (duplicateOf d.rt payload)).length ≤ 1
  untroubled : ∀ job ∈ [a, b], ∀ n, ∃ chunks,
    Untroubled d.rt d.srv (d.env n).mocked job.submission.request payload chunks

def Underway (s : System R) (w : Nat) : Prop :=
  ∃ run job r, s.processes w = some ⟨run, job, .working r⟩ ∧
    PgRaggraph.Sidecar.underway r.session = true

theorem underway_iff (s : System R) (w : Nat) : s.underway w = true ↔ Underway s w := by
  rw [System.underway, System.running]
  constructor
  · intro holds
    split at holds
    · rename_i run job r held
      exact ⟨run, job, r, held, holds⟩
    · cases holds
  · rintro ⟨run, job, r, held, holds⟩
    rw [held]
    exact holds

theorem underway_assign {s : System R} {w v : Nat} {tables : Tables R} {queue : Queue.System}
    {next : Option (Process R)}
    (holds : Underway ⟨queue, tables, s.assign w next⟩ v) :
    (v = w ∧ ∃ run job r, next = some ⟨run, job, .working r⟩ ∧
      PgRaggraph.Sidecar.underway r.session = true) ∨ (v ≠ w ∧ Underway s v) := by
  rcases holds with ⟨run, job, r, held, holds⟩
  dsimp only [System.assign] at held
  by_cases here : v = w
  · rw [if_pos here] at held
    exact .inl ⟨here, run, job, r, held, holds⟩
  · rw [if_neg here] at held
    exact .inr ⟨here, run, job, r, held, holds⟩

/-- One run at a time is underway, and none while its content is stored. -/
structure Serial [F32 R] (d : Deployment R) (base : Tables R) (a b : JobRow) (payload : Bytes)
    (s : System R) : Prop where
  sound : Sound d base s
  submitted : s.queue.jobs.map JobRow.submission = [a.submission, b.submission]
  listed : ∀ w process, s.processes w = some process → w < d.workers
  alone : ∀ w v, Underway s w → Underway s v → w = v
  unstored : ∀ w, Underway s w → ∀ doc ∈ s.tables.documents, duplicateOf d.rt payload doc = false
  unwritten : ∀ w run job r, s.processes w = some ⟨run, job, .working r⟩ →
    underway r.session = false → r.session.tx.own = {}
  single : (s.tables.documents.filter (duplicateOf d.rt payload)).length ≤ 1
  located : ∀ doc ∈ s.tables.documents, duplicateOf d.rt payload doc = true → doc.ns = a.ns
  going : ∀ w run job error, s.processes w ≠ some ⟨run, job, .rolledBack error⟩
  owned : ∀ job ∈ s.queue.jobs, job.status = .running →
    ∃ w process, s.processes w = some process ∧ process.job.id = job.id
  unfailed : ∀ job ∈ s.queue.jobs, job.status ≠ .failed

section Runs

variable [F32 R] {d : Deployment R} {queue : Queue.System} {base : Tables R} {a b : JobRow}
  {payload : Bytes} {s : System R}

theorem Serial.job (serial : Serial d base a b payload s)
    (duplicates : Duplicates d queue base a b payload) {w : Nat} {process : Process R}
    (held : s.processes w = some process) :
    ∃ job ∈ [a, b], job.submission.ns = a.ns ∧
      Progress d s process job.submission payload := by
  rcases serial.sound.progress w process held with ⟨submission, content, progress⟩
  have member := progress.submitted
  rw [serial.submitted] at member
  have carried := progress.carries
  rcases List.mem_cons.mp member with rfl | member
  · cases duplicates.payloads.1.symm.trans carried
    exact ⟨a, List.mem_cons_self, rfl, progress⟩
  · cases List.mem_singleton.mp member
    cases duplicates.payloads.2.symm.trans carried
    exact ⟨b, List.mem_cons_of_mem _ List.mem_cons_self, duplicates.ns, progress⟩

theorem underway_answered {srv : Server R} {env : Environment R} {tables : Tables R}
    {request : Call R} {session after : Session R} {answer : request.Answer}
    (answered : Adapter.tokio.handler srv env tables request session = .ok (answer, after))
    (holds : underway after = true) :
    underway session = true ∨ ∃ ns hash, request = .client (.documentExistsByHash ns hash) ∧
      ∀ doc ∈ tables.documents, ¬ (doc.ns = ns ∧ doc.contentHash = hash) := by
  rw [underway, (handler_answered answered).log, List.any_append, Bool.or_eq_true] at holds
  rcases holds with before | new
  · exact .inl before
  · rw [List.any_cons, List.any_nil, Bool.or_false] at new
    unfold Event.unstored at new
    split at new
    · rename_i ns hash event
      cases event
      rw [Adapter.handler] at answered
      split at answered
      · rename_i performed
        cases answered
        rcases check_answered performed with ⟨found, -⟩
        refine .inr ⟨ns, hash, rfl, ?_⟩
        intro doc stored same
        have present := List.any_eq_false.mp found.symm doc (List.mem_append_left _ stored)
        exact present (decide_eq_true same)
      · cases answered
    · cases new

theorem unwritten_answered {srv : Server R} {env : Environment R} {tables : Tables R}
    {request : Call R} {session after : Session R} {answer : request.Answer} {ns hash : String}
    (answered : Adapter.tokio.handler srv env tables request session = .ok (answer, after))
    (careful : Careful ns hash session request) (idle : underway after = false)
    (unwritten : underway session = false → session.tx.own = {}) : after.tx.own = {} := by
  have log := (handler_answered answered).log
  have before : underway session = false := by
    rw [underway, log, List.any_append, Bool.or_eq_false_iff] at idle
    exact idle.1
  cases request with
  | env asked =>
      cases answered
      exact unwritten before
  | client asked =>
      rcases handler_added answered with none_ | same | added
      · exact none_
      · rw [same]
        exact unwritten before
      · rw [added, unwritten before]
        cases asked with
        | documentExistsByHash asked content => rfl
        | fuzzyMatchEntity asked name limit => rfl
        | rollback => rfl
        | commit => rfl
        | _ =>
            have wrote : underway session = true := careful
            rw [before] at wrote
            cases wrote

theorem Serial.check_alone (serial : Serial d base a b payload s) {w : Nat}
    (apart : checksApart d s (.call w) = true) (checking : s.checking w = true) {v : Nat}
    (other : v ≠ w) : ¬ Underway s v := by
  intro busy
  rcases busy with ⟨run, job, r, held, holds⟩
  rw [checksApart, checking, Bool.not_true, Bool.false_or] at apart
  have listed := List.mem_range.mpr (serial.listed v _ held)
  have idle := List.all_eq_true.mp apart v listed
  have busy : s.underway v = true := (underway_iff s v).mpr ⟨run, job, r, held, holds⟩
  rw [busy, Bool.not_true, Bool.or_false] at idle
  exact other (of_decide_eq_true idle)

theorem Serial.listed_assign (serial : Serial d base a b payload s) {w run : Nat}
    {job : ClaimedJob} {phase : Phase R} (held : s.processes w = some ⟨run, job, phase⟩)
    (next : Phase R) : ∀ v process, s.assign w (some ⟨run, job, next⟩) v = some process →
      v < d.workers := by
  intro v process assigned
  rcases assign_process assigned with ⟨rfl, -⟩ | ⟨-, before⟩
  · exact serial.listed _ _ held
  · exact serial.listed v process before

theorem Serial.owned_assign (serial : Serial d base a b payload s) {w run : Nat}
    {job : ClaimedJob} {phase : Phase R} (held : s.processes w = some ⟨run, job, phase⟩)
    (next : Phase R) : ∀ row ∈ s.queue.jobs, row.status = .running →
      ∃ v process, s.assign w (some ⟨run, job, next⟩) v = some process ∧
        process.job.id = row.id := by
  intro row member running
  rcases serial.owned row member running with ⟨v, process, before, same⟩
  by_cases here : v = w
  · rw [here, held] at before
    cases before
    exact ⟨w, _, if_pos rfl, same⟩
  · exact ⟨v, process, (if_neg here).trans before, same⟩

theorem Serial.staged (serial : Serial d base a b payload s) {w run : Nat} {job : ClaimedJob}
    {phase next : Phase R} (held : s.processes w = some ⟨run, job, phase⟩)
    (sound : Sound d base { s with processes := s.assign w (some ⟨run, job, next⟩) })
    (alone : ∀ r, next = .working r → underway r.session = true →
      (∀ v, v ≠ w → ¬ Underway s v) ∧
        ∀ doc ∈ s.tables.documents, duplicateOf d.rt payload doc = false)
    (unwritten : ∀ r, next = .working r → underway r.session = false → r.session.tx.own = {})
    (going : ∀ error, next ≠ .rolledBack error) :
    Serial d base a b payload { s with processes := s.assign w (some ⟨run, job, next⟩) } := by
  refine ⟨sound, serial.submitted, serial.listed_assign held next, ?_, ?_, ?_, serial.single,
    serial.located, ?_, serial.owned_assign held next, serial.unfailed⟩
  · intro v u first second
    rcases underway_assign first with ⟨here, _, _, r, same, holds⟩ | ⟨away, earlier⟩
    · cases same
      rcases underway_assign second with ⟨there, -⟩ | ⟨other, later⟩
      · exact here.trans there.symm
      · exact absurd later ((alone r rfl holds).1 u other)
    · rcases underway_assign second with ⟨-, _, _, r, same, holds⟩ | ⟨-, later⟩
      · cases same
        exact absurd earlier ((alone r rfl holds).1 v away)
      · exact serial.alone v u earlier later
  · intro v busy
    rcases underway_assign busy with ⟨-, _, _, r, same, holds⟩ | ⟨-, busy⟩
    · cases same
      exact (alone r rfl holds).2
    · exact serial.unstored v busy
  · intro v run job r assigned idle
    rcases assign_process assigned with ⟨-, same⟩ | ⟨-, before⟩
    · cases same
      exact unwritten r rfl idle
    · exact serial.unwritten v run job r before idle
  · intro v run job error assigned
    rcases assign_process assigned with ⟨-, same⟩ | ⟨-, before⟩
    · cases same
      exact going error rfl
    · exact serial.going v run job error before

theorem Serial.called (serial : Serial d base a b payload s)
    (duplicates : Duplicates d queue base a b payload) {w run : Nat} {job : ClaimedJob}
    {r after : Running R} (held : s.processes w = some ⟨run, job, .working r⟩)
    (advanced : r.advance .tokio d.srv s.tables = some (.ok after))
    (apart : checksApart d s (.call w) = true) :
    Serial d base a b payload
      { s with processes := s.assign w (some ⟨run, job, .working after⟩) } := by
  rcases serial.job duplicates held with ⟨row, -, named, progress⟩
  rcases progress.stage with ⟨env, fresh, holds⟩
  have sound := serial.sound.called held advanced
  rcases advance_ok advanced with ⟨request, next, answer, session, issued, answered, rfl⟩
  rw [issued] at holds
  have careful := (attempt_answered _ _ _ _ fresh holds (env ▸ answered)).1
  apply serial.staged held sound
  · intro r' same busy
    cases same
    rcases underway_answered answered busy with before | ⟨ns, hash, rfl, none_⟩
    · have underway : Underway s w := ⟨run, job, r, held, before⟩
      exact ⟨fun v other holds => other (serial.alone v w holds underway),
        serial.unstored w underway⟩
    · have checking : s.checking w = true := by
        rw [System.checking, System.running, held]
        simp only [Option.bind_some, Running.pending, issued]
      refine ⟨fun v other => serial.check_alone apart checking other, ?_⟩
      intro doc stored
      by_contra duplicate
      have same : duplicateOf d.rt payload doc = true := by simpa using duplicate
      have located := serial.located doc stored same
      apply none_ doc stored
      rw [careful.1, careful.2]
      exact ⟨located.trans named.symm, of_decide_eq_true same⟩
  · intro r' same idle
    cases same
    exact unwritten_answered answered careful idle (serial.unwritten w run job r held)
  · exact fun _ => nofun

theorem Serial.sent (serial : Serial d base a b payload s) {w : Nat} {queue : Queue.System}
    {next : Option (Process R)}
    (sound : Sound d base { s with queue := queue, processes := s.assign w next })
    (submissions : queue.jobs.map JobRow.submission = s.queue.jobs.map JobRow.submission)
    (listed : w < d.workers) (begins : ∀ process, next = some process → process.phase = .claimed)
    (owned : ∀ job ∈ queue.jobs, job.status = .running →
      ∃ v process, s.assign w next v = some process ∧ process.job.id = job.id)
    (unfailed : ∀ job ∈ queue.jobs, job.status ≠ .failed) :
    Serial d base a b payload { s with queue := queue, processes := s.assign w next } := by
  have before : ∀ v process, s.assign w next v = some process → process.phase ≠ .claimed →
      s.processes v = some process := by
    intro v process assigned busy
    rw [System.assign] at assigned
    split at assigned
    · exact absurd (begins process assigned) busy
    · exact assigned
  have busy : ∀ v, Underway { s with queue := queue, processes := s.assign w next } v →
      Underway s v := by
    rintro v ⟨run, job, r, held, holds⟩
    exact ⟨run, job, r, before v _ held (fun claimed => by cases claimed), holds⟩
  refine ⟨sound, submissions.trans serial.submitted, ?_, ?_, ?_, ?_, serial.single, serial.located,
    ?_, owned, unfailed⟩
  · intro v process assigned
    dsimp only [System.assign] at assigned
    split at assigned
    · rename_i here
      exact here ▸ listed
    · exact serial.listed v process assigned
  · intro v u first second
    exact serial.alone v u (busy v first) (busy u second)
  · intro v holds
    exact serial.unstored v (busy v holds)
  · intro v run job r assigned
    exact serial.unwritten v run job r (before v _ assigned (fun claimed => by cases claimed))
  · intro v run job error assigned
    exact serial.going v run job error (before v _ assigned (fun claimed => by cases claimed))

theorem Serial.claimed (serial : Serial d base a b payload s) {w : Nat} {locked : List Uuid}
    {id : Uuid} {queue : Queue.System} (listed : w < d.workers)
    (stepped : Queue.step s.queue (.claim w locked id) = some queue) {row : JobRow}
    (stored : row ∈ queue.jobs) (same : row.id = id) :
    Serial d base a b payload { s with
      queue := queue
      processes := s.assign w
        (some { run := s.queue.claims.length, job := .ofRow row, phase := .claimed }) } := by
  have sound := serial.sound.claim stepped stored same
  have submissions : queue.jobs.map JobRow.submission =
      s.queue.jobs.map JobRow.submission ++ [] := Queue.step_submissions stepped
  rw [List.append_nil] at submissions
  apply serial.sent sound submissions listed
  · rintro process ⟨⟩
    rfl
  · intro job member running
    rcases Queue.step_claim stepped with ⟨next, -, claimed, -, idle, rfl⟩
    rcases mem_updateWhere member with ⟨kept, -⟩ | ⟨old, -, matched, rfl⟩
    · rcases serial.owned job kept running with ⟨v, process, before, owns⟩
      have other : v ≠ w := by
        rintro rfl
        have synced := serial.sound.synced v
        rw [idle, before] at synced
        cases synced
      exact ⟨v, process, (if_neg other).trans before, owns⟩
    · have owns : old.id = next.id := of_decide_eq_true matched
      exact ⟨w, _, if_pos rfl, same.trans (claimed.symm.trans owns.symm)⟩
  · intro job member failed
    rcases Queue.step_terminal stepped member (by simp [JobRow.terminal, failed]) with
      ⟨old, before, -, status⟩ | ⟨v, ex, -, -, ended⟩ | ⟨secs, swept, -⟩
    · exact serial.unfailed old before (status.trans failed)
    · rcases ended with ⟨ends, -⟩ | ⟨error, ends, -⟩
      · cases ends
      · cases ends
    · cases swept

theorem Serial.completed (serial : Serial d base a b payload s) {w run : Nat} {job : ClaimedJob}
    {queue : Queue.System} (held : s.processes w = some ⟨run, job, .committed⟩)
    (stepped : Queue.step s.queue (.complete w) = some queue) :
    Serial d base a b payload { s with queue := queue, processes := s.assign w none } := by
  have sound := serial.sound.ended stepped rfl (fun _ => ⟨run, job, held⟩)
  have submissions : queue.jobs.map JobRow.submission =
      s.queue.jobs.map JobRow.submission ++ [] := Queue.step_submissions stepped
  rw [List.append_nil] at submissions
  apply serial.sent sound submissions (serial.listed w _ held)
  · exact fun _ => nofun
  · intro row member running
    rcases Option.map_eq_some_iff.mp stepped with ⟨ex, executing, rfl⟩
    rcases mem_updateWhere member with ⟨kept, unmatched⟩ | ⟨old, -, -, rfl⟩
    · rcases serial.owned row kept running with ⟨v, process, before, owns⟩
      have synced := serial.sound.synced w
      rw [executing, held] at synced
      have other : v ≠ w := by
        rintro rfl
        rw [held] at before
        cases before
        exact of_decide_eq_false unmatched (owns.symm.trans (Option.some.inj synced).symm)
      exact ⟨v, process, (if_neg other).trans before, owns⟩
    · cases running
  · intro row member failed
    rcases Queue.step_terminal stepped member (by simp [JobRow.terminal, failed]) with
      ⟨old, before, -, status⟩ | ⟨v, ex, -, -, ended⟩ | ⟨secs, swept, -⟩
    · exact serial.unfailed old before (status.trans failed)
    · rcases ended with ⟨-, completed⟩ | ⟨error, ends, -⟩
      · rw [failed] at completed
        cases completed
      · cases ends
    · cases swept

theorem Serial.committed (serial : Serial d base a b payload s)
    (duplicates : Duplicates d queue base a b payload) {w run : Nat} {job : ClaimedJob}
    {env : Environment R} {session : Session R} {outcome : RunJobOutcome}
    (held : s.processes w = some ⟨run, job, .working ⟨env, session, .done (.ok outcome)⟩⟩) :
    Serial d base a b payload { s with
      tables := s.tables ++ session.tx.own
      processes := s.assign w (some ⟨run, job, .committed⟩) } := by
  rcases serial.job duplicates held with ⟨row, -, named, progress⟩
  rcases progress.stage with ⟨-, -, delivered⟩
  have sound := serial.sound.committed held
  rcases delivered with ⟨doc, chunks, embeddings, chunkIds, assembled, busy, own⟩ | ⟨own, -⟩
  · rw [own] at sound ⊢
    have underway : Underway s w := ⟨run, job, _, held, busy⟩
    have none_ : ∀ v, ¬ Underway ⟨s.queue,
        s.tables ++ documentRows doc ((chunks.zip embeddings).zip chunkIds),
        s.assign w (some ⟨run, job, .committed⟩)⟩ v := by
      intro v busy
      rcases underway_assign busy with ⟨-, _, _, r, new, -⟩ | ⟨other, before⟩
      · cases new
      · exact other (serial.alone v w before underway)
    refine ⟨sound, serial.submitted, serial.listed_assign held _, ?_, ?_, ?_, ?_, ?_, ?_,
      serial.owned_assign held _, serial.unfailed⟩
    · intro v u first
      exact absurd first (none_ v)
    · intro v busy
      exact absurd busy (none_ v)
    · intro v run job r assigned
      rcases assign_process assigned with ⟨-, new⟩ | ⟨-, before⟩
      · cases new
      · exact serial.unwritten v run job r before
    · have earlier : s.tables.documents.filter (duplicateOf d.rt payload) = [] := by
        apply List.filter_eq_nil_iff.mpr
        intro stored member same
        rw [serial.unstored w underway stored member] at same
        cases same
      rw [Tables.append_documents, List.filter_append, earlier]
      exact List.length_filter_le _ [doc]
    · intro stored member same
      rcases List.mem_append.mp member with old | new
      · exact serial.located stored old same
      · rw [List.mem_singleton.mp new]
        exact assembled.ready.ns.trans named
    · intro v run job error assigned
      rcases assign_process assigned with ⟨-, new⟩ | ⟨-, before⟩
      · cases new
      · exact serial.going v run job error before
  · rw [own, Tables.append_empty] at sound ⊢
    apply serial.staged held sound
    · exact fun _ => nofun
    · exact fun _ => nofun
    · exact fun _ => nofun

theorem Serial.delivers (serial : Serial d base a b payload s)
    (duplicates : Duplicates d queue base a b payload) {w run : Nat} {job : ClaimedJob}
    {env : Environment R} {session : Session R} {e : CoreError}
    (held : s.processes w = some ⟨run, job, .working ⟨env, session, .done (.error e)⟩⟩) :
    False := by
  rcases serial.job duplicates held with ⟨row, member, named, progress⟩
  rcases progress.stage with ⟨-, -, failed⟩
  rcases duplicates.untroubled row member run with ⟨chunks, untroubled⟩
  have created : row.submission.request.ns ∈ s.tables.namespaces := by
    rw [serial.sound.namespaces, show row.submission.request.ns = a.ns from named]
    exact duplicates.created
  have raced := failed chunks untroubled created
  rcases raced.stored with ⟨doc, stored, same⟩
  have underway : Underway s w := ⟨run, job, _, held, raced.underway⟩
  exact of_decide_eq_false (serial.unstored w underway doc stored) same

theorem serial_step (numbering : d.rt.chunkshop.Numbering)
    (duplicates : Duplicates d queue base a b payload) {after : System R} {action : Action}
    (serial : Serial d base a b payload s) (permitted : Permitted d s action)
    (stepped : step d s action = some after) : Serial d base a b payload after := by
  have allowed := (Bool.and_eq_true _ _).mp permitted
  have sound := sound_step numbering serial.sound stepped
  cases step_moves stepped with
  | queue action sent queue outside moved =>
      cases action with
      | advance micros =>
          cases outside
          cases moved
          exact { serial with sound := sound }
      | enqueue id source ns chunkStrategy content => cases allowed.1
      | reapRequeue secs => cases allowed.1
      | reapFail secs => cases allowed.1
      | _ => cases outside
  | claim w locked id queue row listed moved stored same =>
      exact serial.claimed listed moved stored same
  | beginJob w run job held =>
      apply serial.staged held sound
      · rintro r ⟨⟩ busy
        cases busy
      · rintro r ⟨⟩ -
        rfl
      · exact fun _ => nofun
  | call w run job r next held _ advanced =>
      exact serial.called duplicates held advanced allowed.2
  | commit w run job env session outcome held => exact serial.committed duplicates held
  | rollback w run job env session e held => exact (serial.delivers duplicates held).elim
  | complete w run job queue held moved => exact serial.completed held moved
  | fail w run job error queue held moved => exact absurd held (serial.going w run job error)
  | crash w queue moved => cases allowed.1

theorem Duplicates.serial (duplicates : Duplicates d queue base a b payload)
    (home : HeldAtHome d base a.ns payload) :
    Serial d base a b payload { queue := queue, tables := base } where
  sound := by
    have status : ∀ job ∈ queue.jobs, job.status = .queued ∧ job.payload.isSome := by
      intro job member
      rw [duplicates.jobs] at member
      rcases List.mem_cons.mp member with rfl | member
      · exact ⟨duplicates.queued.1, by rw [duplicates.payloads.1]; rfl⟩
      · rw [List.mem_singleton.mp member]
        exact ⟨duplicates.queued.2, by rw [duplicates.payloads.2]; rfl⟩
    apply Sound.initial duplicates.accounted
    · exact fun job member => (status job member).2
    · exact duplicates.idle
    · intro job member completed
      rw [(status job member).1] at completed
      cases completed
    · exact duplicates.fresh
  submitted := by
    rw [duplicates.jobs]
    rfl
  listed := by
    intro w process held
    cases held
  alone := by
    rintro w v ⟨run, job, r, held, -⟩
    cases held
  unstored := by
    rintro w ⟨run, job, r, held, -⟩
    cases held
  unwritten := by
    intro w run job r held
    cases held
  single := duplicates.single
  located := home
  going := by
    intro w run job error held
    cases held
  owned := by
    intro job member running
    have queued := duplicates.queued
    rw [duplicates.jobs] at member
    rcases List.mem_cons.mp member with rfl | member
    · rw [running] at queued
      cases queued.1
    · rw [← List.mem_singleton.mp member, running] at queued
      cases queued.2
  unfailed := by
    intro job member failed
    have queued := duplicates.queued
    rw [duplicates.jobs] at member
    rcases List.mem_cons.mp member with rfl | member
    · rw [failed] at queued
      cases queued.1
    · rw [← List.mem_singleton.mp member, failed] at queued
      cases queued.2

omit [F32 R] in
theorem conflicts_empty (request : ClientCall R) : conflicts {} request = false := by
  cases request <;> rfl

theorem tokio_answers (srv : Server R) (tables : Tables R) {r : Running R} {request : Call R}
    {next : request.Answer → Program (Ingest R) (CoreResult RunJobOutcome)}
    (issued : r.rest = .call request next) :
    ∃ after, r.advance .tokio srv tables = some (.ok after) := by
  rw [Running.advance, issued]
  cases request with
  | env asked => exact ⟨_, rfl⟩
  | client asked =>
      rcases performed : Adapter.tokio.perform srv tables r.session.tx asked with e | ⟨answer, tx⟩
      · rw [Adapter.perform] at performed
        split at performed
        · cases performed
        · cases performed
      · simp only [Adapter.handler, performed]
        exact ⟨_, rfl⟩

theorem Serial.free (serial : Serial d base a b payload s) {w run : Nat} {job : ClaimedJob}
    {r : Running R} (held : s.processes w = some ⟨run, job, .working r⟩)
    (alone : ∀ v, v ≠ w → ¬ Underway s v) : s.waits d w = false := by
  have running : s.running w = some r := by rw [System.running, held]
  rw [System.waits, running, Option.any_some]
  apply List.any_eq_false.mpr
  intro v _ waiting
  rw [Bool.and_eq_true, Option.any_eq_true] at waiting
  rcases waiting with ⟨other, holder, held, waiting⟩
  rw [System.running] at held
  split at held
  · rename_i holderRun holderJob working elsewhere
    cases held
    have idle : underway holder.session = false := by
      rw [Bool.eq_false_iff]
      intro busy
      exact alone v (of_decide_eq_true other) ⟨holderRun, holderJob, holder, elsewhere, busy⟩
    have unwritten := serial.unwritten v holderRun holderJob holder elsewhere idle
    rw [Running.waitsFor] at waiting
    split at waiting
    · rw [unwritten, conflicts_empty, Bool.and_false] at waiting
      cases waiting
    · cases waiting
  · cases held

theorem Serial.worker_moves (serial : Serial d base a b payload s)
    (duplicates : Duplicates d queue base a b payload) {w : Nat} {process : Process R}
    (held : s.processes w = some process) (alone : ∀ v, v ≠ w → ¬ Underway s v) :
    ∃ action, Permitted d s action ∧ (step d s action).isSome ∧
      ∀ micros, action ≠ .advance micros := by
  rcases process with ⟨run, job, _ | r | _ | error⟩
  · refine ⟨.beginJob w, rfl, ?_, fun _ same => by cases same⟩
    simp only [step, held, Option.isSome_some]
  · rcases issued : r.rest with (e | outcome) | ⟨request, next⟩
    · rcases r with ⟨env, session, rest⟩
      cases issued
      exact (serial.delivers duplicates held).elim
    · rcases r with ⟨env, session, rest⟩
      cases issued
      refine ⟨.commit w, rfl, ?_, fun _ same => by cases same⟩
      simp only [step, held, Option.isSome_some]
    · have free := serial.free held alone
      rcases tokio_answers d.srv s.tables issued with ⟨after, advanced⟩
      refine ⟨.call w, ?_, ?_, fun _ same => by cases same⟩
      · have apart : (List.range d.workers).all (fun v => v = w || !s.underway v) = true := by
          apply List.all_eq_true.mpr
          intro v _
          by_cases here : v = w
          · simp [here]
          · have idle : s.underway v = false := by
              rw [Bool.eq_false_iff]
              exact fun busy => alone v here ((underway_iff s v).mp busy)
            rw [idle, Bool.not_false, Bool.or_true]
        rw [Permitted, checksApart, apart, Bool.or_true]
        rfl
      · simp only [step, held, free, advanced, Bool.false_eq_true, if_false, Option.isSome_some]
  · refine ⟨.complete w, rfl, ?_, fun _ same => by cases same⟩
    have synced := serial.sound.synced w
    rw [held] at synced
    rcases Option.map_eq_some_iff.mp synced with ⟨ex, executing, -⟩
    simp only [step, held, endCycle, Queue.step, executing, Option.map_some, Option.isSome_some]
  · exact absurd held (serial.going w run job error)

theorem Serial.moves (serial : Serial d base a b payload s)
    (duplicates : Duplicates d queue base a b payload) (workers : 0 < d.workers) :
    (∀ job ∈ s.queue.jobs, job.status = .completed) ∨ ∃ action, Permitted d s action ∧
      (step d s action).isSome ∧ ∀ micros, action ≠ .advance micros := by
  by_cases underway : ∃ w, Underway s w
  · rcases underway with ⟨w, busy⟩
    rcases busy with ⟨run, job, r, held, holds⟩
    have busy : Underway s w := ⟨run, job, r, held, holds⟩
    exact .inr (serial.worker_moves duplicates held
      (fun v other holds => other (serial.alone v w holds busy)))
  by_cases working : ∃ w process, s.processes w = some process
  · rcases working with ⟨w, process, held⟩
    exact .inr (serial.worker_moves duplicates held (fun v _ holds => underway ⟨v, holds⟩))
  by_cases finished : ∀ job ∈ s.queue.jobs, job.status = .completed
  · exact .inl finished
  right
  rcases not_forall.mp finished with ⟨job, finished⟩
  rcases Classical.not_imp.mp finished with ⟨member, unfinished⟩
  have queued : job.status = .queued := by
    rcases status : job.status with _ | _ | _ | _
    · rfl
    · rcases serial.owned job member status with ⟨w, process, held, -⟩
      exact absurd ⟨w, process, held⟩ working
    · exact absurd status unfinished
    · exact absurd status (serial.unfailed job member)
  have idle : s.queue.workers 0 = none := by
    have synced := serial.sound.synced 0
    rcases held : s.processes 0 with _ | process
    · rw [held] at synced
      exact Option.map_eq_none_iff.mp synced
    · exact absurd ⟨0, process, held⟩ working
  rcases Queue.claim_enabled serial.sound.accounted.unique idle member queued with
    ⟨next, present, queue, stepped⟩
  have returned : (queue.jobs.find? (fun row => row.id = next.id)).isSome := by
    rcases Queue.step_claim stepped with ⟨row, -, -, -, -, rfl⟩
    have ids : next.id ∈ (claimJob s.queue.now row.id s.queue.jobs).map JobRow.id := by
      rw [claimJob_ids]
      exact List.mem_map_of_mem present
    rcases List.mem_map.mp ids with ⟨claimed, stored, same⟩
    exact List.find?_isSome.mpr ⟨claimed, stored, decide_eq_true same⟩
  refine ⟨.claim 0 [] next.id, rfl, ?_, fun _ same => by cases same⟩
  rcases Option.isSome_iff_exists.mp returned with ⟨row, found⟩
  simp only [step, workers, if_true, stepped, Option.bind_some, found, Option.map_some,
    Option.isSome_some]

/-- Where no other namespace holds the content and every duplicate check is made while no other run
is underway, neither job fails, they do not get stuck, and once they are completed one document with
their content is stored. -/
theorem checks_apart_complete (d : Deployment R) (numbering : d.rt.chunkshop.Numbering)
    (workers : 0 < d.workers) (queue : Queue.System) (base : Tables R) (a b : JobRow)
    (payload : Bytes) (duplicates : Duplicates d queue base a b payload)
    (home : HeldAtHome d base a.ns payload) (actions : List Action)
    (permitted : Transition.Meets (step d) (Permitted d) { queue := queue, tables := base } actions)
    (s : System R)
    (finished : Transition.run (step d) { queue := queue, tables := base } actions = some s) :
    s.queue.jobs.map JobRow.submission = [a.submission, b.submission] ∧
    (∀ job ∈ s.queue.jobs, job.status ≠ .failed) ∧
    ((∀ job ∈ s.queue.jobs, job.status = .completed) ∨ ∃ action, Permitted d s action ∧
      (step d s action).isSome ∧ ∀ micros, action ≠ .advance micros) ∧
    ((∃ job ∈ s.queue.jobs, job.status = .completed) → ∃ doc,
      s.tables.documents.filter (duplicateOf d.rt payload) = [doc] ∧ doc.ns = a.ns ∧
        ((∃ job ∈ s.queue.jobs, Whole d s.tables job.submission doc) ∨
          Kept base s.tables doc)) := by
  have serial := Transition.run_invariant
    (fun _ _ _ serial permitted stepped => serial_step numbering duplicates serial permitted stepped)
    (duplicates.serial home) permitted finished
  refine ⟨serial.submitted, serial.unfailed, serial.moves duplicates workers, ?_⟩
  rintro ⟨job, member, completed⟩
  rcases serial.sound.completed job member completed with ⟨content, carries, doc, stored, -, same⟩
  have submitted := List.mem_map_of_mem (f := JobRow.submission) member
  rw [serial.submitted] at submitted
  have content : content = payload := by
    rcases List.mem_cons.mp submitted with first | second
    · have carried := (congrArg Submission.payload first).symm.trans carries
      exact Option.some.inj (carried.symm.trans duplicates.payloads.1)
    · have carried := (congrArg Submission.payload (List.mem_singleton.mp second)).symm.trans carries
      exact Option.some.inj (carried.symm.trans duplicates.payloads.2)
  have duplicate : duplicateOf d.rt payload doc = true := decide_eq_true (content ▸ same)
  have found : doc ∈ s.tables.documents.filter (duplicateOf d.rt payload) :=
    List.mem_filter.mpr ⟨stored, duplicate⟩
  refine ⟨doc, ?_, serial.located doc stored duplicate, ?_⟩
  · have single := serial.single
    rcases List.length_eq_one_iff.mp (Nat.le_antisymm single (List.length_pos_of_mem found)) with
      ⟨only, all⟩
    rw [all] at found ⊢
    rw [List.mem_singleton.mp found]
  · rcases serial.sound.documents doc stored with ⟨submission, present, whole⟩ | kept
    · rcases List.mem_map.mp present with ⟨row, stored, rfl⟩
      exact .inl ⟨row, stored, whole⟩
    · exact .inr kept

end Runs

def duplicateJob (id : Uuid) : JobRow where
  id := id
  status := .queued
  source := "a.md"
  ns := "docs"
  chunkStrategy := "auto"
  error := none
  attemptCount := 0
  payload := some "hello".toUTF8
  enqueuedAt := 0
  startedAt := none
  finishedAt := none
  updatedAt := 0

def twoDuplicates : System Milli where
  queue := { now := 0, jobs := [duplicateJob 1, duplicateJob 2] }
  tables := { namespaces := ["docs"] }

def checksApartRun : List Action :=
  ([.claim 0 [] 1, .claim 1 [1] 2, .beginJob 0, .beginJob 1] : List Action) ++
    List.replicate 8 (Action.call 0) ++
    ([.commit 0, .call 1, .commit 1, .complete 1, .complete 0] : List Action)

def checksTogetherRun : List Action :=
  ([.claim 0 [] 1, .claim 1 [1] 2, .beginJob 0, .beginJob 1, .call 0, .call 1] : List Action) ++
    List.replicate 7 (Action.call 0) ++ ([.commit 0, .complete 0] : List Action) ++
    List.replicate 6 (Action.call 1) ++ ([.rollback 1, .fail 1] : List Action)

theorem twoDuplicates_met : Duplicates twoWorkers twoDuplicates.queue twoDuplicates.tables
    (duplicateJob 1) (duplicateJob 2) "hello".toUTF8 where
  jobs := rfl
  queued := ⟨rfl, rfl⟩
  ns := rfl
  payloads := ⟨rfl, rfl⟩
  accounted := by
    refine ⟨by decide, ?_, ?_, ?_, ?_, List.nodup_nil, ?_⟩
    · intro job member
      rcases List.mem_cons.mp member with rfl | member
      · rfl
      · rw [List.mem_singleton.mp member]
        rfl
    · intro job member
      rcases List.mem_cons.mp member with rfl | member
      · exact Nat.zero_le 2
      · rw [List.mem_singleton.mp member]
        exact Nat.zero_le 2
    · exact fun _ claimed => absurd claimed List.not_mem_nil
    · exact fun _ claimed => absurd claimed List.not_mem_nil
    · intro w ex executing
      cases executing
  idle := fun _ => rfl
  fresh := fun _ _ => ⟨nofun, nofun, nofun⟩
  created := List.mem_cons_self
  single := Nat.zero_le 1
  untroubled := by
    have untroubled : ∀ id n, Untroubled twoWorkers.rt twoWorkers.srv (twoWorkers.env n).mocked
        (duplicateJob id).submission.request "hello".toUTF8
        [Chunk.ofRaw { seqNum := 0, embeddedContent := "hello" }] := fun id n =>
      { chunked := rfl
        embedded := fun _ => ⟨_, rfl, rfl⟩
        checked := rfl
        document := fun _ _ _ => rfl
        placed := fun _ _ _ _ _ _ _ => rfl }
    intro job member n
    rcases List.mem_cons.mp member with rfl | member
    · exact ⟨_, untroubled 1 n⟩
    · rw [List.mem_singleton.mp member]
      exact ⟨_, untroubled 2 n⟩

theorem checks_apart_complete_sample :
    ∃ s, Transition.run (step twoWorkers) twoDuplicates checksApartRun = some s ∧
      (∀ job ∈ s.queue.jobs, job.status ≠ .failed) ∧
      ∃ doc, s.tables.documents.filter (duplicateOf twoWorkers.rt "hello".toUTF8) = [doc] := by
  have finishes : ∃ s, Transition.run (step twoWorkers) twoDuplicates checksApartRun = some s ∧
      ∃ job ∈ s.queue.jobs, job.status = .completed := ⟨_, rfl, _, List.mem_cons_self, rfl⟩
  rcases finishes with ⟨s, finished, completed⟩
  have complete := checks_apart_complete twoWorkers twoWorkers_numbering (by decide) _ _ _ _ _
    twoDuplicates_met (fun _ stored => absurd stored List.not_mem_nil) checksApartRun
    (by decide +kernel) s finished
  rcases complete.2.2.2 completed with ⟨doc, one, -⟩
  exact ⟨s, finished, complete.2.1, doc, one⟩

/-- The loser of the race fails, although nobody disturbed it. -/
theorem checks_together_fail :
    Duplicates twoWorkers twoDuplicates.queue twoDuplicates.tables (duplicateJob 1)
      (duplicateJob 2) "hello".toUTF8 ∧
    (∀ action ∈ checksTogetherRun, action.undisturbed = true) ∧
    ∃ s, Transition.run (step twoWorkers) twoDuplicates checksTogetherRun = some s ∧
      s.queue.jobs.map JobRow.status = [.completed, .failed] :=
  ⟨twoDuplicates_met, by decide, _, rfl, rfl⟩

end PgRaggraph.Sidecar

import PgRaggraph.Core.Samples
import PgRaggraph.Sidecar.Attempt

/-! What the fleet has stored and finished in every reachable state, whatever crashes. -/

namespace PgRaggraph

def Submission.request (submission : Submission) : IngestRequest where
  source := rowToIngestSource submission.source submission.payload
  ns := submission.ns
  chunkStrategy := submission.chunkStrategy

theorem buildRequest_row (job : JobRow) :
    buildRequest (.ofRow job) = job.submission.request := rfl

theorem payload_carried (submission : Submission) {payload : Bytes}
    (carries : submission.payload = some payload) :
    Carries submission.request.source submission.source payload := by
  rw [Submission.request, carries, rowToIngestSource]
  split
  · rename_i text decoded
    refine ⟨rfl, ?_⟩
    rw [String.fromUTF8?] at decoded
    split at decoded
    · cases decoded
      rfl
    · cases decoded
  · exact ⟨rfl, rfl⟩

namespace Sidecar

open Interaction

variable {R : Type}

/-- One chunk row for each chunk that the chunker makes of the submitted payload, each with the
embedding of its text, and no other. -/
structure Whole (d : Deployment R) (tables : Tables R) (submission : Submission) (doc : DocRow) :
    Prop where
  ns : doc.ns = submission.ns
  contents : ∃ payload chunks embeddings chunkIds, submission.payload = some payload ∧
    doc.contentHash = contentHash d.rt payload ∧
    chunkSource d.rt submission.chunkStrategy payload = .ok chunks ∧
    (∃ run n, (d.env run).embedBatch n (chunks.map (·.text)) = .ok embeddings) ∧
    embeddings.length = chunks.length ∧ chunkIds.length = chunks.length ∧ chunkIds.Nodup ∧
    tables.chunks.filter (fun chunk => chunk.documentId = doc.id) =
      ((chunks.zip embeddings).zip chunkIds).map
        (fun item => chunkRow doc.id doc.ns item.1.1 item.1.2 item.2)

structure Kept (base tables : Tables R) (doc : DocRow) : Prop where
  stored : doc ∈ base.documents
  chunks : tables.chunks.filter (fun chunk => chunk.documentId = doc.id) =
    base.chunks.filter (fun chunk => chunk.documentId = doc.id)

def Published (rt : Runtime) (tables : Tables R) (ns : String) (payload : Bytes) : Prop :=
  ∃ doc ∈ tables.documents, doc.ns = ns ∧ doc.contentHash = contentHash rt payload

section Stage

variable [F32 R]

def Stage (d : Deployment R) (tables : Tables R) (run : Nat) (req : IngestRequest)
    (payload : Bytes) : Phase R → Prop
  | .claimed => FreshFor (d.env run).mocked tables
  | .working r => r.env = (d.env run).mocked ∧ FreshFor (d.env run).mocked tables ∧
      Program.wp (attempt d.srv (d.env run).mocked req.ns (contentHash d.rt payload)) r.rest
        (r.session, tables) (Outcome d.rt d.srv (d.env run).mocked req payload)
  | .committed => Published d.rt tables req.ns payload
  | .rolledBack _ => True

structure Progress (d : Deployment R) (s : System R) (process : Process R)
    (submission : Submission) (payload : Bytes) : Prop where
  submitted : submission ∈ s.queue.jobs.map JobRow.submission
  id : submission.id = process.job.id
  request : buildRequest process.job = submission.request
  carries : submission.payload = some payload
  stage : Stage d s.tables process.run submission.request payload process.phase

structure Sound (d : Deployment R) (base : Tables R) (s : System R) : Prop where
  accounted : Queue.Accounted s.queue
  carried : ∀ submission ∈ s.queue.jobs.map JobRow.submission, submission.payload.isSome
  synced : ∀ w, (s.queue.workers w).map Queue.Executing.job =
    (s.processes w).map (fun process => process.job.id)
  numbered : ∀ w process, s.processes w = some process → process.run < s.queue.claims.length
  apart : ∀ w v process other, s.processes w = some process → s.processes v = some other →
    process.run = other.run → w = v
  fresh : ∀ n, s.queue.claims.length ≤ n → FreshFor (d.env n).mocked s.tables
  progress : ∀ w process, s.processes w = some process →
    ∃ submission payload, Progress d s process submission payload
  documents : ∀ doc ∈ s.tables.documents,
    (∃ submission ∈ s.queue.jobs.map JobRow.submission, Whole d s.tables submission doc) ∨
      Kept base s.tables doc
  completed : ∀ job ∈ s.queue.jobs, job.status = .completed →
    ∃ payload, job.payload = some payload ∧ Published d.rt s.tables job.ns payload
  namespaces : s.tables.namespaces = base.namespaces

end Stage

theorem assign_process {s : System R} {w v : Nat} {new process : Process R}
    (held : s.assign w (some new) v = some process) :
    (v = w ∧ process = new) ∨ (v ≠ w ∧ s.processes v = some process) := by
  rw [System.assign] at held
  split at held
  · rename_i same
    exact .inl ⟨same, (Option.some.inj held).symm⟩
  · rename_i other
    exact .inr ⟨other, held⟩

theorem assign_other {s : System R} {w v : Nat} {process : Process R}
    (held : s.assign w none v = some process) : v ≠ w ∧ s.processes v = some process := by
  rw [System.assign] at held
  split at held
  · cases held
  · rename_i other
    exact ⟨other, held⟩

theorem Published.grown {rt : Runtime} {tables : Tables R} {ns : String} {payload : Bytes}
    (published : Published rt tables ns payload) (delta : Tables R) :
    Published rt (tables ++ delta) ns payload := by
  rcases published with ⟨doc, stored, same⟩
  exact ⟨doc, List.mem_append_left _ stored, same⟩

theorem chunks_apart {tables delta : Tables R} {id : Uuid}
    (apart : ∀ chunk ∈ delta.chunks, chunk.documentId ≠ id) :
    (tables ++ delta).chunks.filter (fun chunk => chunk.documentId = id) =
      tables.chunks.filter (fun chunk => chunk.documentId = id) := by
  have none_ : delta.chunks.filter (fun chunk => chunk.documentId = id) = [] := by
    apply List.filter_eq_nil_iff.mpr
    intro chunk member same
    exact apart chunk member (of_decide_eq_true same)
  rw [Tables.append_chunks, List.filter_append, none_, List.append_nil]

theorem Whole.grown {d : Deployment R} {tables delta : Tables R} {submission : Submission}
    {doc : DocRow} (whole : Whole d tables submission doc)
    (apart : ∀ chunk ∈ delta.chunks, chunk.documentId ≠ doc.id) :
    Whole d (tables ++ delta) submission doc := by
  rcases whole with ⟨ns, contents⟩
  refine ⟨ns, ?_⟩
  rw [chunks_apart apart]
  exact contents

theorem Kept.grown {base tables delta : Tables R} {doc : DocRow} (kept : Kept base tables doc)
    (apart : ∀ chunk ∈ delta.chunks, chunk.documentId ≠ doc.id) :
    Kept base (tables ++ delta) doc :=
  ⟨kept.stored, (chunks_apart apart).trans kept.chunks⟩

section Assembled

variable {d : Deployment R} {run : Nat} {req : IngestRequest} {payload : Bytes} {doc : DocRow}
  {chunks : List Chunk} {embeddings : List (List R)} {chunkIds : List Uuid}

theorem documentRows_parent (items : List (ChunkItem R)) :
    ∀ chunk ∈ (documentRows doc items).chunks, chunk.documentId = doc.id := by
  intro chunk member
  rcases List.mem_map.mp member with ⟨item, -, rfl⟩
  rfl

theorem Assembled.others_fresh
    (assembled : Assembled d.rt (d.env run).mocked req payload doc chunks embeddings chunkIds)
    {tables : Tables R} {m : Nat} (other : m ≠ run) (fresh : FreshFor (d.env m).mocked tables) :
    FreshFor (d.env m).mocked
      (tables ++ documentRows doc ((chunks.zip embeddings).zip chunkIds)) := by
  have unequal : ∀ id, Minted (d.env run).mocked id → ∀ k, id ≠ (d.env m).mocked.newUuid k := by
    intro id drawn k same
    rcases drawn with ⟨j, drawn⟩
    exact other (d.distinct _ _ _ _ (drawn.trans same)).symm
  constructor
  · intro stored member k
    rcases List.mem_append.mp member with old | new
    · exact fresh.documents stored old k
    · rw [List.mem_singleton.mp new]
      exact unequal _ assembled.document_drawn k
  · intro stored member k
    rcases List.mem_append.mp member with old | new
    · exact fresh.chunks stored old k
    · rcases List.mem_map.mp new with ⟨item, present, rfl⟩
      exact unequal _ (assembled.item_drawn present).2 k
  · intro stored member k
    rcases List.mem_append.mp member with old | new
    · exact fresh.parents stored old k
    · rw [documentRows_parent _ stored new]
      exact unequal _ assembled.document_drawn k

theorem Assembled.whole
    (assembled : Assembled d.rt (d.env run).mocked req payload doc chunks embeddings chunkIds)
    {tables : Tables R} (fresh : FreshFor (d.env run).mocked tables) {submission : Submission}
    (request : submission.request = req) (carries : submission.payload = some payload) :
    Whole d (tables ++ documentRows doc ((chunks.zip embeddings).zip chunkIds)) submission doc := by
  subst request
  have ready := assembled.ready
  rcases assembled.document_drawn with ⟨k, drawn⟩
  have earlier : tables.chunks.filter (fun chunk => chunk.documentId = doc.id) = [] := by
    apply List.filter_eq_nil_iff.mpr
    intro chunk member same
    exact fresh.parents chunk member k ((of_decide_eq_true same).trans drawn.symm)
  have all : (documentRows doc ((chunks.zip embeddings).zip chunkIds)).chunks.filter
      (fun chunk => chunk.documentId = doc.id) =
        (documentRows doc ((chunks.zip embeddings).zip chunkIds)).chunks := by
    apply List.filter_eq_self.mpr
    intro chunk member
    exact decide_eq_true (documentRows_parent _ chunk member)
  rcases assembled.embedded with ⟨n, embedded⟩
  refine ⟨ready.ns, payload, chunks, embeddings, chunkIds, carries, ready.contentHash,
    ready.chunked, ⟨run, n, embedded⟩, ready.embedded, ready.counted, assembled.distinct, ?_⟩
  rw [Tables.append_chunks, List.filter_append, earlier, all]
  rfl

end Assembled

variable [F32 R] {d : Deployment R} {base : Tables R} {s : System R}

theorem Stage.grown {tables : Tables R} {run : Nat} {req : IngestRequest} {payload : Bytes}
    {phase : Phase R} (stage : Stage d tables run req payload phase) {delta : Tables R}
    (unnamed : delta.namespaces = [])
    (fresh : FreshFor (d.env run).mocked tables → FreshFor (d.env run).mocked (tables ++ delta)) :
    Stage d (tables ++ delta) run req payload phase := by
  cases phase with
  | claimed => exact fresh stage
  | working r =>
      rcases stage with ⟨env, unspent, holds⟩
      refine ⟨env, fresh unspent, ?_⟩
      apply Program.wp_moved (fun _ _ _ near far => near.trans far) r.rest (r.session, tables)
      · intro result state moved along outcome
        exact outcome_moved along outcome
      · exact ⟨rfl, ⟨delta, rfl, unnamed⟩, fresh unspent⟩
      · exact holds
  | committed => exact Published.grown stage delta
  | rolledBack error => trivial

theorem Progress.reached {process : Process R} {submission : Submission} {payload : Bytes}
    (progress : Progress d s process submission payload) {next : System R} {phase : Phase R}
    (submitted : submission ∈ next.queue.jobs.map JobRow.submission)
    (stage : Stage d next.tables process.run submission.request payload phase) :
    Progress d next { process with phase := phase } submission payload where
  submitted := submitted
  id := progress.id
  request := progress.request
  carries := progress.carries
  stage := stage

theorem Sound.finished (sound : Sound d base s) {sent : Queue.Action} {queue : Queue.System}
    (stepped : Queue.step s.queue sent = some queue)
    (finalised : ∀ w, sent = .complete w →
      ∃ run job, s.processes w = some ⟨run, job, .committed⟩) {job : JobRow}
    (member : job ∈ queue.jobs) (completed : job.status = .completed) :
    ∃ payload, job.payload = some payload ∧ Published d.rt s.tables job.ns payload := by
  rcases Queue.step_terminal stepped member (by simp [JobRow.terminal, completed]) with
    ⟨old, before, same, status⟩ | ⟨w, ex, executing, owned, ended⟩ | ⟨secs, -, failed⟩
  · have earlier := sound.completed old before (status.trans completed)
    rw [show old.payload = job.payload from congrArg Submission.payload same,
      show old.ns = job.ns from congrArg Submission.ns same] at earlier
    exact earlier
  · rcases ended with ⟨completes, -⟩ | ⟨error, -, failed⟩
    · rcases finalised w completes with ⟨run, claimed, held⟩
      rcases sound.progress w _ held with ⟨submission, payload, progress⟩
      have synced := sound.synced w
      rw [executing, held] at synced
      have same : submission.id = job.id :=
        (progress.id.trans (Option.some.inj synced).symm).trans owned.symm
      subst completes
      have submissions : queue.jobs.map JobRow.submission =
          s.queue.jobs.map JobRow.submission ++ [] := Queue.step_submissions stepped
      have present := List.mem_map_of_mem (f := JobRow.submission) member
      rw [submissions, List.append_nil] at present
      rcases List.mem_map.mp present with ⟨old, before, submitted⟩
      rcases List.mem_map.mp progress.submitted with ⟨row, stored, rfl⟩
      have equal : row = old := row_unique sound.accounted.unique stored before
        (same.trans (congrArg Submission.id submitted).symm)
      rw [equal, submitted] at progress
      exact ⟨payload, progress.carries, progress.stage⟩
    · rw [completed] at failed
      cases failed
  · rw [completed] at failed
    cases failed

theorem Sound.sent (sound : Sound d base s) {sent : Queue.Action} {queue : Queue.System}
    (stepped : Queue.step s.queue sent = some queue)
    (carried : ∀ row ∈ sent.submitted, row.payload.isSome)
    (finalised : ∀ w, sent = .complete w →
      ∃ run job, s.processes w = some ⟨run, job, .committed⟩)
    (claims : s.queue.claims.length ≤ queue.claims.length)
    {processes : Nat → Option (Process R)}
    (synced : ∀ w, (queue.workers w).map Queue.Executing.job =
      (processes w).map (fun process => process.job.id))
    (numbered : ∀ w process, processes w = some process → process.run < queue.claims.length)
    (apart : ∀ w v process other, processes w = some process → processes v = some other →
      process.run = other.run → w = v)
    (progress : ∀ w process, processes w = some process → s.processes w = some process ∨
      ∃ submission payload,
        Progress d { s with queue := queue, processes := processes } process submission payload) :
    Sound d base { s with queue := queue, processes := processes } := by
  have submissions := Queue.step_submissions stepped
  have stays : ∀ submission ∈ s.queue.jobs.map JobRow.submission,
      submission ∈ queue.jobs.map JobRow.submission := by
    intro submission member
    rw [submissions]
    exact List.mem_append_left _ member
  refine ⟨Queue.accounted_step sound.accounted sent stepped, ?_, synced, numbered, apart, ?_, ?_, ?_,
    fun job member completed => sound.finished stepped finalised member completed,
    sound.namespaces⟩
  · intro submission member
    rw [submissions] at member
    rcases List.mem_append.mp member with old | new
    · exact sound.carried submission old
    · exact carried submission new
  · intro n unspent
    exact sound.fresh n (claims.trans unspent)
  · intro w process held
    rcases progress w process held with before | new
    · rcases sound.progress w process before with ⟨submission, payload, progress⟩
      exact ⟨submission, payload, progress.reached (stays _ progress.submitted) progress.stage⟩
    · exact new
  · intro doc stored
    rcases sound.documents doc stored with ⟨submission, member, whole⟩ | kept
    · exact .inl ⟨submission, stays submission member, whole⟩
    · exact .inr kept

theorem Sound.queue (sound : Sound d base s) {sent : Queue.Action} {queue : Queue.System}
    (stepped : Queue.step s.queue sent = some queue) (unowned : sent.worker = none)
    (carried : ∀ row ∈ sent.submitted, row.payload.isSome) :
    Sound d base { s with queue := queue } := by
  have workers := Queue.step_unowned stepped unowned
  apply sound.sent stepped carried
  · rintro w rfl
    cases unowned
  · rw [workers.1]
  · intro w
    rw [workers.2 w]
    exact sound.synced w
  · rw [workers.1]
    exact sound.numbered
  · exact sound.apart
  · intro w process held
    exact .inl held

theorem Sound.claim (sound : Sound d base s) {w : Nat} {locked : List Uuid} {id : Uuid}
    {queue : Queue.System} (stepped : Queue.step s.queue (.claim w locked id) = some queue)
    {row : JobRow} (stored : row ∈ queue.jobs) (same : row.id = id) :
    Sound d base { s with
      queue := queue
      processes := s.assign w
        (some { run := s.queue.claims.length, job := .ofRow row, phase := .claimed }) } := by
  have submissions : queue.jobs.map JobRow.submission =
      s.queue.jobs.map JobRow.submission ++ [] := Queue.step_submissions stepped
  rcases Queue.step_claim stepped with ⟨job, -, claimed, -, -, rfl⟩
  apply sound.sent stepped
  · exact nofun
  · exact nofun
  · exact Nat.le_succ _
  · intro v
    by_cases here : v = w
    · simp [here, Queue.System.assign, System.assign, ClaimedJob.ofRow, same, claimed]
    · simpa [here, Queue.System.assign, System.assign] using sound.synced v
  · intro v process held
    rcases assign_process held with ⟨-, rfl⟩ | ⟨-, before⟩
    · exact Nat.lt_succ_self _
    · exact Nat.lt_succ_of_lt (sound.numbered v process before)
  · intro v u process other first second run
    rcases assign_process first with ⟨here, rfl⟩ | ⟨-, first⟩
    · rcases assign_process second with ⟨there, -⟩ | ⟨-, second⟩
      · exact here.trans there.symm
      · have earlier := sound.numbered u other second
        dsimp only at run
        omega
    · rcases assign_process second with ⟨-, rfl⟩ | ⟨-, second⟩
      · have earlier := sound.numbered v process first
        dsimp only at run
        omega
      · exact sound.apart v u process other first second run
  · intro v process held
    rcases assign_process held with ⟨-, rfl⟩ | ⟨-, before⟩
    · have submitted := List.mem_map_of_mem (f := JobRow.submission) stored
      have earlier := submitted
      rw [submissions, List.append_nil] at earlier
      rcases Option.isSome_iff_exists.mp (sound.carried _ earlier) with ⟨payload, carries⟩
      exact .inr ⟨row.submission, payload, submitted, rfl, rfl, carries,
        sound.fresh _ (Nat.le_refl _)⟩
    · exact .inl before

theorem Sound.ended (sound : Sound d base s) {sent : Queue.Action} {queue : Queue.System} {w : Nat}
    (stepped : Queue.step s.queue sent = some queue) (ends : sent.ends = some w)
    (finalised : sent = .complete w → ∃ run job, s.processes w = some ⟨run, job, .committed⟩) :
    Sound d base { s with queue := queue, processes := s.assign w none } := by
  rcases Queue.step_ended stepped ends with ⟨claims, workers, submitted⟩
  apply sound.sent stepped
  · rw [submitted]
    exact nofun
  · rintro v rfl
    cases ends
    exact finalised rfl
  · rw [claims]
  · intro v
    rw [workers]
    by_cases here : v = w
    · simp [here, Queue.System.assign, System.assign]
    · simpa [here, Queue.System.assign, System.assign] using sound.synced v
  · intro v process held
    rw [claims]
    exact sound.numbered v process (assign_other held).2
  · intro v u process other first second run
    exact sound.apart v u process other (assign_other first).2 (assign_other second).2 run
  · intro v process held
    exact .inl (assign_other held).2

omit [F32 R] in
theorem assigned_runs {w run : Nat} {job : ClaimedJob} {phase : Phase R}
    (held : s.processes w = some ⟨run, job, phase⟩) (next : Phase R) {v : Nat} {process : Process R}
    (assigned : s.assign w (some ⟨run, job, next⟩) v = some process) :
    ∃ before, s.processes v = some before ∧ process.run = before.run := by
  rcases assign_process assigned with ⟨rfl, rfl⟩ | ⟨-, before⟩
  · exact ⟨_, held, rfl⟩
  · exact ⟨process, before, rfl⟩

theorem Sound.continued (sound : Sound d base s) {w run : Nat} {job : ClaimedJob}
    {phase next : Phase R} (held : s.processes w = some ⟨run, job, phase⟩) {delta : Tables R}
    (unnamed : delta.namespaces = [])
    (others : ∀ m, m ≠ run → FreshFor (d.env m).mocked s.tables →
      FreshFor (d.env m).mocked (s.tables ++ delta))
    (apart : ∀ doc ∈ s.tables.documents, ∀ chunk ∈ delta.chunks, chunk.documentId ≠ doc.id)
    (added : ∀ doc ∈ delta.documents, ∃ submission ∈ s.queue.jobs.map JobRow.submission,
      Whole d (s.tables ++ delta) submission doc)
    {submission : Submission} {payload : Bytes}
    (progress : Progress d s ⟨run, job, phase⟩ submission payload)
    (staged : Stage d (s.tables ++ delta) run submission.request payload next) :
    Sound d base { s with
      tables := s.tables ++ delta
      processes := s.assign w (some ⟨run, job, next⟩) } := by
  refine ⟨sound.accounted, sound.carried, ?_, ?_, ?_, ?_, ?_, ?_, ?_, ?_⟩
  · intro v
    by_cases here : v = w
    · have synced := sound.synced w
      rw [held] at synced
      simpa [here, System.assign] using synced
    · simpa [here, System.assign] using sound.synced v
  · intro v process assigned
    rcases assigned_runs held next assigned with ⟨before, earlier, same⟩
    rw [same]
    exact sound.numbered v before earlier
  · intro v u process other first second same
    rcases assigned_runs held next first with ⟨before, earlier, run⟩
    rcases assigned_runs held next second with ⟨otherBefore, otherEarlier, otherRun⟩
    exact sound.apart v u before otherBefore earlier otherEarlier
      (run.symm.trans (same.trans otherRun))
  · intro n unspent
    have started := sound.numbered w _ held
    exact others n (by dsimp only at started unspent; omega) (sound.fresh n unspent)
  · intro v process assigned
    rcases assign_process assigned with ⟨-, rfl⟩ | ⟨elsewhere, before⟩
    · exact ⟨submission, payload, progress.submitted, progress.id, progress.request,
        progress.carries, staged⟩
    · rcases sound.progress v process before with ⟨submission, payload, progress⟩
      refine ⟨submission, payload, progress.submitted, progress.id, progress.request,
        progress.carries, progress.stage.grown unnamed (others process.run ?_)⟩
      intro same
      exact elsewhere (sound.apart v w process _ before held same)
  · intro doc stored
    rcases List.mem_append.mp stored with old | new
    · rcases sound.documents doc old with ⟨submission, member, whole⟩ | kept
      · exact .inl ⟨submission, member, whole.grown (apart doc old)⟩
      · exact .inr (kept.grown (apart doc old))
    · exact .inl (added doc new)
  · intro row member completed
    rcases sound.completed row member completed with ⟨payload, carries, published⟩
    exact ⟨payload, carries, published.grown delta⟩
  · rw [Tables.append_namespaces, unnamed, List.append_nil]
    exact sound.namespaces

theorem Sound.staged (sound : Sound d base s) {w run : Nat} {job : ClaimedJob}
    {phase next : Phase R} (held : s.processes w = some ⟨run, job, phase⟩)
    {submission : Submission} {payload : Bytes}
    (progress : Progress d s ⟨run, job, phase⟩ submission payload)
    (staged : Stage d s.tables run submission.request payload next) :
    Sound d base { s with processes := s.assign w (some ⟨run, job, next⟩) } := by
  have same := Tables.append_empty s.tables
  have continued : Sound d base { s with
      tables := s.tables ++ {}, processes := s.assign w (some ⟨run, job, next⟩) } := by
    apply sound.continued held rfl
    · rw [same]
      exact fun _ _ fresh => fresh
    · exact fun _ _ => nofun
    · exact nofun
    · exact progress
    · rw [same]
      exact staged
  rw [same] at continued
  exact continued

theorem Sound.committed (sound : Sound d base s) {w run : Nat} {job : ClaimedJob}
    {env : Environment R} {session : Session R} {outcome : RunJobOutcome}
    (held : s.processes w = some ⟨run, job, .working ⟨env, session, .done (.ok outcome)⟩⟩) :
    Sound d base { s with
      tables := s.tables ++ session.tx.own
      processes := s.assign w (some ⟨run, job, .committed⟩) } := by
  rcases sound.progress w _ held with ⟨submission, payload, progress⟩
  rcases progress.stage with ⟨-, fresh, delivered⟩
  rcases delivered with ⟨doc, chunks, embeddings, chunkIds, assembled, -, own⟩ | ⟨own, stored⟩
  · rw [own]
    apply sound.continued held rfl
    · intro m other unspent
      exact assembled.others_fresh other unspent
    · intro other stored chunk member same
      rcases assembled.document_drawn with ⟨k, drawn⟩
      rw [documentRows_parent _ chunk member] at same
      exact fresh.documents other stored k (same.symm.trans drawn.symm)
    · intro added member
      rw [List.mem_singleton.mp member]
      exact ⟨submission, progress.submitted, assembled.whole fresh rfl progress.carries⟩
    · exact progress
    · exact ⟨doc, List.mem_append_right _ (List.mem_singleton_self doc), assembled.ready.ns,
        assembled.ready.contentHash⟩
  · rw [own, Tables.append_empty]
    exact sound.staged held progress stored

theorem Sound.begun (sound : Sound d base s) (numbering : d.rt.chunkshop.Numbering) {w run : Nat}
    {job : ClaimedJob} (held : s.processes w = some ⟨run, job, .claimed⟩) :
    Sound d base { s with processes := s.assign w (some ⟨run, job, .working
      { env := (d.env run).mocked, rest := (runJob d.rt (buildRequest job)).run }⟩) } := by
  rcases sound.progress w _ held with ⟨submission, payload, progress⟩
  refine sound.staged held progress ⟨rfl, progress.stage, ?_⟩
  have request : buildRequest job = submission.request := progress.request
  rw [request]
  exact attempt_run (payload_carried submission progress.carries)
    (fun _ chunked => chunkSource_ords numbering chunked) s.tables

theorem Sound.called (sound : Sound d base s) {w run : Nat} {job : ClaimedJob}
    {r after : Running R} (held : s.processes w = some ⟨run, job, .working r⟩)
    (advanced : r.advance .tokio d.srv s.tables = some (.ok after)) :
    Sound d base { s with processes := s.assign w (some ⟨run, job, .working after⟩) } := by
  rcases sound.progress w _ held with ⟨submission, payload, progress⟩
  rcases progress.stage with ⟨env, fresh, holds⟩
  rcases advance_ok advanced with ⟨request, next, answer, session, issued, answered, rfl⟩
  rw [issued] at holds
  rw [env] at answered
  exact sound.staged held progress
    ⟨env, fresh, (attempt_answered _ _ _ _ fresh holds answered).2⟩

theorem sound_step (numbering : d.rt.chunkshop.Numbering) {after : System R} {action : Action}
    (sound : Sound d base s) (stepped : step d s action = some after) : Sound d base after := by
  cases step_moves stepped with
  | queue _ sent queue outside moved =>
      exact sound.queue moved (outside_unowned outside).1 (outside_unowned outside).2
  | claim w locked id queue row _ moved stored same => exact sound.claim moved stored same
  | beginJob w run job held => exact sound.begun numbering held
  | call w run job r next held _ advanced => exact sound.called held advanced
  | commit w run job env session outcome held => exact sound.committed held
  | rollback w run job env session e held =>
      rcases sound.progress w _ held with ⟨submission, payload, progress⟩
      exact sound.staged held progress trivial
  | complete w run job queue held moved => exact sound.ended moved rfl (fun _ => ⟨run, job, held⟩)
  | fail w run job error queue held moved => exact sound.ended moved rfl nofun
  | crash w queue moved => exact sound.ended moved rfl nofun

theorem sound_run (numbering : d.rt.chunkshop.Numbering) {last : System R} {actions : List Action}
    (sound : Sound d base s) (finished : Transition.run (step d) s actions = some last) :
    Sound d base last :=
  Transition.run_invariant (fun _ _ _ sound _ stepped => sound_step numbering sound stepped) sound
    (Transition.meets_always (step d) (fun _ _ => trivial) s actions) finished

theorem Sound.initial {queue : Queue.System} (accounted : Queue.Accounted queue)
    (carried : ∀ job ∈ queue.jobs, job.payload.isSome) (idle : ∀ w, queue.workers w = none)
    (unfinished : ∀ job ∈ queue.jobs, job.status ≠ .completed)
    (fresh : ∀ n, queue.claims.length ≤ n → FreshFor (d.env n) base) :
    Sound d base { queue := queue, tables := base } where
  accounted := accounted
  carried := by
    intro submission member
    rcases List.mem_map.mp member with ⟨job, stored, rfl⟩
    exact carried job stored
  synced := by
    intro w
    rw [idle w]
    rfl
  numbered := by
    intro w process held
    cases held
  apart := by
    intro w v process other held
    cases held
  fresh := fun n unspent =>
    ⟨(fresh n unspent).documents, (fresh n unspent).chunks, (fresh n unspent).parents⟩
  progress := by
    intro w process held
    cases held
  documents := fun doc stored => .inr ⟨stored, rfl⟩
  completed := fun job stored completed => absurd completed (unfinished job stored)
  namespaces := rfl

omit [F32 R] in
theorem Whole.chunked {tables : Tables R} {submission : Submission} {doc : DocRow}
    (whole : Whole d tables submission doc) :
    ∃ chunk ∈ tables.chunks, chunk.documentId = doc.id := by
  rcases whole.contents with
    ⟨payload, chunks, embeddings, chunkIds, -, -, chunked, -, embedded, counted, -, rows⟩
  have length := congrArg List.length rows
  rw [List.length_map, List.length_zip, List.length_zip, embedded, counted, min_self, min_self]
    at length
  have nonempty := List.length_pos_iff.mpr (chunkSource_nonempty chunked)
  rw [← length] at nonempty
  rcases List.exists_mem_of_length_pos nonempty with ⟨chunk, member⟩
  rcases List.mem_filter.mp member with ⟨stored, same⟩
  exact ⟨chunk, stored, of_decide_eq_true same⟩

/-- In every state that a fleet reaches, whatever crashes: a stored document has its chunks and
embeddings, exactly those of its job, and a completed job has its document. -/
theorem fleet_complete (d : Deployment R) (numbering : d.rt.chunkshop.Numbering) (now : Int)
    (namespaces : List String) (actions : List Action) (s : System R)
    (finished : Transition.run (step d)
      { queue := { now := now }, tables := { namespaces := namespaces } } actions = some s) :
    (∀ doc ∈ s.tables.documents, (∃ chunk ∈ s.tables.chunks, chunk.documentId = doc.id) ∧
      ∃ job ∈ s.queue.jobs, Whole d s.tables job.submission doc) ∧
    ∀ job ∈ s.queue.jobs, job.status = .completed → ∃ payload, job.payload = some payload ∧
      ∃ doc ∈ s.tables.documents, doc.ns = job.ns ∧ doc.contentHash = contentHash d.rt payload := by
  have initial : Sound d { namespaces := namespaces }
      { queue := { now := now }, tables := { namespaces := namespaces } } := by
    apply Sound.initial (.initial now)
    · exact fun _ stored => absurd stored List.not_mem_nil
    · exact fun _ => rfl
    · exact fun _ stored => absurd stored List.not_mem_nil
    · exact fun _ _ => ⟨nofun, nofun, nofun⟩
  have sound := sound_run numbering initial finished
  refine ⟨?_, sound.completed⟩
  intro doc stored
  rcases sound.documents doc stored with ⟨submission, member, whole⟩ | kept
  · rcases List.mem_map.mp member with ⟨job, present, rfl⟩
    exact ⟨whole.chunked, job, present, whole⟩
  · cases kept.stored

def twoWorkers : Deployment Milli where
  rt := .plain
  srv := .plain Milli
  workers := 2
  env n := .numbered n (fun _ => .ok {})
  distinct _ _ _ _ := Environment.numbered_distinct

/-- The first attempt crashes before its commit and the second after it; the third completes. -/
def crashingRun : List Action :=
  ([.enqueue 7 "a.md" "docs" "auto" "hello".toUTF8, .claim 0 [] 7, .beginJob 0] : List Action) ++
    List.replicate 6 (Action.call 0) ++
    ([.crash 0, .advance 301000000, .reapRequeue 300] : List Action) ++
    ([.claim 1 [] 7, .beginJob 1] : List Action) ++ List.replicate 8 (Action.call 1) ++
    ([.commit 1, .crash 1, .advance 301000000, .reapRequeue 300] : List Action) ++
    ([.claim 0 [] 7, .beginJob 0, .call 0, .commit 0, .complete 0] : List Action)

theorem twoWorkers_numbering : twoWorkers.rt.chunkshop.Numbering := by
  have single : ∀ text, Numbered [{ seqNum := 0, embeddedContent := text }] :=
    fun _ => ⟨List.nodup_singleton _, by simp⟩
  constructor
  · exact single
  · exact single
  · intro chunker built
    cases built
    exact single
  · exact single

theorem fleet_complete_sample : ∃ s, Transition.run (step twoWorkers)
      { queue := { now := 0 }, tables := { namespaces := ["docs"] } } crashingRun = some s ∧
    (∀ doc ∈ s.tables.documents, ∃ chunk ∈ s.tables.chunks, chunk.documentId = doc.id) ∧
    ∃ job ∈ s.queue.jobs, job.status = .completed ∧ ∃ payload, job.payload = some payload ∧
      ∃ doc ∈ s.tables.documents, doc.ns = job.ns ∧
        doc.contentHash = contentHash twoWorkers.rt payload := by
  have finishes : ∃ s, Transition.run (step twoWorkers)
      { queue := { now := 0 }, tables := { namespaces := ["docs"] } } crashingRun = some s ∧
      ∃ job ∈ s.queue.jobs, job.status = .completed := ⟨_, rfl, _, List.mem_cons_self, rfl⟩
  rcases finishes with ⟨s, finished, job, member, completed⟩
  have complete := fleet_complete twoWorkers twoWorkers_numbering 0 ["docs"] crashingRun s finished
  exact ⟨s, finished, fun doc stored => (complete.1 doc stored).1, job, member, completed,
    complete.2 job member completed⟩

end Sidecar

end PgRaggraph

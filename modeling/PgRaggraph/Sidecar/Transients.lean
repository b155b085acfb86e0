import PgRaggraph.Core.LlmClients
import PgRaggraph.Core.Retry
import PgRaggraph.Library.Faults
import PgRaggraph.Sidecar.Parity

/-! LLM calls whose first responses are transient failures. No factory wraps what it builds in a
`RetryingProvider`. -/

namespace PgRaggraph

open Interaction Interaction.Fallible Faulting

variable {R : Type}

structure Outage (R : Type) where
  env : Environment R
  reply : Nat → String → String → CoreResult (Extraction R)
  calm : Nat → Prop
  alike : ∀ n, calm n → reply n = env.extract n
  failed : ∀ n text ns, ¬ calm n → ∃ m, reply n text ns = .error (.http m)
  extracted : ∀ n text ns m, env.extract n text ns ≠ .error (.http m)
  embedded : ∀ n texts m, env.embedBatch n texts ≠ .error (.http m)

def calmCall (calm : Nat → Prop) (request : Call R) (session : Session R) : Prop :=
  match request with
  | .env (.extract _ _) => calm session.tick
  | _ => True

namespace Outage

def troubled (outage : Outage R) : Environment R := { outage.env with extract := outage.reply }

variable [F32 R]

def faults (outage : Outage R) (srv : Server R) (committed : Tables R) :
    Faulting (Ingest R) (Session R) PgError CoreError where
  sound := Adapter.spi.handler srv outage.env committed
  faulty := Adapter.spi.handler srv outage.troubled committed
  calm := calmCall outage.calm
  fault e := ∃ m, e = .http m
  alike := by
    intro request session calm
    cases request with
    | client request => rfl
    | env request =>
        cases request with
        | extract text ns =>
            have same := outage.alike session.tick calm
            simp only [Adapter.handler, Environment.answer, troubled, same]
        | _ => rfl

variable {outage : Outage R} {srv : Server R} {committed : Tables R}

theorem not_fault {e : CoreError} (other : ∀ m, e ≠ .http m) :
    ¬ (outage.faults srv committed).fault e := by
  rintro ⟨m, same⟩
  exact other m same

theorem surfaces_client (request : ClientCall R) : (outage.faults srv committed).Surfaces
    (ExceptT.mk (Program.perform (S := Ingest R) (.client request)) : Job R request.Value) := by
  refine Surfaces.perform (S := Ingest R) (.client request) id ?_ (fun _ => .inl trivial)
  intro session answer after e answered failed
  simp only [faults, Adapter.handler] at answered
  split at answered
  · rename_i returned tx performed
    rcases spi_answers performed with ⟨value, rfl, -⟩
    cases answered
    cases failed
  · cases answered

theorem surfaces_embedBatch (texts : List String) :
    (outage.faults srv committed).Surfaces (embedBatch texts) := by
  refine Surfaces.perform (S := Ingest R) (.env (.embedBatch texts)) id ?_ (fun _ => .inl trivial)
  intro session answer after e answered failed
  cases answered
  apply not_fault
  intro m same
  rw [same] at failed
  exact outage.embedded session.tick texts m failed

theorem surfaces_extract (chunkText ns : String) :
    (outage.faults srv committed).Surfaces (extract chunkText ns) := by
  refine Surfaces.perform (S := Ingest R) (.env (.extract chunkText ns)) id ?_ ?_
  · intro session answer after e answered failed
    cases answered
    apply not_fault
    intro m same
    rw [same] at failed
    exact outage.extracted session.tick chunkText ns m failed
  · intro session
    by_cases calm : outage.calm session.tick
    · exact .inl calm
    · rcases outage.failed session.tick chunkText ns calm with ⟨m, failed⟩
      exact .inr ⟨_, _, .http m, rfl, failed, m, rfl⟩

theorem surfaces_newUuid :
    (outage.faults srv committed).Surfaces (ExceptT.lift newUuid : Job R Uuid) :=
  .lift (fun _ => ⟨trivial, trivial⟩)

theorem surfaces_invalidConfig {α : Type} (message : String) :
    (outage.faults srv committed).Surfaces (throw (.invalidConfig message) : Job R α) := by
  apply Surfaces.throw
  apply not_fault
  intro m same
  cases same

theorem surfaces_readSource (source : IngestSource) :
    (outage.faults srv committed).Surfaces (readSource (R := R) source) := by
  cases source with
  | path path =>
      have read : (outage.faults srv committed).Surfaces
          (ExceptT.lift (readFile path) : Job R (Except String Bytes)) :=
        .lift (fun _ => ⟨trivial, trivial⟩)
      apply read.bind
      intro answer
      cases answer with
      | ok bytes => exact .pure _
      | error e => exact surfaces_invalidConfig _
  | text name content => exact .pure _
  | bytes name bytes => exact .pure _

omit [F32 R] in
theorem chunk_error {shop : Chunkshop} {strategy : ChunkStrategy} {text : String} {e : CoreError}
    (failed : Chunker.chunk shop strategy text = .error e) : ∃ message, e = .invalidConfig message := by
  cases strategy with
  | auto => cases failed
  | hierarchy => cases failed
  | semantic =>
      cases failed
      exact ⟨_, rfl⟩
  | sentenceAware => cases failed
  | fixedOverlap =>
      rw [Chunker.chunk] at failed
      split at failed
      · cases failed
      · cases failed
        exact ⟨_, rfl⟩
  | neighborExpand => cases failed

omit [F32 R] in
theorem chunkSource_error {rt : Runtime} {strategy : String} {bytes : Bytes} {e : CoreError}
    (failed : chunkSource rt strategy bytes = .error e) : ∃ message, e = .invalidConfig message := by
  rw [chunkSource] at failed
  split at failed
  · cases failed
    exact ⟨_, rfl⟩
  · split at failed
    · rename_i chunked
      cases failed
      exact chunk_error chunked
    · cases failed
      exact ⟨_, rfl⟩
    · cases failed

theorem undisturbed_newUuids (chunks : List Chunk) (session : Session R) :
    (outage.faults srv committed).Undisturbed (newUuids chunks) session := by
  induction chunks generalizing session with
  | nil => trivial
  | cons chunk rest ih =>
      have first : (outage.faults srv committed).Undisturbed newUuid session :=
        ⟨trivial, trivial⟩
      apply first.bind
      intro id after _
      exact (ih after).bind (fun _ _ _ => trivial)

theorem surfaces_prepareJob (rt : Runtime) (req : IngestRequest) :
    (outage.faults srv committed).Surfaces (prepareJob rt req) := by
  rw [prepareJob]
  apply (surfaces_readSource req.source).bind
  rintro ⟨sourceName, bytes⟩
  apply (surfaces_client (.documentExistsByHash req.ns (contentHash rt bytes))).bind
  intro found
  cases found with
  | true => exact .pure _
  | false =>
      refine Surfaces.bind (Surfaces.ofExcept ?_) ?_
      · intro e failed
        rcases chunkSource_error failed with ⟨message, rfl⟩
        apply not_fault
        intro m same
        cases same
      intro chunks
      have embeds : (outage.faults srv committed).Surfaces (embedChunks chunks) := by
        rw [embedChunks]
        apply (surfaces_embedBatch _).bind
        intro embeddings
        by_cases counted : embeddings.length ≠ chunks.length
        · rw [if_pos counted]
          exact surfaces_invalidConfig _
        · rw [if_neg counted]
          exact .pure _
      apply embeds.bind
      intro embeddings
      have drawn : (outage.faults srv committed).Surfaces
          (ExceptT.lift (newUuids chunks) : Job R (List Uuid)) := .lift (undisturbed_newUuids chunks)
      apply drawn.bind
      intro chunkIds
      apply surfaces_newUuid.bind
      intro docId
      exact .pure _

theorem surfaces_resolveOrInsertEntity (ns name : String) (kind : Option String) (emb : List R)
    (description : Option String) : (outage.faults srv committed).Surfaces
      (resolveOrInsertEntity ns name kind emb description) := by
  rw [resolveOrInsertEntity]
  apply (surfaces_client (.fuzzyMatchEntity ns name trgmCandidateLimit)).bind
  intro cands
  cases cands.find? (clears emb) with
  | some c => exact .pure _
  | none =>
      apply surfaces_newUuid.bind
      intro id
      exact (surfaces_client _).bind (fun _ => .pure _)

theorem surfaces_persistEntity (ns : String) (chunkId : Uuid) (nameToId : List (String × Uuid))
    (ent : ExtractedEntity R) : (outage.faults srv committed).Surfaces
      (persistEntity ns chunkId nameToId ent) := by
  rw [persistEntity]
  apply (surfaces_embedBatch [ent.name]).bind
  intro vectors
  cases vectors with
  | nil => exact surfaces_invalidConfig _
  | cons nameEmb rest =>
      apply (surfaces_resolveOrInsertEntity ns ent.name ent.kind nameEmb ent.description).bind
      intro entityId
      exact (surfaces_client _).bind (fun _ => .pure _)

theorem surfaces_persistRelationship (ns : String) (nameToId : List (String × Uuid))
    (rel : ExtractedRelationship R) : (outage.faults srv committed).Surfaces
      (persistRelationship ns nameToId () rel) := by
  rw [persistRelationship]
  split
  · apply surfaces_newUuid.bind
    intro id
    exact surfaces_client _
  · exact .pure _

theorem surfaces_persistChunk (docId : Uuid) (ns : String) (item : ChunkItem R) :
    (outage.faults srv committed).Surfaces (persistChunk docId ns () item) := by
  rw [persistChunk]
  apply (surfaces_client _).bind
  intro _
  rw [persistChunkExtraction]
  apply (surfaces_extract item.1.1.text ns).bind
  intro extraction
  apply (Surfaces.foldlM (surfaces_persistEntity ns item.2) extraction.entities []).bind
  intro nameToId
  exact Surfaces.foldlM (fun _ rel => surfaces_persistRelationship ns nameToId rel) _ ()

theorem surfaces_persistDocument (doc : DocRow) (chunks : List Chunk) (embeddings : List (List R))
    (chunkIds : List Uuid) : (outage.faults srv committed).Surfaces
      (persistDocument doc chunks embeddings chunkIds) := by
  rw [persistDocument]
  apply (surfaces_client (.insertDocument doc)).bind
  intro _
  apply (Surfaces.foldlM (fun _ item => surfaces_persistChunk doc.id doc.ns item) _ ()).bind
  intro _
  exact .pure _

theorem surfaces_finishJob (docId : Uuid) (result : CoreResult Nat)
    (other : ∀ e, result = .error e → ¬ (outage.faults srv committed).fault e) :
    (outage.faults srv committed).Surfaces (finishJob (R := R) docId result) := by
  cases result with
  | ok n => exact (surfaces_client .commit).bind (fun _ => .pure _)
  | error e =>
      have rolledBack : (outage.faults srv committed).Surfaces
          (ExceptT.lift rollback.run : Job R (CoreResult Unit)) := by
        refine .lift ?_
        intro session
        exact ⟨trivial, trivial⟩
      exact rolledBack.bind (fun _ => .throw (other e rfl))

theorem surfaces_runJob (rt : Runtime) (req : IngestRequest) :
    (outage.faults srv committed).Surfaces (runJob rt req) := by
  apply (surfaces_prepareJob rt req).bind
  intro preparation
  cases preparation with
  | duplicate existingHash => exact .pure _
  | ready doc chunks embeddings chunkIds =>
      refine (surfaces_persistDocument doc chunks embeddings chunkIds).caught ?_ ?_
      · exact fun result other => surfaces_finishJob doc.id result other
      · intro e session fault
        exact ⟨e, _, fault, rfl⟩

end Outage

section Answers

variable {N : Type} [NatCast R] (codec : JsonCodec N R)

/-- The response of status 200 to a call of one method can be read. -/
def Readable {α : Type} (script : Script) (method : String → Method N α) : Prop :=
  ∀ text, ∃ value, script.untroubled.answers (method text) = .ok value

theorem untroubled_same {script : Script} (first : script.failures = []) :
    script.untroubled = script := by
  rcases script with ⟨failures, valid, transient, few, early⟩
  subst first
  rfl

omit [NatCast R] in
theorem troubled_fails {α : Type} {script : Script} {method : Method N α}
    {parse : String → CoreResult α} (requests : LlmProvider.OneRequest method parse)
    (troubled : script.failures ≠ []) : ∃ m, script.answers method = .error (.http m) := by
  rcases requests with ⟨url, headers, body, rfl⟩
  rw [Script.answers_request]
  rcases script.reply_zero with ⟨none_, -⟩ | ⟨-, transient⟩
  · exact absurd none_ troubled
  · exact receive_transient parse transient

/-- What a factory would have to build: under a `RetryingProvider` every method returns what the valid
response says. -/
theorem wrapped_masks {p : LlmProvider R} (remote : p.Remote) {script : Script} (text : String)
    (extracts : Readable script (p.extractCall codec))
    (completes : Readable script (p.completeCall codec)) :
    script.answers (runWithRetry .default (p.extractCall codec text)) =
        script.untroubled.answers (p.extractCall codec text) ∧
      script.answers (runWithRetry .default (p.completeCall codec text)) =
        script.untroubled.answers (p.completeCall codec text) := by
  rcases LlmProvider.extract_requests codec remote with ⟨parse, requests⟩
  rcases LlmProvider.complete_requests codec remote with ⟨parseText, textRequests⟩
  rcases requests text with ⟨url, headers, body, extracted⟩
  rcases textRequests text with ⟨textUrl, textHeaders, textBody, completed⟩
  rcases extracts text with ⟨extraction, read⟩
  rcases completes text with ⟨completion, textRead⟩
  rw [extracted, Script.answers_untroubled] at read
  rw [completed, Script.answers_untroubled] at textRead
  rw [extracted, completed]
  exact ⟨retry_masks read, retry_masks textRead⟩

end Answers

section Jobs

variable [F32 R] {N : Type} (codec : JsonCodec N R) (host : Host R)

/-- The derived `Debug` of an error begins with the name of its variant. -/
def Runtime.ShowsHttp (rt : Runtime) : Prop :=
  ∀ m e, rt.debug (.http m) = rt.debug e → ∃ m', e = .http m'

def Host.EmbedsLocally : Prop := ∀ texts m, host.embedBatch texts ≠ .error (.http m)

/-- The provider's API answers the LLM call that is the `n`-th call of a job by the `n`-th script. -/
def Host.scripted (uuids : UuidSource) (scripts : Nat → Script) (p : LlmProvider R) :
    Environment R :=
  { host.environment p uuids with
    extract := fun n text _ => (scripts n).answers (p.extractCall codec text) }

def Host.FirstResponsesValid (uuids : UuidSource) (scripts : Nat → Script) (p : LlmProvider R)
    (committed : Tables R) (req : IngestRequest) : Prop :=
  Program.wp
    ((Adapter.spi.handler host.srv
      (host.scripted codec uuids (fun n => (scripts n).untroubled) p) committed).within
        (calmCall (fun n => (scripts n).failures = [])))
    (runJob host.rt req).run {} (fun _ _ => True)

variable {codec host} {uuids : UuidSource} {scripts : Nat → Script} {p : LlmProvider R}

def Host.outage (uuids : UuidSource) (remote : p.Remote) (embeds : host.EmbedsLocally)
    (readable : ∀ n, Readable (scripts n) (p.extractCall codec)) : Outage R where
  env := host.scripted codec uuids (fun n => (scripts n).untroubled) p
  reply n text _ := (scripts n).answers (p.extractCall codec text)
  calm n := (scripts n).failures = []
  alike := by
    intro n calm
    funext text ns
    simp only [Host.scripted, untroubled_same calm]
  failed := by
    intro n text ns troubled
    rcases LlmProvider.extract_requests codec remote with ⟨parse, requests⟩
    exact troubled_fails (requests text) troubled
  extracted := by
    intro n text ns m failed
    rcases readable n text with ⟨value, read⟩
    have read : (host.scripted codec uuids (fun n => (scripts n).untroubled) p).extract n text ns =
        .ok value := read
    rw [read] at failed
    cases failed
  embedded := fun _ => embeds

variable {now : Int} {row : JobRow} {site : Site R}

theorem recorded_failure {jobs : List JobRow} {job : JobRow} {text : String}
    {outcome : Option JobOutcome} (member : job ∈ jobs) (running : job.status = .running)
    (same : recordOutcome now job.id jobs (some (.failed text)) =
      recordOutcome now job.id jobs outcome) : outcome = some (.failed text) := by
  have marked (change : JobRow → JobRow)
      (equal : failJob now job.id text jobs = updateWhere (fun other => other.id = job.id) change jobs) :
      job.failed now text = change job := by
    have each := List.map_inj_left.mp equal job member
    simpa using each
  have unmarked : jobs = updateWhere (fun other => other.id = job.id) id jobs := by
    rw [updateWhere]
    simp
  cases outcome with
  | none =>
      have kept := marked id (same.trans unmarked)
      rw [id, JobRow.failed] at kept
      have status : JobStatus.failed = job.status := congrArg JobRow.status kept
      rw [running] at status
      cases status
  | some outcome =>
      cases outcome with
      | completed documentId chunkCount =>
          have status := congrArg JobRow.status (marked (JobRow.completed now) same)
          cases status
      | skipped existingHash =>
          have status := congrArg JobRow.status (marked (JobRow.completed now) same)
          cases status
      | failed other =>
          have error := congrArg JobRow.error (marked (JobRow.failed now other) same)
          cases error
          rfl

theorem workerCycleWith_run (resolved : host.provider row.ns = .ok p)
    (environment : LlmProvider R → Environment R) :
    Extension.workerCycleWith host environment now row site =
      { jobs := recordOutcome now row.id (claimJob now row.id site.jobs)
          (runClaimed host.rt host.srv (environment p) site.tables
            (ClaimedJob.ofRow (row.claimed now))).1
        tables := (runClaimed host.rt host.srv (environment p) site.tables
          (ClaimedJob.ofRow (row.claimed now))).2 } := by
  have provided : host.provider (ClaimedJob.ofRow (row.claimed now)).ns = .ok p := resolved
  simp only [Extension.workerCycleWith, provided]
  rfl

theorem job_masked_iff (remote : p.Remote) (embeds : host.EmbedsLocally)
    (shows_ : host.rt.ShowsHttp) (readable : ∀ n, Readable (scripts n) (p.extractCall codec))
    (resolved : host.provider row.ns = .ok p) (claimable : row ∈ site.jobs) :
    Extension.workerCycleWith host (host.scripted codec uuids scripts) now row site =
        Extension.workerCycleWith host
          (host.scripted codec uuids (fun n => (scripts n).untroubled)) now row site ↔
      host.FirstResponsesValid codec uuids scripts p site.tables row.submission.request := by
  have surfaces : ((Host.outage uuids remote embeds readable).faults host.srv
      site.tables).Surfaces (runJob host.rt row.submission.request) := Outage.surfaces_runJob _ _
  constructor
  · intro same
    rcases surfaces.surfaced {} with undisturbed | ⟨e, after, ⟨m, rfl⟩, ended⟩
    · exact undisturbed
    · have failed : runClaimed host.rt host.srv (host.scripted codec uuids scripts p) site.tables
          (ClaimedJob.ofRow (row.claimed now)) =
            (some (.failed (host.rt.debug (.http m))), site.tables ++ after.tx.own) := by
        have ran : spiRun host.rt host.srv (host.scripted codec uuids scripts p) site.tables
            (buildRequest (ClaimedJob.ofRow (row.claimed now))) = .ok (.error (.http m), after) := ended
        rw [runClaimed, ran]
        rfl
      have claimed : row.claimed now ∈ claimJob now row.id site.jobs :=
        List.mem_map.mpr ⟨row, claimable, by simp⟩
      have recorded := congrArg Site.jobs same
      rw [workerCycleWith_run resolved, workerCycleWith_run resolved, failed] at recorded
      have alike := recorded_failure claimed rfl recorded
      rw [runClaimed] at alike
      rcases ran : spiRun host.rt host.srv
          (host.scripted codec uuids (fun n => (scripts n).untroubled) p) site.tables
          (buildRequest (ClaimedJob.ofRow (row.claimed now))) with failure | ⟨result, last⟩
      · rw [ran] at alike
        cases alike
      · rw [ran] at alike
        have outcome : JobOutcome.ofResult host.rt result = .failed (host.rt.debug (.http m)) :=
          Option.some.inj alike
        rcases result with e | finished
        · rw [JobOutcome.ofResult, JobOutcome.failed.injEq] at outcome
          rcases shows_ m e outcome.symm with ⟨m', rfl⟩
          exact absurd ⟨m', rfl⟩ (surfaces.quiet {} _ last ran)
        · cases finished <;> cases outcome
  · intro undisturbed
    have ran : spiRun host.rt host.srv (host.scripted codec uuids scripts p) site.tables
          (buildRequest (ClaimedJob.ofRow (row.claimed now))) =
        spiRun host.rt host.srv (host.scripted codec uuids (fun n => (scripts n).untroubled) p)
          site.tables (buildRequest (ClaimedJob.ofRow (row.claimed now))) :=
      (surfaces.run_eq_iff {}).mpr undisturbed
    rw [workerCycleWith_run resolved, workerCycleWith_run resolved, runClaimed, runClaimed, ran]

end Jobs

section Asks

variable [NatCast R] {N : Type} (codec : JsonCodec N R)

def replied (script : Script) (p : LlmProvider R) (profile : BuildProfile) (latencyMs : UInt64)
    (req : AskRequest) : Option (CoreResult (String × List Citation)) :=
  (asked profile (fun prompt => script.answers (p.completeCall codec prompt)) latencyMs req).map
    (fun ended => ended.2.map (fun result => (result.answer, result.citations)))

variable {codec} {script : Script} {p : LlmProvider R}

omit [NatCast R] in
theorem ask_masked_iff (remote : p.Remote) (readable : Readable script (p.completeCall codec))
    (profile : BuildProfile) (latencyMs promptMs : UInt64) (req : AskRequest) :
    replied codec script p profile latencyMs req =
        replied codec script.untroubled p profile promptMs req ↔
      ∀ built, buildAskPrompt profile req.question req.chunks req.tokenBudget = some (.ok built) →
        script.failures = [] := by
  rcases builds : buildAskPrompt profile req.question req.chunks req.tokenBudget with
    _ | (e | built)
  · rw [replied, replied, asked_panics builds, asked_panics builds]
    exact iff_of_true rfl (fun built impossible => by cases impossible)
  · rw [replied, replied, asked_error builds, asked_error builds]
    exact iff_of_true rfl (fun built impossible => by cases impossible)
  · rw [replied, replied, asked_ok builds, asked_ok builds, Option.map_some, Option.map_some]
    constructor
    · intro same other _
      by_contra troubled
      rcases LlmProvider.complete_requests codec remote with ⟨parse, requests⟩
      rcases troubled_fails (requests built.promptText) troubled with ⟨m, failed⟩
      rcases readable built.promptText with ⟨completion, read⟩
      rw [failed, read] at same
      cases same
    · intro first
      rw [untroubled_same (first built rfl)]
      cases script.answers (p.completeCall codec built.promptText) with
      | error e => rfl
      | ok completion => rfl

end Asks

section Factories

def ProviderRow.HasApi (row : ProviderRow) : Prop :=
  row.provider = "openai" ∨ row.provider = "anthropic" ∨ row.provider = "ollama"

def Host.Builds (host : Host R) (name : String) (p : LlmProvider R) : Prop :=
  Extension.buildProviderImpl host.crates host.files host.masterKeyPath host.config name = .ok p ∨
    ∃ client : Sidecar.Client, client.config = host.config ∧
      Sidecar.buildProviderImpl host.crates host.files client name host.masterKeyPath = .ok p

variable {host : Host R} {row : ProviderRow} {p : LlmProvider R}

theorem row_selected (config : Configuration) (stored : row ∈ config.providers) :
    config.providerNamed row.name = [row.selected] := by
  rcases config.providerNamed_cases row.name with ⟨-, absent⟩ | ⟨other, -, found, only⟩
  · exact absurd rfl (absent row stored)
  · rw [found, (only row stored).mp rfl]

theorem extension_dispatch_remote {crates : Crates R} {plaintext : String} (api : row.HasApi)
    (dispatched : Extension.dispatch crates row.selected plaintext = .ok p) : p.Remote := by
  have provider : row.selected.provider = row.provider := rfl
  rw [Extension.dispatch, provider] at dispatched
  rcases api with openai | anthropic | ollama
  · rw [openai] at dispatched
    cases dispatched
    trivial
  · rw [anthropic] at dispatched
    cases dispatched
    trivial
  · rw [ollama] at dispatched
    cases dispatched
    trivial

theorem builds_remote (stored : row ∈ host.config.providers) (api : row.HasApi)
    (built : host.Builds row.name p) : p.Remote := by
  have selected := row_selected host.config stored
  rcases built with extension | ⟨client, same, sidecar⟩
  · rw [Extension.buildProviderImpl, selected] at extension
    rcases read : Extension.plaintextCred host.crates host.files host.masterKeyPath
        row.selected.credential with e | plaintext
    · simp only [read] at extension
      cases extension
    · simp only [read] at extension
      exact extension_dispatch_remote api extension
  · rw [Sidecar.buildProviderImpl, same, selected, Sidecar.Client.queryOpt,
      Sidecar.Client.query] at sidecar
    rcases connected : client.fails .providerRow with _ | e
    · rcases read : Sidecar.plaintextCred host.crates host.files host.masterKeyPath
          row.selected.credential with e | plaintext
      · simp only [connected, Except.mapError, bind, Except.bind, read] at sidecar
        cases sidecar
      · simp only [connected, Except.mapError, bind, Except.bind, read] at sidecar
        exact extension_dispatch_remote api
          ((dispatch_same host.crates row.selected plaintext p).mpr sidecar)
    · simp only [connected, Except.mapError, bind, Except.bind] at sidecar
      cases sidecar

/-- No transient failure is masked. An ask gives the same answer and citations exactly where it sends
no prompt or the first response is valid, and a job leaves the same rows exactly where the first
response to each of its LLM calls is. -/
theorem transients_masked_iff [F32 R] {N : Type} (codec : JsonCodec N R)
    (embeds : host.EmbedsLocally) (shows_ : host.rt.ShowsHttp) (stored : row ∈ host.config.providers)
    (api : row.HasApi) (built : host.Builds row.name p) :
    (∀ script, Readable script (p.completeCall codec) → ∀ profile latencyMs promptMs req,
      (replied codec script p profile latencyMs req =
          replied codec script.untroubled p profile promptMs req ↔
        ∀ built, buildAskPrompt profile req.question req.chunks req.tokenBudget = some (.ok built) →
          script.failures = [])) ∧
      ∀ scripts : Nat → Script, (∀ n, Readable (scripts n) (p.extractCall codec)) →
        ∀ (uuids : UuidSource) (now : Int) (job : JobRow) (site : Site R),
          host.provider job.ns = .ok p → job ∈ site.jobs →
          (Extension.workerCycleWith host (host.scripted codec uuids scripts) now job site =
              Extension.workerCycleWith host
                (host.scripted codec uuids (fun n => (scripts n).untroubled)) now job site ↔
            host.FirstResponsesValid codec uuids scripts p site.tables job.submission.request) := by
  have remote := builds_remote stored api built
  constructor
  · intro script readable profile latencyMs promptMs req
    exact ask_masked_iff remote readable profile latencyMs promptMs req
  · intro scripts readable uuids now job site resolved claimable
    exact job_masked_iff remote embeds shows_ readable resolved claimable

end Factories

section Sample

def CoreError.debugged : CoreError → String
  | .namespaceNotFound name => "NamespaceNotFound(\"" ++ name ++ "\")"
  | .providerNotFound name => "ProviderNotFound(\"" ++ name ++ "\")"
  | .invalidConfig message => "InvalidConfig(\"" ++ message ++ "\")"
  | .json message => "Json(" ++ message ++ ")"
  | .crypto message => "Crypto(\"" ++ message ++ "\")"
  | .http message => "Http(\"" ++ message ++ "\")"
  | .llm message => "Llm(\"" ++ message ++ "\")"

def Runtime.debugging : Runtime := { Runtime.plain with debug := CoreError.debugged }

def CoreError.initial : CoreError → Char
  | .namespaceNotFound _ => 'N'
  | .providerNotFound _ => 'P'
  | .invalidConfig _ => 'I'
  | .json _ => 'J'
  | .crypto _ => 'C'
  | .http _ => 'H'
  | .llm _ => 'L'

theorem append_initial {front : String} {c : Char} (first : front.toList.head? = some c)
    (rest : String) : (front ++ rest).toList.head? = some c := by
  rw [String.toList_append, List.head?_append, first]
  rfl

theorem debugged_initial (e : CoreError) : e.debugged.toList.head? = some e.initial := by
  cases e <;> exact append_initial (append_initial (by rw [CoreError.initial]; decide) _) _

theorem debugging_shows : Runtime.debugging.ShowsHttp := by
  intro m e same
  have initials : some (CoreError.http m).initial = some e.initial := by
    rw [← debugged_initial, ← debugged_initial]
    exact congrArg (fun text => text.toList.head?) same
  cases e with
  | http m' => exact ⟨m', rfl⟩
  | _ => simp [CoreError.initial] at initials

def emptyAnswer : String :=
  "\x7b\"choices\":[\x7b\"message\":\x7b\"content\":\"\x7b\x7d\"\x7d\x7d]\x7d"

def JsonCodec.sample : JsonCodec Int Milli where
  fromStr text :=
    if text = emptyAnswer then
      .ok (.object [("choices", .array
        [.object [("message", .object [("content", .string "\x7b\x7d")])]])])
    else if text = "\x7b\x7d" then .ok (.object [])
    else .error "expected value at line 1 column 1"
  natural n := n
  f32 n := ⟨n * 1000⟩
  asU64 n := if 0 ≤ n ∧ n < 18446744073709551616 then some n.toNat.toUInt64 else none

def Script.overloaded : Script where
  failures := [⟨2000000, .ok (503, "overloaded")⟩]
  valid := (3000000, emptyAnswer)
  transient := by
    intro r member
    rw [List.mem_singleton.mp member]
    decide
  few := by decide
  early := by decide

def Host.overloaded : Host Milli := { Host.sample (.single "sk") with rt := .debugging }

def gptRow : ProviderRow where
  name := "gpt"
  kind := "llm"
  provider := "openai"
  baseUrl := none
  model := some "gpt-4o-mini"
  credential := some "sk"
  kindCheck := llm_checked

def gpt : LlmProvider Milli := .openai "sk" "gpt-4o-mini" "https://api.openai.com"

def AskRequest.hello : AskRequest where
  question := "Who is here?"
  chunks :=
    { items := [{ chunkId := 1, documentId := 2, ord := 0, text := "Ann", tokenCount := 1 }]
      addressable := by decide }
  provider := "gpt"
  model := "gpt-4o-mini"
  tokenBudget := 4000

theorem overloaded_once :
    Host.overloaded.provider helloRow.ns = .ok gpt ∧
      Readable .overloaded (gpt.extractCall JsonCodec.sample) ∧
      Readable .overloaded (gpt.completeCall JsonCodec.sample) ∧
      Extension.workerCycleWith .overloaded
          (Host.overloaded.scripted .sample (.upFrom 100) (fun _ => .overloaded)) 5 helloRow helloSite ≠
        Extension.workerCycleWith .overloaded
          (Host.overloaded.scripted .sample (.upFrom 100) (fun _ => Script.overloaded.untroubled)) 5
            helloRow helloSite ∧
      replied JsonCodec.sample .overloaded gpt .release 5 .hello ≠
        replied JsonCodec.sample Script.overloaded.untroubled gpt .release 5 .hello := by
  refine ⟨rfl, fun _ => ⟨_, rfl⟩, fun _ => ⟨_, rfl⟩, ?_, ?_⟩
  · intro same
    have statuses := congrArg (fun site => site.jobs.map (·.status)) same
    revert statuses
    decide +kernel
  · decide +kernel

theorem transients_sample :
    (replied JsonCodec.sample .overloaded gpt .release 5 .hello =
        replied JsonCodec.sample Script.overloaded.untroubled gpt .release 5 .hello ↔
      ∀ built, buildAskPrompt .release AskRequest.hello.question AskRequest.hello.chunks
        AskRequest.hello.tokenBudget = some (.ok built) → Script.overloaded.failures = []) ∧
      (Extension.workerCycleWith .overloaded
          (Host.overloaded.scripted .sample (.upFrom 100) (fun _ => .overloaded)) 5 helloRow helloSite =
        Extension.workerCycleWith .overloaded
          (Host.overloaded.scripted .sample (.upFrom 100) (fun _ => Script.overloaded.untroubled)) 5
            helloRow helloSite ↔
        Host.overloaded.FirstResponsesValid .sample (.upFrom 100) (fun _ => .overloaded) gpt
          helloSite.tables helloRow.submission.request) := by
  have embeds : Host.overloaded.EmbedsLocally := by
    intro texts m failed
    cases failed
  have stored : gptRow ∈ Host.overloaded.config.providers := List.mem_cons_self
  have built : Host.overloaded.Builds gptRow.name gpt := .inl rfl
  have masked := transients_masked_iff JsonCodec.sample embeds debugging_shows stored (.inl rfl)
    built
  exact ⟨masked.1 .overloaded (fun _ => ⟨_, rfl⟩) .release 5 5 .hello,
    masked.2 (fun _ => .overloaded) (fun _ _ => ⟨_, rfl⟩) (.upFrom 100) 5 helloRow helloSite rfl
      List.mem_cons_self⟩

end Sample

end PgRaggraph

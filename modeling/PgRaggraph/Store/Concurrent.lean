import PgRaggraph.Store.Adapters

/-! `run_job` calls in progress, each in its own READ COMMITTED transaction.

A statement sees the rows committed when it runs. An insert that meets an uncommitted row of
another transaction under a unique key waits until that transaction has ended. -/

namespace PgRaggraph

open Interaction

variable {R : Type}

structure Running (R : Type) where
  env : Environment R
  session : Session R := {}
  rest : Program (Ingest R) (CoreResult RunJobOutcome)

/-- The insert meets one of these rows under a unique key. -/
def conflicts (rows : Tables R) : ClientCall R → Bool
  | .insertDocument doc =>
      rows.documents.any (fun d => d.contentHash = doc.contentHash ∨ d.id = doc.id)
  | .insertChunk chunk =>
      rows.chunks.any (fun c =>
        (c.documentId = chunk.documentId ∧ c.ord = chunk.ord) ∨ c.id = chunk.id)
  | .insertEntity row =>
      rows.entities.any (fun e =>
        (e.ns = row.ns ∧ e.name = row.name ∧ e.kind = row.kind ∧ row.kind.isSome) ∨ e.id = row.id)
  | .insertRelationship row =>
      rows.relationships.any (fun r =>
        (r.ns = row.ns ∧ r.srcId = row.srcId ∧ r.dstId = row.dstId ∧ r.kind = row.kind) ∨
          r.id = row.id)
  | .insertChunkEntity row =>
      rows.chunkEntities.any (fun l => l.chunkId = row.chunkId ∧ l.entityId = row.entityId)
  | _ => false

def Running.pending (r : Running R) : Option (ClientCall R) :=
  match r.rest with
  | .call (.client request) _ => some request
  | _ => none

def Running.waitsFor (srv : Server R) (r holder : Running R) : Bool :=
  match r.pending with
  | some request =>
      r.session.tx.aborted.isNone && (srv.refuses request).isNone &&
        conflicts holder.session.tx.own request
  | none => false

variable [F32 R]

def Running.advance (adapter : Adapter) (srv : Server R) (committed : Tables R) (r : Running R) :
    Option (Except PgError (Running R)) :=
  match r.rest with
  | .done _ => none
  | .call request next =>
      some ((adapter.handler srv r.env committed request r.session).map (fun answered =>
        { r with session := answered.2, rest := next answered.1 }))

def Running.interrupt (adapter : Adapter) (srv : Server R) (e : PgError) (r : Running R) :
    Option (Except PgError (Running R)) :=
  match r.rest with
  | .call (.client request) next =>
      some ((adapter.fail srv e).map (fun failed =>
        { r with
          session := { r.session with
            tx := failed.2
            log := r.session.log ++ [⟨.client request, failed.1⟩] }
          rest := next failed.1 }))
  | _ => none

omit [F32 R] in
/-- The rows that the end of the surrounding transaction keeps: `process_one` rolls an `Err` back,
`BackgroundWorker::transaction` commits whatever its closure returned. -/
def Adapter.settle (adapter : Adapter) (result : CoreResult RunJobOutcome) (own : Tables R) :
    Tables R :=
  match adapter, result with
  | .spi, _ => own
  | .tokio, .ok _ => own
  | .tokio, .error _ => {}

omit [F32 R] in
theorem Adapter.settle_cases (adapter : Adapter) (result : CoreResult RunJobOutcome)
    (own : Tables R) : adapter.settle result own = own ∨ adapter.settle result own = {} := by
  cases adapter with
  | spi => exact .inl rfl
  | tokio =>
      cases result with
      | ok outcome => exact .inl rfl
      | error e => exact .inr rfl

def runAlone (adapter : Adapter) (rt : Runtime) (srv : Server R) (env : Environment R)
    (committed : Tables R) (req : IngestRequest) :
    Except PgError (CoreResult RunJobOutcome) × Tables R :=
  match Program.run (adapter.handler srv env committed) (runJob rt req).run {} with
  | .ok (result, session) => (.ok result, committed ++ adapter.settle result session.tx.own)
  | .error e => (.error e, committed)

theorem advance_ok {adapter : Adapter} {srv : Server R} {committed : Tables R}
    {r after : Running R} (advanced : r.advance adapter srv committed = some (.ok after)) :
    ∃ request next answer session, r.rest = .call request next ∧
      adapter.handler srv r.env committed request r.session = .ok (answer, session) ∧
      after = { r with session := session, rest := next answer } := by
  rw [Running.advance] at advanced
  split at advanced
  · cases advanced
  · rename_i request next issued
    rcases answered : adapter.handler srv r.env committed request r.session with
      e | ⟨answer, session⟩
    · rw [answered] at advanced
      cases advanced
    · rw [answered] at advanced
      cases advanced
      exact ⟨request, next, answer, session, issued, answered, rfl⟩

theorem advance_error {adapter : Adapter} {srv : Server R} {committed : Tables R}
    {r : Running R} {e : PgError} (advanced : r.advance adapter srv committed = some (.error e)) :
    ∃ request next, r.rest = .call request next ∧
      adapter.handler srv r.env committed request r.session = .error e := by
  rw [Running.advance] at advanced
  split at advanced
  · cases advanced
  · rename_i request next issued
    rcases answered : adapter.handler srv r.env committed request r.session with
      failure | ⟨answer, session⟩
    · rw [answered] at advanced
      cases advanced
      exact ⟨request, next, issued, answered⟩
    · rw [answered] at advanced
      cases advanced

end PgRaggraph

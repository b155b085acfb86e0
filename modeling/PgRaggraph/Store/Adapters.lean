import PgRaggraph.Core.RunRules
import PgRaggraph.Store.Tables

/-! `SpiPgClient` and `TokioPgClient`: the `PgClient` trait over one open transaction. -/

namespace PgRaggraph

open Interaction

variable {R : Type}

/-- An open transaction: the rows it has written, or the error that aborted it. -/
structure Transaction (R : Type) where
  own : Tables R := {}
  aborted : Option PgError := none
  deriving DecidableEq

/-- A version 4 UUID collides with no identifier of the stored documents and chunks. -/
structure FreshFor (env : Environment R) (tables : Tables R) : Prop where
  documents : ∀ doc ∈ tables.documents, ∀ k, doc.id ≠ env.newUuid k
  chunks : ∀ chunk ∈ tables.chunks, ∀ k, chunk.id ≠ env.newUuid k
  parents : ∀ chunk ∈ tables.chunks, ∀ k, chunk.documentId ≠ env.newUuid k

def errorContext : ClientCall R → String
  | .documentExistsByHash _ _ => "spi document_exists"
  | .insertDocument _ => "spi insert document"
  | .insertChunk _ => "spi insert chunk"
  | .insertEntity _ => "spi insert entity"
  | .insertRelationship _ => "spi insert relationship"
  | .insertChunkEntity _ => "spi insert chunk_entity"
  | .fuzzyMatchEntity _ _ _ => "spi fuzzy_match_entity"
  | .rollback => ""
  | .commit => ""

/-- `rollback` and `commit` send no statement in either adapter. -/
def ClientCall.silent : ClientCall R → Bool
  | .rollback => true
  | .commit => true
  | _ => false

inductive Adapter where
  | spi
  | tokio
  deriving DecidableEq, Repr

variable [F32 R]

def statement (srv : Server R) (committed : Tables R) (tx : Transaction R)
    (request : ClientCall R) : Except PgError (request.Value × Transaction R) :=
  if request.silent then (evaluate srv committed request).map (fun outcome => (outcome.1, tx))
  else if tx.aborted.isSome then .error .inFailedSqlTransaction
  else (execute srv (committed ++ tx.own) request).map
    (fun outcome => (outcome.1, { tx with own := tx.own ++ outcome.2 }))

/-- A failed statement unwinds through pgrx as a panic, where `tokio-postgres` returns an `Err`
and PostgreSQL leaves the transaction aborted. -/
def Adapter.fail (adapter : Adapter) (srv : Server R) {request : ClientCall R} (e : PgError) :
    Except PgError (CoreResult request.Value × Transaction R) :=
  match adapter with
  | .spi => .error e
  | .tokio => .ok (.error (.invalidConfig s!"{errorContext request}: {srv.errorText e}"),
      { own := {}, aborted := some e })

def Adapter.perform (adapter : Adapter) (srv : Server R) (committed : Tables R)
    (tx : Transaction R) (request : ClientCall R) :
    Except PgError (CoreResult request.Value × Transaction R) :=
  match statement srv committed tx request with
  | .ok (value, after) => .ok (.ok value, after)
  | .error e => adapter.fail srv e

structure Event (R : Type) where
  request : Call R
  answer : request.Answer

structure Session (R : Type) where
  tx : Transaction R := {}
  tick : Nat := 0
  log : List (Event R) := []

def Adapter.handler (adapter : Adapter) (srv : Server R) (env : Environment R)
    (committed : Tables R) : Handler (Ingest R) (Session R) PgError
  | .env request, session =>
      .ok (env.answer session.tick request,
        { session with
          tick := session.tick + 1
          log := session.log ++ [⟨.env request, env.answer session.tick request⟩] })
  | .client request, session =>
      match adapter.perform srv committed session.tx request with
      | .ok (answer, tx) =>
          .ok (answer, { session with tx := tx, log := session.log ++ [⟨.client request, answer⟩] })
      | .error e => .error e

theorem perform_ok {adapter : Adapter} {srv : Server R} {committed : Tables R}
    {tx after : Transaction R} {request : ClientCall R} {value : request.Value} :
    adapter.perform srv committed tx request = .ok (.ok value, after) ↔
      statement srv committed tx request = .ok (value, after) := by
  rw [Adapter.perform]
  split
  · rename_i computed reached executed
    rw [executed]
    simp only [Except.ok.injEq, Prod.mk.injEq]
  · rename_i e failed
    rw [failed]
    constructor
    · intro performed
      cases adapter <;> cases performed
    · intro executed
      cases executed

theorem statement_runs {srv : Server R} {committed : Tables R} {tx : Transaction R}
    {request : ClientCall R} (asks : request.silent = false) (open_ : tx.aborted = none)
    (accepted : srv.refuses request = none) :
    statement srv committed tx request = (evaluate srv (committed ++ tx.own) request).map
      (fun outcome => (outcome.1, { tx with own := tx.own ++ outcome.2 })) := by
  simp [statement, asks, open_, execute, accepted]

theorem statement_refused {srv : Server R} {committed : Tables R} {tx : Transaction R}
    {request : ClientCall R} {message : String} (asks : request.silent = false)
    (open_ : tx.aborted = none) (refused : srv.refuses request = some message) :
    statement srv committed tx request = .error (.dataException message) := by
  simp [statement, asks, open_, execute, refused, Except.map]

theorem statement_succeeds {srv : Server R} {committed : Tables R} {tx after : Transaction R}
    {request : ClientCall R} {value : request.Value} (asks : request.silent = false)
    (executed : statement srv committed tx request = .ok (value, after)) :
    tx.aborted = none ∧ srv.refuses request = none ∧
      ∃ delta, evaluate srv (committed ++ tx.own) request = .ok (value, delta) ∧
        after = { tx with own := tx.own ++ delta } := by
  rw [statement, if_neg (by simp [asks])] at executed
  split at executed
  · cases executed
  · rename_i open_
    rw [execute] at executed
    split at executed
    · cases executed
    · rename_i accepted
      rcases evaluated : evaluate srv (committed ++ tx.own) request with e | ⟨computed, delta⟩
      · rw [evaluated] at executed
        cases executed
      · rw [evaluated] at executed
        cases executed
        exact ⟨by simpa using open_, accepted, delta, rfl, rfl⟩

theorem statement_added {srv : Server R} {committed : Tables R} {tx after : Transaction R}
    {request : ClientCall R} {value : request.Value}
    (executed : statement srv committed tx request = .ok (value, after)) :
    after.own = tx.own ∨ after.own = tx.own ++ rowOf request := by
  by_cases silent : request.silent = true
  · rw [statement, if_pos silent] at executed
    rcases evaluated : evaluate srv committed request with e | outcome
    · rw [evaluated] at executed
      cases executed
    · rw [evaluated] at executed
      cases executed
      exact .inl rfl
  · rw [Bool.not_eq_true] at silent
    rcases statement_succeeds silent executed with ⟨-, accepted, delta, evaluated, rfl⟩
    have added : execute srv (committed ++ tx.own) request = .ok (value, delta) := by
      rw [execute, accepted]
      exact evaluated
    rcases execute_added added with none_ | row
    · have none_ : delta = {} := none_
      rw [none_, Tables.append_empty]
      exact .inl rfl
    · have row : delta = rowOf request := row
      rw [row]
      exact .inr rfl

theorem tokio_failed {srv : Server R} {committed : Tables R} {tx after : Transaction R}
    {request : ClientCall R} {e : CoreError} (asks : request.silent = false)
    (performed : Adapter.tokio.perform srv committed tx request = .ok (.error e, after)) :
    tx.aborted ≠ none ∨ srv.refuses request ≠ none ∨
      ∃ failure, evaluate srv (committed ++ tx.own) request = .error failure := by
  by_contra fine
  simp only [not_or, not_not] at fine
  rcases fine with ⟨running, accepted, evaluates⟩
  rcases evaluated : evaluate srv (committed ++ tx.own) request with failure | outcome
  · exact evaluates ⟨failure, evaluated⟩
  · rw [Adapter.perform, statement_runs asks running accepted, evaluated] at performed
    cases performed

theorem check_answered {adapter : Adapter} {srv : Server R} {committed : Tables R}
    {tx after : Transaction R} {ns contentHash : String} {found : Bool}
    (performed : adapter.perform srv committed tx (.documentExistsByHash ns contentHash) =
      .ok (.ok found, after)) :
    found = (committed ++ tx.own).documents.any
      (fun d => d.ns = ns ∧ d.contentHash = contentHash) ∧ after = tx := by
  rcases statement_succeeds rfl (perform_ok.mp performed) with ⟨-, -, delta, evaluated, rfl⟩
  cases evaluated
  rw [Tables.append_empty]
  exact ⟨rfl, rfl⟩

section Specifications

variable (adapter : Adapter) (srv : Server R) (env : Environment R) (committed : Tables R)

@[simp] theorem adapter_guarantee_env (stop : PgError → Prop) (request : EnvCall)
    (session : Session R) (post : request.Answer R → Session R → Prop) :
    (adapter.handler srv env committed).guarantee stop (.env request) session post ↔
      post (env.answer session.tick request)
        { session with
          tick := session.tick + 1
          log := session.log ++ [⟨.env request, env.answer session.tick request⟩] } := Iff.rfl

@[simp] theorem adapter_guarantee_client (stop : PgError → Prop) (request : ClientCall R)
    (session : Session R) (post : CoreResult request.Value → Session R → Prop) :
    (adapter.handler srv env committed).guarantee stop (.client request) session post ↔
      match adapter.perform srv committed session.tx request with
      | .ok (answer, tx) => post answer
          { session with tx := tx, log := session.log ++ [⟨.client request, answer⟩] }
      | .error e => stop e := by
  simp only [Handler.guarantee, Adapter.handler]
  rcases adapter.perform srv committed session.tx request with e | ⟨answer, tx⟩
  · rfl
  · rfl

@[simp] theorem adapter_spec_env (request : EnvCall) (session : Session R)
    (post : request.Answer R → Session R → Prop) :
    (adapter.handler srv env committed).spec (.env request) session post ↔
      post (env.answer session.tick request)
        { session with
          tick := session.tick + 1
          log := session.log ++ [⟨.env request, env.answer session.tick request⟩] } := Iff.rfl

@[simp] theorem adapter_spec_client (request : ClientCall R) (session : Session R)
    (post : CoreResult request.Value → Session R → Prop) :
    (adapter.handler srv env committed).spec (.client request) session post ↔
      ∀ answer tx, adapter.perform srv committed session.tx request = .ok (answer, tx) →
        post answer
          { session with tx := tx, log := session.log ++ [⟨.client request, answer⟩] } := by
  rw [Handler.spec_iff]
  constructor
  · intro holds answer tx performed
    refine holds answer _ ?_
    simp only [Adapter.handler, performed]
  · intro holds answer after answered
    simp only [Adapter.handler] at answered
    split at answered
    · rename_i performed
      cases answered
      exact holds _ _ performed
    · cases answered

end Specifications

end PgRaggraph

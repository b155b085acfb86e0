import PgRaggraph.Core.Jsonb
import PgRaggraph.Extension.ProviderFactory
import PgRaggraph.Retrieval.Exhaustive

/-! `pgrg.query`, the SQL function over the retrieval statement. -/

namespace PgRaggraph

open Bag

variable {R N : Type}

namespace Mode

def asStr : Mode → String
  | hybrid => "hybrid"
  | vector => "vector"
  | bm25 => "bm25"
  | graph => "graph"

def parse (s : String) : Option Mode :=
  match s with
  | "hybrid" => some hybrid
  | "vector" => some vector
  | "bm25" => some bm25
  | "graph" => some graph
  | _ => none

theorem parse_some_iff {s : String} {mode : Mode} : parse s = some mode ↔ s = mode.asStr := by
  constructor
  · intro parsed
    unfold parse at parsed
    split at parsed
    · cases parsed
      rfl
    · cases parsed
      rfl
    · cases parsed
      rfl
    · cases parsed
      rfl
    · cases parsed
  · rintro rfl
    cases mode
    · rfl
    · rfl
    · rfl
    · rfl

end Mode

inductive Aborted where
  | raised (error : Raised)
  | statement (message : String)
  deriving DecidableEq

def QueryError.message : QueryError → String
  | .negativeLimit => "LIMIT must not be negative"

structure QueryCall (N : Type) where
  q : String
  filter : Option (Json N)
  topK : Int32
  ns : String
  hops : Int32
  weights : Option (Json N)
  mode : String

section Weights

variable [Zero R] [IntCast R] [LinearOrder R] (asF64 : N → R)

def laneWeight (v : Json N) (lane : String) : R :=
  max ((((v.get? lane).bind Json.asNumber).map asF64).getD ((1 : Int) : R)) 0

def RrfWeights.ofJson : Option (Json N) → RrfWeights R
  | some v => ⟨laneWeight asF64 v "vec", laneWeight asF64 v "bm25", laneWeight asF64 v "graph"⟩
  | none => .default

def QueryCall.binds (call : QueryCall N) : QueryArgs R (Json N) where
  q := call.q
  filter := call.filter
  topK := call.topK.toInt
  ns := call.ns
  hops := call.hops.toInt
  weights := .ofJson asF64 call.weights

end Weights

namespace Extension

variable [LinearOrder R] [Zero R] [Add R] [Mul R] [Div R] [IntCast R]

/-- The limit that is also passed to SPI cuts nothing that `LIMIT $3` leaves. -/
def query (engine : Engine R (Json N)) (asF64 : N → R) (db : Database R (Json N))
    (call : QueryCall N) : Except Aborted (List (ResultRow R)) :=
  match Mode.parse call.mode with
  | none =>
      .error (.raised ⟨.invalidParameterValue, s!"pgrg.query: unknown mode \x60{call.mode}\x60; " ++
        "expected hybrid | vector | bm25 | graph"⟩)
  | some mode =>
      (PgRaggraph.query engine db mode (call.binds asF64)).mapError
        (fun e => .statement e.message)

end Extension

section Returned

variable [LinearOrder R] [Zero R] [Add R] [Mul R] [Div R] [IntCast R]
  {engine : Engine R (Json N)} {asF64 : N → R} {db : Database R (Json N)} {call : QueryCall N}
  {rows : List (ResultRow R)}

theorem query_returned (returned : Extension.query engine asF64 db call = .ok rows) :
    ∃ mode, call.mode = mode.asStr ∧
      PgRaggraph.query engine db mode (call.binds asF64) = .ok rows := by
  rw [Extension.query] at returned
  split at returned
  · cases returned
  · rename_i mode parsed
    refine ⟨mode, Mode.parse_some_iff.mp parsed, ?_⟩
    revert returned
    cases PgRaggraph.query engine db mode (call.binds asF64) with
    | error e => exact nofun
    | ok found =>
        intro same
        cases same
        rfl

structure Results (engine : Engine R (Json N)) (db : Database R (Json N))
    (p : QueryArgs R (Json N)) (rows : List (ResultRow R)) : Prop where
  length : (rows.length : Int) ≤ p.topK
  distinct : (rows.map (·.id)).Nodup
  rows : ∀ row ∈ rows, ∃ c ∈ db.chunks, c.id = row.id ∧ c.documentId = row.documentId ∧
    c.text = row.text ∧ c.ns = p.ns ∧ passes engine p c = true

theorem query_rows {mode : Mode} {p : QueryArgs R (Json N)}
    (returned : PgRaggraph.query engine db mode p = .ok rows) : Results engine db p rows := by
  rw [← queryOver_exact] at returned
  rcases limit_ok returned with ⟨bounded, rfl⟩
  have sub : ((ranked engine db mode p (exactScans engine db mode p)).take p.topK.toNat).Sublist
      (ranked engine db mode p (exactScans engine db mode p)) := List.take_sublist _ _
  constructor
  · rw [List.length_take]
    omega
  · exact ranked_distinct.sublist (sub.map _)
  · intro row member
    rcases ranked_visible rfl (sub.mem member) with ⟨c, visible, id, documentId, text⟩
    rcases mem_visible.mp visible with ⟨stored, here, accepted⟩
    exact ⟨c, stored, id, documentId, text, here, accepted⟩

end Returned

end PgRaggraph

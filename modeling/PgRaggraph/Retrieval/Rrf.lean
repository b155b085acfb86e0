import PgRaggraph.Core.Types
import PgRaggraph.Library.Ranking

/-! Retrieval modes and reciprocal rank fusion in Rust.

`R` is the type of the scores and `I` of the chunk ids. -/

namespace PgRaggraph

inductive Mode where
  | hybrid
  | vector
  | bm25
  | graph
  deriving DecidableEq, Repr

namespace Mode

def usesVector : Mode → Bool
  | hybrid | vector => true
  | _ => false

def usesBm25 : Mode → Bool
  | hybrid | bm25 => true
  | _ => false

def usesGraph : Mode → Bool
  | hybrid | graph => true
  | _ => false

end Mode

structure RrfWeights (R : Type) where
  vec : R
  bm25 : R
  graph : R
  deriving DecidableEq, Repr

structure LaneHit (I : Type) where
  id : I
  lane : String
  rk : Int
  deriving DecidableEq, Repr

structure ScoredChunk (I R : Type) where
  id : I
  score : R
  deriving DecidableEq, Repr

variable {I R : Type}

def RrfWeights.default [IntCast R] : RrfWeights R := ⟨((1 : Int) : R), ((1 : Int) : R), ((1 : Int) : R)⟩

def RrfWeights.weightFor [Zero R] (weights : RrfWeights R) (lane : String) : R :=
  if lane = "vec" then weights.vec
  else if lane = "bm25" then weights.bm25
  else if lane = "graph" then weights.graph
  else 0

@[simp] theorem weightFor_vec [Zero R] (weights : RrfWeights R) :
    weights.weightFor "vec" = weights.vec := rfl

@[simp] theorem weightFor_bm25 [Zero R] (weights : RrfWeights R) :
    weights.weightFor "bm25" = weights.bm25 := rfl

@[simp] theorem weightFor_graph [Zero R] (weights : RrfWeights R) :
    weights.weightFor "graph" = weights.graph := rfl

/-- The iteration order of a `HashMap`: some order of its entries. -/
abbrev Iteration (α : Type) := { order : List α → List α // ∀ entries, (order entries).Perm entries }

/-- `*acc.entry(id).or_insert(0.0) += x`. -/
def addTo [DecidableEq I] [Zero R] [Add R] (id : I) (x : R) :
    List (ScoredChunk I R) → List (ScoredChunk I R)
  | [] => [⟨id, 0 + x⟩]
  | entry :: rest =>
      if entry.id = id then ⟨id, entry.score + x⟩ :: rest else entry :: addTo id x rest

/-- A stable `sort_by` on the score. -/
def sortByScore [LinearOrder R] (scored : List (ScoredChunk I R)) : List (ScoredChunk I R) :=
  Ranking.rankBy (·.score) scored

section Fuse

variable [DecidableEq I] [Zero R] [Add R] [Div R] [IntCast R]

def rrfK : R := ((60 : Int) : R)

def accumulate (weights : RrfWeights R) (hits : List (LaneHit I)) : List (ScoredChunk I R) :=
  hits.foldl
    (fun acc hit => addTo hit.id (weights.weightFor hit.lane / (rrfK + (hit.rk : R))) acc) []

def fuse [LinearOrder R] (iteration : Iteration (ScoredChunk I R)) (hits : List (LaneHit I))
    (weights : RrfWeights R) : List (ScoredChunk I R) :=
  sortByScore (iteration.val (accumulate weights hits))

end Fuse

end PgRaggraph

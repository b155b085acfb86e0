import PgRaggraph.Library.Bag
import PgRaggraph.Retrieval.Rrf
import Mathlib.Data.Prod.Lex
import Mathlib.Order.WithBot

/-! The statement of `build_query_sql`, one definition for each CTE.

Ties and the unordered LIMIT of the graph lane are resolved by one fixed order of the ids. -/

namespace PgRaggraph

open Bag

/-- A row of `pgrg.chunks`. The generated column `text_search` is a function of `text`. -/
structure StoredChunk (R J : Type) where
  id : Uuid
  documentId : Uuid
  ns : String
  text : String
  embedding : Option (List R)
  metadata : J
  deriving DecidableEq, Repr

/-- The tables the statement reads, with the primary keys it relies on. -/
structure Database (R J : Type) where
  chunks : List (StoredChunk R J)
  entities : List (EntityRow R)
  relationships : List (RelRow R)
  chunkEntities : List (ChunkEntityRow R)
  chunksPkey : (chunks.map (·.id)).Nodup
  entitiesPkey : (entities.map (·.id)).Nodup

/-- What the statement leaves to PostgreSQL and its extensions: `pgrg.embed`, `<=>`, `@@`,
`ts_rank_cd` and `@>`, and the order of the ids that resolves ties and what a LIMIT without an
ORDER BY keeps. -/
structure Engine (R J : Type) where
  embed : String → List R
  distance : List R → List R → R
  textMatches : String → String → Bool
  tsRankCd : String → String → R
  contains : J → J → Bool
  turn : Uuid → Nat
  turn_injective : Function.Injective turn

structure QueryArgs (R J : Type) where
  q : String
  filter : Option J
  topK : Int
  ns : String
  hops : Int
  weights : RrfWeights R

structure LaneRow (I : Type) where
  id : I
  rk : Int
  deriving DecidableEq, Repr

structure Lanes (I : Type) where
  vec : List (LaneRow I)
  bm : List (LaneRow I)
  graph : List (LaneRow I)
  deriving DecidableEq, Repr

structure WalkRow where
  id : Uuid
  d : Int
  deriving DecidableEq, Repr

structure FusedRow (I R : Type) where
  id : I
  score : R
  sigs : List (LaneHit I × R)
  deriving DecidableEq, Repr

structure ResultRow (R : Type) where
  id : Uuid
  documentId : Uuid
  text : String
  score : R
  sigs : List (LaneHit Uuid × R)
  deriving DecidableEq, Repr

inductive QueryError where
  | negativeLimit
  deriving DecidableEq, Repr

section Walked

variable {R : Type}

def seedRows (seeds : List Uuid) : List WalkRow := seeds.map (fun id => ⟨id, 0⟩)

/-- The recursive term of `walked`. It asks for no namespace. -/
def walkStep (relationships : List (RelRow R)) (hops : Int) (working : List WalkRow) :
    List WalkRow :=
  let matched := join (fun r w => r.srcId = w.id ∨ r.dstId = w.id) relationships working
  (matched.filter (fun m => m.2.d < hops)).map
    (fun m => ⟨if m.1.srcId = m.2.id then m.1.dstId else m.1.srcId, m.2.d + 1⟩)

def walkDepth (hops : Int) : Nat := hops.toNat + 1

def walked (relationships : List (RelRow R)) (hops : Int) (seeds : List Uuid) : List WalkRow :=
  (recursiveUnion (walkStep relationships hops) (walkDepth hops + 1) (seedRows seeds)).getD []

end Walked

variable {R J : Type} [LinearOrder R]

def passes (engine : Engine R J) (p : QueryArgs R J) (c : StoredChunk R J) : Bool :=
  match p.filter with
  | none => true
  | some filter => engine.contains c.metadata filter

/-- `embedding <=> (SELECT v FROM q_emb)`, where NULL sorts last. -/
def nearness (engine : Engine R J) (p : QueryArgs R J) (embedding : Option (List R)) : WithTop R :=
  match embedding with
  | some v => (engine.distance v (engine.embed p.q) : R)
  | none => ⊤

def numbered (rows : List Uuid) : List (LaneRow Uuid) :=
  (rowNumber rows).map (fun row => ⟨row.1, row.2⟩)

def laneLimit : Nat := 50

section Lanes

variable (engine : Engine R J) (db : Database R J) (mode : Mode) (p : QueryArgs R J)

def vecHits : List (StoredChunk R J) :=
  db.chunks.filter (fun c => mode.usesVector && c.ns == p.ns && passes engine p c)

/-- An exact scan. What a scan of the index returns in its place is a parameter of `queryOver`. -/
def vecLane : List (LaneRow Uuid) :=
  let ranked := orderBy (fun c => toLex (nearness engine p c.embedding, engine.turn c.id))
    (vecHits engine db mode p)
  (numbered (ranked.map (·.id))).take laneLimit

def bmHits : List (StoredChunk R J) :=
  db.chunks.filter (fun c =>
    mode.usesBm25 && engine.textMatches c.text p.q && c.ns == p.ns && passes engine p c)

def bmLane : List (LaneRow Uuid) :=
  let ranked := orderBy
    (fun c => toLex (OrderDual.toDual (engine.tsRankCd c.text p.q), engine.turn c.id))
    (bmHits engine db mode p)
  (numbered (ranked.map (·.id))).take laneLimit

variable [Div R] [IntCast R]

def seedDistance : R := ((35 : Int) : R) / ((100 : Int) : R)

def seedLimit : Nat := 8

def seedHits : List (EntityRow R) :=
  db.entities.filter (fun e =>
    e.ns == p.ns && decide (nearness engine p e.nameEmb < ((seedDistance : R) : WithTop R)))

def seeds : List Uuid :=
  let ranked := orderBy (fun e => toLex (nearness engine p e.nameEmb, engine.turn e.id))
    (seedHits engine db p)
  (ranked.take seedLimit).map (·.id)

end Lanes

def graphMatches (engine : Engine R J) (db : Database R J) (mode : Mode) (p : QueryArgs R J)
    (seeds : List Uuid) : List Uuid :=
  let linked := join (fun m w => m.entityId = w.id) db.chunkEntities
    (walked db.relationships p.hops seeds)
  let placed := join (fun l c => c.id = l.1.chunkId) linked db.chunks
  (placed.filter (fun m =>
    mode.usesGraph && m.2.ns == p.ns && passes engine p m.2 && decide (1 ≤ p.hops))).map
    (fun m => m.1.1.chunkId)

def graphGroups (engine : Engine R J) (db : Database R J) (mode : Mode) (p : QueryArgs R J)
    (seeds : List Uuid) : List (LaneRow Uuid) :=
  let groups := groupBy id (graphMatches engine db mode p seeds)
  let ranked := orderBy (fun g => toLex (OrderDual.toDual g.2.length, engine.turn g.1)) groups
  numbered (ranked.map Prod.fst)

def graphLane (engine : Engine R J) (db : Database R J) (mode : Mode) (p : QueryArgs R J)
    (seeds : List Uuid) : List (LaneRow Uuid) :=
  (orderBy (fun row => engine.turn row.id) (graphGroups engine db mode p seeds)).take laneLimit

section Lanes

variable [Div R] [IntCast R] (engine : Engine R J) (db : Database R J) (mode : Mode)
  (p : QueryArgs R J)

def lanes : Lanes Uuid :=
  { vec := vecLane engine db mode p
    bm := bmLane engine db mode p
    graph := graphLane engine db mode p (seeds engine db p) }

@[simp] theorem lanes_vec : (lanes engine db mode p).vec = vecLane engine db mode p := by
  rw [lanes]

@[simp] theorem lanes_bm : (lanes engine db mode p).bm = bmLane engine db mode p := by
  rw [lanes]

@[simp] theorem lanes_graph :
    (lanes engine db mode p).graph = graphLane engine db mode p (seeds engine db p) := by
  rw [lanes]

end Lanes

section Statement

variable [Zero R] [Add R] [Mul R] [Div R] [IntCast R]

variable {I : Type}

def tagged (lane : String) (w : R) (rows : List (LaneRow I)) : List (LaneHit I × R) :=
  rows.map (fun row => (⟨row.id, lane, row.rk⟩, w))

def unionLanes (ls : Lanes I) (weights : RrfWeights R) : List (LaneHit I × R) :=
  tagged "vec" weights.vec ls.vec ++ tagged "bm25" weights.bm25 ls.bm ++
    tagged "graph" weights.graph ls.graph

/-- `w * (1.0 / (60 + rk))`. -/
def contribution (hit : LaneHit I × R) : R :=
  hit.2 * (((1 : Int) : R) / ((60 + hit.1.rk : Int) : R))

def fused [DecidableEq I] (ls : Lanes I) (weights : RrfWeights R) : List (FusedRow I R) :=
  (groupBy (fun hit => hit.1.id) (unionLanes ls weights)).map (fun g =>
    { id := g.1, score := (g.2.map contribution).foldl (· + ·) 0, sigs := g.2 })

def selected (db : Database R J) (rows : List (FusedRow Uuid R)) : List (ResultRow R) :=
  (join (fun f c => c.id = f.id) rows db.chunks).map (fun m =>
    { id := m.2.id, documentId := m.2.documentId, text := m.2.text, score := m.1.score,
      sigs := m.1.sigs })

/-- `ORDER BY f.score DESC`. -/
def ranking (engine : Engine R J) (rows : List (ResultRow R)) : List (ResultRow R) :=
  orderBy (fun row => toLex (OrderDual.toDual row.score, engine.turn row.id)) rows

def limit {α : Type} (n : Int) (rows : List α) : Except QueryError (List α) :=
  if n < 0 then .error .negativeLimit else .ok (rows.take n.toNat)

/-- The rows of `build_query_sql(mode)` under the binds `p`. -/
def query (engine : Engine R J) (db : Database R J) (mode : Mode) (p : QueryArgs R J) :
    Except QueryError (List (ResultRow R)) :=
  limit p.topK (ranking engine (selected db (fused (lanes engine db mode p) p.weights)))

end Statement

def Engine.sample [Zero R] : Engine R String where
  embed _ := []
  distance v _ := v.headD 0
  textMatches _ _ := false
  tsRankCd _ _ := 0
  contains metadata filter := metadata == filter
  turn id := id
  turn_injective := fun _ _ same => same

def QueryArgs.sample [IntCast R] : QueryArgs R String where
  q := "who"
  filter := none
  topK := 10
  ns := "default"
  hops := 1
  weights := .default

def RelRow.sample [Zero R] (id srcId dstId : Uuid) : RelRow R :=
  { id := id, ns := "default", srcId := srcId, dstId := dstId, kind := "knows", weight := 0,
    description := none }

end PgRaggraph

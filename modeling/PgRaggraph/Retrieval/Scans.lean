import PgRaggraph.Retrieval.Lanes

/-! What SQL leaves open of the statement: the rows that the scans by distance return, which the HNSW
indexes of `002_indexes.sql` may serve, and the engine that evaluates it. -/

namespace PgRaggraph

variable {R J : Type}

/-- The lane `vec` and the seeds, as scans in the order of a distance return them. -/
structure Scans where
  vec : List (LaneRow Uuid)
  seeds : List Uuid

/-- Two engines with the operators of one database and one order of the ids, that embed a question
alike. -/
structure Engine.Alike (engine engine' : Engine R J) (q : String) : Prop where
  embed : engine.embed q = engine'.embed q
  turn : engine.turn = engine'.turn
  distance : engine.distance = engine'.distance
  textMatches : engine.textMatches = engine'.textMatches
  tsRankCd : engine.tsRankCd = engine'.tsRankCd
  contains : engine.contains = engine'.contains

theorem Engine.Alike.embedder {engine engine' : Engine R J} {q : String}
    (alike : engine.Alike engine' q) : engine = { engine' with embed := engine.embed } := by
  rcases engine with ⟨embed, distance, textMatches, tsRankCd, contains, turn, injective⟩
  rcases alike with ⟨-, turns, distances, matched, ranks, contained⟩
  cases turns
  cases distances
  cases matched
  cases ranks
  cases contained
  rfl

variable [LinearOrder R] [Div R] [IntCast R]

section Scanned

variable (engine : Engine R J) (db : Database R J) (mode : Mode) (p : QueryArgs R J)

def exactScans : Scans where
  vec := vecLane engine db mode p
  seeds := seeds engine db p

def lanesOver (scans : Scans) : Lanes Uuid where
  vec := scans.vec
  bm := bmLane engine db mode p
  graph := graphLane engine db mode p scans.seeds

omit [Div R] [IntCast R] in
theorem lanesOver_vec (scans : Scans) : (lanesOver engine db mode p scans).vec = scans.vec := by
  rw [lanesOver]

omit [Div R] [IntCast R] in
theorem lanesOver_bm (scans : Scans) :
    (lanesOver engine db mode p scans).bm = bmLane engine db mode p := by
  rw [lanesOver]

omit [Div R] [IntCast R] in
theorem lanesOver_graph (scans : Scans) :
    (lanesOver engine db mode p scans).graph = graphLane engine db mode p scans.seeds := by
  rw [lanesOver]

end Scanned

theorem exactScans_alike {engine engine' : Engine R J} {db : Database R J} {mode : Mode}
    {p : QueryArgs R J} (alike : engine.Alike engine' p.q) :
    exactScans engine db mode p = exactScans engine' db mode p := by
  have near : nearness engine p = nearness engine' p := by
    funext embedding
    cases embedding with
    | none => rfl
    | some v => rw [nearness, nearness, alike.embed, alike.distance]
  have accepts : passes engine p = passes engine' p := by
    funext c
    rw [passes.eq_def, passes.eq_def, alike.contains]
  rw [exactScans, exactScans, vecLane, vecLane, vecHits, vecHits, seeds, seeds, seedHits, seedHits,
    near, accepts, alike.turn]

variable [Zero R] [Add R] [Mul R]

/-- The rows of the statement over what its scans return. -/
def queryOver (engine : Engine R J) (db : Database R J) (mode : Mode) (p : QueryArgs R J)
    (scans : Scans) : Except QueryError (List (ResultRow R)) :=
  limit p.topK (ranking engine (selected db (fused (lanesOver engine db mode p scans) p.weights)))

variable {engine engine' : Engine R J} {db : Database R J} {mode : Mode} {p : QueryArgs R J}

theorem queryOver_exact :
    queryOver engine db mode p (exactScans engine db mode p) = query engine db mode p := by
  rw [query, lanes]
  rfl

theorem queryOver_alike (alike : engine.Alike engine' p.q) (scans : Scans) :
    queryOver engine db mode p scans = queryOver engine' db mode p scans := by
  rw [alike.embedder]
  rfl

theorem query_same (alike : engine.Alike engine' p.q) :
    query engine db mode p = query engine' db mode p := by
  rw [← queryOver_exact, ← queryOver_exact, exactScans_alike alike, queryOver_alike alike]

theorem scanned_retrievable {scans : Scans} (exact : scans.vec = vecLane engine db mode p)
    {f : FusedRow Uuid R} (member : f ∈ fused (lanesOver engine db mode p scans) p.weights) :
    Retrievable engine db p f.id := by
  rcases fused_member member with ⟨row, listed, same⟩ | ⟨row, listed, same⟩ | ⟨row, listed, same⟩
  · rw [lanesOver_vec, exact] at listed
    rw [← same]
    exact vecLane_retrievable listed
  · rw [lanesOver_bm] at listed
    rw [← same]
    exact bmLane_retrievable listed
  · rw [lanesOver_graph] at listed
    rw [← same]
    exact graphLane_retrievable listed

end PgRaggraph

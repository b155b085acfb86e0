import PgRaggraph.Core.PgClient

/-! Entity resolution: merge into a stored candidate or insert a new row. -/

namespace PgRaggraph

open Interaction

variable {R : Type} [F32 R]

/-- `0.85_f32`, the correctly rounded quotient. -/
def trgmMerge : R := ((85 : Nat) : R) / ((100 : Nat) : R)

def cosineMerge : R := ((90 : Nat) : R) / ((100 : Nat) : R)

def trgmCandidateLimit : Nat := 8

def sum (xs : List R) : R := xs.foldl (· + ·) 0

def cosine (a b : List R) : R :=
  if a.length ≠ b.length ∨ a = [] then 0
  else
    let dot := sum (a.zipWith (· * ·) b)
    let na := F32.sqrt (sum (a.map (fun x => x * x)))
    let nb := F32.sqrt (sum (b.map (fun x => x * x)))
    if F32.eq na 0 || F32.eq nb 0 then 0 else dot / (na * nb)

def clears (incomingEmb : List R) (c : EntityCandidate R) : Bool :=
  !F32.lt c.trgmSimilarity trgmMerge &&
    match c.nameEmb with
    | some candEmb => F32.le cosineMerge (cosine incomingEmb candEmb)
    | none => false

def resolveOrInsertEntity (ns name : String) (kind : Option String) (incomingEmb : List R)
    (description : Option String) : Job R Uuid := do
  let cands ← fuzzyMatchEntity ns name trgmCandidateLimit
  match cands.find? (clears incomingEmb) with
  | some c => pure c.id
  | none =>
      let newId ← ExceptT.lift newUuid
      insertEntity
        { id := newId, ns := ns, name := name, kind := kind, nameEmb := some incomingEmb,
          description := description }
      pure newId

end PgRaggraph

import PgRaggraph.Library.Truncation
import PgRaggraph.Retrieval.Scans

/-! A query tells namespaces apart only as equal or not, so it answers alike where they have other
names. -/

namespace PgRaggraph

open Bag

variable {R J : Type} {f : String → String}

def StoredChunk.renamed (f : String → String) (c : StoredChunk R J) : StoredChunk R J :=
  { c with ns := f c.ns }

def EntityRow.renamed (f : String → String) (e : EntityRow R) : EntityRow R := { e with ns := f e.ns }

def RelRow.ends (r : RelRow R) : Uuid × Uuid := (r.srcId, r.dstId)

section Walk

variable {relationships relationships' : List (RelRow R)}

end Walk

section Lanes

variable {engine : Engine R J} {db db' : Database R J} {mode : Mode} {p : QueryArgs R J}

def QueryArgs.renamed (f : String → String) (p : QueryArgs R J) : QueryArgs R J :=
  { p with ns := f p.ns }

@[simp] theorem passes_renamed (c : StoredChunk R J) :
    passes engine (p.renamed f) (c.renamed f) = passes engine p c := rfl

variable [LinearOrder R]

variable [Div R] [IntCast R]

variable [Zero R] [Add R] [Mul R]

end Lanes

end PgRaggraph

import PgRaggraph.Core.PgClient
import Mathlib.Data.Nat.Pairing
import Mathlib.Order.Lattice

/-! Concrete parameters under which a run of the pipeline can be evaluated. -/

namespace PgRaggraph

/-- Fixed-point numbers with three decimals, in the place of `f32`. -/
structure Milli where
  value : Int
  deriving DecidableEq, Repr

namespace Milli

def rootFrom (n : Nat) : Nat → Nat → Nat
  | 0, guess => guess
  | fuel + 1, guess => rootFrom n fuel ((guess + n / guess) / 2)

instance : F32 Milli where
  zero := ⟨0⟩
  natCast n := ⟨n * 1000⟩
  add a b := ⟨a.value + b.value⟩
  mul a b := ⟨a.value * b.value / 1000⟩
  div a b := ⟨a.value * 1000 / b.value⟩
  sqrt a := ⟨rootFrom (a.value * 1000).toNat 32 (a.value * 1000).toNat⟩
  lt a b := a.value < b.value
  le a b := a.value ≤ b.value
  eq a b := a.value = b.value

instance : IntCast Milli := ⟨fun n => ⟨n * 1000⟩⟩

instance : LinearOrder Milli :=
  LinearOrder.lift' Milli.value (fun a b same => by
    cases a
    cases b
    exact congrArg Milli.mk same)

end Milli

def unitVector : List Milli := [⟨1000⟩]

/-- A hash that is injective on the samples and a chunker that keeps the text whole. -/
def Runtime.plain : Runtime where
  sha256 bytes := bytes.data.toList
  chunkshop :=
    { sentenceAware := fun text => [{ seqNum := 0, embeddedContent := text }]
      hierarchy := fun text => [{ seqNum := 0, embeddedContent := text }]
      fixedOverlap := .ok (fun text => [{ seqNum := 0, embeddedContent := text }])
      neighborExpand := fun text => [{ seqNum := 0, embeddedContent := text }] }
  toLowercase text := text
  utf8Error _ := "invalid utf-8 sequence"
  debug _ := "error"

def Environment.scripted (base : Nat) (extract : Nat → CoreResult (Extraction Milli)) :
    Environment Milli where
  readFile _ _ := .error "No such file or directory (os error 2)"
  embedBatch _ texts := .ok (texts.map (fun _ => unitVector))
  extract n _ _ := extract n
  newUuid n := base + n
  fresh := fun _ _ same => Nat.add_left_cancel same

def Environment.numbered (lane : Nat) (extract : Nat → CoreResult (Extraction Milli)) :
    Environment Milli :=
  { Environment.scripted 0 extract with
    newUuid := fun n => Nat.pair lane n
    fresh := fun _ _ same => (Nat.pair_eq_pair.mp same).2 }

theorem Environment.numbered_distinct {lane other n m : Nat}
    {extract : Nat → CoreResult (Extraction Milli)}
    (same : (Environment.numbered lane extract).newUuid n =
      (Environment.numbered other extract).newUuid m) : lane = other :=
  (Nat.pair_eq_pair.mp same).1

end PgRaggraph

import PgRaggraph.Core.Resolve

/-! `DeterministicEmbedder`, whose vectors are expanded from the hash of the text. -/

namespace PgRaggraph

variable {R : Type}

/-- What `deterministic_embed` takes from `sha2` and from `f32`; `floor` is `1e-12`. -/
structure Hashing (R : Type) where
  sha256 : Bytes → Vector UInt8 32
  sub : R → R → R
  floor : R

def toLeBytes (n : UInt32) : Bytes :=
  ⟨#[n.toUInt8, (n >>> 8).toUInt8, (n >>> 16).toUInt8, (n >>> 24).toUInt8]⟩

/-- `u32::from_le_bytes`, over `chunks_exact(4)`. -/
def wordsExact : List UInt8 → List UInt32
  | a :: b :: c :: d :: rest =>
      (a.toUInt32 + (b.toUInt32 <<< 8) + (c.toUInt32 <<< 16) + (d.toUInt32 <<< 24)) ::
        wordsExact rest
  | _ => []

section Embed

variable (hashing : Hashing R)

/-- The loop that hashes the text and a counter until there are enough bytes, in at most `left`
rounds. -/
def expand (text : String) (bytesNeeded : Nat) : Nat → UInt32 → List UInt8 → List UInt8
  | 0, _, buf => buf
  | left + 1, counter, buf =>
      if buf.length < bytesNeeded then
        expand text bytesNeeded left (counter + 1)
          (buf ++ (hashing.sha256 (text.toUTF8 ++ toLeBytes counter)).toList)
      else buf

variable [F32 R]

def component (u : UInt32) : R :=
  hashing.sub ((u.toNat : R) / ((4294967295 : Nat) : R) * ((2 : Nat) : R)) ((1 : Nat) : R)

/-- A round adds bytes, so `bytesNeeded` rounds suffice. -/
def deterministicEmbed (text : String) (dim : Nat) : List R :=
  let bytesNeeded := dim * 4
  let buf := (expand hashing text bytesNeeded bytesNeeded 0 []).take bytesNeeded
  let v := (wordsExact buf).map (component hashing)
  let norm := F32.sqrt (sum (v.map (fun x => x * x)))
  if F32.lt hashing.floor norm then v.map (· / norm) else v

end Embed

structure DeterministicEmbedder where
  dim : Nat
  deriving DecidableEq, Repr

namespace DeterministicEmbedder

variable [F32 R] (embedder : DeterministicEmbedder) (hashing : Hashing R)

def embed (text : String) : CoreResult (List R) :=
  .ok (deterministicEmbed hashing text embedder.dim)

def embedBatch (texts : List String) : CoreResult (List (List R)) :=
  texts.mapM (embedder.embed hashing)

end DeterministicEmbedder

section Lengths

variable {hashing : Hashing R}

theorem wordsExact_length (bytes : List UInt8) : (wordsExact bytes).length = bytes.length / 4 := by
  induction bytes using wordsExact.induct with
  | case1 a b c d rest ih =>
      rw [wordsExact, List.length_cons, ih]
      simp only [List.length_cons]
      omega
  | case2 bytes short =>
      match bytes with
      | [] => rfl
      | [_] => simp [wordsExact]
      | [_, _] => simp [wordsExact]
      | [_, _, _] => simp [wordsExact]
      | a :: b :: c :: d :: rest => exact absurd rfl (short a b c d rest)

theorem expand_length (text : String) {bytesNeeded : Nat} (left : Nat) (counter : UInt32)
    (buf : List UInt8) (enough : bytesNeeded ≤ buf.length + left) :
    bytesNeeded ≤ (expand hashing text bytesNeeded left counter buf).length := by
  induction left generalizing counter buf with
  | zero => exact enough
  | succ left ih =>
      rw [expand]
      split
      · apply ih
        rw [List.length_append, Vector.length_toList]
        omega
      · rename_i full
        exact Nat.not_lt.mp full

variable [F32 R]

theorem deterministicEmbed_length (text : String) (dim : Nat) :
    (deterministicEmbed hashing text dim).length = dim := by
  have buf : ((expand hashing text (dim * 4) (dim * 4) 0 []).take (dim * 4)).length = dim * 4 := by
    rw [List.length_take, Nat.min_eq_left]
    exact expand_length text (dim * 4) 0 [] (Nat.le_add_left _ _)
  have words : ((wordsExact ((expand hashing text (dim * 4) (dim * 4) 0 []).take
      (dim * 4))).map (component hashing)).length = dim := by
    rw [List.length_map, wordsExact_length, buf, Nat.mul_div_cancel _ (by decide)]
  rw [deterministicEmbed]
  split
  · rw [List.length_map, words]
  · exact words

theorem embedBatch_eq (embedder : DeterministicEmbedder) (texts : List String) :
    embedder.embedBatch hashing texts =
      .ok (texts.map (fun text => deterministicEmbed hashing text embedder.dim)) := by
  rw [DeterministicEmbedder.embedBatch]
  induction texts with
  | nil => rfl
  | cons text texts ih =>
      rw [List.mapM_cons, ih]
      rfl

end Lengths

end PgRaggraph

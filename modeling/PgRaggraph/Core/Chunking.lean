import PgRaggraph.Core.Types
import Mathlib.Data.List.Nodup

/-! Content hashing and the chunking facade.

SHA-256, the `chunkshop` chunkers and the texts of standard-library errors are outside the
repository and enter as the fields of `Runtime`. -/

namespace PgRaggraph

structure RawChunk where
  seqNum : Nat
  embeddedContent : String
  deriving DecidableEq, Repr

/-- The `chunkshop` chunkers under the configurations that `Chunker::chunk` passes.
Only the construction of the fixed-overlap chunker can fail. -/
structure Chunkshop where
  sentenceAware : String → List RawChunk
  hierarchy : String → List RawChunk
  fixedOverlap : Except String (String → List RawChunk)
  neighborExpand : String → List RawChunk

def Numbered (raws : List RawChunk) : Prop :=
  (raws.map (·.seqNum)).Nodup ∧ ∀ raw ∈ raws, raw.seqNum < 2147483648

structure Chunkshop.Numbering (shop : Chunkshop) : Prop where
  sentenceAware : ∀ text, Numbered (shop.sentenceAware text)
  hierarchy : ∀ text, Numbered (shop.hierarchy text)
  fixedOverlap : ∀ chunker, shop.fixedOverlap = .ok chunker → ∀ text, Numbered (chunker text)
  neighborExpand : ∀ text, Numbered (shop.neighborExpand text)

structure Runtime where
  sha256 : Bytes → List UInt8
  chunkshop : Chunkshop
  toLowercase : String → String
  utf8Error : Bytes → String
  debug : CoreError → String

def hexByte (byte : UInt8) : String :=
  String.ofList [Nat.digitChar (byte.toNat / 16), Nat.digitChar (byte.toNat % 16)]

def contentHash (rt : Runtime) (bytes : Bytes) : String :=
  (rt.sha256 bytes).foldl (fun hex byte => hex ++ hexByte byte) ""

inductive ChunkStrategy where
  | auto
  | hierarchy
  | semantic
  | sentenceAware
  | fixedOverlap
  | neighborExpand
  deriving DecidableEq, Repr

def ChunkStrategy.parse : String → Option ChunkStrategy
  | "auto" => some .auto
  | "hierarchy" => some .hierarchy
  | "semantic" => some .semantic
  | "sentence_aware" => some .sentenceAware
  | "fixed_overlap" => some .fixedOverlap
  | "neighbor_expand" => some .neighborExpand
  | _ => none

structure Chunk where
  ord : Int
  text : String
  tokenCount : Int
  deriving DecidableEq, Repr

def i32Max : Nat := 2147483647

/-- `i32::try_from(n).unwrap_or(i32::MAX)`. -/
def capI32 (n : Nat) : Int := if n ≤ i32Max then n else i32Max

/-- The Unicode `White_Space` property, which `split_whitespace` splits on. -/
def isWhiteSpace (c : Char) : Bool :=
  (0x9 ≤ c.val && c.val ≤ 0xD) || c.val == 0x20 || c.val == 0x85 || c.val == 0xA0 ||
  c.val == 0x1680 || (0x2000 ≤ c.val && c.val ≤ 0x200A) || c.val == 0x2028 || c.val == 0x2029 ||
  c.val == 0x202F || c.val == 0x205F || c.val == 0x3000

def wordCount : Bool → List Char → Nat
  | _, [] => 0
  | inWord, c :: rest =>
      if isWhiteSpace c then wordCount false rest
      else (if inWord then 0 else 1) + wordCount true rest

def Chunk.ofRaw (raw : RawChunk) : Chunk where
  ord := capI32 raw.seqNum
  text := raw.embeddedContent
  tokenCount := capI32 (wordCount false raw.embeddedContent.toList)

def semanticNotWired : CoreError := .invalidConfig
  ("strategy `semantic` requires a fastembed boundary-model load and " ++
   "is not yet wired in pg_raggraph_core; use `auto` or " ++
   "`sentence_aware` for the queued worker")

def Chunker.chunk (shop : Chunkshop) (strategy : ChunkStrategy) (text : String) :
    CoreResult (List Chunk) :=
  match strategy with
  | .auto | .sentenceAware => .ok ((shop.sentenceAware text).map Chunk.ofRaw)
  | .hierarchy => .ok ((shop.hierarchy text).map Chunk.ofRaw)
  | .fixedOverlap =>
      match shop.fixedOverlap with
      | .ok chunker => .ok ((chunker text).map Chunk.ofRaw)
      | .error e => .error (.invalidConfig s!"fixed_overlap construction failed: {e}")
  | .neighborExpand => .ok ((shop.neighborExpand text).map Chunk.ofRaw)
  | .semantic => .error semanticNotWired

theorem Numbered.ords {raws : List RawChunk} (numbered : Numbered raws) :
    ((raws.map Chunk.ofRaw).map (fun chunk => chunk.ord)).Nodup := by
  have cast : (raws.map Chunk.ofRaw).map (fun chunk => chunk.ord) =
      (raws.map RawChunk.seqNum).map Int.ofNat := by
    rw [List.map_map, List.map_map]
    apply List.map_congr_left
    intro raw member
    have small := numbered.2 raw member
    exact if_pos (Nat.le_of_lt_succ small)
  rw [cast]
  exact numbered.1.map (fun _ _ same => Int.ofNat.inj same)

theorem chunk_ords {shop : Chunkshop} (numbering : shop.Numbering) {strategy : ChunkStrategy}
    {text : String} {chunks : List Chunk} (chunked : Chunker.chunk shop strategy text = .ok chunks) :
    (chunks.map (fun chunk => chunk.ord)).Nodup := by
  cases strategy with
  | auto =>
      cases chunked
      exact (numbering.sentenceAware text).ords
  | sentenceAware =>
      cases chunked
      exact (numbering.sentenceAware text).ords
  | hierarchy =>
      cases chunked
      exact (numbering.hierarchy text).ords
  | fixedOverlap =>
      rw [Chunker.chunk] at chunked
      split at chunked
      · rename_i chunker built
        cases chunked
        exact (numbering.fixedOverlap chunker built text).ords
      · cases chunked
  | neighborExpand =>
      cases chunked
      exact (numbering.neighborExpand text).ords
  | semantic => cases chunked

end PgRaggraph

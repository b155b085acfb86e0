import PgRaggraph.Core.PgClient
import PgRaggraph.Library.Shingles

/-! Trigram similarity in exact rational arithmetic. -/

namespace PgRaggraph

open Shingles

/-- Rationals in the place of `f32`: no result is rounded, and a quotient by zero is no number. -/
inductive Exact where
  | number (q : ℚ)
  | undefined
  deriving DecidableEq

namespace Exact

def lift (f : ℚ → ℚ → ℚ) : Exact → Exact → Exact
  | number x, number y => number (f x y)
  | _, _ => undefined

def compare (r : ℚ → ℚ → Bool) : Exact → Exact → Bool
  | number x, number y => r x y
  | _, _ => false

def div : Exact → Exact → Exact
  | number x, number y => if y = 0 then undefined else number (x / y)
  | _, _ => undefined

-- Roots of rationals are seldom rational, and the similarity takes none.
instance : F32 Exact where
  zero := number 0
  natCast n := number n
  add := lift (· + ·)
  mul := lift (· * ·)
  div := div
  sqrt := fun _ => undefined
  lt := compare (fun x y => decide (x < y))
  le := compare (fun x y => decide (x ≤ y))
  eq := compare (fun x y => decide (x = y))

end Exact

section Sets

variable {rt : Runtime} {a b : String}

theorem trigrams_windows (chars : List Char) : trigrams chars = windows 3 chars := by
  fun_induction trigrams chars with
  | case1 a b c rest ih =>
      have fits : 3 ≤ (b :: c :: rest).length + 1 := by simp
      rw [windows_cons fits, ih]
      rfl
  | case2 chars few =>
      have short : chars.length < 3 := by
        match chars, few with
        | [], _ => simp
        | [_], _ => simp
        | [_, _], _ => simp
        | a :: b :: c :: rest, few => exact absurd rfl (few a b c rest)
      exact (windows_short short).symm

def padded (rt : Runtime) (s : String) : List Char :=
  [' ', ' '] ++ (rt.toLowercase s).toList ++ [' ', ' ']

theorem trigramSet_padded (s : String) :
    trigramSet rt s = (windows 3 (padded rt s)).toFinset := by
  have chars : ("  " ++ rt.toLowercase s ++ "  ").toList = padded rt s := by
    simp [padded, String.toList_append]
  rw [trigramSet, chars, trigrams_windows]

theorem mem_trigramSet {s : String} {w : List Char} :
    w ∈ trigramSet rt s ↔ w.length = 3 ∧ w <:+: padded rt s := by
  rw [trigramSet_padded, List.mem_toFinset, mem_windows (by omega)]

theorem trigramSet_nonempty (rt : Runtime) (s : String) : (trigramSet rt s).Nonempty := by
  have long : 3 ≤ (padded rt s).length := by simp [padded]
  refine ⟨(padded rt s).take 3, mem_trigramSet.mpr ⟨List.length_take_of_le long, ?_⟩⟩
  exact (List.take_prefix 3 _).isInfix

theorem union_nonempty (rt : Runtime) (a b : String) :
    (trigramSet rt a ∪ trigramSet rt b).Nonempty :=
  (trigramSet_nonempty rt a).inl

theorem trigramSet_lower {a' : String} (lower : rt.toLowercase a' = rt.toLowercase a) :
    trigramSet rt a' = trigramSet rt a := by
  rw [trigramSet, lower, trigramSet]

def SameTrigrams (rt : Runtime) (a b : String) : Prop :=
  ∀ w : List Char, w.length = 3 → (w <:+: padded rt a ↔ w <:+: padded rt b)

theorem sameTrigrams_iff : SameTrigrams rt a b ↔ trigramSet rt a = trigramSet rt b := by
  constructor
  · intro same
    ext w
    rw [mem_trigramSet, mem_trigramSet]
    exact and_congr_right (same w)
  · intro same w length
    have member : w ∈ trigramSet rt a ↔ w ∈ trigramSet rt b := by rw [same]
    simpa [mem_trigramSet, length] using member

end Sets

section Similarity

variable (rt : Runtime) (a b : String)

theorem trgmSim_exact : trgmSim (R := Exact) rt a b =
    .number (similarity (trigramSet rt a) (trigramSet rt b)) := by
  have divisor : ((trigramSet rt a ∪ trigramSet rt b).card : ℚ) ≠ 0 := by
    exact_mod_cast (Finset.card_pos.mpr (union_nonempty rt a b)).ne'
  calc trgmSim (R := Exact) rt a b
    _ = Exact.div (.number (trigramSet rt a ∩ trigramSet rt b).card)
          (.number (trigramSet rt a ∪ trigramSet rt b).card) :=
        if_neg (fun zero => divisor (of_decide_eq_true zero))
    _ = .number (similarity (trigramSet rt a) (trigramSet rt b)) := if_neg divisor

theorem similarity_eq_one_iff_same :
    similarity (trigramSet rt a) (trigramSet rt b) = 1 ↔ SameTrigrams rt a b := by
  rw [similarity_eq_one_iff (union_nonempty rt a b), sameTrigrams_iff]

/-- The similarity is a number between zero and one, the same in both orders and for all strings that
are lower-cased alike, and it is one for the same trigrams alone. -/
theorem trgmSim_laws : ∃ q : ℚ,
    trgmSim (R := Exact) rt a b = .number q ∧ 0 ≤ q ∧ q ≤ 1 ∧
    trgmSim (R := Exact) rt b a = .number q ∧
    (∀ a' b', rt.toLowercase a' = rt.toLowercase a → rt.toLowercase b' = rt.toLowercase b →
      trgmSim (R := Exact) rt a' b' = .number q) ∧
    (q = 1 ↔ SameTrigrams rt a b) ∧
    trgmSim (R := Exact) rt a a = .number 1 := by
  refine ⟨similarity (trigramSet rt a) (trigramSet rt b), trgmSim_exact rt a b,
    similarity_nonneg _ _, similarity_le_one _ _, ?symmetric, ?lowered,
    similarity_eq_one_iff_same rt a b, ?same⟩
  case symmetric => rw [trgmSim_exact, similarity_comm]
  case lowered =>
    intro a' b' first second
    rw [trgmSim_exact, trigramSet_lower first, trigramSet_lower second]
  case same => rw [trgmSim_exact, similarity_self (trigramSet_nonempty rt a)]

end Similarity

end PgRaggraph

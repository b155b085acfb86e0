import Mathlib.Data.List.Basic
import Mathlib.Tactic.Common

/-! The base64 of RFC 4648 without padding, over its standard alphabet. -/

namespace Base64

def symbol (n : Nat) : Char :=
  if n < 26 then Char.ofNat (n + 65)
  else if n < 52 then Char.ofNat (n + 71)
  else if n < 62 then Char.ofNat (n - 4)
  else if n = 62 then '+'
  else '/'

def value (c : Char) : Option Nat :=
  if 65 ≤ c.toNat ∧ c.toNat ≤ 90 then some (c.toNat - 65)
  else if 97 ≤ c.toNat ∧ c.toNat ≤ 122 then some (c.toNat - 71)
  else if 48 ≤ c.toNat ∧ c.toNat ≤ 57 then some (c.toNat + 4)
  else if c = '+' then some 62
  else if c = '/' then some 63
  else none

def sextets : List UInt8 → List Nat
  | a :: b :: c :: rest =>
      a.toNat / 4 :: (a.toNat % 4 * 16 + b.toNat / 16) :: (b.toNat % 16 * 4 + c.toNat / 64) ::
        c.toNat % 64 :: sextets rest
  | [a, b] => [a.toNat / 4, a.toNat % 4 * 16 + b.toNat / 16, b.toNat % 16 * 4]
  | [a] => [a.toNat / 4, a.toNat % 4 * 16]
  | [] => []

/-- The bits that a last group leaves over must be zero. -/
def octets : List Nat → Option (List UInt8)
  | w :: x :: y :: z :: rest =>
      (octets rest).map (fun bytes =>
        UInt8.ofNat (w * 4 + x / 16) :: UInt8.ofNat (x % 16 * 16 + y / 4) ::
          UInt8.ofNat (y % 4 * 64 + z) :: bytes)
  | [w, x, y] =>
      if y % 4 = 0 then some [UInt8.ofNat (w * 4 + x / 16), UInt8.ofNat (x % 16 * 16 + y / 4)]
      else none
  | [w, x] => if x % 16 = 0 then some [UInt8.ofNat (w * 4 + x / 16)] else none
  | [_] => none
  | [] => some []

def encode (bytes : List UInt8) : String := String.ofList ((sextets bytes).map symbol)

def decode (text : String) : Option (List UInt8) := (text.toList.mapM value).bind octets

theorem value_symbol {n : Nat} (small : n < 64) : value (symbol n) = some n := by
  have all : ∀ k : Fin 64, value (symbol k) = some k.val := by decide
  exact all ⟨n, small⟩

theorem symbol_value {c : Char} {n : Nat} (coded : value c = some n) : n < 64 ∧ symbol n = c := by
  have itself : Char.ofNat c.toNat = c := Char.ofNat_toNat c
  rw [value] at coded
  split at coded
  · rename_i upper
    cases coded
    refine ⟨by omega, ?_⟩
    rw [symbol, if_pos (by omega), Nat.sub_add_cancel upper.1, itself]
  split at coded
  · rename_i lower
    cases coded
    refine ⟨by omega, ?_⟩
    rw [symbol, if_neg (by omega), if_pos (by omega), Nat.sub_add_cancel (by omega), itself]
  split at coded
  · rename_i digit
    cases coded
    refine ⟨by omega, ?_⟩
    rw [symbol, if_neg (by omega), if_neg (by omega), if_pos (by omega), Nat.add_sub_cancel, itself]
  split at coded
  · rename_i plus
    cases coded
    exact ⟨by decide, plus.symm⟩
  split at coded
  · rename_i slash
    cases coded
    exact ⟨by decide, slash.symm⟩
  · cases coded

theorem symbol_ne_colon {n : Nat} (small : n < 64) : symbol n ≠ ':' := by
  have all : ∀ k : Fin 64, symbol k ≠ ':' := by decide
  exact all ⟨n, small⟩

theorem mapM_value {text : List Char} {ns : List Nat} :
    text.mapM value = some ns ↔ (∀ n ∈ ns, n < 64) ∧ ns.map symbol = text := by
  induction text generalizing ns with
  | nil =>
      constructor
      · intro coded
        cases coded
        exact ⟨nofun, rfl⟩
      · rintro ⟨-, same⟩
        rw [List.map_eq_nil_iff] at same
        rw [same]
        rfl
  | cons c text ih =>
      rw [List.mapM_cons]
      constructor
      · intro coded
        rcases Option.bind_eq_some_iff.mp coded with ⟨n, first, coded⟩
        rcases Option.bind_eq_some_iff.mp coded with ⟨rest, others, coded⟩
        cases coded
        rcases symbol_value first with ⟨small, same⟩
        rcases ih.mp others with ⟨smalls, sames⟩
        refine ⟨List.forall_mem_cons.mpr ⟨small, smalls⟩, ?_⟩
        rw [List.map_cons, same, sames]
      · rintro ⟨smalls, same⟩
        cases ns with
        | nil => cases same
        | cons n rest =>
            rw [List.map_cons, List.cons.injEq] at same
            rcases List.forall_mem_cons.mp smalls with ⟨small, smalls⟩
            rw [← same.1, value_symbol small, ih.mpr ⟨smalls, same.2⟩]
            rfl

theorem sextets_small (bytes : List UInt8) : ∀ n ∈ sextets bytes, n < 64 := by
  induction bytes using sextets.induct with
  | case1 a b c rest ih =>
      have small := a.toNat_lt
      have small' := b.toNat_lt
      have small'' := c.toNat_lt
      simp only [sextets, List.forall_mem_cons]
      exact ⟨by omega, by omega, by omega, by omega, ih⟩
  | case2 a b =>
      have small := a.toNat_lt
      have small' := b.toNat_lt
      simp only [sextets, List.forall_mem_cons]
      exact ⟨by omega, by omega, by omega, nofun⟩
  | case3 a =>
      have small := a.toNat_lt
      simp only [sextets, List.forall_mem_cons]
      exact ⟨by omega, by omega, nofun⟩
  | case4 => exact nofun

theorem octet_eq {n : Nat} {a : UInt8} (same : n = a.toNat) : UInt8.ofNat n = a := by
  rw [same, UInt8.ofNat_toNat]

theorem octets_sextets (bytes : List UInt8) : octets (sextets bytes) = some bytes := by
  induction bytes using sextets.induct with
  | case1 a b c rest ih =>
      have small := b.toNat_lt
      have small' := c.toNat_lt
      rw [sextets, octets, ih, Option.map_some, octet_eq (a := a) (by omega),
        octet_eq (a := b) (by omega), octet_eq (a := c) (by omega)]
  | case2 a b =>
      have small := b.toNat_lt
      rw [sextets, octets, if_pos (by omega), octet_eq (a := a) (by omega),
        octet_eq (a := b) (by omega)]
  | case3 a => rw [sextets, octets, if_pos (by omega), octet_eq (a := a) (by omega)]
  | case4 => rfl

theorem sextets_octets {ns : List Nat} {bytes : List UInt8} (small : ∀ n ∈ ns, n < 64)
    (decoded : octets ns = some bytes) : sextets bytes = ns := by
  induction ns using octets.induct generalizing bytes with
  | case1 w x y z rest ih =>
      rw [octets] at decoded
      rcases Option.map_eq_some_iff.mp decoded with ⟨others, later, rfl⟩
      simp only [List.forall_mem_cons] at small
      rcases small with ⟨hw, hx, hy, hz, small⟩
      rw [sextets, ih small later]
      simp only [UInt8.toNat_ofNat', List.cons.injEq, and_true]
      exact ⟨by omega, by omega, by omega, by omega⟩
  | case2 w x y even =>
      rw [octets, if_pos even] at decoded
      cases decoded
      simp only [List.forall_mem_cons] at small
      rcases small with ⟨hw, hx, hy, -⟩
      rw [sextets]
      simp only [UInt8.toNat_ofNat', List.cons.injEq, and_true]
      exact ⟨by omega, by omega, by omega⟩
  | case3 w x y odd =>
      rw [octets, if_neg odd] at decoded
      cases decoded
  | case4 w x even =>
      rw [octets, if_pos even] at decoded
      cases decoded
      simp only [List.forall_mem_cons] at small
      rcases small with ⟨hw, hx, -⟩
      rw [sextets]
      simp only [UInt8.toNat_ofNat', List.cons.injEq, and_true]
      exact ⟨by omega, by omega⟩
  | case5 w x odd =>
      rw [octets, if_neg odd] at decoded
      cases decoded
  | case6 w => cases decoded
  | case7 =>
      cases decoded
      rfl

theorem decode_encode (bytes : List UInt8) : decode (encode bytes) = some bytes := by
  have coded : (encode bytes).toList.mapM value = some (sextets bytes) := by
    rw [encode, String.toList_ofList]
    exact mapM_value.mpr ⟨sextets_small bytes, rfl⟩
  rw [decode, coded]
  exact octets_sextets bytes

theorem encode_decode {text : String} {bytes : List UInt8} (decoded : decode text = some bytes) :
    encode bytes = text := by
  rcases Option.bind_eq_some_iff.mp decoded with ⟨ns, coded, decoded⟩
  rcases mapM_value.mp coded with ⟨small, same⟩
  rw [encode, sextets_octets small decoded, same, String.ofList_toList]

theorem decode_eq_some_iff {text : String} {bytes : List UInt8} :
    decode text = some bytes ↔ text = encode bytes := by
  constructor
  · intro decoded
    exact (encode_decode decoded).symm
  · rintro rfl
    exact decode_encode bytes

theorem encode_no_colon (bytes : List UInt8) : ':' ∉ (encode bytes).toList := by
  rw [encode, String.toList_ofList, List.mem_map]
  rintro ⟨n, member, same⟩
  exact symbol_ne_colon (sextets_small bytes n member) same

end Base64

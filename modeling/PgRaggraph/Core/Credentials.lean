import PgRaggraph.Core.Envelope
import PgRaggraph.Library.Base64

/-! The codec of the storage form: what `encrypt_v1` builds and what `decrypt_v1` accepts. -/

namespace PgRaggraph

variable {R : Type}

/-- `STANDARD_NO_PAD` is the base64 without padding that refuses every text but the one it writes,
and what AES-GCM encrypts it decrypts under the same key and nonce. -/
structure SealingCrates.Standard (crates : SealingCrates R) : Prop where
  encodes : ∀ bytes, crates.encodeBase64 bytes = Base64.encode bytes
  decodes : ∀ text bytes, crates.decodeBase64 text = .ok bytes ↔ Base64.decode text = some bytes
  decrypts : ∀ key nonce plaintext ciphertext,
    crates.aesGcmEncrypt key nonce plaintext = .ok ciphertext →
      crates.aesGcmDecrypt key nonce ciphertext = .ok plaintext

theorem SealingCrates.Standard.documented {crates : SealingCrates R} (standard : crates.Standard) :
    crates.Documented where
  alphabet := by
    intro text bytes decoded
    rw [Base64.decode_eq_some_iff.mp ((standard.decodes text bytes).mp decoded)]
    exact Base64.encode_no_colon bytes
  decodes := by
    intro bytes
    rw [standard.encodes]
    exact (standard.decodes _ _).mpr (Base64.decode_encode bytes)
  decrypts := standard.decrypts

structure Spells (crates : Crates R) (envelope : String) (nonce ct : List UInt8) : Prop where
  parts : ∃ rest nonceB64 ctB64, stripPrefix envPrefix envelope = some rest ∧
    splitOnce ':' rest = some (nonceB64, ctB64) ∧ crates.decodeBase64 nonceB64 = .ok nonce ∧
      crates.decodeBase64 ctB64 = .ok ct

theorem Spells.canonical {crates : SealingCrates R} (standard : crates.Standard) {envelope : String}
    {nonce ct : List UInt8} (spells : Spells crates.toCrates envelope nonce ct) :
    envelope = storageForm (Base64.encode nonce) (Base64.encode ct) := by
  rcases spells.parts with ⟨rest, nonceB64, ctB64, stripped, parted, nonceDecodes, ctDecodes⟩
  have front := Base64.decode_eq_some_iff.mp ((standard.decodes _ _).mp nonceDecodes)
  have back := Base64.decode_eq_some_iff.mp ((standard.decodes _ _).mp ctDecodes)
  rw [← front, ← back, ← String.toList_inj, storageForm_chars, stripPrefix_some stripped,
    (splitOnce_some parted).2]

theorem spells_storageForm {crates : Crates R} {nonceB64 ctB64 : String} {nonce ct : List UInt8}
    (undivided : ':' ∉ nonceB64.toList) (nonceDecodes : crates.decodeBase64 nonceB64 = .ok nonce)
    (ctDecodes : crates.decodeBase64 ctB64 = .ok ct) :
    Spells crates (storageForm nonceB64 ctB64) nonce ct := by
  have parted : splitOnce ':' (String.ofList (nonceB64.toList ++ ':' :: ctB64.toList)) = _ :=
    splitOnce_first undivided
  rw [String.ofList_toList, String.ofList_toList] at parted
  exact ⟨_, nonceB64, ctB64, stripPrefix_chars (storageForm_chars nonceB64 ctB64), parted,
    nonceDecodes, ctDecodes⟩

/-- What `encrypt_v1` builds looks encrypted and decrypts to its plaintext. What `decrypt_v1`
accepts looks encrypted and is the storage form of a nonce and a ciphertext in their standard
base64, and no other string spells the two. `encrypt_v1` builds one whenever the cipher does. -/
theorem envelope_codec (crates : SealingCrates R) (standard : crates.Standard) :
    (∀ plaintext key nonce envelope,
      encryptV1 crates (.ok nonce) plaintext key = .ok envelope →
        isEncrypted envelope = true ∧ decryptV1 crates.toCrates envelope key = .ok plaintext) ∧
    (∀ s key plaintext, decryptV1 crates.toCrates s key = .ok plaintext →
      isEncrypted s = true ∧ ∃ nonce : Nonce, ∃ ct,
        s = storageForm (Base64.encode nonce.bytes) (Base64.encode ct) ∧
          Spells crates.toCrates s nonce.bytes ct ∧
            ∀ other, Spells crates.toCrates other nonce.bytes ct → other = s) ∧
    ∀ plaintext (key : MasterKey) (nonce : Nonce) ct,
      crates.aesGcmEncrypt key.bytes nonce.bytes (utf8 plaintext) = .ok ct →
        encryptV1 crates (.ok nonce) plaintext key =
          .ok (storageForm (Base64.encode nonce.bytes) (Base64.encode ct)) := by
  have documented := standard.documented
  refine ⟨?_, ?_, ?_⟩
  · intro plaintext key nonce envelope encrypted
    rcases encryptV1_ok encrypted with ⟨drawn, ct, same, sealed, rfl⟩
    have opened := decrypts_sealed documented sealed
    exact ⟨isEncrypted_of_decrypts documented opened, opened⟩
  · intro s key plaintext opened
    refine ⟨isEncrypted_of_decrypts documented opened, ?_⟩
    rcases decryptV1_ok opened with ⟨nonceB64, ctB64, rfl, ⟨opens⟩⟩
    have spells : Spells crates.toCrates (storageForm nonceB64 ctB64) opens.nonce opens.ct :=
      spells_storageForm opens.undivided opens.nonceDecodes opens.ctDecodes
    have canonical := spells.canonical standard
    refine ⟨⟨opens.nonce, opens.sized⟩, opens.ct, canonical, spells, ?_⟩
    intro other alike
    rw [alike.canonical standard, canonical]
  · intro plaintext key nonce ct sealed
    rw [← standard.encodes, ← standard.encodes]
    exact mapped_bind_ok.mpr ⟨nonce, rfl, mapped_bind_ok.mpr ⟨ct, sealed, rfl⟩⟩

section Sample

def SealingCrates.tagging : SealingCrates R where
  encodeBase64 := Base64.encode
  decodeBase64 text :=
    match Base64.decode text with
    | some bytes => .ok bytes
    | none => .error "Invalid symbol, padding or trailing bits."
  aesGcmEncrypt _ _ plaintext := .ok (plaintext ++ List.replicate 16 0)
  aesGcmDecrypt _ _ ciphertext := .ok (ciphertext.take (ciphertext.length - 16))
  extractionFromStr _ := .error "expected value at line 1 column 1"
  fromUtf8Error _ := "invalid utf-8 sequence of 1 bytes from index 0"

theorem SealingCrates.tagging_standard : (tagging : SealingCrates R).Standard where
  encodes := fun _ => rfl
  decodes := by
    intro text bytes
    simp only [tagging]
    cases Base64.decode text with
    | none => simp
    | some decoded => simp
  decrypts := by
    intro key nonce plaintext ciphertext encrypted
    cases encrypted
    simp [tagging]

theorem envelope_codec_sample :
    isEncrypted "enc:v1:AAAAAAAAAAAAAAAA:c2sAAAAAAAAAAAAAAAAAAAAA" = true ∧
      decryptV1 (SealingCrates.tagging (R := Nat)).toCrates
        "enc:v1:AAAAAAAAAAAAAAAA:c2sAAAAAAAAAAAAAAAAAAAAA" ⟨List.replicate 32 0, rfl⟩ =
          .ok "sk" :=
  (envelope_codec SealingCrates.tagging SealingCrates.tagging_standard).1 "sk" _
    ⟨List.replicate 12 0, rfl⟩ _ (by decide +kernel)

end Sample

end PgRaggraph

import PgRaggraph.Core.Providers

/-! The storage form of an encrypted credential, what writes it and what reads it. -/

namespace PgRaggraph

variable {R : Type}

structure SealingCrates (R : Type) extends Crates R where
  encodeBase64 : List UInt8 → String
  aesGcmEncrypt : (key nonce plaintext : List UInt8) → Except String (List UInt8)

/-- The alphabet has no colon, what is encoded decodes, and what is encrypted decrypts under the
same key and nonce. -/
structure SealingCrates.Documented (crates : SealingCrates R) : Prop where
  alphabet : ∀ text bytes, crates.decodeBase64 text = .ok bytes → ':' ∉ text.toList
  decodes : ∀ bytes, crates.decodeBase64 (crates.encodeBase64 bytes) = .ok bytes
  decrypts : ∀ key nonce plaintext ciphertext,
    crates.aesGcmEncrypt key nonce plaintext = .ok ciphertext →
      crates.aesGcmDecrypt key nonce ciphertext = .ok plaintext

structure Nonce where
  bytes : List UInt8
  sized : bytes.length = nonceLen

/-- `enc:v1:<base64(nonce)>:<base64(ciphertext|tag)>`. -/
def storageForm (nonceB64 ctB64 : String) : String := s!"{envPrefix}{nonceB64}:{ctB64}"

def utf8 (s : String) : List UInt8 := s.toUTF8.data.toList

def encryptV1 (crates : SealingCrates R) (random : Except String Nonce) (plaintext : String)
    (key : MasterKey) : CoreResult String := do
  let nonce ← random.mapError (fun e => .crypto s!"nonce rng: {e}")
  let ct ← (crates.aesGcmEncrypt key.bytes nonce.bytes (utf8 plaintext)).mapError
    (fun e => .crypto s!"encrypt: {e}")
  return storageForm (crates.encodeBase64 nonce.bytes) (crates.encodeBase64 ct)

section Peeling

variable {ε δ α β : Type}

theorem mapped_bind_ok {x : Except ε α} {display : ε → δ} {f : α → Except δ β} {b : β} :
    (x.mapError display >>= f) = .ok b ↔ ∃ a, x = .ok a ∧ f a = .ok b := by
  cases x with
  | error e =>
      constructor
      · intro same
        cases same
      · rintro ⟨a, same, -⟩
        cases same
  | ok a =>
      constructor
      · intro same
        exact ⟨a, rfl, same⟩
      · rintro ⟨other, same, result⟩
        cases same
        exact result

end Peeling

theorem storageForm_chars (nonceB64 ctB64 : String) : (storageForm nonceB64 ctB64).toList =
    envPrefix.toList ++ (nonceB64.toList ++ ':' :: ctB64.toList) := by
  have form : storageForm nonceB64 ctB64 = envPrefix ++ nonceB64 ++ ":" ++ ctB64 := rfl
  rw [form, String.toList_append, String.toList_append, String.toList_append, List.append_assoc,
    List.append_assoc]
  rfl

theorem splitOn_length (separator : Char) (text : List Char) :
    (text.splitOn separator).length = text.count separator + 1 := by
  induction text with
  | nil => rfl
  | cons c rest ih =>
      rw [List.splitOn_cons_eq_if_modifyHead, List.count_cons]
      by_cases here : (c == separator) = true
      · rw [if_pos here, if_pos here, List.length_cons, ih]
      · rw [if_neg here, if_neg here, List.length_modifyHead, ih]

theorem isEncrypted_iff (s : String) : isEncrypted s = true ↔
    ∃ rest, s.toList = envPrefix.toList ++ rest ∧ rest.count ':' = 1 := by
  have front : envPrefix.toList.count ':' = 2 := by decide
  rw [isEncrypted, Bool.and_eq_true, List.isPrefixOf_iff_prefix, beq_iff_eq, splitOn_length]
  constructor
  · rintro ⟨⟨rest, whole⟩, colons⟩
    rw [← whole, List.count_append, front] at colons
    exact ⟨rest, whole.symm, by omega⟩
  · rintro ⟨rest, whole, colons⟩
    rw [whole, List.count_append, front, colons]
    exact ⟨List.prefix_append _ _, rfl⟩

theorem storageForm_encrypted {nonceB64 ctB64 : String} (nonce : ':' ∉ nonceB64.toList)
    (ct : ':' ∉ ctB64.toList) : isEncrypted (storageForm nonceB64 ctB64) = true := by
  rw [isEncrypted_iff]
  refine ⟨_, storageForm_chars _ _, ?_⟩
  rw [List.count_append, List.count_cons_self, List.count_eq_zero.mpr nonce,
    List.count_eq_zero.mpr ct]

theorem stripPrefix_chars {front s : String} {rest : List Char}
    (whole : s.toList = front.toList ++ rest) : stripPrefix front s = some (String.ofList rest) := by
  rw [stripPrefix, whole, if_pos (List.isPrefixOf_iff_prefix.mpr (List.prefix_append _ _)),
    List.drop_left]

theorem stripPrefix_some {front s rest : String} (stripped : stripPrefix front s = some rest) :
    s.toList = front.toList ++ rest.toList := by
  rw [stripPrefix] at stripped
  split at stripped
  · rename_i isFront
    rcases List.isPrefixOf_iff_prefix.mp isFront with ⟨back, whole⟩
    rw [← whole, List.drop_left, Option.some.injEq] at stripped
    rw [← stripped, String.toList_ofList, whole]
  · cases stripped

theorem splitOnce_first {separator : Char} {front back : List Char} (none : separator ∉ front) :
    splitOnce separator (String.ofList (front ++ separator :: back)) =
      some (String.ofList front, String.ofList back) := by
  have differs : ∀ c ∈ front, (c != separator) = true := by
    intro c member
    rw [bne_iff_ne]
    rintro rfl
    exact none member
  rw [splitOnce, String.toList_ofList, List.dropWhile_append_of_pos differs,
    List.takeWhile_append_of_pos differs]
  simp

theorem splitOnce_some {separator : Char} {s front back : String}
    (parted : splitOnce separator s = some (front, back)) :
    separator ∉ front.toList ∧ s.toList = front.toList ++ separator :: back.toList := by
  have whole := List.takeWhile_append_dropWhile (p := (· != separator)) (l := s.toList)
  rw [splitOnce] at parted
  cases later : s.toList.dropWhile (· != separator) with
  | nil =>
      rw [later] at parted
      cases parted
  | cons c rest =>
      rw [later] at parted whole
      cases parted
      have first : (c != separator) = false := by
        have heads := List.head?_dropWhile_not (· != separator) s.toList
        rw [later] at heads
        exact heads
      rw [bne_eq_false_iff_eq] at first
      rw [String.toList_ofList, String.toList_ofList, ← first]
      refine ⟨?_, ?_⟩
      · intro member
        have kept := List.all_eq_true.mp List.all_takeWhile _ member
        rw [first, bne_self_eq_false] at kept
        cases kept
      · rw [← first] at whole
        exact whole.symm

structure Opens (crates : Crates R) (key : MasterKey) (nonceB64 ctB64 plaintext : String) where
  nonce : List UInt8
  ct : List UInt8
  pt : List UInt8
  undivided : ':' ∉ nonceB64.toList
  nonceDecodes : crates.decodeBase64 nonceB64 = .ok nonce
  sized : nonce.length = nonceLen
  ctDecodes : crates.decodeBase64 ctB64 = .ok ct
  authentic : crates.aesGcmDecrypt key.bytes nonce ct = .ok pt
  text : String.fromUTF8? ⟨pt.toArray⟩ = some plaintext

theorem decryptV1_opens {crates : Crates R} {key : MasterKey} {nonceB64 ctB64 plaintext : String}
    (opens : Opens crates key nonceB64 ctB64 plaintext) :
    decryptV1 crates (storageForm nonceB64 ctB64) key = .ok plaintext := by
  have stripped := stripPrefix_chars (storageForm_chars nonceB64 ctB64)
  have parted : splitOnce ':' (String.ofList (nonceB64.toList ++ ':' :: ctB64.toList)) = _ :=
    splitOnce_first opens.undivided
  rw [String.ofList_toList, String.ofList_toList] at parted
  rw [decryptV1, stripped]
  simp only [parted]
  refine mapped_bind_ok.mpr ⟨opens.nonce, opens.nonceDecodes, ?_⟩
  rw [if_neg (fun differs => differs opens.sized)]
  refine mapped_bind_ok.mpr ⟨opens.ct, opens.ctDecodes, ?_⟩
  refine mapped_bind_ok.mpr ⟨opens.pt, opens.authentic, ?_⟩
  rw [opens.text]
  rfl

theorem decryptV1_ok {crates : Crates R} {key : MasterKey} {envelope plaintext : String}
    (opened : decryptV1 crates envelope key = .ok plaintext) :
    ∃ nonceB64 ctB64, envelope = storageForm nonceB64 ctB64 ∧
      Nonempty (Opens crates key nonceB64 ctB64 plaintext) := by
  rw [decryptV1] at opened
  cases stripped : stripPrefix envPrefix envelope with
  | none =>
      rw [stripped] at opened
      cases opened
  | some rest =>
      cases parted : splitOnce ':' rest with
      | none =>
          rw [stripped] at opened
          simp only [parted] at opened
          cases opened
      | some halves =>
          rcases halves with ⟨nonceB64, ctB64⟩
          rcases splitOnce_some parted with ⟨undivided, whole⟩
          refine ⟨nonceB64, ctB64, ?_, ?_⟩
          · rw [← String.toList_inj, storageForm_chars, stripPrefix_some stripped, whole]
          · rw [stripped] at opened
            simp only [parted] at opened
            rcases mapped_bind_ok.mp opened with ⟨nonce, nonceDecodes, opened⟩
            by_cases sized : nonce.length = nonceLen
            · rw [if_neg (fun differs => differs sized)] at opened
              rcases mapped_bind_ok.mp opened with ⟨ct, ctDecodes, opened⟩
              rcases mapped_bind_ok.mp opened with ⟨pt, authentic, opened⟩
              cases text : String.fromUTF8? ⟨pt.toArray⟩ with
              | none =>
                  rw [text] at opened
                  cases opened
              | some decoded =>
                  rw [text] at opened
                  cases opened
                  exact ⟨{ nonce, ct, pt, undivided, nonceDecodes, sized, ctDecodes, authentic,
                           text }⟩
            · rw [if_pos sized] at opened
              cases opened

theorem isEncrypted_of_decrypts {crates : SealingCrates R} (documented : crates.Documented)
    {envelope plaintext : String} {key : MasterKey}
    (opened : decryptV1 crates.toCrates envelope key = .ok plaintext) :
    isEncrypted envelope = true := by
  rcases decryptV1_ok opened with ⟨nonceB64, ctB64, rfl, ⟨opens⟩⟩
  exact storageForm_encrypted opens.undivided (documented.alphabet _ _ opens.ctDecodes)

theorem utf8_decodes (s : String) : String.fromUTF8? ⟨(utf8 s).toArray⟩ = some s := by
  rw [String.fromUTF8?, utf8, Array.toArray_toList]
  exact dif_pos s.isValidUTF8

theorem encryptV1_ok {crates : SealingCrates R} {random : Except String Nonce}
    {plaintext envelope : String} {key : MasterKey}
    (encrypted : encryptV1 crates random plaintext key = .ok envelope) :
    ∃ nonce ct, random = .ok nonce ∧
      crates.aesGcmEncrypt key.bytes nonce.bytes (utf8 plaintext) = .ok ct ∧
        envelope = storageForm (crates.encodeBase64 nonce.bytes) (crates.encodeBase64 ct) := by
  rw [encryptV1] at encrypted
  rcases mapped_bind_ok.mp encrypted with ⟨nonce, drawn, encrypted⟩
  rcases mapped_bind_ok.mp encrypted with ⟨ct, sealed, encrypted⟩
  cases encrypted
  exact ⟨nonce, ct, drawn, sealed, rfl⟩

theorem decrypts_sealed {crates : SealingCrates R} (documented : crates.Documented)
    {key : MasterKey} {nonce : Nonce} {ct : List UInt8} {plaintext : String}
    (encrypted : crates.aesGcmEncrypt key.bytes nonce.bytes (utf8 plaintext) = .ok ct) :
    decryptV1 crates.toCrates
      (storageForm (crates.encodeBase64 nonce.bytes) (crates.encodeBase64 ct)) key =
        .ok plaintext := by
  have nonceDecodes := documented.decodes nonce.bytes
  exact decryptV1_opens {
    nonce := nonce.bytes
    ct := ct
    pt := utf8 plaintext
    undivided := documented.alphabet _ _ nonceDecodes
    nonceDecodes := nonceDecodes
    sized := nonce.sized
    ctDecodes := documented.decodes ct
    authentic := documented.decrypts _ _ _ _ encrypted
    text := utf8_decodes plaintext }

end PgRaggraph

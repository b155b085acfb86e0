import PgRaggraph.Core.Envelope
import PgRaggraph.Extension.ProviderFactory

/-! Provider administration: what is stored of a credential and what a provider is built with. -/

namespace PgRaggraph

variable {R : Type}

/-- `INSERT .. ON CONFLICT (name) DO UPDATE`. An update writes a new version of the row, which a
scan finds behind the others. -/
def Configuration.upsertProvider (config : Configuration) (row : ProviderRow) : Configuration where
  namespaces := config.namespaces
  providers := config.providers.filter (fun old => old.name ≠ row.name) ++ [row]
  namespacesPkey := config.namespacesPkey
  providersPkey := by
    rw [List.map_append, List.nodup_append]
    refine ⟨(List.Sublist.map _ List.filter_sublist).nodup config.providersPkey,
      by simp, ?_⟩
    intro name kept other new
    rcases List.mem_map.mp kept with ⟨old, member, rfl⟩
    rw [List.mem_singleton.mp new]
    exact of_decide_eq_true (List.mem_filter.mp member).2

theorem Configuration.upserted (config : Configuration) (row : ProviderRow) (name : String) :
    (config.upsertProvider row).providerNamed name =
      if name = row.name then [row.selected] else config.providerNamed name := by
  rw [providerNamed, providerNamed, upsertProvider, List.filter_append, List.filter_filter]
  by_cases same : name = row.name
  · rw [if_pos same, same]
    have none_left : config.providers.filter
        (fun old => decide (old.name = row.name) && decide (old.name ≠ row.name)) = [] := by
      apply List.filter_eq_nil_iff.mpr
      intro old _ both
      simp at both
    rw [none_left]
    simp
  · rw [if_neg same]
    have others : config.providers.filter
        (fun old => decide (old.name = name) && decide (old.name ≠ row.name)) =
          config.providers.filter (fun old => old.name = name) := by
      apply List.filter_congr
      intro old _
      by_cases named : old.name = name
      · simp [named, same]
      · simp [named]
    rw [others, List.filter_cons_of_neg (by simpa using Ne.symm same)]
    simp

namespace Extension

section Create

variable (crates : SealingCrates R) (files : FileSystem) (masterKeyPath : Option String)
  (random : Except String Nonce)

def loadMasterKey : Except Raised (Option MasterKey) :=
  match masterKeyPath with
  | none => .ok none
  | some path =>
      match MasterKey.loadFromPath files path with
      | .ok key => .ok (some key)
      | .error e =>
          .error ⟨.configFileError, s!"pg_raggraph.master_key_path failed to load: {e.display}"⟩

def storedCredential : Option String → Except Raised (Option String)
  | none => .ok none
  | some c =>
      -- Idempotent: never double-encrypt.
      if isEncrypted c then .ok (some c)
      else
        match loadMasterKey files masterKeyPath with
        | .error e => .error e
        | .ok none => .ok (some c)
        | .ok (some key) =>
            match encryptV1 crates random c key with
            | .ok envelope => .ok (some envelope)
            | .error e => .error ⟨.internalError, s!"credential encrypt failed: {e.display}"⟩

def providerCreate (config : Configuration) (name kind provider : String)
    (baseUrl model credential : Option String) : Except Raised Configuration :=
  if kindCheck : kind = "llm" ∨ kind = "embedding" then
    match storedCredential crates files masterKeyPath random credential with
    | .error e => .error e
    | .ok stored => .ok (config.upsertProvider
        { name, kind, provider, baseUrl, model, credential := stored, kindCheck })
  else
    .error ⟨.invalidParameterValue,
      s!"provider kind must be 'llm' or 'embedding', got \x60{kind}\x60"⟩

end Create

variable {crates : SealingCrates R} {files : FileSystem} {random : Except String Nonce}

theorem storedCredential_keyed {path c : String} {key : MasterKey} {stored : Option String}
    (configured : MasterKey.loadFromPath files path = .ok key)
    (returned : storedCredential crates files (some path) random (some c) = .ok stored) :
    (isEncrypted c = true ∧ stored = some c) ∨
      (isEncrypted c = false ∧ ∃ envelope, stored = some envelope ∧
        encryptV1 crates random c key = .ok envelope) := by
  rw [storedCredential] at returned
  cases looks : isEncrypted c with
  | true =>
      rw [if_pos looks] at returned
      cases returned
      exact .inl ⟨rfl, rfl⟩
  | false =>
      have loaded : loadMasterKey files (some path) = .ok (some key) := by
        rw [loadMasterKey, configured]
      rw [if_neg (by simp [looks]), loaded] at returned
      dsimp only at returned
      cases encrypted : encryptV1 crates random c key with
      | error e =>
          rw [encrypted] at returned
          cases returned
      | ok envelope =>
          rw [encrypted] at returned
          cases returned
          exact .inr ⟨rfl, envelope, rfl, rfl⟩

theorem providerCreate_ok {masterKeyPath : Option String} {config config' : Configuration}
    {name kind provider : String} {baseUrl model credential : Option String}
    (created : providerCreate crates files masterKeyPath random config name kind provider baseUrl
      model credential = .ok config') :
    ∃ stored, storedCredential crates files masterKeyPath random credential = .ok stored ∧
      config'.providerNamed name = [⟨provider, model.getD "", baseUrl, stored⟩] := by
  rw [providerCreate] at created
  by_cases kindCheck : kind = "llm" ∨ kind = "embedding"
  · rw [dif_pos kindCheck] at created
    cases returned : storedCredential crates files masterKeyPath random credential with
    | error e =>
        rw [returned] at created
        cases created
    | ok stored =>
        rw [returned] at created
        cases created
        exact ⟨stored, rfl, by rw [Configuration.upserted, if_pos rfl]; rfl⟩
  · rw [dif_neg kindCheck] at created
    cases created

theorem plaintextCred_sealed {path stored : String} {key : MasterKey}
    (configured : MasterKey.loadFromPath files path = .ok key) (looks : isEncrypted stored = true) :
    plaintextCred crates.toCrates files (some path) (some stored) =
      match decryptV1 crates.toCrates stored key with
      | .ok plaintext => .ok plaintext
      | .error e => .error ⟨.internalError,
          s!"provider_factory: credential decrypt failed: {e.display}"⟩ := by
  rw [plaintextCred, if_pos looks, configured]
  dsimp only
  cases decryptV1 crates.toCrates stored key with
  | ok plaintext => rfl
  | error e => rfl

theorem buildProviderImpl_row {masterKeyPath : Option String} {config : Configuration}
    {name : String} {row : ProviderSelect} (found : config.providerNamed name = [row]) :
    buildProviderImpl crates.toCrates files masterKeyPath config name = (do
      let plaintext ← plaintextCred crates.toCrates files masterKeyPath row.credential
      dispatch crates.toCrates row plaintext) := by
  rw [buildProviderImpl, found]

/-- What a provider is built from, when one key is in place before and after, is the credential
itself unless it looks like an envelope, and then what that envelope opens to. -/
theorem credential_round_trip {files' : FileSystem} {path path' : String} {key : MasterKey}
    {config config' : Configuration} {name kind provider c : String} {baseUrl model : Option String}
    (documented : crates.Documented) (configured : MasterKey.loadFromPath files path = .ok key)
    (unchanged : MasterKey.loadFromPath files' path' = .ok key)
    (created : providerCreate crates files (some path) random config name kind provider baseUrl
      model (some c) = .ok config') :
    ∃ stored, config'.providerNamed name = [⟨provider, model.getD "", baseUrl, some stored⟩] ∧
      (stored = c ↔ isEncrypted c = true) ∧
      (isEncrypted c = false → ∃ nonce ct, random = .ok nonce ∧
        crates.aesGcmEncrypt key.bytes nonce.bytes (utf8 c) = .ok ct ∧
          stored = storageForm (crates.encodeBase64 nonce.bytes) (crates.encodeBase64 ct)) ∧
      (isEncrypted c = false →
        buildProviderImpl crates.toCrates files' (some path') config' name =
          dispatch crates.toCrates ⟨provider, model.getD "", baseUrl, some stored⟩ c) ∧
      (∀ plaintext, decryptV1 crates.toCrates c key = .ok plaintext →
        buildProviderImpl crates.toCrates files' (some path') config' name =
          dispatch crates.toCrates ⟨provider, model.getD "", baseUrl, some stored⟩ plaintext) ∧
      (∀ e, isEncrypted c = true → decryptV1 crates.toCrates c key = .error e →
        buildProviderImpl crates.toCrates files' (some path') config' name =
          .error ⟨.internalError, s!"provider_factory: credential decrypt failed: {e.display}"⟩) := by
  rcases providerCreate_ok created with ⟨stored, returned, found⟩
  have built : buildProviderImpl crates.toCrates files' (some path') config' name = _ :=
    buildProviderImpl_row found
  rcases storedCredential_keyed configured returned with
    ⟨looks, rfl⟩ | ⟨differs, envelope, rfl, encrypted⟩
  · rw [plaintextCred_sealed unchanged looks] at built
    refine ⟨c, found, iff_of_true rfl looks, ?_, ?_, ?_, ?_⟩
    · intro differs
      rw [looks] at differs
      cases differs
    · intro differs
      rw [looks] at differs
      cases differs
    · intro plaintext opened
      rw [built, opened]
      rfl
    · intro e _ rejected
      rw [built, rejected]
      rfl
  · rcases encryptV1_ok encrypted with ⟨nonce, ct, drawn, sealed, form⟩
    have opens := decrypts_sealed documented sealed
    rw [← form] at opens
    have looks := isEncrypted_of_decrypts documented opens
    rw [plaintextCred_sealed unchanged looks, opens] at built
    refine ⟨envelope, found, ?_, ?_, ?_, ?_, ?_⟩
    · apply iff_of_false
      · rintro rfl
        rw [differs] at looks
        cases looks
      · rw [differs]
        exact Bool.false_ne_true
    · intro _
      exact ⟨nonce, ct, drawn, sealed, form⟩
    · intro _
      exact built
    · intro plaintext opened
      have seen := isEncrypted_of_decrypts documented opened
      rw [differs] at seen
      cases seen
    · intro e seen
      rw [differs] at seen
      cases seen

end Extension

section Lookalike

def SealingCrates.sample : SealingCrates R where
  encodeBase64 bytes := String.ofList (bytes.map (fun byte => Char.ofNat (256 + byte.toNat)))
  decodeBase64 text :=
    if text.toList.all (fun c => 256 ≤ c.toNat) then
      .ok (text.toList.map (fun c => UInt8.ofNat (c.toNat - 256)))
    else .error s!"Invalid input length: {text.length}"
  aesGcmEncrypt _ _ plaintext := .ok (plaintext ++ List.replicate 16 0)
  aesGcmDecrypt _ _ ciphertext := .ok (ciphertext.take (ciphertext.length - 16))
  extractionFromStr _ := .error "expected value at line 1 column 1"
  fromUtf8Error _ := "invalid utf-8 sequence of 1 bytes from index 0"

theorem SealingCrates.sample_documented : (sample : SealingCrates R).Documented where
  alphabet := by
    intro text bytes decoded colon
    by_cases coded : text.toList.all (fun c => 256 ≤ c.toNat) = true
    · have inside := List.all_eq_true.mp coded _ colon
      exact absurd inside (by decide)
    · have rejected : (sample : SealingCrates R).decodeBase64 text =
          .error s!"Invalid input length: {text.length}" := if_neg coded
      rw [rejected] at decoded
      cases decoded
  decodes := by
    intro bytes
    have code (byte : UInt8) : (Char.ofNat (256 + byte.toNat)).toNat = 256 + byte.toNat := by
      have small := byte.toNat_lt
      have valid : (256 + byte.toNat).isValidChar := .inl (by omega)
      rw [Char.ofNat, dif_pos valid]
      rfl
    have coded : ((bytes.map (fun byte => Char.ofNat (256 + byte.toNat))).all
        (fun c => 256 ≤ c.toNat)) = true := by
      simp [code]
    have decoded : (bytes.map (fun byte => Char.ofNat (256 + byte.toNat))).map
        (fun c => UInt8.ofNat (c.toNat - 256)) = bytes := by
      rw [List.map_map]
      exact List.map_id'' (fun byte => by simp [code]) bytes
    simp only [sample, String.toList_ofList]
    rw [if_pos coded, decoded]
  decrypts := by
    intro key nonce plaintext ciphertext encrypted
    cases encrypted
    simp [sample]

def MasterKey.sample : MasterKey := ⟨List.replicate 32 0, rfl⟩

def FileSystem.keyed : FileSystem := fun _ => .ok ⟨0o600, none, .ok MasterKey.sample.bytes⟩

def Configuration.empty : Configuration := ⟨[], [], List.nodup_nil, List.nodup_nil⟩

def lookalikeStored : Configuration := Configuration.empty.upsertProvider
  { name := "gpt", kind := "llm", provider := "openai", baseUrl := none, model := none,
    credential := some "enc:v1:a:b", kindCheck := llm_checked }

theorem lookalike_created : Extension.providerCreate (R := Nat) .sample .keyed (some "master.key")
    (.error "no entropy") .empty "gpt" "llm" "openai" none none (some "enc:v1:a:b") =
      .ok lookalikeStored := by
  rfl

theorem keyed_loads : MasterKey.loadFromPath .keyed "master.key" = .ok .sample := by
  rfl

theorem lookalike_rejected : decryptV1 (SealingCrates.sample (R := Nat)).toCrates "enc:v1:a:b"
    .sample = .error (.crypto "nonce b64: Invalid input length: 1") := by
  rfl

theorem lookalike_kept :
    Extension.providerCreate (R := Nat) .sample .keyed (some "master.key") (.error "no entropy")
        .empty "gpt" "llm" "openai" none none (some "enc:v1:a:b") = .ok lookalikeStored ∧
      lookalikeStored.providerNamed "gpt" = [⟨"openai", "", none, some "enc:v1:a:b"⟩] ∧
      (∀ plaintext, decryptV1 (SealingCrates.sample (R := Nat)).toCrates "enc:v1:a:b" .sample ≠
        .ok plaintext) ∧
      Extension.buildProviderImpl (SealingCrates.sample (R := Nat)).toCrates .keyed
          (some "master.key") lookalikeStored "gpt" =
        .error ⟨.internalError, "provider_factory: credential decrypt failed: crypto error: " ++
          "nonce b64: Invalid input length: 1"⟩ := by
  refine ⟨lookalike_created, rfl, ?_, rfl⟩
  intro plaintext opened
  rw [lookalike_rejected] at opened
  cases opened

theorem credential_round_trip_lookalike :
    ∃ stored, lookalikeStored.providerNamed "gpt" = [⟨"openai", "", none, some stored⟩] ∧
      stored = "enc:v1:a:b" ∧
      Extension.buildProviderImpl (SealingCrates.sample (R := Nat)).toCrates .keyed
          (some "master.key") lookalikeStored "gpt" =
        .error ⟨.internalError, "provider_factory: credential decrypt failed: " ++
          (CoreError.crypto "nonce b64: Invalid input length: 1").display⟩ := by
  have looks : isEncrypted "enc:v1:a:b" = true := by rfl
  rcases Extension.credential_round_trip SealingCrates.sample_documented keyed_loads keyed_loads
    lookalike_created with ⟨stored, found, verbatim, -, -, -, raises⟩
  exact ⟨stored, found, verbatim.mpr looks, raises _ looks lookalike_rejected⟩

end Lookalike

end PgRaggraph

import PgRaggraph.Core.Types

/-! The providers a deployment has configured, their credentials and the master key. -/

namespace PgRaggraph

variable {R : Type}

def CoreError.display : CoreError → String
  | .namespaceNotFound name => s!"namespace \x60{name}\x60 not found"
  | .providerNotFound name => s!"provider \x60{name}\x60 not found"
  | .invalidConfig message => s!"invalid configuration: {message}"
  | .json message => message
  | .crypto message => s!"crypto error: {message}"
  | .http message => s!"http error: {message}"
  | .llm message => s!"llm error: {message}"

structure ProviderRef where
  name : String
  kind : String
  deriving DecidableEq, Repr

def resolveProvider (explicit namespaceDefault : Option String) (available : List ProviderRef) :
    CoreResult String :=
  match explicit with
  | some name => .ok name
  | none =>
      match namespaceDefault with
      | some name => .ok name
      | none =>
          match available.find? (fun p => p.kind == "llm") with
          | some p => .ok p.name
          | none => .error (.invalidConfig "no LLM provider configured")

inductive LlmProvider (R : Type) where
  | openai (apiKey model baseUrl : String)
  | anthropic (apiKey model baseUrl : String)
  | ollama (model baseUrl : String)
  | mock (stubAnswer : String) (stubExtraction : Option (Extraction R))
  deriving DecidableEq, Repr

def LlmProvider.mocked : LlmProvider R := .mock "" none

/-- The crates `base64`, `aes-gcm` and `serde_json`. An error is the text it displays. -/
structure Crates (R : Type) where
  decodeBase64 : String → Except String (List UInt8)
  aesGcmDecrypt : (key nonce ciphertext : List UInt8) → Except String (List UInt8)
  extractionFromStr : String → Except String (Extraction R)
  fromUtf8Error : List UInt8 → String

section Credentials

def envPrefix : String := "enc:v1:"

def nonceLen : Nat := 12

def stripPrefix (front s : String) : Option String :=
  if front.toList.isPrefixOf s.toList then some (String.ofList (s.toList.drop front.toList.length))
  else none

def splitOnce (separator : Char) (s : String) : Option (String × String) :=
  match s.toList.dropWhile (fun c => c != separator) with
  | [] => none
  | _ :: rest =>
      some (String.ofList (s.toList.takeWhile (fun c => c != separator)), String.ofList rest)

def isEncrypted (s : String) : Bool :=
  envPrefix.toList.isPrefixOf s.toList && (s.toList.splitOn ':').length == 4

def masterKeyLen : Nat := 32

structure MasterKey where
  bytes : List UInt8
  sized : bytes.length = masterKeyLen

structure KeyFile where
  mode : Nat
  openError : Option String
  contents : Except String (List UInt8)

abbrev FileSystem := String → Except String KeyFile

def octal (mode : Nat) : String := "0o" ++ String.ofList (Nat.toDigits 8 mode)

def MasterKey.loadFromPath (files : FileSystem) (path : String) : CoreResult MasterKey := do
  let file ← (files path).mapError (fun e => .crypto s!"stat {path}: {e}")
  let mode := file.mode &&& 0o777
  if mode &&& 0o077 ≠ 0 then
    throw (.crypto (s!"master key file {path} has permission {octal mode} " ++
      "(group or world readable); set mode 0600"))
  if let some e := file.openError then
    throw (.crypto s!"open {path}: {e}")
  let buf ← file.contents.mapError (fun e => .crypto s!"read {path}: {e}")
  if sized : buf.length = masterKeyLen then
    return ⟨buf, sized⟩
  else
    throw (.crypto s!"master key file must be exactly {masterKeyLen} bytes, got {buf.length}")

def decryptV1 (crates : Crates R) (envelope : String) (key : MasterKey) : CoreResult String := do
  let some rest := stripPrefix envPrefix envelope
    | throw (.crypto "envelope missing enc:v1: prefix")
  let some (nonceB64, ctB64) := splitOnce ':' rest
    | throw (.crypto "envelope missing ciphertext")
  let nonceBytes ← (crates.decodeBase64 nonceB64).mapError (fun e => .crypto s!"nonce b64: {e}")
  if nonceBytes.length ≠ nonceLen then
    throw (.crypto s!"nonce length {nonceBytes.length} != {nonceLen}")
  let ct ← (crates.decodeBase64 ctB64).mapError (fun e => .crypto s!"ct b64: {e}")
  let pt ← (crates.aesGcmDecrypt key.bytes nonceBytes ct).mapError (fun e => .crypto s!"decrypt: {e}")
  match String.fromUTF8? ⟨pt.toArray⟩ with
  | some plaintext => return plaintext
  | none => throw (.crypto s!"plaintext utf-8: {crates.fromUtf8Error pt}")

end Credentials

structure NamespaceRow where
  name : String
  llmProvider : Option String
  deriving DecidableEq, Repr

structure ProviderRow where
  name : String
  kind : String
  provider : String
  baseUrl : Option String
  model : Option String
  credential : Option String
  kindCheck : kind = "llm" ∨ kind = "embedding"

theorem llm_checked : "llm" = "llm" ∨ "llm" = "embedding" := .inl rfl

/-- `SELECT provider, COALESCE(model, ''), base_url, credential`. -/
structure ProviderSelect where
  provider : String
  model : String
  baseUrl : Option String
  credential : Option String

def ProviderRow.selected (row : ProviderRow) : ProviderSelect where
  provider := row.provider
  model := row.model.getD ""
  baseUrl := row.baseUrl
  credential := row.credential

/-- The tables `pgrg.namespaces` and `pgrg.providers`, in the order of a scan. -/
structure Configuration where
  namespaces : List NamespaceRow
  providers : List ProviderRow
  namespacesPkey : (namespaces.map (·.name)).Nodup
  providersPkey : (providers.map (·.name)).Nodup

namespace Configuration

/-- `SELECT llm_provider FROM pgrg.namespaces WHERE name = $1`. -/
def namespaceDefault (config : Configuration) (ns : String) : List (Option String) :=
  (config.namespaces.filter (fun row => row.name = ns)).map (·.llmProvider)

/-- `SELECT name, kind FROM pgrg.providers`. -/
def providerRefs (config : Configuration) : List ProviderRef :=
  config.providers.map (fun row => ⟨row.name, row.kind⟩)

def providerNamed (config : Configuration) (name : String) : List ProviderSelect :=
  (config.providers.filter (fun row => row.name = name)).map ProviderRow.selected

end Configuration

theorem filter_by_key {α : Type} {key : α → String} (rows : List α) (name : String)
    (pkey : (rows.map key).Nodup) :
    rows.filter (fun row => key row = name) = [] ∨
      ∃ row ∈ rows, key row = name ∧ rows.filter (fun row => key row = name) = [row] := by
  induction rows with
  | nil => exact .inl rfl
  | cons first rest ih =>
      rw [List.map_cons, List.nodup_cons] at pkey
      by_cases here : key first = name
      · have none_else : rest.filter (fun row => key row = name) = [] := by
          apply List.filter_eq_nil_iff.mpr
          intro row member same
          apply pkey.1
          rw [here, ← of_decide_eq_true same]
          exact List.mem_map_of_mem member
        right
        refine ⟨first, List.mem_cons_self, here, ?_⟩
        rw [List.filter_cons_of_pos (by simpa using here), none_else]
      · rw [List.filter_cons_of_neg (by simpa using here)]
        rcases ih pkey.2 with empty | ⟨row, member, same, only⟩
        · exact .inl empty
        · exact .inr ⟨row, List.mem_cons_of_mem _ member, same, only⟩

theorem Configuration.providerNamed_cases (config : Configuration) (name : String) :
    (config.providerNamed name = [] ∧ ∀ row ∈ config.providers, row.name ≠ name) ∨
      ∃ row ∈ config.providers, config.providerNamed name = [row.selected] ∧
        ∀ other ∈ config.providers, other.name = name ↔ other = row := by
  have listed (row : ProviderRow) : row ∈ config.providers.filter (fun row => row.name = name) ↔
      row ∈ config.providers ∧ row.name = name := by
    rw [List.mem_filter, decide_eq_true_iff]
  rw [Configuration.providerNamed]
  rcases filter_by_key config.providers name config.providersPkey with
    empty | ⟨row, member, same, only⟩
  · left
    rw [empty] at listed ⊢
    refine ⟨rfl, ?_⟩
    intro row member same
    exact List.not_mem_nil ((listed row).mpr ⟨member, same⟩)
  · right
    rw [only] at listed ⊢
    refine ⟨row, member, rfl, ?_⟩
    intro other stored
    have only_row := listed other
    rw [List.mem_singleton] at only_row
    rw [only_row]
    exact (and_iff_right stored).symm

end PgRaggraph

import PgRaggraph.Core.Providers

/-! The provider factory of the extension, which raises on a malformed configuration. -/

namespace PgRaggraph

variable {R : Type}

inductive PgSqlErrorCode where
  | noDataFound
  | invalidParameterValue
  | configFileError
  | internalError
  deriving DecidableEq, Repr

structure Raised where
  code : PgSqlErrorCode
  message : String
  deriving DecidableEq, Repr

/-- What the address of a provider without `base_url` is. Both factories repeat this table. -/
def defaultBaseUrl (provider : String) : String :=
  match provider with
  | "openai" => "https://api.openai.com"
  | "anthropic" => "https://api.anthropic.com"
  | "ollama" => "http://localhost:11434"
  | _ => ""

namespace Extension

variable (crates : Crates R) (files : FileSystem) (masterKeyPath : Option String)

def plaintextCred (credential : Option String) : Except Raised String :=
  match credential with
  | none => .ok ""
  | some c =>
      if isEncrypted c then
        match masterKeyPath with
        | none =>
            .error ⟨.invalidParameterValue, "provider_factory: credential is encrypted but " ++
              "pg_raggraph.master_key_path is unset"⟩
        | some path =>
            match MasterKey.loadFromPath files path with
            | .error e =>
                .error ⟨.configFileError,
                  s!"provider_factory: master key load failed: {e.display}"⟩
            | .ok key =>
                match decryptV1 crates c key with
                | .error e =>
                    .error ⟨.internalError,
                      s!"provider_factory: credential decrypt failed: {e.display}"⟩
                | .ok plaintext => .ok plaintext
      else .ok c

def dispatch (row : ProviderSelect) (plaintext : String) : Except Raised (LlmProvider R) :=
  let base := row.baseUrl.getD (defaultBaseUrl row.provider)
  match row.provider with
  | "openai" => .ok (.openai plaintext row.model base)
  | "anthropic" => .ok (.anthropic plaintext row.model base)
  | "ollama" => .ok (.ollama row.model base)
  | "mock" => .ok (.mock plaintext none)
  | "mock-extractor" =>
      match crates.extractionFromStr plaintext with
      | .ok parsed => .ok (.mock "" (some parsed))
      | .error e =>
          .error ⟨.invalidParameterValue,
            s!"mock-extractor credential must be JSON Extraction: {e}"⟩
  | other =>
      .error ⟨.invalidParameterValue, s!"provider_factory: unknown provider kind \x60{other}\x60"⟩

def buildProviderImpl (config : Configuration) (name : String) : Except Raised (LlmProvider R) :=
  match config.providerNamed name with
  | [] => .error ⟨.noDataFound, s!"provider_factory: provider \x60{name}\x60 not found"⟩
  | row :: _ => do
      let plaintext ← plaintextCred crates files masterKeyPath row.credential
      dispatch crates row plaintext

def resolveOrDefaultProvider (config : Configuration) (ns : String) :
    Except Raised (LlmProvider R) :=
  let nsDefault := (config.namespaceDefault ns).head?.join
  match resolveProvider none nsDefault config.providerRefs with
  | .ok name => buildProviderImpl crates files masterKeyPath config name
  | .error _ => .ok .mocked

end Extension

end PgRaggraph

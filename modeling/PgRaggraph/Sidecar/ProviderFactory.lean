import PgRaggraph.Extension.ProviderFactory

/-! The provider factory of the sidecar, and where it answers as the extension's does. -/

namespace PgRaggraph

variable {R : Type}

namespace Sidecar

inductive Query where
  | namespaceDefault
  | providerNames
  | providerRow

/-- A `tokio-postgres` connection. `fails` is the error of a query that does not return. -/
structure Client where
  config : Configuration
  fails : Query → Option String

namespace Client

def query {α : Type} (client : Client) (sent : Query) (rows : List α) : Except String (List α) :=
  match client.fails sent with
  | some e => .error e
  | none => .ok rows

def queryOpt {α : Type} (client : Client) (sent : Query) (rows : List α) :
    Except String (Option α) :=
  match client.query sent rows with
  | .error e => .error e
  | .ok [] => .ok none
  | .ok [row] => .ok (some row)
  | .ok _ => .error "query returned an unexpected number of rows"

end Client

variable (crates : Crates R) (files : FileSystem)

def plaintextCred (masterKeyPath credential : Option String) : Except String String :=
  match credential with
  | none => .ok ""
  | some c =>
      if isEncrypted c then
        match masterKeyPath with
        | none =>
            .error ("provider_factory: credential is encrypted but " ++
              "PGRG_MASTER_KEY_PATH (master_key_path) is unset")
        | some path => do
            let key ← (MasterKey.loadFromPath files path).mapError
              (fun e => s!"provider_factory: master key load failed: {e.display}")
            (decryptV1 crates c key).mapError
              (fun e => s!"provider_factory: credential decrypt failed: {e.display}")
      else .ok c

def dispatch (row : ProviderSelect) (plaintext : String) : Except String (LlmProvider R) :=
  let base := row.baseUrl.getD (defaultBaseUrl row.provider)
  match row.provider with
  | "openai" => .ok (.openai plaintext row.model base)
  | "anthropic" => .ok (.anthropic plaintext row.model base)
  | "ollama" => .ok (.ollama row.model base)
  | "mock" => .ok (.mock plaintext none)
  | "mock-extractor" => do
      let parsed ← (crates.extractionFromStr plaintext).mapError (fun e =>
        s!"provider_factory: mock-extractor credential must be JSON Extraction: {e}")
      return .mock "" (some parsed)
  | other => .error s!"provider_factory: unknown provider kind \x60{other}\x60"

def buildProviderImpl (client : Client) (name : String) (masterKeyPath : Option String) :
    Except String (LlmProvider R) := do
  let row ← (client.queryOpt .providerRow (client.config.providerNamed name)).mapError
    (fun _ => s!"provider_factory: provider row select for \x60{name}\x60")
  match row with
  | none => .error s!"provider_factory: provider \x60{name}\x60 not found"
  | some row =>
      let plaintext ← plaintextCred crates files masterKeyPath row.credential
      dispatch crates row plaintext

/-- There is no error to return: a build that fails is answered by `MockProvider`. -/
def resolveOrDefaultProvider (client : Client) (ns : String) (masterKeyPath : Option String) :
    LlmProvider R :=
  let nsDefault :=
    match client.queryOpt .namespaceDefault (client.config.namespaceDefault ns) with
    | .ok row => row.join
    | .error _ => none
  let available :=
    match client.query .providerNames client.config.providerRefs with
    | .ok rows => rows
    | .error _ => []
  match resolveProvider none nsDefault available with
  | .ok name =>
      match buildProviderImpl crates files client name masterKeyPath with
      | .ok p => p
      | .error _ => .mocked
  | .error _ => .mocked

def Client.connected (config : Configuration) : Client := ⟨config, fun _ => none⟩

@[simp] theorem Client.connected_config (config : Configuration) :
    (connected config).config = config := rfl

@[simp] theorem Client.connected_query {α : Type} (config : Configuration) (sent : Query)
    (rows : List α) : (connected config).query sent rows = .ok rows := rfl

end Sidecar

section Answers

variable {ε δ α β : Type}

def SameAnswer (x : Except ε α) (y : Except δ α) : Prop := ∀ a, x = .ok a ↔ y = .ok a

theorem SameAnswer.both_fail (e : ε) (e' : δ) :
    SameAnswer (.error e : Except ε α) (.error e' : Except δ α) := by
  intro a
  constructor
  · intro impossible
    cases impossible
  · intro impossible
    cases impossible

theorem SameAnswer.both_return (a : α) : SameAnswer (.ok a : Except ε α) (.ok a : Except δ α) := by
  intro b
  rw [Except.ok.injEq, Except.ok.injEq]

theorem SameAnswer.mapError (x : Except ε α) (f : ε → δ) : SameAnswer x (x.mapError f) := by
  cases x with
  | error e => exact .both_fail e (f e)
  | ok a => exact .both_return a

theorem SameAnswer.bind {x : Except ε α} {y : Except δ α} {f : α → Except ε β}
    {g : α → Except δ β} (same : SameAnswer x y) (next : ∀ a, SameAnswer (f a) (g a)) :
    SameAnswer (x >>= f) (y >>= g) := by
  rcases x with e | a
  · rcases y with e' | b
    · exact .both_fail e e'
    · cases (same b).mpr rfl
  · rw [(same a).mp rfl]
    exact next a

end Answers

section Parity

variable (crates : Crates R) (files : FileSystem) (masterKeyPath : Option String)

theorem plaintextCred_same (credential : Option String) :
    SameAnswer (Extension.plaintextCred crates files masterKeyPath credential)
      (Sidecar.plaintextCred crates files masterKeyPath credential) := by
  cases credential with
  | none => exact .both_return ""
  | some c =>
      simp only [Extension.plaintextCred, Sidecar.plaintextCred]
      by_cases encrypted : isEncrypted c = true
      · rw [if_pos encrypted, if_pos encrypted]
        cases masterKeyPath with
        | none => exact .both_fail _ _
        | some path =>
            dsimp only
            rcases MasterKey.loadFromPath files path with e | key
            · exact .both_fail _ _
            · dsimp only [Except.mapError, bind, Except.bind]
              rcases decryptV1 crates c key with e | plaintext
              · exact .both_fail _ _
              · exact .both_return plaintext
      · rw [if_neg encrypted, if_neg encrypted]
        exact .both_return c

theorem dispatch_same (row : ProviderSelect) (plaintext : String) :
    SameAnswer (Extension.dispatch crates row plaintext)
      (Sidecar.dispatch crates row plaintext) := by
  rcases row with ⟨provider, model, baseUrl, credential⟩
  by_cases openai : provider = "openai"
  · subst openai
    exact .both_return _
  by_cases anthropic : provider = "anthropic"
  · subst anthropic
    exact .both_return _
  by_cases ollama : provider = "ollama"
  · subst ollama
    exact .both_return _
  by_cases mock : provider = "mock"
  · subst mock
    exact .both_return _
  by_cases extractor : provider = "mock-extractor"
  · subst extractor
    simp only [Extension.dispatch, Sidecar.dispatch]
    rcases crates.extractionFromStr plaintext with e | parsed
    · exact .both_fail _ _
    · exact .both_return _
  · simp only [Extension.dispatch, Sidecar.dispatch]
    exact .both_fail _ _

theorem build_same (config : Configuration) (name : String) :
    SameAnswer (Extension.buildProviderImpl crates files masterKeyPath config name)
      (Sidecar.buildProviderImpl crates files (.connected config) name masterKeyPath) := by
  simp only [Extension.buildProviderImpl, Sidecar.buildProviderImpl, Sidecar.Client.queryOpt,
    Sidecar.Client.connected_query, Sidecar.Client.connected_config]
  rcases config.providerNamed_cases name with ⟨empty, -⟩ | ⟨row, -, only, -⟩
  · rw [empty]
    exact .both_fail _ _
  · rw [only]
    exact (plaintextCred_same crates files masterKeyPath _).bind
      (fun plaintext => dispatch_same crates _ plaintext)

/-- The text a credential stands for. An envelope needs a path to the key that closes it. -/
inductive Reads : Option String → String → Prop where
  | absent : Reads none ""
  | plain {c : String} (bare : isEncrypted c = false) : Reads (some c) c
  | sealed {c path plaintext : String} {key : MasterKey} (encrypted : isEncrypted c = true)
      (set : masterKeyPath = some path) (loads : MasterKey.loadFromPath files path = .ok key)
      (opens : decryptV1 crates c key = .ok plaintext) : Reads (some c) plaintext

def Known (provider plaintext : String) : Prop :=
  provider ∈ ["openai", "anthropic", "ollama", "mock"] ∨
    provider = "mock-extractor" ∧ ∃ parsed, crates.extractionFromStr plaintext = .ok parsed

def Configuration.chosen (config : Configuration) (ns : String) : Option String :=
  (config.namespaceDefault ns).head?.join.or
    ((config.providers.find? (fun row => row.kind == "llm")).map (·.name))

def Provisioned (config : Configuration) (ns : String) : Prop :=
  ∀ name, config.chosen ns = some name → ∃ row ∈ config.providers, row.name = name ∧
    ∃ plaintext, Reads crates files masterKeyPath row.credential plaintext ∧
      Known crates row.provider plaintext

theorem plaintextCred_reads (credential : Option String) (plaintext : String) :
    Extension.plaintextCred crates files masterKeyPath credential = .ok plaintext ↔
      Reads crates files masterKeyPath credential plaintext := by
  constructor
  · intro read
    cases credential with
    | none =>
        cases read
        exact .absent
    | some c =>
        simp only [Extension.plaintextCred] at read
        split at read
        · rename_i encrypted
          split at read
          · cases read
          · rename_i path
            split at read
            · cases read
            · rename_i key loads
              split at read
              · cases read
              · rename_i opens
                cases read
                exact .sealed encrypted rfl loads opens
        · rename_i bare
          cases read
          exact .plain (by simpa using bare)
  · intro reads
    cases reads with
    | absent => rfl
    | plain bare => simp [Extension.plaintextCred, bare]
    | sealed encrypted set loads opens =>
        simp [Extension.plaintextCred, encrypted, set, loads, opens]

theorem dispatch_known (row : ProviderSelect) (plaintext : String) :
    (∃ p, Extension.dispatch crates row plaintext = .ok p) ↔ Known crates row.provider plaintext := by
  rcases row with ⟨provider, model, baseUrl, credential⟩
  simp only [Extension.dispatch, Known]
  split
  · simp
  · simp
  · simp
  · simp
  · rcases crates.extractionFromStr plaintext with e | parsed
    · simp
    · simp
  · rename_i openai anthropic ollama mock extractor
    constructor
    · intro returned
      rcases returned with ⟨p, impossible⟩
      cases impossible
    · intro known
      simp only [List.mem_cons, List.not_mem_nil, or_false] at known
      rcases known with (same | same | same | same) | ⟨same, -⟩
      · exact (openai same).elim
      · exact (anthropic same).elim
      · exact (ollama same).elim
      · exact (mock same).elim
      · exact (extractor same).elim

theorem row_returns (row : ProviderRow) :
    (∃ p, (do
      let plaintext ← Extension.plaintextCred crates files masterKeyPath row.credential
      Extension.dispatch crates row.selected plaintext) = .ok p) ↔
      ∃ plaintext, Reads crates files masterKeyPath row.credential plaintext ∧
        Known crates row.provider plaintext := by
  rcases read : Extension.plaintextCred crates files masterKeyPath row.credential
    with e | plaintext
  · constructor
    · intro returned
      rcases returned with ⟨p, impossible⟩
      cases impossible
    · intro buildable
      rcases buildable with ⟨plaintext, reads, -⟩
      rw [(plaintextCred_reads crates files masterKeyPath _ _).mpr reads] at read
      cases read
  · refine (dispatch_known crates row.selected plaintext).trans ?_
    constructor
    · intro known
      exact ⟨plaintext, (plaintextCred_reads crates files masterKeyPath _ _).mp read, known⟩
    · intro buildable
      rcases buildable with ⟨other, reads, known⟩
      rw [(plaintextCred_reads crates files masterKeyPath _ _).mpr reads] at read
      cases read
      exact known

theorem build_returns (config : Configuration) (name : String) :
    (∃ p, Extension.buildProviderImpl crates files masterKeyPath config name = .ok p) ↔
      ∃ row ∈ config.providers, row.name = name ∧
        ∃ plaintext, Reads crates files masterKeyPath row.credential plaintext ∧
          Known crates row.provider plaintext := by
  rw [Extension.buildProviderImpl]
  rcases config.providerNamed_cases name with ⟨empty, unnamed⟩ | ⟨row, member, only, unique⟩
  · rw [empty]
    constructor
    · intro returned
      rcases returned with ⟨p, impossible⟩
      cases impossible
    · intro buildable
      rcases buildable with ⟨row, member, named, -⟩
      exact (unnamed row member named).elim
  · rw [only]
    refine (row_returns crates files masterKeyPath row).trans ?_
    constructor
    · intro buildable
      exact ⟨row, member, (unique row member).mpr rfl, buildable⟩
    · intro buildable
      rcases buildable with ⟨other, stored, named, buildable⟩
      rw [(unique other stored).mp named] at buildable
      exact buildable

theorem resolveProvider_chosen (config : Configuration) (ns : String) :
    resolveProvider none (config.namespaceDefault ns).head?.join config.providerRefs =
      match config.chosen ns with
      | some name => .ok name
      | none => .error (.invalidConfig "no LLM provider configured") := by
  rw [Configuration.chosen]
  rcases (config.namespaceDefault ns).head?.join with none | name
  · simp only [resolveProvider, Configuration.providerRefs, List.find?_map, Function.comp_def,
      Option.none_or]
    rcases found : config.providers.find? (fun row => row.kind == "llm") with none | row
    · simp [found]
    · simp [found]
  · rfl

theorem namespaceDefault_queried (config : Configuration) (ns : String) :
    (Sidecar.Client.connected config).queryOpt .namespaceDefault (config.namespaceDefault ns) =
      .ok (config.namespaceDefault ns).head? := by
  rw [Sidecar.Client.queryOpt, Sidecar.Client.connected_query, Configuration.namespaceDefault]
  rcases filter_by_key config.namespaces ns config.namespacesPkey with empty | ⟨row, -, -, only⟩
  · rw [empty]
    rfl
  · rw [only]
    rfl

/-- The sidecar's factory answers as the extension's does exactly when the provider of the namespace
can be built. Otherwise the extension raises, and the sidecar answers with an empty mock. -/
theorem factories_agree_iff (config : Configuration) (ns : String) :
    SameAnswer (Extension.resolveOrDefaultProvider crates files masterKeyPath config ns)
      (.ok (Sidecar.resolveOrDefaultProvider crates files (.connected config) ns masterKeyPath) :
        Except String (LlmProvider R)) ↔
      Provisioned crates files masterKeyPath config ns := by
  rw [Extension.resolveOrDefaultProvider, Sidecar.resolveOrDefaultProvider,
    Sidecar.Client.connected_config, namespaceDefault_queried, Sidecar.Client.connected_query]
  dsimp only
  rw [resolveProvider_chosen, Provisioned]
  rcases config.chosen ns with none | name
  · refine iff_of_true (.both_return _) ?_
    intro name chosen
    cases chosen
  · dsimp only
    have same := build_same crates files masterKeyPath config name
    have returns := build_returns crates files masterKeyPath config name
    constructor
    · intro answers other chosen
      cases chosen
      exact returns.mp ⟨_, (answers _).mpr rfl⟩
    · intro provisioned
      rcases returns.mpr (provisioned name rfl) with ⟨p, built⟩
      rw [(same p).mp built, built]
      exact .both_return p

end Parity

def Crates.failing : Crates R where
  decodeBase64 _ := .error "Invalid padding"
  aesGcmDecrypt _ _ _ := .error "aead::Error"
  extractionFromStr _ := .error "expected value at line 1 column 1"
  fromUtf8Error _ := "invalid utf-8 sequence of 1 bytes from index 0"

def FileSystem.empty : FileSystem := fun _ => .error "No such file or directory (os error 2)"

def Configuration.single (credential : String) : Configuration where
  namespaces := [⟨"default", none⟩, ⟨"docs", none⟩]
  providers := [{ name := "gpt", kind := "llm", provider := "openai", baseUrl := none,
                  model := some "gpt-4o-mini", credential := some credential,
                  kindCheck := llm_checked }]
  namespacesPkey := by decide
  providersPkey := by simp

def sealedConfiguration : Configuration := .single "enc:v1:AAAAAAAAAAAAAAAA:AAAA"

theorem sealed_raises : Extension.resolveOrDefaultProvider (R := Nat) .failing .empty none
    sealedConfiguration "default" =
      .error ⟨.invalidParameterValue, "provider_factory: credential is encrypted but " ++
        "pg_raggraph.master_key_path is unset"⟩ := by
  rfl

/-- Without a master key the extension raises, and the sidecar answers with an empty mock. -/
theorem sealed_without_key :
    Sidecar.resolveOrDefaultProvider (R := Nat) .failing .empty (.connected sealedConfiguration)
        "default" none = .mocked ∧
      ¬ SameAnswer
        (Extension.resolveOrDefaultProvider .failing .empty none sealedConfiguration "default")
        (.ok (Sidecar.resolveOrDefaultProvider .failing .empty (.connected sealedConfiguration)
          "default" none) : Except String (LlmProvider Nat)) := by
  refine ⟨by decide +kernel, ?_⟩
  intro same
  have answered := (same _).mpr rfl
  rw [sealed_raises] at answered
  cases answered

end PgRaggraph

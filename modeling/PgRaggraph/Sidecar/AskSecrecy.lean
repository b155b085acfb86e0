import PgRaggraph.Sidecar.HttpAsk

/-! What a response of `POST /v1/ask` tells of credentials, of key files and of the causes of errors:
only what a provider answers. -/

namespace PgRaggraph

variable {R N : Type}

/-- What a client must not learn: the credentials by provider, the files, the path of the master
key, the texts that crates and APIs put into errors. -/
structure Secrets (R : Type) where
  credentials : String → Option String
  crates : Crates R
  files : FileSystem
  masterKeyPath : Option String
  remote : LlmProvider R → String → CoreResult Completion

def Configuration.withSecrets (config : Configuration) (secrets : Secrets R) : Configuration where
  namespaces := config.namespaces
  providers := config.providers.map (fun row =>
    { row with credential := secrets.credentials row.name })
  namespacesPkey := config.namespacesPkey
  providersPkey := by
    rw [List.map_map]
    exact config.providersPkey

def AskState.withSecrets (state : AskState R N) (secrets : Secrets R) : AskState R N :=
  { state with
    config := state.config.withSecrets secrets
    registered := state.registered }

/-- What the provider of a name answers to a prompt. The text of an error is not part of it. -/
def Secrets.answers (secrets : Secrets R) (config : Configuration) (name prompt : String) :
    Option (Option Completion) :=
  (Sidecar.buildProviderImpl secrets.crates secrets.files
      (.connected (config.withSecrets secrets)) name secrets.masterKeyPath).toOption.map
    (fun p => (p.complete secrets.remote prompt).toOption)

def Secrets.refusing (R : Type) (key : String) : Secrets R where
  credentials _ := some key
  crates := .failing
  files := .empty
  masterKeyPath := none
  remote _ _ := .error (.http s!"401 for key {key}")

section Asked

variable {profile : BuildProfile} {latencyMs : UInt64} {req : AskRequest}
  {complete complete' : String → CoreResult Completion}

theorem toOption_map {ε α β : Type} (f : α → β) (result : Except ε α) :
    (result.map f).toOption = result.toOption.map f := by
  cases result with
  | error e => rfl
  | ok a => rfl

theorem asked_alike (same : ∀ prompt, (complete prompt).toOption = (complete' prompt).toOption) :
    (asked profile complete latencyMs req).map (fun ended => (ended.1, ended.2.toOption)) =
      (asked profile complete' latencyMs req).map (fun ended => (ended.1, ended.2.toOption)) := by
  cases checked : checkBudget req.chunks.items req.tokenBudget with
  | error e => rw [asked_error (build_error checked), asked_error (build_error checked)]
  | ok passed =>
      cases packed : packChunks profile req.tokenBudget req.chunks.items with
      | none =>
          rw [asked_panics (build_panics checked packed),
            asked_panics (build_panics checked packed)]
      | some p =>
          rcases build_ok checked packed req.question with ⟨addressable, builds⟩
          rw [asked_ok builds, asked_ok builds, Option.map_some, Option.map_some, toOption_map,
            toOption_map, same]

end Asked

namespace Sidecar

def AskServer.withSecrets (server : AskServer R N) (secrets : Secrets R) : AskServer R N :=
  { server with
    crates := secrets.crates
    files := secrets.files
    masterKeyPath := secrets.masterKeyPath
    remote := secrets.remote }

/-- Results that a client cannot tell apart: values that are, or errors with one response. -/
inductive Twins {α β : Type} (r : α → β → Prop) : Except AskError α → Except AskError β → Prop where
  | values {a : α} {b : β} (related : r a b) : Twins r (.ok a) (.ok b)
  | errors {e e' : AskError} (face : ∀ N, (e.intoResponse : Response N) = e'.intoResponse) :
      Twins r (.error e) (.error e')

theorem Twins.internal {α β : Type} {r : α → β → Prop} (cause cause' : String) :
    Twins r (.error (.internal cause)) (.error (.internal cause')) :=
  .errors (fun _ => rfl)

variable {fails fails' : AskStep → Option String} {state : AskState R N} {body : AskBody N}
  {server : AskServer R N} {s s' : Secrets R}

def SameFaults (fails fails' : AskStep → Option String) : Prop :=
  ∀ step, (fails step).isSome = (fails' step).isSome

theorem SameFaults.cases (same : SameFaults fails fails') (step : AskStep) :
    (fails step = none ∧ fails' step = none) ∨
      ∃ e e', fails step = some e ∧ fails' step = some e' := by
  have isSome := same step
  rcases here : fails step with _ | e
  · rcases there : fails' step with _ | e'
    · exact .inl ⟨rfl, rfl⟩
    · simp [here, there] at isSome
  · rcases there : fails' step with _ | e'
    · simp [here, there] at isSome
    · exact .inr ⟨e, e', rfl, rfl⟩

theorem SameFaults.tried (same : SameFaults fails fails') {α : Type} (step : AskStep) (value : α) :
    (AskServer.tried fails step value = .ok value ∧ AskServer.tried fails' step value = .ok value) ∨
      ∃ e e', AskServer.tried fails step value = .error e ∧
        AskServer.tried fails' step value = .error e' := by
  rw [AskServer.tried, AskServer.tried]
  rcases same.cases step with ⟨here, there⟩ | ⟨e, e', here, there⟩
  · rw [here, there]
    exact .inl ⟨rfl, rfl⟩
  · rw [here, there]
    exact .inr ⟨e, e', rfl, rfl⟩

def SameProvider (s s' : Secrets R) (p p' : LlmProvider R) : Prop :=
  ∀ prompt, (p.complete s.remote prompt).toOption = (p'.complete s'.remote prompt).toOption

def SameAnswers (config : Configuration) (s s' : Secrets R) : Prop :=
  ∀ name prompt, s.answers config name prompt = s'.answers config name prompt

theorem build_faultless (crates : Crates R) (files : FileSystem) (client : Client) (name : String)
    (path : Option String) (answers : client.fails .providerRow = none) :
    buildProviderImpl crates files client name path =
      buildProviderImpl crates files (.connected client.config) name path := by
  simp only [buildProviderImpl, Client.queryOpt, Client.query, answers, Client.connected]

theorem build_faulty (crates : Crates R) (files : FileSystem) (client : Client) (name : String)
    (path : Option String) {e : String} (failed : client.fails .providerRow = some e) :
    ∃ e', buildProviderImpl crates files client name path = .error e' := by
  simp only [buildProviderImpl, Client.queryOpt, Client.query, failed]
  exact ⟨_, rfl⟩

theorem build_twins (faults : SameFaults fails fails') (answers : SameAnswers state.config s s')
    (name : String) :
    (∃ p p', SameProvider s s' p p' ∧
      buildProviderImpl s.crates s.files (AskServer.client fails (state.withSecrets s)) name
        s.masterKeyPath = .ok p ∧
      buildProviderImpl s'.crates s'.files (AskServer.client fails' (state.withSecrets s')) name
        s'.masterKeyPath = .ok p') ∨
    ∃ e e', buildProviderImpl s.crates s.files (AskServer.client fails (state.withSecrets s)) name
        s.masterKeyPath = .error e ∧
      buildProviderImpl s'.crates s'.files (AskServer.client fails' (state.withSecrets s')) name
        s'.masterKeyPath = .error e' := by
  rcases faults.cases (.factory .providerRow) with ⟨here, there⟩ | ⟨e, e', here, there⟩
  · rw [build_faultless s.crates s.files _ name s.masterKeyPath here,
      build_faultless s'.crates s'.files _ name s'.masterKeyPath there]
    have same := answers name
    simp only [Secrets.answers] at same
    rcases built : buildProviderImpl s.crates s.files
      (.connected (state.config.withSecrets s)) name s.masterKeyPath with e | p
    · rcases built' : buildProviderImpl s'.crates s'.files
        (.connected (state.config.withSecrets s')) name s'.masterKeyPath with e' | p'
      · exact .inr ⟨e, e', built, built'⟩
      · rw [built, built'] at same
        cases same ""
    · rcases built' : buildProviderImpl s'.crates s'.files
        (.connected (state.config.withSecrets s')) name s'.masterKeyPath with e' | p'
      · rw [built, built'] at same
        cases same ""
      · rw [built, built'] at same
        exact .inl ⟨p, p', fun prompt => Option.some.inj (same prompt), built, built'⟩
  · rcases build_faulty s.crates s.files (AskServer.client fails (state.withSecrets s)) name
      s.masterKeyPath here with ⟨cause, built⟩
    rcases build_faulty s'.crates s'.files (AskServer.client fails' (state.withSecrets s')) name
      s'.masterKeyPath there with ⟨cause', built'⟩
    exact .inr ⟨cause, cause', built, built'⟩

theorem providerRefs_secrets (config : Configuration) (secrets : Secrets R) :
    (config.withSecrets secrets).providerRefs = config.providerRefs := by
  rw [Configuration.providerRefs, Configuration.withSecrets, List.map_map]
  rfl

theorem providerModel_secrets (config : Configuration) (secrets : Secrets R) (name : String) :
    (config.withSecrets secrets).providerModel name = config.providerModel name := by
  have models : ((config.withSecrets secrets).providerNamed name).map (·.model) =
      (config.providerNamed name).map (·.model) := by
    rw [Configuration.providerNamed, Configuration.providerNamed, Configuration.withSecrets,
      List.filter_map, List.map_map, List.map_map, List.map_map]
    rfl
  rw [Configuration.providerModel, Configuration.providerModel, ← List.head?_map, models,
    List.head?_map]

theorem factory_query_twins (state : AskState R N) (s s' : Secrets R)
    (faults : SameFaults fails fails') {α β : Type} (sent : Query)
    (rows : List α) (read : Except String (Option α) → β)
    (blind : ∀ e e', read (.error e) = read (.error e')) :
    read ((AskServer.client fails (state.withSecrets s)).queryOpt sent rows) =
      read ((AskServer.client fails' (state.withSecrets s')).queryOpt sent rows) := by
  rcases faults.cases (.factory sent) with ⟨here, there⟩ | ⟨e, e', here, there⟩
  · simp only [Client.queryOpt, Client.query, AskServer.client, here, there]
  · simp only [Client.queryOpt, Client.query, AskServer.client, here, there]
    exact blind e e'

def Client.picked (client : Client) (ns : String) : CoreResult String :=
  resolveProvider none
    (match client.queryOpt .namespaceDefault (client.config.namespaceDefault ns) with
      | .ok row => row.join
      | .error _ => none)
    (match client.query .providerNames client.config.providerRefs with
      | .ok rows => rows
      | .error _ => [])

theorem picked_twins (faults : SameFaults fails fails') (ns : String) :
    (AskServer.client fails (state.withSecrets s)).picked ns =
      (AskServer.client fails' (state.withSecrets s')).picked ns := by
  have defaults := factory_query_twins state s s' faults .namespaceDefault
    (state.config.namespaceDefault ns)
    (fun result => match result with
      | .ok row => row.join
      | .error _ => none) (fun _ _ => rfl)
  have refs : (match (AskServer.client fails (state.withSecrets s)).query .providerNames
        (state.config.withSecrets s).providerRefs with
      | .ok rows => rows
      | .error _ => []) =
      match (AskServer.client fails' (state.withSecrets s')).query .providerNames
        (state.config.withSecrets s').providerRefs with
      | .ok rows => rows
      | .error _ => [] := by
    rw [providerRefs_secrets, providerRefs_secrets]
    rcases faults.cases (.factory .providerNames) with ⟨here, there⟩ | ⟨e, e', here, there⟩
    · simp only [Client.query, AskServer.client, here, there]
    · simp only [Client.query, AskServer.client, here, there]
  exact congrArg₂ (resolveProvider none) defaults refs

def orMocked (build : String → Except String (LlmProvider R)) : CoreResult String → LlmProvider R
  | .ok name =>
      match build name with
      | .ok p => p
      | .error _ => .mocked
  | .error _ => .mocked

theorem default_picked (secrets : Secrets R) (client : Client) (ns : String) :
    resolveOrDefaultProvider secrets.crates secrets.files client ns secrets.masterKeyPath =
      orMocked (fun name => buildProviderImpl secrets.crates secrets.files client name
        secrets.masterKeyPath) (client.picked ns) := rfl

theorem default_twins (faults : SameFaults fails fails') (answers : SameAnswers state.config s s')
    (ns : String) :
    SameProvider s s'
      (resolveOrDefaultProvider s.crates s.files (AskServer.client fails (state.withSecrets s)) ns
        s.masterKeyPath)
      (resolveOrDefaultProvider s'.crates s'.files (AskServer.client fails' (state.withSecrets s')) ns
        s'.masterKeyPath) := by
  rw [default_picked, default_picked, picked_twins faults]
  rcases (AskServer.client fails' (state.withSecrets s')).picked ns with e | name
  · exact fun prompt => rfl
  · dsimp only [orMocked]
    rcases build_twins faults answers name with ⟨p, p', same, built, built'⟩ | ⟨e, e', built, built'⟩
    · rw [built, built']
      exact same
    · rw [built, built']
      exact fun prompt => rfl

theorem provider_twins (faults : SameFaults fails fails') (answers : SameAnswers state.config s s') :
    Twins (SameProvider s s')
      ((server.withSecrets s).provider fails (state.withSecrets s) body)
      ((server.withSecrets s').provider fails' (state.withSecrets s') body) := by
  rw [AskServer.provider, AskServer.provider]
  rcases body.llmProvider with _ | name
  · exact .values (default_twins faults answers body.ns)
  · have twins := build_twins faults answers name
    rcases twins with ⟨p, p', same, built, built'⟩ | ⟨e, e', built, built'⟩
    · dsimp only [AskServer.withSecrets]
      rw [built, built']
      exact .values same
    · dsimp only [AskServer.withSecrets]
      rw [built, built']
      exact .internal e e'

theorem resolveProviderName_twins (s s' : Secrets R) (faults : SameFaults fails fails') :
    AskServer.resolveProviderName fails (state.withSecrets s) body =
      AskServer.resolveProviderName fails' (state.withSecrets s') body := by
  have refs : (state.withSecrets s).config.providerRefs = (state.withSecrets s').config.providerRefs :=
    (providerRefs_secrets state.config s).trans (providerRefs_secrets state.config s').symm
  have defaults : (state.withSecrets s).config.namespaceDefault body.ns =
      (state.withSecrets s').config.namespaceDefault body.ns := rfl
  simp only [AskServer.resolveProviderName, refs, defaults]
  rcases faults.tried .nameDefault ((state.withSecrets s').config.namespaceDefault body.ns)
    with ⟨here, there⟩ | ⟨e, e', here, there⟩
  · rw [here, there]
    rcases faults.tried .nameProviders (state.withSecrets s').config.providerRefs
      with ⟨here, there⟩ | ⟨e, e', here, there⟩
    · rw [here, there]
    · rw [here, there]
  · rw [here, there]
    rcases faults.tried .nameProviders (state.withSecrets s').config.providerRefs
      with ⟨here, there⟩ | ⟨e, e', here, there⟩
    · rw [here, there]
    · rw [here, there]

theorem providerModel_twins (s s' : Secrets R) (faults : SameFaults fails fails') (name : String) :
    AskServer.providerModel fails (state.withSecrets s) name =
      AskServer.providerModel fails' (state.withSecrets s') name := by
  have models : (state.withSecrets s).config.providerModel name =
      (state.withSecrets s').config.providerModel name :=
    (providerModel_secrets state.config s name).trans (providerModel_secrets state.config s' name).symm
  rw [AskServer.providerModel, AskServer.providerModel, models]
  rcases faults.tried .providerModel ((state.withSecrets s').config.providerModel name)
    with ⟨here, there⟩ | ⟨e, e', here, there⟩
  · rw [here, there]
  · rw [here, there]

theorem tokenBudget_twins (s s' : Secrets R) (faults : SameFaults fails fails') (ns : String) :
    (server.withSecrets s).tokenBudget fails (state.withSecrets s) ns =
      (server.withSecrets s').tokenBudget fails' (state.withSecrets s') ns := by
  have budgets : (state.withSecrets s).tokenBudget (server.withSecrets s).toAskHost ns =
      (state.withSecrets s').tokenBudget (server.withSecrets s').toAskHost ns := rfl
  rw [AskServer.tokenBudget, AskServer.tokenBudget, budgets]
  rcases faults.tried .tokenBudget
    ((state.withSecrets s').tokenBudget (server.withSecrets s').toAskHost ns)
    with ⟨here, there⟩ | ⟨e, e', here, there⟩
  · rw [here, there]
  · rw [here, there]

theorem checkNamespace_twins (faults : SameFaults fails fails') (ns : String) :
    Twins (fun _ _ => True) (AskServer.checkNamespace fails (state.withSecrets s) ns)
      (AskServer.checkNamespace fails' (state.withSecrets s') ns) := by
  have registers : (state.withSecrets s).registers ns = (state.withSecrets s').registers ns := rfl
  rw [AskServer.checkNamespace, AskServer.checkNamespace, registers]
  rcases faults.tried .namespaceExists ((state.withSecrets s').registers ns)
    with ⟨here, there⟩ | ⟨e, e', here, there⟩
  · rw [here, there]
    dsimp only
    split
    · exact .values trivial
    · exact .errors (fun _ => rfl)
  · rw [here, there]
    exact .internal e e'

section Retrieval

variable [LinearOrder R] [Zero R] [Add R] [Mul R] [Div R] [IntCast R]

theorem retrieveChunks_twins (faults : SameFaults fails fails') :
    Twins Eq ((server.withSecrets s).retrieveChunks fails (state.withSecrets s) body)
      ((server.withSecrets s').retrieveChunks fails' (state.withSecrets s') body) := by
  have same : (server.withSecrets s).retrieveChunks fails (state.withSecrets s) body =
      server.retrieveChunks fails state body := rfl
  have same' : (server.withSecrets s').retrieveChunks fails' (state.withSecrets s') body =
      server.retrieveChunks fails' state body := rfl
  rw [same, same', AskServer.retrieveChunks, AskServer.retrieveChunks]
  rcases faults.tried .embed (server.engine.embed body.q) with ⟨here, there⟩ | ⟨e, e', here, there⟩
  · rw [here, there]
    dsimp only
    split
    · exact .internal _ _
    rename_i literal _
    rcases faults.tried .retrieve (query (server.literalEngine literal) state.database .hybrid
      { q := body.q, filter := body.filter, topK := body.topK.toInt, ns := body.ns,
        hops := body.hops.toInt, weights := .default }) with ⟨here, there⟩ | ⟨e, e', here, there⟩
    · rw [here, there]
      split
      · exact .internal _ _
      · exact .internal _ _
      · exact .values rfl
    · rw [here, there]
      exact .internal e e'
  · rw [here, there]
    exact .internal e e'

omit [LinearOrder R] [Zero R] [Add R] [Mul R] [Div R] [IntCast R] in
theorem answer_twins (server : AskServer R N) (body : AskBody N) {p p' : LlmProvider R}
    (same : SameProvider s s' p p') (name model : String)
    (budget : Option Int32) (rows : List PromptChunk) :
    ((server.withSecrets s).answer body p name model budget rows).map
        (fun ended => (ended.1, ended.2.toOption)) =
      ((server.withSecrets s').answer body p' name model budget rows).map
        (fun ended => (ended.1, ended.2.toOption)) := by
  have mapped (secrets : Secrets R) (q : LlmProvider R) (chunks : Vec PromptChunk) :
      (asked server.profile (q.complete secrets.remote) server.latencyMs
          { question := body.q, chunks := chunks, provider := name, model := model,
            tokenBudget := budget.getD 4000 } >>= fun ended =>
          some (ended.1, ended.2.map server.rowOf)).map (fun ended => (ended.1, ended.2.toOption)) =
        ((asked server.profile (q.complete secrets.remote) server.latencyMs
          { question := body.q, chunks := chunks, provider := name, model := model,
            tokenBudget := budget.getD 4000 }).map (fun ended => (ended.1, ended.2.toOption))).map
            (fun ended => (ended.1, ended.2.map server.rowOf)) := by
    cases asked server.profile (q.complete secrets.remote) server.latencyMs _ with
    | none => rfl
    | some ended =>
        dsimp only [Option.bind_eq_bind, Option.bind_some, Option.map_some]
        rw [toOption_map]
  rw [AskHost.answer, AskHost.answer]
  rcases Vec.collect rows with _ | chunks
  · rfl
  · refine (mapped s p chunks).trans (Eq.trans ?_ (mapped s' p' chunks).symm)
    rw [asked_alike same]

theorem Twins.respond {x y : Except AskError (AskRow N)} (twins : Twins Eq x y) :
    Sidecar.respond x = Sidecar.respond y := by
  cases twins with
  | values related => rw [related]
  | errors face => exact face N

def respondOption : Option (AskRow N) → Response N
  | some row => ⟨200, row.body⟩
  | none => AskError.intoResponse (.internal "")

theorem respond_answer (result : CoreResult (AskRow N)) :
    respond (result.mapError (fun e => .internal e.display)) = respondOption result.toOption := by
  cases result with
  | error e => rfl
  | ok row => rfl

def shown (ended : Option (List String × Except AskError (AskRow N))) :
    Option (List String × Response N) :=
  ended.map (fun ended => (ended.1, respond ended.2))

def proceed {α : Type} (stage : Except AskError α)
    (rest : α → Option (List String × Except AskError (AskRow N))) :
    Option (List String × Except AskError (AskRow N)) :=
  match stage with
  | .error e => some ([], .error e)
  | .ok a => rest a

theorem Twins.proceed {α β : Type} {r : α → β → Prop} {x : Except AskError α} {y : Except AskError β}
    (twins : Twins r x y) {f : α → Option (List String × Except AskError (AskRow N))}
    {g : β → Option (List String × Except AskError (AskRow N))}
    (next : ∀ a b, r a b → shown (f a) = shown (g b)) :
    shown (Sidecar.proceed x f) = shown (Sidecar.proceed y g) := by
  cases twins with
  | values related => exact next _ _ related
  | errors face => exact congrArg (fun response => some ([], response)) (face N)

def askChunks (server : AskServer R N) (fails : AskStep → Option String) (state : AskState R N)
    (body : AskBody N) (p : LlmProvider R) (chunks : List PromptChunk) :
    Option (List String × Except AskError (AskRow N)) :=
  let name := AskServer.resolveProviderName fails state body
  if chunks.isEmpty then some ([], .ok server.noContext)
  else
    (server.answer body p name (AskServer.providerModel fails state name)
      (server.tokenBudget fails state body.ns) chunks).map (fun ended =>
        (ended.1, ended.2.mapError (fun e => .internal e.display)))

theorem askHandler_proceeds (server : AskServer R N) (fails : AskStep → Option String)
    (state : AskState R N) :
    server.askHandler fails state body =
      proceed ((AskServer.tried fails .connect ()).mapError .internal) (fun _ =>
        proceed (AskServer.checkNamespace fails state body.ns) (fun _ =>
          proceed (server.provider fails state body) (fun p =>
            proceed (server.retrieveChunks fails state body) (askChunks server fails state body p)))) := by
  rw [AskServer.askHandler]
  rcases AskServer.tried fails .connect () with e | ⟨⟩
  · rfl
  rcases checked : AskServer.checkNamespace fails state body.ns with e | ⟨⟩
  · rfl
  rcases server.provider fails state body with e | p
  · rfl
  rcases server.retrieveChunks fails state body with e | rows
  · rfl
  · rfl

theorem connect_twins (faults : SameFaults fails fails') :
    Twins (fun _ _ => True) ((AskServer.tried fails .connect ()).mapError .internal)
      ((AskServer.tried fails' .connect ()).mapError .internal) := by
  rcases faults.tried .connect () with ⟨here, there⟩ | ⟨e, e', here, there⟩
  · rw [here, there]
    exact .values trivial
  · rw [here, there]
    exact .internal e e'

omit [LinearOrder R] [Zero R] [Add R] [Mul R] [Div R] [IntCast R] in
theorem askChunks_twins (faults : SameFaults fails fails') {p p' : LlmProvider R}
    (same : SameProvider s s' p p') (chunks : List PromptChunk) :
    shown (askChunks (server.withSecrets s) fails (state.withSecrets s) body p chunks) =
      shown (askChunks (server.withSecrets s') fails' (state.withSecrets s') body p' chunks) := by
  rw [askChunks, askChunks, resolveProviderName_twins s s' faults, providerModel_twins s s' faults,
    tokenBudget_twins s s' faults]
  split
  · rfl
  · have twins := answer_twins server body same
      (AskServer.resolveProviderName fails' (state.withSecrets s') body)
      (AskServer.providerModel fails' (state.withSecrets s')
        (AskServer.resolveProviderName fails' (state.withSecrets s') body))
      ((server.withSecrets s').tokenBudget fails' (state.withSecrets s') body.ns) chunks
    have told := congrArg (Option.map (fun ended : List String × Option (AskRow N) =>
      (ended.1, respondOption ended.2))) twins
    simp only [Option.map_map, Function.comp_def] at told
    simp only [shown, Option.map_map, Function.comp_def, respond_answer]
    exact told

theorem handler_twins (faults : SameFaults fails fails') (answers : SameAnswers state.config s s') :
    shown ((server.withSecrets s).askHandler fails (state.withSecrets s) body) =
      shown ((server.withSecrets s').askHandler fails' (state.withSecrets s') body) := by
  rw [askHandler_proceeds, askHandler_proceeds]
  apply (connect_twins faults).proceed
  intro _ _ _
  apply (checkNamespace_twins faults body.ns).proceed
  intro _ _ _
  apply (provider_twins faults answers).proceed
  intro p p' same
  apply (retrieveChunks_twins faults).proceed
  rintro rows _ rfl
  exact askChunks_twins faults same rows

/-- Nothing of the secrets and of the causes of errors is in a response or in a prompt, where the
provider's own answers are the same. -/
theorem responses_hide_secrets (server : AskServer R N) (state : AskState R N) (s s' : Secrets R)
    (fails fails' : AskStep → Option String) (faults : SameFaults fails fails')
    (answers : SameAnswers state.config s s') (request : Request) :
    (server.withSecrets s).postAsk fails (state.withSecrets s) request =
      (server.withSecrets s').postAsk fails' (state.withSecrets s') request := by
  have parsed : (server.withSecrets s).askJson request = (server.withSecrets s').askJson request := rfl
  rw [AskServer.postAsk, AskServer.postAsk, parsed]
  split
  · rfl
  · exact handler_twins faults answers

end Retrieval

theorem refusing_answers (key name prompt : String) (bare : isEncrypted key = false) :
    (Secrets.refusing Int key).answers (AskState.sample Int).config name prompt =
      if name = "gpt" then some none else none := by
  by_cases named : name = "gpt"
  · subst named
    simp only [Secrets.answers, buildProviderImpl, Client.connected_config, if_true]
    have row : ((AskState.sample Int).config.withSecrets (Secrets.refusing Int key)).providerNamed
        "gpt" = [⟨"openai", "gpt-4o-mini", none, some key⟩] := rfl
    rw [row]
    simp [Client.queryOpt, plaintextCred, bare, dispatch, Except.mapError, Except.toOption,
      bind, Except.bind, LlmProvider.complete, Secrets.refusing]
  · simp only [Secrets.answers, buildProviderImpl, Client.connected_config, if_neg named]
    have row : ((AskState.sample Int).config.withSecrets (Secrets.refusing Int key)).providerNamed
        name = [] := by
      simp [Configuration.providerNamed, Configuration.withSecrets, AskState.sample,
        Configuration.single, Ne.symm named]
    rw [row]
    rfl

theorem plain_keys : isEncrypted "sk-first" = false ∧ isEncrypted "sk-second" = false := by
  decide +kernel

def refused (key : String) : Option (List String × Response Int) :=
  ((AskServer.sample Int (fun _ => .ok (.array [.string "who"]))
    (fun _ _ => .error (.http ""))).withSecrets (.refusing Int key)).postAsk calm
      ((AskState.sample Int).withSecrets (.refusing Int key)) ⟨true, some "[\"who\"]"⟩

theorem refused_key_hidden : refused "sk-first" = refused "sk-second" := by
  apply responses_hide_secrets
  · exact fun step => rfl
  · intro name prompt
    rw [refusing_answers "sk-first" name prompt plain_keys.1,
      refusing_answers "sk-second" name prompt plain_keys.2]

end Sidecar

end PgRaggraph

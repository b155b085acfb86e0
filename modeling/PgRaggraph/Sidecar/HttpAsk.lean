import PgRaggraph.Extension.Ask
import PgRaggraph.Sidecar.ProviderFactory
import PgRaggraph.Store.VectorLiteral

/-! `POST /v1/ask`, and where it answers as `pgrg.ask` does. -/

namespace PgRaggraph

variable {R N : Type}

/-- A member of an object that may stand once. -/
def onceMember (members : List (String × Json N)) (key : String) : Option (Option (Json N)) :=
  match members.filter (fun m => m.1 == key) with
  | [] => some none
  | [m] => some (some m.2)
  | _ => none

/-- An `Option` of `serde`. -/
def readOptional {α : Type} (read : Json N → Option α) : Json N → Option (Option α)
  | .null => some none
  | v => (read v).map some

namespace AskBody

/-- The fields of `AskBody` with their defaults. `asI32` reads a number that is an `i32`. -/
def ofFields (asI32 : N → Option Int32) (q filter topK ns hops llmProvider : Option (Json N)) :
    Option (AskBody N) := do
  let q ← q.bind Json.asStr
  let filter ← filter.elim (some none) (readOptional some)
  let topK ← topK.elim (some 10) (fun v => v.asNumber.bind asI32)
  let ns ← ns.elim (some "default") Json.asStr
  let hops ← hops.elim (some 1) (fun v => v.asNumber.bind asI32)
  let llmProvider ← llmProvider.elim (some none) (readOptional Json.asStr)
  return ⟨q, filter, topK, ns, hops, llmProvider⟩

def ofJson (asI32 : N → Option Int32) : Json N → Option (AskBody N)
  | .object members => do
      ofFields asI32 (← onceMember members "q") (← onceMember members "filter")
        (← onceMember members "top_k") (← onceMember members "namespace")
        (← onceMember members "hops") (← onceMember members "llm_provider")
  | .array elements =>
      if elements.length ≤ 6 then
        ofFields asI32 elements[0]? elements[1]? elements[2]? elements[3]? elements[4]? elements[5]?
      else none
  | _ => none

end AskBody

namespace Sidecar

inductive AskStep where
  | connect
  | namespaceExists
  | factory (sent : Query)
  | nameDefault
  | nameProviders
  | providerModel
  | embed
  | retrieve
  | tokenBudget

inductive AskError where
  | badRequest (message : String)
  | unknownNamespace
  | internal (cause : String)

structure Response (N : Type) where
  status : Nat
  body : Json N

def AskError.body (error code : String) : Json N :=
  .object [("error", .string error), ("code", .string code)]

def AskError.intoResponse : AskError → Response N
  | .badRequest message => ⟨400, body message "bad_request"⟩
  | .unknownNamespace => ⟨404, body "unknown namespace" "unknown_namespace"⟩
  | .internal _ => ⟨500, body "internal error" "internal"⟩

/-- The state of the handler, and what it leaves to the wire. `vectorIn` is the cast of a text to
`vector`, which the embedding of a question survives. `fromSlice` keeps every member as written. -/
structure AskServer (R N : Type) extends AskHost R N where
  format : FloatText R
  vectorIn : String → Except String (List R)
  survives : ∀ q, vectorIn (vectorLiteral format (engine.embed q)) = .ok (engine.embed q)
  fromSlice : String → Except String (Json N)
  asI32 : N → Option Int32

structure Request where
  jsonContentType : Bool
  body : Option String

namespace AskServer

variable (server : AskServer R N)

def askJson (request : Request) : Except AskError (AskBody N) :=
  if request.jsonContentType then
    match request.body with
    | none => .error (.badRequest "bad request")
    | some text =>
        match server.fromSlice text with
        | .error _ => .error (.badRequest "invalid JSON body")
        | .ok v =>
            match AskBody.ofJson server.asI32 v with
            | none => .error (.badRequest "invalid JSON body")
            | some body => .ok body
  else .error (.badRequest "content-type must be application/json")

variable (fails : AskStep → Option String)

def tried {α : Type} (step : AskStep) (value : α) : Except String α :=
  match fails step with
  | some e => .error e
  | none => .ok value

def client (state : AskState R N) : Client := ⟨state.config, fun sent => fails (.factory sent)⟩

def checkNamespace (state : AskState R N) (ns : String) : Except AskError Unit :=
  match tried fails .namespaceExists (state.registers ns) with
  | .error e => .error (.internal e)
  | .ok present => if present then .ok () else .error .unknownNamespace

def resolveProviderName (state : AskState R N) (body : AskBody N) : String :=
  let nsDefault :=
    match tried fails .nameDefault (state.config.namespaceDefault body.ns) with
    | .ok rows => rows.head?.join
    | .error _ => none
  let available :=
    match tried fails .nameProviders state.config.providerRefs with
    | .ok refs => refs
    | .error _ => []
  match resolveProvider body.llmProvider nsDefault available with
  | .ok name => name
  | .error _ => ""

def provider (state : AskState R N) (body : AskBody N) : Except AskError (LlmProvider R) :=
  match body.llmProvider with
  | some name =>
      (buildProviderImpl server.crates server.files (client fails state) name
        server.masterKeyPath).mapError .internal
  | none =>
      .ok (resolveOrDefaultProvider server.crates server.files (client fails state) body.ns
        server.masterKeyPath)

variable [LinearOrder R] [Zero R] [Add R] [Mul R] [Div R] [IntCast R]

/-- The statement with the embedding of the question in the place of `pgrg.embed($1)`. -/
def literalEngine (embedding : List R) : Engine R (Json N) :=
  { server.engine with embed := fun _ => embedding }

def retrieveChunks (state : AskState R N) (body : AskBody N) : Except AskError (List PromptChunk) :=
  match tried fails .embed (server.engine.embed body.q) with
  | .error e => .error (.internal e)
  | .ok embedding =>
      match server.vectorIn (vectorLiteral server.format embedding) with
      | .error e => .error (.internal e)
      | .ok literal =>
          let engine := server.literalEngine literal
          match tried fails .retrieve
              (query engine state.database .hybrid
                { q := body.q, filter := body.filter, topK := body.topK.toInt, ns := body.ns,
                  hops := body.hops.toInt, weights := .default }) with
          | .error e => .error (.internal e)
          | .ok (.error e) => .error (.internal e.message)
          | .ok (.ok found) => .ok (state.promptRows engine found)

def providerModel (state : AskState R N) (name : String) : String :=
  match tried fails .providerModel (state.config.providerModel name) with
  | .ok model => model
  | .error _ => ""

/-- `.ok().flatten()`: a query that fails, also in its cast, leaves the default. -/
def tokenBudget (state : AskState R N) (ns : String) : Option Int32 :=
  match tried fails .tokenBudget (state.tokenBudget server.toAskHost ns) with
  | .ok (.ok budget) => budget
  | _ => none

def askHandler (state : AskState R N) (body : AskBody N) :
    Option (List String × Except AskError (AskRow N)) :=
  match tried fails .connect () with
  | .error e => some ([], .error (.internal e))
  | .ok () =>
      match checkNamespace fails state body.ns with
      | .error e => some ([], .error e)
      | .ok () =>
          match server.provider fails state body with
          | .error e => some ([], .error e)
          | .ok p =>
              let providerName := resolveProviderName fails state body
              let providerModel := providerModel fails state providerName
              match server.retrieveChunks fails state body with
              | .error e => some ([], .error e)
              | .ok chunks =>
                  if chunks.isEmpty then some ([], .ok server.noContext)
                  else
                    (server.answer body p providerName providerModel
                      (server.tokenBudget fails state body.ns) chunks).map (fun ended =>
                        (ended.1, ended.2.mapError (fun e => .internal e.display)))

end AskServer

end Sidecar

def AskRow.body (row : AskRow N) : Json N :=
  .object
    [("answer", .string row.answer),
     ("citations", row.citations),
     ("signals", row.signals),
     ("mode_used", .string row.modeUsed)]

def Sidecar.respond (result : Except Sidecar.AskError (AskRow N)) : Sidecar.Response N :=
  match result with
  | .ok row => ⟨200, row.body⟩
  | .error e => e.intoResponse

namespace Sidecar.AskServer

variable [LinearOrder R] [Zero R] [Add R] [Mul R] [Div R] [IntCast R] (server : AskServer R N)
  (fails : AskStep → Option String)

def postAsk (state : AskState R N) (request : Request) : Option (List String × Response N) :=
  match server.askJson request with
  | .error e => some ([], e.intoResponse)
  | .ok body =>
      (server.askHandler fails state body).map (fun ended => (ended.1, respond ended.2))

end Sidecar.AskServer

def AskHost.Builds (host : AskHost R N) (state : AskState R N) (name : String) (p : LlmProvider R) :
    Prop :=
  Extension.buildProviderImpl host.crates host.files host.masterKeyPath state.config name = .ok p

namespace Sidecar

def calm : AskStep → Option String := fun _ => none

variable {server : AskServer R N} {state : AskState R N} {body : AskBody N}

end Sidecar

/-- Two hosts that embed a question alike and resolve ties in one order, and that have the same
operators of the database, formats, providers with their answers, key files and latency. -/
structure AskHost.Alike (host host' : AskHost R N) (q : String) : Prop where
  engine : host.engine.Alike host'.engine q
  rest : { host with engine := host'.engine } = host'

namespace AskHost.Alike

variable {host host' : AskHost R N} {q : String}

theorem embedder (alike : host.Alike host' q) : ∃ embed : String → List R,
    host = { host' with engine := { host'.engine with embed := embed } } := by
  refine ⟨host.engine.embed, ?_⟩
  rw [← alike.engine.embedder, ← alike.rest]

end AskHost.Alike

section Parity

variable [LinearOrder R] [Zero R] [Add R] [Mul R] [Div R] [IntCast R] {state : AskState R N}
  {body : AskBody N} {sent : List String} {row : AskRow N}

def AskHost.Finds (host : AskHost R N) (state : AskState R N) (body : AskBody N)
    (rows : List PromptChunk) : Prop :=
  ∃ found, Extension.query host.engine host.asF64 state.database body.retrieval = .ok found ∧
    rows = state.promptRows host.engine found

theorem AskHost.Finds.unique {host : AskHost R N} {rows rows' : List PromptChunk}
    (finds : host.Finds state body rows) (finds' : host.Finds state body rows') : rows = rows' := by
  rcases finds with ⟨found, ran, rfl⟩
  rcases finds' with ⟨found', ran', rfl⟩
  rw [ran] at ran'
  cases ran'
  rfl

namespace AskHost.Alike

variable {host host' : AskHost R N}

end AskHost.Alike

namespace Sidecar

variable {server : AskServer R N}

theorem retrieval_query (engine : Engine R (Json N)) (asF64 : N → R) (db : Database R (Json N)) :
    Extension.query engine asF64 db body.retrieval =
      (query engine db .hybrid (body.retrieval.binds asF64)).mapError
        (fun e => .statement e.message) := rfl

theorem retrieveChunks_found {fails : AskStep → Option String} {rows : List PromptChunk}
    (retrieved : server.retrieveChunks fails state body = .ok rows) :
    ∃ engine found, engine.contains = server.engine.contains ∧
      Extension.query engine server.asF64 state.database body.retrieval = .ok found ∧
      rows = state.promptRows engine found := by
  rw [AskServer.retrieveChunks] at retrieved
  split at retrieved
  · cases retrieved
  rename_i embedding _
  split at retrieved
  · cases retrieved
  rename_i literal _
  dsimp only at retrieved
  split at retrieved
  · cases retrieved
  · cases retrieved
  rename_i found ran
  cases retrieved
  refine ⟨server.literalEngine literal, found, rfl, ?_, rfl⟩
  rw [retrieval_query]
  have same : query (server.literalEngine literal) state.database .hybrid
      (body.retrieval.binds server.asF64) = .ok found := by
    rw [AskServer.tried] at ran
    split at ran
    · cases ran
    · exact Except.ok.inj ran
  rw [same]
  rfl

end Sidecar

theorem ask_sourced {host : AskHost R N} {result : Except Aborted (AskRow N)}
    (ran : Extension.ask host state body = some (sent, result)) :
    Confined host state body sent ∧ ∀ row, result = .ok row →
      ∃ citations, row.citations = citations.jsonb ∧ Sourced host state body citations := by
  have nothing_sent {error : Aborted} : Confined host state body [] ∧ ∀ row,
      (.error error : Except Aborted (AskRow N)) = .ok row →
        ∃ citations, row.citations = citations.jsonb ∧ Sourced host state body citations :=
    ⟨nothing_confined, fun row impossible => by cases impossible⟩
  simp only [Extension.ask] at ran
  split at ran
  · cases ran
    exact nothing_sent
  split at ran
  · cases ran
    exact nothing_sent
  rename_i found returned
  split at ran
  · rename_i none_found
    cases ran
    refine ⟨nothing_confined, fun row same => ?_⟩
    cases same
    have bounded := promptRows_length returned
    exact ⟨.array [], rfl, nothing_sourced (by omega)⟩
  split at ran
  · cases ran
    exact nothing_sent
  split at ran
  · cases ran
    exact nothing_sent
  rcases Option.map_eq_some_iff.mp ran with ⟨⟨prompts, out⟩, answered, same⟩
  cases same
  rcases answer_sourced rfl returned answered with ⟨confined, sourced⟩
  refine ⟨confined, fun row same => ?_⟩
  rcases out with e | out
  · cases same
  · cases same
    exact ⟨out.citations, rfl, sourced out rfl⟩

theorem handled_sourced {server : Sidecar.AskServer R N} {fails : Sidecar.AskStep → Option String}
    {result : Except Sidecar.AskError (AskRow N)}
    (ran : server.askHandler fails state body = some (sent, result)) :
    Confined server.toAskHost state body sent ∧ ∀ row, result = .ok row →
      Sourced server.toAskHost state body row.citations := by
  have nothing_sent {error : Sidecar.AskError} : Confined server.toAskHost state body [] ∧ ∀ row,
      (.error error : Except Sidecar.AskError (AskRow N)) = .ok row →
        Sourced server.toAskHost state body row.citations :=
    ⟨nothing_confined, fun row impossible => by cases impossible⟩
  simp only [Sidecar.AskServer.askHandler] at ran
  split at ran
  · cases ran
    exact nothing_sent
  split at ran
  · cases ran
    exact nothing_sent
  split at ran
  · cases ran
    exact nothing_sent
  split at ran
  · cases ran
    exact nothing_sent
  rename_i rows retrieved
  rcases Sidecar.retrieveChunks_found retrieved with ⟨engine, found, contains, returned, rfl⟩
  split at ran
  · cases ran
    refine ⟨nothing_confined, fun row same => ?_⟩
    cases same
    have bounded : ((state.promptRows engine found).length : Int) ≤ body.topK.toInt :=
      promptRows_length returned
    exact nothing_sourced (by omega)
  rcases Option.map_eq_some_iff.mp ran with ⟨⟨prompts, out⟩, answered, same⟩
  cases same
  rcases answer_sourced contains returned answered with ⟨confined, sourced⟩
  refine ⟨confined, fun row same => ?_⟩
  rcases out with e | out
  · cases same
  · cases same
    exact sourced row rfl

/-- Through either door, whatever fails and whatever the model says: the provider is sent text of
chunks of the namespace that pass the filter only, and the citations are of such chunks, each once,
as they are stored. -/
theorem ask_confined (server : Sidecar.AskServer R N) (fails : Sidecar.AskStep → Option String)
    (state : AskState R N) (body : AskBody N) :
    (∀ sent result, Extension.ask server.toAskHost state body = some (sent, result) →
      Confined server.toAskHost state body sent ∧ ∀ row, result = .ok row →
        ∃ citations, row.citations = citations.jsonb ∧
          Sourced server.toAskHost state body citations) ∧
    ∀ sent result, server.askHandler fails state body = some (sent, result) →
      Confined server.toAskHost state body sent ∧ ∀ row, result = .ok row →
        Sourced server.toAskHost state body row.citations :=
  ⟨fun _ _ ran => ask_sourced ran, fun _ _ ran => handled_sourced ran⟩

end Parity

section Sample

def Engine.uniform (R J : Type) [Zero R] : Engine R J where
  embed _ := []
  distance _ _ := 0
  textMatches _ _ := true
  tsRankCd _ _ := 0
  contains _ _ := true
  turn id := id
  turn_injective := fun _ _ same => same

def Sidecar.AskServer.sample (R : Type) [Zero R] (fromSlice : String → Except String (Json Int))
    (remote : LlmProvider R → String → CoreResult Completion) : Sidecar.AskServer R Int where
  engine := .uniform R (Json Int)
  asF64 _ := 0
  text _ := ""
  int4 _ := .error "invalid input syntax for type integer"
  number n := n
  uuidText id := toString id
  remote := remote
  latencyMs := 0
  profile := .release
  crates := .failing
  files := .empty
  masterKeyPath := none
  format := ⟨fun _ => "", fun _ => none⟩
  vectorIn _ := .ok []
  survives _ := rfl
  fromSlice := fromSlice
  asI32 n := if inI32 n then some (Int32.ofInt n) else none

def AskState.sample (R : Type) : AskState R Int where
  stored :=
    { tables :=
        { namespaces := ["default", "docs"]
          documents := [{ id := 100, ns := "default", source := "notes", contentHash := "h",
                          title := none }]
          chunks := [{ id := 10, documentId := 100, ns := "default", ord := 0,
                       text := "Ann knows Bob.", tokenCount := 4, embedding := [] }] }
      metadata := fun _ => .object [] }
  keyed := ⟨List.nodup_singleton _, List.nodup_nil⟩
  config := .single "sk-plain"
  settings _ := .object []
  registered := rfl

def Sidecar.AskServer.elsewhere (server : Sidecar.AskServer Int Int) (q : String) :
    AskHost Int Int :=
  { server.toAskHost with engine := { server.engine with
    embed := fun text => if text = q then server.engine.embed q else [0] } }

def AskBody.sample : AskBody Int := ⟨"who", none, 10, "default", 1, none⟩

def Sidecar.AskServer.citing (fromSlice : String → Except String (Json Int)) :
    Sidecar.AskServer Int Int :=
  .sample Int fromSlice (fun _ _ => .ok ⟨"Ann does [1].", 50, 6⟩)

end Sample

end PgRaggraph

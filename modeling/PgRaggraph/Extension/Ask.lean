import PgRaggraph.Core.Ask
import PgRaggraph.Extension.Query
import PgRaggraph.Retrieval.Reachable

/-! `pgrg.ask`: retrieval, the provider and the prompt put together. -/

namespace PgRaggraph

open Bag

variable {R N : Type}

def LlmProvider.complete (remote : LlmProvider R → String → CoreResult Completion) :
    LlmProvider R → String → CoreResult Completion
  | .mock stubAnswer _, _ => .ok ⟨stubAnswer, 0, 0⟩
  | p, prompt => remote p prompt

/-- The tables that `ask` reads. `settings` is the column of `pgrg.namespaces`. -/
structure AskState (R N : Type) where
  stored : Stored R (Json N)
  keyed : stored.tables.Keyed
  config : Configuration
  settings : String → Json N
  registered : stored.tables.namespaces = config.namespaces.map (·.name)

def AskState.database (state : AskState R N) : Database R (Json N) := state.stored.database state.keyed

def AskState.registers (state : AskState R N) (ns : String) : Bool :=
  state.stored.tables.namespaces.any (fun name => name = ns)

/-- What `ask` leaves to PostgreSQL, to the APIs of the providers and to the clock. `text` is `->>`
of a value that is no string, `int4` the cast of a text, and `number` what `json!` writes. -/
structure AskHost (R N : Type) where
  engine : Engine R (Json N)
  asF64 : N → R
  text : Json N → String
  int4 : String → Except String Int32
  number : Int → N
  uuidText : Uuid → String
  remote : LlmProvider R → String → CoreResult Completion
  latencyMs : UInt64
  profile : BuildProfile
  crates : Crates R
  files : FileSystem
  masterKeyPath : Option String

structure AskBody (N : Type) where
  q : String
  filter : Option (Json N)
  topK : Int32
  ns : String
  hops : Int32
  llmProvider : Option String

def AskBody.retrieval (body : AskBody N) : QueryCall N where
  q := body.q
  filter := body.filter
  topK := body.topK
  ns := body.ns
  hops := body.hops
  weights := none
  mode := "hybrid"

structure AskRow (N : Type) where
  answer : String
  citations : Json N
  signals : Json N
  modeUsed : String

namespace AskHost

variable (host : AskHost R N)

def member (v : Json N) (key : String) : Option String :=
  match v.get? key with
  | none => none
  | some .null => none
  | some (.string s) => some s
  | some other => some (host.text other)

def count (n : Nat) : Json N := .number (host.number n)

def citationJson (c : Citation) : Json N :=
  .object
    [("chunk_id", .string (host.uuidText c.chunkId)),
     ("document_id", .string (host.uuidText c.documentId)),
     ("ord", .number (host.number c.ord.toInt))]

def retrievalJson (signals : RetrievalSignals) : Json N :=
  .object
    [("chunks_in_prompt", host.count signals.chunksInPrompt),
     ("dropped_for_budget", host.count signals.droppedForBudget)]

def signalsJson (signals : AskSignals) : Json N :=
  .object
    [("retrieval", host.retrievalJson signals.retrieval),
     ("llm", .object
       [("provider", .string signals.llm.provider),
        ("model", .string signals.llm.model),
        ("latency_ms", host.count signals.llm.latencyMs.toNat),
        ("prompt_tokens", host.count signals.llm.promptTokens.toNat),
        ("completion_tokens", host.count signals.llm.completionTokens.toNat)])]

def noContext : AskRow N where
  answer := "No relevant context found."
  citations := .array []
  signals := .object [("retrieval", host.retrievalJson ⟨0, 0⟩)]
  modeUsed := "hybrid"

def rowOf (out : AskResult) : AskRow N where
  answer := out.answer
  citations := .array (out.citations.map host.citationJson)
  signals := host.signalsJson out.signals
  modeUsed := out.modeUsed

end AskHost

def AskRow.stored (row : AskRow N) : AskRow N :=
  { row with citations := row.citations.jsonb, signals := row.signals.jsonb }

/-- `SELECT model FROM pgrg.providers WHERE name = $1`, and the empty text without one. -/
def Configuration.providerModel (config : Configuration) (name : String) : String :=
  ((config.providerNamed name).head?.map (·.model)).getD ""

namespace AskState

variable (state : AskState R N)

/-- `SELECT (settings->>'ask_token_budget')::int FROM pgrg.namespaces WHERE name = $1`. -/
def tokenBudget (host : AskHost R N) (ns : String) : Except String (Option Int32) :=
  if state.registers ns then
    match host.member (state.settings ns) "ask_token_budget" with
    | none => .ok none
    | some s => (host.int4 s).map some
  else .ok none

def promptChunk (joined : ResultRow R × ChunkRow R) : PromptChunk where
  chunkId := joined.1.id
  documentId := joined.1.documentId
  ord := .ofInt joined.2.ord
  text := joined.1.text
  tokenCount := .ofInt joined.2.tokenCount

def promptRows [LinearOrder R] (engine : Engine R (Json N)) (rows : List (ResultRow R)) :
    List PromptChunk :=
  let joined := join (fun row c => c.id = row.id) rows state.stored.tables.chunks
  (orderBy (fun m => toLex (OrderDual.toDual m.1.score, engine.turn m.1.id)) joined).map promptChunk

end AskState

def Vec.collect {α : Type} (items : List α) : Option (Vec α) :=
  if addressable : items.length ≤ usizeMax then some ⟨items, addressable⟩ else none

def AskHost.answer (host : AskHost R N) (body : AskBody N) (p : LlmProvider R)
    (providerName model : String) (budget : Option Int32) (rows : List PromptChunk) :
    Option (List String × CoreResult (AskRow N)) := do
  let chunks ← Vec.collect rows
  let (sent, result) ← asked host.profile (p.complete host.remote) host.latencyMs
    { question := body.q
      chunks := chunks
      provider := providerName
      model := model
      tokenBudget := budget.getD 4000 }
  return (sent, result.map host.rowOf)

namespace Extension

variable [LinearOrder R] [Zero R] [Add R] [Mul R] [Div R] [IntCast R]

def ask (host : AskHost R N) (state : AskState R N) (body : AskBody N) :
    Option (List String × Except Aborted (AskRow N)) :=
  let nsDefault := (state.config.namespaceDefault body.ns).head?.join
  match resolveProvider body.llmProvider nsDefault state.config.providerRefs with
  | .error e => some ([], .error (.raised ⟨.invalidParameterValue, s!"pgrg.ask: {e.display}"⟩))
  | .ok providerName =>
      match query host.engine host.asF64 state.database body.retrieval with
      | .error aborted => some ([], .error aborted)
      | .ok found =>
          let rows := state.promptRows host.engine found
          if rows.isEmpty then some ([], .ok host.noContext.stored)
          else
            match state.tokenBudget host body.ns with
            | .error e => some ([], .error (.statement e))
            | .ok budget =>
                match buildProviderImpl host.crates host.files host.masterKeyPath state.config
                    providerName with
                | .error error => some ([], .error (.raised error))
                | .ok p =>
                    (host.answer body p providerName (state.config.providerModel providerName) budget
                        rows).map (fun ended =>
                      (ended.1, (ended.2.map AskRow.stored).mapError
                        (fun e => .raised ⟨.internalError, s!"pgrg.ask: {e.display}"⟩)))

end Extension

section Sent

variable {profile : BuildProfile} {provider : String → CoreResult Completion} {latencyMs : UInt64}
  {req : AskRequest} {sent : List String}

theorem asked_sent {result : CoreResult AskResult}
    (ran : asked profile provider latencyMs req = some (sent, result)) :
    ∀ prompt ∈ sent, ∃ included : List PromptChunk, included.Sublist req.chunks.items ∧
      prompt = renderPrompt req.question (included.map (·.text)) := by
  cases checked : checkBudget req.chunks.items req.tokenBudget with
  | error e =>
      rw [asked_error (build_error checked)] at ran
      cases ran
      simp
  | ok passed =>
      cases packed : packChunks profile req.tokenBudget req.chunks.items with
      | none =>
          rw [asked_panics (build_panics checked packed)] at ran
          cases ran
      | some p =>
          rcases build_ok checked packed req.question with ⟨addressable, builds⟩
          rw [asked_ok builds, Option.some.injEq, Prod.mk.injEq] at ran
          intro prompt member
          rw [← ran.1, List.mem_singleton] at member
          exact ⟨p.included, (packChunks_sublist packed).1, member⟩

theorem Grounded.distinct {result : AskResult} (grounded : Grounded req sent result)
    (distinct : (req.chunks.items.map (·.chunkId)).Nodup) :
    (result.citations.map (·.chunkId)).Nodup := by
  rcases grounded.included with ⟨included, sub, -, -, labelled⟩
  have apart : (included.map (·.chunkId)).Nodup := distinct.sublist (sub.map _)
  apply List.Nodup.map_on
  · intro c member c' member' same
    rcases labelled c member with ⟨bound, chunk, at_, label⟩
    rcases labelled c' member' with ⟨bound', chunk', at_', label'⟩
    have ids : chunk.chunkId = chunk'.chunkId :=
      (congrArg Prod.fst label).symm.trans (same.trans (congrArg Prod.fst label'))
    have number : c.n - 1 = c'.n - 1 := by
      have found : (included.map (·.chunkId))[c.n - 1]? = (included.map (·.chunkId))[c'.n - 1]? := by
        rw [List.getElem?_map, List.getElem?_map, at_, at_', Option.map_some, Option.map_some, ids]
      have short : c.n - 1 < (included.map (·.chunkId)).length := by
        rw [List.length_map]
        exact (List.getElem?_eq_some_iff.mp at_).1
      exact (List.getElem?_inj short apart).mp found
    exact List.inj_on_of_nodup_map grounded.once member member' (by omega)
  · exact grounded.once.of_map

end Sent

section Visible

structure Visible (host : AskHost R N) (state : AskState R N) (body : AskBody N)
    (chunk : ChunkRow R) : Prop where
  stored : chunk ∈ state.stored.tables.chunks
  here : chunk.ns = body.ns
  passes : ∀ filter, body.filter = some filter →
    host.engine.contains (state.stored.metadata chunk.id) filter = true

def ChunkRow.prompt (chunk : ChunkRow R) : PromptChunk where
  chunkId := chunk.id
  documentId := chunk.documentId
  ord := .ofInt chunk.ord
  text := chunk.text
  tokenCount := .ofInt chunk.tokenCount

/-- The prompts hold text of visible chunks only. -/
def Confined (host : AskHost R N) (state : AskState R N) (body : AskBody N) (sent : List String) :
    Prop :=
  ∀ prompt ∈ sent, ∃ chunks : List (ChunkRow R),
    (∀ chunk ∈ chunks, Visible host state body chunk) ∧
    prompt = renderPrompt body.q (chunks.map (·.text))

def ChunkRow.label (chunk : ChunkRow R) : Label := (chunk.id, chunk.documentId, .ofInt chunk.ord)

def AskHost.labelJson (host : AskHost R N) (label : Label) : Json N :=
  .object
    [("chunk_id", .string (host.uuidText label.1)),
     ("document_id", .string (host.uuidText label.2.1)),
     ("ord", .number (host.number label.2.2.toInt))]

def Sourced (host : AskHost R N) (state : AskState R N) (body : AskBody N) (citations : Json N) :
    Prop :=
  ∃ cited : List (ChunkRow R),
    citations = .array (cited.map (fun chunk => host.labelJson chunk.label)) ∧
      (cited.map (·.id)).Nodup ∧ (cited.length : Int) ≤ body.topK.toInt ∧
      ∀ chunk ∈ cited, Visible host state body chunk

theorem nothing_confined {host : AskHost R N} {state : AskState R N} {body : AskBody N} :
    Confined host state body [] := by
  simp [Confined]

theorem nothing_sourced {host : AskHost R N} {state : AskState R N} {body : AskBody N}
    (bounded : 0 ≤ body.topK.toInt) : Sourced host state body (.array []) :=
  ⟨[], rfl, List.nodup_nil, bounded, by simp⟩

theorem database_chunk {state : AskState R N} {c : StoredChunk R (Json N)}
    (stored : c ∈ state.database.chunks) :
    ∃ chunk ∈ state.stored.tables.chunks,
      c = { id := chunk.id, documentId := chunk.documentId, ns := chunk.ns, text := chunk.text,
            embedding := some chunk.embedding, metadata := state.stored.metadata chunk.id } := by
  rw [AskState.database, Stored.database] at stored
  rcases List.mem_map.mp stored with ⟨chunk, listed, rfl⟩
  exact ⟨chunk, listed, rfl⟩

theorem exists_map_eq {α β γ : Type} {f : α → γ} {g : β → γ} {P : β → Prop} {as : List α}
    (images : ∀ a ∈ as, ∃ b, P b ∧ f a = g b) :
    ∃ bs : List β, as.map f = bs.map g ∧ ∀ b ∈ bs, P b := by
  induction as with
  | nil => exact ⟨[], rfl, by simp⟩
  | cons a as ih =>
      rcases images a List.mem_cons_self with ⟨b, held, same⟩
      rcases ih (fun other member => images other (List.mem_cons_of_mem _ member)) with
        ⟨bs, mapped, all⟩
      refine ⟨b :: bs, ?_, ?_⟩
      · rw [List.map_cons, List.map_cons, same, mapped]
      · simpa using ⟨held, all⟩

theorem answer_asked {host : AskHost R N} {body : AskBody N}
    {p : LlmProvider R} {name model : String} {budget : Option Int32} {rows : List PromptChunk}
    {sent : List String} {result : CoreResult (AskRow N)}
    (answered : host.answer body p name model budget rows = some (sent, result)) :
    ∃ req : AskRequest, req.question = body.q ∧ req.chunks.items = rows ∧
      ∃ out, asked host.profile (p.complete host.remote) host.latencyMs req = some (sent, out) ∧
        result = out.map host.rowOf := by
  rw [AskHost.answer, Option.bind_eq_bind, Option.bind_eq_some_iff] at answered
  rcases answered with ⟨chunks, collected, answered⟩
  rw [Option.bind_eq_bind, Option.bind_eq_some_iff] at answered
  rcases answered with ⟨⟨prompts, out⟩, ran, same⟩
  cases same
  have items : chunks.items = rows := by
    rw [Vec.collect] at collected
    split at collected
    · cases collected
      rfl
    · cases collected
  exact ⟨_, rfl, items, out, ran, rfl⟩

variable [LinearOrder R] [Zero R] [Add R] [Mul R] [Div R] [IntCast R]
  {host : AskHost R N} {state : AskState R N} {body : AskBody N} {found : List (ResultRow R)}

variable {engine : Engine R (Json N)} {asF64 : N → R}

theorem promptRows_visible (contains : engine.contains = host.engine.contains)
    (returned : Extension.query engine asF64 state.database body.retrieval = .ok found) :
    ∀ row ∈ state.promptRows engine found, ∃ chunk, Visible host state body chunk ∧
      row = chunk.prompt := by
  intro row member
  rcases query_returned returned with ⟨mode, -, ran⟩
  rcases List.mem_map.mp member with ⟨⟨result, chunk⟩, ordered, rfl⟩
  rcases mem_join.mp ((orderBy_perm _ _).mem_iff.mp ordered) with ⟨listed, stored, same⟩
  rcases (query_rows ran).rows result listed with ⟨c, held, id, document, text, here, accepted⟩
  rcases database_chunk held with ⟨chunk', stored', rfl⟩
  have chunks : chunk' = chunk := List.inj_on_of_nodup_map state.keyed.chunks stored' stored
    (id.trans (of_decide_eq_true same).symm)
  subst chunks
  refine ⟨chunk', ⟨stored, here, ?_⟩, ?_⟩
  · intro filter given
    have binds : (body.retrieval.binds asF64).filter = some filter := given
    rw [passes, binds, contains] at accepted
    exact accepted
  · rw [AskState.promptChunk, ChunkRow.prompt, ← id, ← document, ← text]

theorem promptRows_distinct
    (returned : Extension.query engine asF64 state.database body.retrieval = .ok found) :
    ((state.promptRows engine found).map (·.chunkId)).Nodup := by
  rcases query_returned returned with ⟨mode, -, ran⟩
  have joined := join_nodup (g := fun c : ChunkRow R => c.id) (query_rows ran).distinct state.keyed.chunks
  rw [AskState.promptRows, List.map_map]
  exact ((orderBy_perm _ _).map _).nodup_iff.mpr joined

theorem promptRows_length
    (returned : Extension.query engine asF64 state.database body.retrieval = .ok found) :
    ((state.promptRows engine found).length : Int) ≤ body.topK.toInt := by
  rcases query_returned returned with ⟨mode, -, ran⟩
  have listed : (state.promptRows engine found).map (·.chunkId) ⊆ found.map (·.id) := by
    intro id member
    rcases List.mem_map.mp member with ⟨row, here, rfl⟩
    rcases List.mem_map.mp here with ⟨⟨result, chunk⟩, ordered, rfl⟩
    exact List.mem_map_of_mem (mem_join.mp ((orderBy_perm _ _).mem_iff.mp ordered)).1
  have short := ((promptRows_distinct returned).subperm listed).length_le
  rw [List.length_map, List.length_map] at short
  have cut := (query_rows ran).length
  have limit : (body.retrieval.binds asF64).topK = body.topK.toInt := rfl
  omega

theorem answer_sourced (contains : engine.contains = host.engine.contains)
    (returned : Extension.query engine asF64 state.database body.retrieval = .ok found)
    {p : LlmProvider R} {name model : String} {budget : Option Int32} {sent : List String}
    {result : CoreResult (AskRow N)}
    (answered : host.answer body p name model budget (state.promptRows engine found) =
      some (sent, result)) :
    Confined host state body sent ∧
      ∀ row, result = .ok row → Sourced host state body row.citations := by
  have visible := promptRows_visible contains returned
  rcases answer_asked answered with ⟨req, question, items, out, ran, rfl⟩
  constructor
  · intro prompt member
    rcases asked_sent ran prompt member with ⟨included, sub, rfl⟩
    rw [items] at sub
    have seen : ∀ c ∈ included, ∃ chunk, Visible host state body chunk ∧ c.text = chunk.text := by
      intro c here
      rcases visible c (sub.mem here) with ⟨chunk, stored, rfl⟩
      exact ⟨chunk, stored, rfl⟩
    rcases exists_map_eq (f := PromptChunk.text) (g := ChunkRow.text) seen with ⟨chunks, texts, all⟩
    exact ⟨chunks, all, by rw [question, texts]⟩
  · intro row ok
    rcases out with e | out
    · cases ok
    cases ok
    have grounded := asked_grounded ran
    have distinct : (req.chunks.items.map (·.chunkId)).Nodup := by
      rw [items]
      exact promptRows_distinct returned
    have labelled : ∀ c ∈ out.citations, ∃ chunk : ChunkRow R, (Visible host state body chunk ∧
        chunk.id ∈ (state.promptRows engine found).map (·.chunkId)) ∧ c.label = chunk.label := by
      intro c member
      rcases grounded.included with ⟨included, sub, -, -, cited⟩
      rcases cited c member with ⟨-, chunk, at_, label⟩
      have here : chunk ∈ state.promptRows engine found := items ▸ sub.mem (List.mem_of_getElem? at_)
      rcases visible chunk here with ⟨stored, seen, rfl⟩
      exact ⟨stored, ⟨seen, List.mem_map_of_mem here⟩, label⟩
    rcases exists_map_eq (f := Citation.label) (g := ChunkRow.label) labelled
      with ⟨cited, labels, all⟩
    have ids : cited.map (·.id) = out.citations.map (·.chunkId) := by
      have firsts := congrArg (List.map Prod.fst) labels
      rw [List.map_map, List.map_map] at firsts
      exact firsts.symm
    have apart : (cited.map (·.id)).Nodup := ids ▸ grounded.distinct distinct
    refine ⟨cited, ?_, apart, ?_, fun chunk member => (all chunk member).1⟩
    · have written := congrArg (List.map host.labelJson) labels
      rw [List.map_map, List.map_map] at written
      exact congrArg Json.array written
    · have listed : cited.map (·.id) ⊆ (state.promptRows engine found).map (·.chunkId) := by
        intro id member
        rcases List.mem_map.mp member with ⟨chunk, here, rfl⟩
        exact (all chunk here).2
      have short := (apart.subperm listed).length_le
      rw [List.length_map, List.length_map] at short
      have top := promptRows_length returned
      omega

end Visible

end PgRaggraph

import PgRaggraph.Core.Citations
import PgRaggraph.Library.Interaction

/-! `ask`: one prompt to the provider, and an answer whose citations are chunks of the request. -/

namespace PgRaggraph

open Interaction Interaction.Fallible

structure Completion where
  text : String
  promptTokens : UInt32
  completionTokens : UInt32
  deriving DecidableEq

structure AskRequest where
  question : String
  chunks : Vec PromptChunk
  provider : String
  model : String
  tokenBudget : Int32

structure RetrievalSignals where
  chunksInPrompt : Nat
  droppedForBudget : Nat
  deriving DecidableEq

structure LlmSignals where
  provider : String
  model : String
  latencyMs : UInt64
  promptTokens : UInt32
  completionTokens : UInt32
  deriving DecidableEq

structure AskSignals where
  retrieval : RetrievalSignals
  llm : LlmSignals
  deriving DecidableEq

structure AskResult where
  answer : String
  citations : List Citation
  signals : AskSignals
  modeUsed : String
  deriving DecidableEq

abbrev Asking : Signature := ⟨String, fun _ => CoreResult Completion × UInt64⟩

def AskResult.make (req : AskRequest) (built : BuiltPrompt) (completion : Completion)
    (latencyMs : UInt64) : AskResult where
  answer := completion.text
  citations := extractCitations completion.text built
  signals :=
    { retrieval := { chunksInPrompt := built.idMap.length, droppedForBudget := built.droppedCount }
      llm :=
        { provider := req.provider
          model := req.model
          latencyMs := latencyMs
          promptTokens := completion.promptTokens
          completionTokens := completion.completionTokens } }
  modeUsed := "hybrid"

def askBuilt (req : AskRequest) (built : BuiltPrompt) : Fallible Asking CoreError AskResult := do
  let (completed, latencyMs) ← ExceptT.lift (Program.perform (S := Asking) built.promptText)
  let completion ← Fallible.ofExcept completed
  return .make req built completion latencyMs

/-- A panic has no result. -/
def ask (profile : BuildProfile) (req : AskRequest) :
    Option (Fallible Asking CoreError AskResult) :=
  (buildAskPrompt profile req.question req.chunks req.tokenBudget).map (fun result =>
    match result with
    | .error e => throw e
    | .ok built => askBuilt req built)

/-- A provider that answers each prompt by a function; the prompts it was sent are recorded. -/
def asking (provider : String → CoreResult Completion) (latencyMs : UInt64) :
    Handler Asking (List String) Empty :=
  fun prompt sent => .ok ((provider prompt, latencyMs), sent ++ [prompt])

def asked (profile : BuildProfile) (provider : String → CoreResult Completion)
    (latencyMs : UInt64) (req : AskRequest) : Option (List String × CoreResult AskResult) :=
  (ask profile req).map (fun program =>
    match Program.run (asking provider latencyMs) program.run [] with
    | .ok (result, sent) => (sent, result)
    | .error never => never.elim)

section Runs

variable {profile : BuildProfile} {provider : String → CoreResult Completion} {latencyMs : UInt64}
  {req : AskRequest}

theorem asked_built (req : AskRequest) (built : BuiltPrompt) :
    (match Program.run (asking provider latencyMs) (askBuilt req built).run [] with
      | .ok (result, sent) => (sent, result)
      | .error never => never.elim) =
    ([built.promptText],
      (provider built.promptText).map (fun completion => .make req built completion latencyMs)) := by
  have ran : Program.run (asking provider latencyMs) (askBuilt req built).run [] =
      .ok ((provider built.promptText).map (fun completion => .make req built completion latencyMs),
        [built.promptText]) := by
    have continued : Program.run (asking provider latencyMs) (askBuilt req built).run [] =
        Program.run (asking provider latencyMs)
          (Fallible.ofExcept (provider built.promptText) >>= fun completion =>
            (pure (.make req built completion latencyMs) :
              Fallible Asking CoreError AskResult)).run [built.promptText] := rfl
    rw [continued]
    cases provider built.promptText with
    | error e => rfl
    | ok completion => rfl
  rw [ran]

theorem asked_error {e : CoreError}
    (built : buildAskPrompt profile req.question req.chunks req.tokenBudget = some (.error e)) :
    asked profile provider latencyMs req = some ([], .error e) := by
  rw [asked, ask, built]
  rfl

theorem asked_panics
    (built : buildAskPrompt profile req.question req.chunks req.tokenBudget = none) :
    asked profile provider latencyMs req = none := by
  rw [asked, ask, built]
  rfl

theorem asked_ok {built : BuiltPrompt}
    (builds : buildAskPrompt profile req.question req.chunks req.tokenBudget = some (.ok built)) :
    asked profile provider latencyMs req = some ([built.promptText],
      (provider built.promptText).map (fun completion => .make req built completion latencyMs)) := by
  rw [asked, ask, builds, ← asked_built]
  rfl

end Runs

section Relabelling

abbrev Label := Uuid × Uuid × Int32

def PromptChunk.label (c : PromptChunk) : Label := (c.chunkId, c.documentId, c.ord)

def Citation.label (c : Citation) : Label := (c.chunkId, c.documentId, c.ord)

variable (f : Label → Label)

def PromptChunk.relabel (c : PromptChunk) : PromptChunk :=
  { c with chunkId := (f c.label).1, documentId := (f c.label).2.1, ord := (f c.label).2.2 }

def Citation.relabel (c : Citation) : Citation :=
  { c with chunkId := (f c.label).1, documentId := (f c.label).2.1, ord := (f c.label).2.2 }

def AskRequest.relabel (req : AskRequest) : AskRequest :=
  { req with
    chunks :=
      { items := req.chunks.items.map (PromptChunk.relabel f)
        addressable := by
          rw [List.length_map]
          exact req.chunks.addressable } }

def AskResult.relabel (result : AskResult) : AskResult :=
  { result with citations := result.citations.map (Citation.relabel f) }

def Packing.relabel (p : Packing) : Packing :=
  { p with included := p.included.map (PromptChunk.relabel f) }

theorem packChunk_relabel (profile : BuildProfile) (budget : Int32) (p : Packing)
    (c : PromptChunk) :
    packChunk profile budget (p.relabel f) (c.relabel f) =
      (packChunk profile budget p c).map (Packing.relabel f) := by
  have same : addI32 profile (p.relabel f).running (c.relabel f).tokenCount =
      addI32 profile p.running c.tokenCount := rfl
  rw [packChunk, packChunk, same]
  cases addI32 profile p.running c.tokenCount with
  | none => rfl
  | some total =>
      rw [Option.bind_eq_bind, Option.bind_some, Option.bind_some]
      by_cases fits : total ≤ budget
      · simp [fits, Packing.relabel]
      · simp [fits, Packing.relabel]

theorem packChunks_relabel (profile : BuildProfile) (budget : Int32) (chunks : List PromptChunk) :
    packChunks profile budget (chunks.map (PromptChunk.relabel f)) =
      (packChunks profile budget chunks).map (Packing.relabel f) := by
  have steps : ∀ p : Packing,
      (chunks.map (PromptChunk.relabel f)).foldlM (packChunk profile budget) (p.relabel f) =
        (chunks.foldlM (packChunk profile budget) p).map (Packing.relabel f) := by
    induction chunks with
    | nil => exact fun p => rfl
    | cons c rest ih =>
        intro p
        rw [List.map_cons, List.foldlM_cons, List.foldlM_cons, packChunk_relabel]
        cases packChunk profile budget p c with
        | none => rfl
        | some next => exact ih next
  exact steps { running := 0, included := [], dropped := 0 }

theorem checkBudget_relabel (chunks : List PromptChunk) (budget : Int32) :
    checkBudget (chunks.map (PromptChunk.relabel f)) budget = checkBudget chunks budget := by
  cases chunks with
  | nil => rfl
  | cons c rest => rfl

theorem built_relabel (p : Packing) (question answerText : String)
    (addressable : p.included.length ≤ usizeMax)
    (addressable' : (p.relabel f).included.length ≤ usizeMax) :
    ((p.relabel f).built question addressable').promptText =
        (p.built question addressable).promptText ∧
      extractCitations answerText ((p.relabel f).built question addressable') =
        (extractCitations answerText (p.built question addressable)).map (Citation.relabel f) := by
  have texts : (p.relabel f).included.map (·.text) = p.included.map (·.text) := by
    rw [Packing.relabel, List.map_map]
    rfl
  have length : ((p.relabel f).built question addressable').idMap.length =
      (p.built question addressable).idMap.length := by
    simp [Packing.built, Packing.relabel]
  have numbers : citedNumbers answerText ((p.relabel f).built question addressable') =
      citedNumbers answerText (p.built question addressable) := by
    have cited : citedAt answerText ((p.relabel f).built question addressable') =
        citedAt answerText (p.built question addressable) := by
      funext offset
      rw [citedAt, citedAt, length]
    rw [citedNumbers, citedNumbers, cited]
  constructor
  · rw [Packing.built, Packing.built, texts]
  · rw [extract_eq, extract_eq, numbers, List.map_filterMap]
    apply List.filterMap_congr
    intro n _
    by_cases valid : 1 ≤ n ∧ n ≤ (p.built question addressable).idMap.length
    · rw [dif_pos valid, dif_pos (by rw [length]; exact valid), Option.map_some]
      simp [BuiltPrompt.citation, Packing.built, Packing.relabel, Citation.relabel, Citation.label,
        PromptChunk.relabel, PromptChunk.label]
    · rw [dif_neg valid, dif_neg (by rw [length]; exact valid), Option.map_none]

theorem make_relabel {req : AskRequest} {built built' : BuiltPrompt} {completion : Completion}
    (citations : extractCitations completion.text built' =
      (extractCitations completion.text built).map (Citation.relabel f))
    (length : built'.idMap.length = built.idMap.length)
    (dropped : built'.droppedCount = built.droppedCount) (latencyMs : UInt64) :
    AskResult.make (req.relabel f) built' completion latencyMs =
      (AskResult.make req built completion latencyMs).relabel f := by
  rw [AskResult.make, AskResult.make, AskResult.relabel, citations, length, dropped]
  rfl

end Relabelling

structure Grounded (req : AskRequest) (sent : List String) (result : AskResult) : Prop where
  included : ∃ included : List PromptChunk, included.Sublist req.chunks.items ∧
    sent = [renderPrompt req.question (included.map (·.text))] ∧
    result.signals.retrieval.chunksInPrompt = included.length ∧
    ∀ c ∈ result.citations, 1 ≤ c.n ∧
      ∃ chunk, included[c.n - 1]? = some chunk ∧ c.label = chunk.label
  once : (result.citations.map (·.n)).Nodup
  counted : result.signals.retrieval.chunksInPrompt +
    result.signals.retrieval.droppedForBudget = req.chunks.items.length

theorem made_grounded {profile : BuildProfile} {req : AskRequest} {p : Packing}
    (packed : packChunks profile req.tokenBudget req.chunks.items = some p)
    (addressable : p.included.length ≤ usizeMax) (completion : Completion) (latencyMs : UInt64) :
    Grounded req [(p.built req.question addressable).promptText]
      (.make req (p.built req.question addressable) completion latencyMs) where
  included := by
    refine ⟨p.included, (packChunks_sublist packed).1, rfl, List.length_map _, ?_⟩
    intro c member
    rcases extract_paired member with ⟨valid, made⟩
    have stored : c.n - 1 < p.included.length := by
      have bounded := valid.2
      rw [Packing.built, List.length_map] at bounded
      omega
    refine ⟨valid.1, p.included[c.n - 1], List.getElem?_eq_getElem stored, ?_⟩
    have label : ((p.built req.question addressable).citation c.n valid).label =
        p.included[c.n - 1].label := by
      simp [BuiltPrompt.citation, Packing.built, Citation.label, PromptChunk.label]
    exact (congrArg Citation.label made).trans label
  once := by
    have numbers : (extractCitations completion.text (p.built req.question addressable)).map (·.n) =
        citedNumbers completion.text (p.built req.question addressable) := extract_numbers
    rw [AskResult.make, numbers]
    exact Scan.firsts_nodup _ _
  counted := by
    rw [AskResult.make, Packing.built, List.length_map, Nat.add_comm]
    exact (packChunks_sublist packed).2

theorem asked_relabel (profile : BuildProfile) (provider : String → CoreResult Completion)
    (latencyMs : UInt64) (req : AskRequest) (f : Label → Label) :
    asked profile provider latencyMs (req.relabel f) =
      (asked profile provider latencyMs req).map (fun ended =>
        (ended.1, ended.2.map (AskResult.relabel f))) := by
  have rechecked : checkBudget (req.relabel f).chunks.items (req.relabel f).tokenBudget =
      checkBudget req.chunks.items req.tokenBudget := checkBudget_relabel f _ _
  have repacked : packChunks profile (req.relabel f).tokenBudget (req.relabel f).chunks.items =
      (packChunks profile req.tokenBudget req.chunks.items).map (Packing.relabel f) :=
    packChunks_relabel f _ _ _
  cases checked : checkBudget req.chunks.items req.tokenBudget with
  | error e =>
      rw [asked_error (build_error checked), asked_error (build_error (rechecked.trans checked))]
      rfl
  | ok passed =>
      have rechecked := rechecked.trans checked
      cases packed : packChunks profile req.tokenBudget req.chunks.items with
      | none =>
          rw [packed] at repacked
          rw [asked_panics (build_panics checked packed),
            asked_panics (build_panics rechecked repacked)]
          rfl
      | some p =>
          rw [packed] at repacked
          rcases build_ok checked packed req.question with ⟨addressable, builds⟩
          rcases build_ok rechecked repacked req.question with ⟨addressable', builds'⟩
          have made := built_relabel f p req.question
          have relabelled : asked profile provider latencyMs (req.relabel f) = _ := asked_ok builds'
          rw [asked_ok builds, relabelled, Option.map_some, (made "" addressable addressable').1]
          cases provider (p.built req.question addressable).promptText with
          | error e => rfl
          | ok completion =>
              have length : ((p.relabel f).built req.question addressable').idMap.length =
                  (p.built req.question addressable).idMap.length := by
                simp [Packing.built, Packing.relabel]
              exact congrArg (fun result => some (_, Except.ok result)) (make_relabel f
                (made completion.text addressable addressable').2 length rfl latencyMs)

theorem asked_grounded {profile : BuildProfile} {provider : String → CoreResult Completion}
    {latencyMs : UInt64} {req : AskRequest} {sent : List String} {result : AskResult}
    (returned : asked profile provider latencyMs req = some (sent, .ok result)) :
    Grounded req sent result := by
  cases checked : checkBudget req.chunks.items req.tokenBudget with
  | error e =>
      rw [asked_error (build_error checked)] at returned
      cases returned
  | ok passed =>
      cases packed : packChunks profile req.tokenBudget req.chunks.items with
      | none =>
          rw [asked_panics (build_panics checked packed)] at returned
          cases returned
      | some p =>
          rcases build_ok checked packed req.question with ⟨addressable, builds⟩
          rw [asked_ok builds, Option.some.injEq, Prod.mk.injEq] at returned
          rcases returned with ⟨rfl, returned⟩
          cases answered : provider (p.built req.question addressable).promptText with
          | error e =>
              rw [answered] at returned
              cases returned
          | ok completion =>
              rw [answered] at returned
              cases returned
              exact made_grounded packed addressable completion latencyMs

/-- Whatever the model says, relabelling the chunks relabels the citations and changes nothing else,
and every citation is of a chunk of the request. -/
theorem ask_grounded (profile : BuildProfile) (provider : String → CoreResult Completion)
    (latencyMs : UInt64) (req : AskRequest) :
    (∀ f : Label → Label, asked profile provider latencyMs (req.relabel f) =
      (asked profile provider latencyMs req).map (fun ended =>
        (ended.1, ended.2.map (AskResult.relabel f)))) ∧
    ∀ sent result, asked profile provider latencyMs req = some (sent, .ok result) →
      Grounded req sent result :=
  ⟨asked_relabel profile provider latencyMs req, fun _ _ returned => asked_grounded returned⟩

end PgRaggraph

import PgRaggraph.Core.Ask
import PgRaggraph.Core.Http
import PgRaggraph.Core.Providers

/-! The clients of OpenAI, Anthropic and Ollama. -/

namespace PgRaggraph

variable {N R : Type}

/-- What the clients need of `serde_json`. `f32` is `as_f64` narrowed to an `f32`. -/
structure JsonCodec (N R : Type) where
  fromStr : String → Except String (Json N)
  natural : Nat → N
  f32 : N → R
  asU64 : N → Option UInt64

def extractionSystemPrompt : String :=
  "You are a knowledge-graph extractor. Read the user message and return ONLY a JSON object with " ++
  "two keys:\n\n" ++
  "\x7b\n" ++
  "  \"entities\": [\n" ++
  "    \x7b\"name\": \"<canonical entity name>\", \"kind\": " ++
  "\"<person|organization|location|concept|product|event|other>\", \"confidence\": <0-1>\x7d\n" ++
  "  ],\n" ++
  "  \"relationships\": [\n" ++
  "    \x7b\"src_name\": \"<entity name>\", \"dst_name\": \"<entity name>\", \"kind\": " ++
  "\"<verb_phrase_with_underscores>\", \"weight\": 1.0, \"confidence\": <0-1>\x7d\n" ++
  "  ]\n" ++
  "\x7d\n\n" ++
  "Rules:\n" ++
  "- Names must match between \x60entities\x60 and \x60relationships\x60.\n" ++
  "- Use lowercase_underscore for relationship \x60kind\x60 (e.g., \"works_at\", " ++
  "\"located_in\").\n" ++
  "- Return only the JSON object — no prose, no markdown.\n"

def roleMessage (role content : String) : Json N :=
  .object [("role", .string role), ("content", .string content)]

section Parse

variable [NatCast R] (codec : JsonCodec N R)

/-- `as_f64().unwrap_or(1.0) as f32`. -/
def unitOr (v : Json N) : R := (v.asNumber.map codec.f32).getD ((1 : Nat) : R)

def parseEntity (e : Json N) : Option (ExtractedEntity R) := do
  let name ← (e.field "name").asStr
  return {
    name := name
    kind := (e.field "kind").asStr
    description := (e.field "description").asStr
    confidence := unitOr codec (e.field "confidence") }

def parseRelationship (r : Json N) : Option (ExtractedRelationship R) := do
  let srcName ← (r.field "src_name").asStr
  let dstName ← (r.field "dst_name").asStr
  let kind ← (r.field "kind").asStr
  return {
    srcName := srcName
    dstName := dstName
    kind := kind
    weight := unitOr codec (r.field "weight")
    confidence := unitOr codec (r.field "confidence") }

/-- Elements without a name or an endpoint are passed over. -/
def parseExtraction (parsed : Json N) : Extraction R where
  entities := ((parsed.field "entities").asArray.getD []).filterMap (parseEntity codec)
  relationships := ((parsed.field "relationships").asArray.getD []).filterMap
    (parseRelationship codec)

omit [NatCast R] in
/-- `as_u64().unwrap_or(0) as u32`. -/
def tokens (v : Json N) : UInt32 := ((v.asNumber.bind codec.asU64).getD 0).toUInt32

def fromStrOr (context body : String) : CoreResult (Json N) :=
  (codec.fromStr body).mapError (fun e => .llm s!"{context}: {e}")

def okOr {α : Type} (value : Option α) (message : String) : CoreResult α :=
  match value with
  | some a => .ok a
  | none => .error (.llm message)

end Parse

namespace OpenAi

def body (model : String) (content : List (String × Json N)) (messages : List (Json N)) : Json N :=
  .object ([("model", .string model)] ++ content ++ [("messages", .array messages)])

def url (baseUrl : String) : String := s!"{baseUrl}/v1/chat/completions"

def content (v : Json N) : CoreResult String :=
  okOr ((((v.field "choices").nth 0).field "message").field "content").asStr
    "no choices[0].message.content"

variable [NatCast R] (codec : JsonCodec N R)

def parseResponse (body : String) : CoreResult (Extraction R) := do
  let v ← fromStrOr codec "parse" body
  let text ← content v
  let parsed ← fromStrOr codec "content parse" text
  return parseExtraction codec parsed

def parseCompletion (body : String) : CoreResult Completion := do
  let v ← fromStrOr codec "parse" body
  let text ← content v
  return {
    text := text
    promptTokens := tokens codec ((v.field "usage").field "prompt_tokens")
    completionTokens := tokens codec ((v.field "usage").field "completion_tokens") }

def extract (apiKey model baseUrl chunkText : String) : Method N (Extraction R) :=
  request (url baseUrl) (bearerHeaders (some apiKey))
    (body model [("response_format", .object [("type", .string "json_object")])]
      [roleMessage "system" extractionSystemPrompt,
       roleMessage "user" s!"Extract from:\n\n{chunkText}"])
    (parseResponse codec)

def complete (apiKey model baseUrl prompt : String) : Method N Completion :=
  request (url baseUrl) (bearerHeaders (some apiKey)) (body model [] [roleMessage "user" prompt])
    (parseCompletion codec)

end OpenAi

namespace Anthropic

def extractionToolName : String := "extract_graph"

def typed (type : String) : Json N := .object [("type", .string type)]

def arrayOf (properties : List (String × Json N)) (required : List String) : Json N :=
  .object
    [("type", .string "array"),
     ("items", .object
       [("type", .string "object"),
        ("properties", .object properties),
        ("required", .array (required.map .string))])]

def extractionTool : Json N :=
  .object
    [("name", .string extractionToolName),
     ("description", .string "Extract entities and relationships from text."),
     ("input_schema", .object
       [("type", .string "object"),
        ("properties", .object
          [("entities", arrayOf
             [("name", typed "string"), ("kind", typed "string"), ("confidence", typed "number")]
             ["name"]),
           ("relationships", arrayOf
             [("src_name", typed "string"), ("dst_name", typed "string"), ("kind", typed "string"),
              ("weight", typed "number"), ("confidence", typed "number")]
             ["src_name", "dst_name", "kind"])]),
        ("required", .array [.string "entities", .string "relationships"])])]

def url (baseUrl : String) : String := s!"{baseUrl}/v1/messages"

def headers (apiKey : String) : List (String × String) :=
  [("x-api-key", apiKey), ("anthropic-version", "2023-06-01")]

def block (v : Json N) (type : String) : CoreResult (Json N) := do
  let content ← okOr (v.field "content").asArray "response missing content[]"
  okOr (content.find? (fun b => (b.field "type").asStr == some type)) s!"no {type} block in content[]"

variable [NatCast R] (codec : JsonCodec N R)

def parseResponse (body : String) : CoreResult (Extraction R) := do
  let v ← fromStrOr codec "parse" body
  let toolBlock ← block v "tool_use"
  return parseExtraction codec (toolBlock.field "input")

def parseCompletion (body : String) : CoreResult Completion := do
  let v ← fromStrOr codec "parse" body
  let textBlock ← block v "text"
  let text ← okOr (textBlock.field "text").asStr "text block missing .text"
  return {
    text := text
    promptTokens := tokens codec ((v.field "usage").field "input_tokens")
    completionTokens := tokens codec ((v.field "usage").field "output_tokens") }

def extract (apiKey model baseUrl chunkText : String) : Method N (Extraction R) :=
  request (url baseUrl) (headers apiKey ++ [("content-type", "application/json")])
    (.object
      [("model", .string model),
       ("max_tokens", .number (codec.natural 4096)),
       ("tools", .array [extractionTool]),
       ("tool_choice", .object [("type", .string "tool"), ("name", .string extractionToolName)]),
       ("messages", .array
         [roleMessage "user" s!"Extract entities and relationships from:\n\n{chunkText}"])])
    (parseResponse codec)

def complete (apiKey model baseUrl prompt : String) : Method N Completion :=
  request (url baseUrl) (headers apiKey)
    (.object
      [("model", .string model),
       ("max_tokens", .number (codec.natural 4096)),
       ("messages", .array [roleMessage "user" prompt])])
    (parseCompletion codec)

end Anthropic

namespace Ollama

def url (baseUrl : String) : String := s!"{baseUrl}/api/generate"

def body (model prompt : String) (format : List (String × Json N)) : Json N :=
  .object ([("model", .string model), ("prompt", .string prompt)] ++ format ++
    [("stream", .bool false)])

variable [NatCast R] (codec : JsonCodec N R)

def parseResponse (body : String) : CoreResult (Extraction R) := do
  let v ← fromStrOr codec "parse" body
  let inner ← okOr (v.field "response").asStr "response missing .response string"
  let parsed ← fromStrOr codec "response inner parse" inner
  return parseExtraction codec parsed

def parseCompletion (body : String) : CoreResult Completion := do
  let v ← fromStrOr codec "parse" body
  let text ← okOr (v.field "response").asStr "response missing .response"
  return {
    text := text
    promptTokens := tokens codec (v.field "prompt_eval_count")
    completionTokens := tokens codec (v.field "eval_count") }

def extract (model baseUrl chunkText : String) : Method N (Extraction R) :=
  request (url baseUrl) (bearerHeaders none)
    (body model s!"{extractionSystemPrompt}\n\nExtract from:\n\n{chunkText}"
      [("format", .string "json")])
    (parseResponse codec)

def complete (model baseUrl prompt : String) : Method N Completion :=
  request (url baseUrl) (bearerHeaders none) (body model prompt []) (parseCompletion codec)

end Ollama

namespace LlmProvider

variable [NatCast R] (codec : JsonCodec N R)

def Remote (p : LlmProvider R) : Prop :=
  match p with
  | .mock _ _ => False
  | _ => True

def extractCall (p : LlmProvider R) (chunkText : String) : Method N (Extraction R) :=
  match p with
  | .openai apiKey model baseUrl => OpenAi.extract codec apiKey model baseUrl chunkText
  | .anthropic apiKey model baseUrl => Anthropic.extract codec apiKey model baseUrl chunkText
  | .ollama model baseUrl => Ollama.extract codec model baseUrl chunkText
  | .mock _ stubExtraction => pure (stubExtraction.getD {})

def completeCall (p : LlmProvider R) (prompt : String) : Method N Completion :=
  match p with
  | .openai apiKey model baseUrl => OpenAi.complete codec apiKey model baseUrl prompt
  | .anthropic apiKey model baseUrl => Anthropic.complete codec apiKey model baseUrl prompt
  | .ollama model baseUrl => Ollama.complete codec model baseUrl prompt
  | .mock stubAnswer _ => pure { text := stubAnswer, promptTokens := 0, completionTokens := 0 }

def OneRequest {α : Type} (method : Method N α) (parse : String → CoreResult α) : Prop :=
  ∃ url headers body, method = request url headers body parse

theorem extract_requests {p : LlmProvider R} (remote : p.Remote) :
    ∃ parse, ∀ chunkText, OneRequest (p.extractCall codec chunkText) parse := by
  cases p with
  | openai apiKey model baseUrl => exact ⟨_, fun _ => ⟨_, _, _, rfl⟩⟩
  | anthropic apiKey model baseUrl => exact ⟨_, fun _ => ⟨_, _, _, rfl⟩⟩
  | ollama model baseUrl => exact ⟨_, fun _ => ⟨_, _, _, rfl⟩⟩
  | mock stubAnswer stubExtraction => exact remote.elim

omit [NatCast R] in
theorem complete_requests {p : LlmProvider R} (remote : p.Remote) :
    ∃ parse, ∀ prompt, OneRequest (p.completeCall codec prompt) parse := by
  cases p with
  | openai apiKey model baseUrl => exact ⟨_, fun _ => ⟨_, _, _, rfl⟩⟩
  | anthropic apiKey model baseUrl => exact ⟨_, fun _ => ⟨_, _, _, rfl⟩⟩
  | ollama model baseUrl => exact ⟨_, fun _ => ⟨_, _, _, rfl⟩⟩
  | mock stubAnswer stubExtraction => exact remote.elim

end LlmProvider

end PgRaggraph

import PgRaggraph.Core.Json
import PgRaggraph.Library.Interaction

/-! The HTTP client that the LLM providers share. Durations are in nanoseconds. -/

namespace PgRaggraph

open Interaction

inductive HttpClassification where
  | ok
  | retryable
  | permanent
  deriving DecidableEq, Repr

def HttpClassification.fromStatus (code : UInt16) : HttpClassification :=
  if 200 ≤ code ∧ code ≤ 299 then .ok
  else if code = 429 ∨ (500 ≤ code ∧ code ≤ 599) then .retryable
  else .permanent

/-- Without the headers that `reqwest` adds to every request. -/
structure HttpRequest (N : Type) where
  url : String
  headers : List (String × String)
  body : Json N

/-- What `reqwest` reports when there is no response to read. -/
inductive TransportError where
  | send (e : String)
  | readBody (e : String)
  deriving DecidableEq, Repr

def TransportError.core : TransportError → CoreError
  | .send e => .http s!"send: {e}"
  | .readBody e => .http s!"read body: {e}"

abbrev HttpAnswer := Except TransportError (UInt16 × String)

/-- What a provider asks of its host: a request, or the clock and the sleep of a retry. -/
inductive LlmIo (N : Type) where
  | post (request : HttpRequest N)
  | now
  | sleep (nanos : Nat)

@[reducible] def LlmIo.Answer {N : Type} : LlmIo N → Type
  | .post _ => HttpAnswer
  | .now => Nat
  | .sleep _ => Unit

abbrev Calling (N : Type) : Signature := ⟨LlmIo N, LlmIo.Answer⟩

abbrev Method (N α : Type) := Fallible (Calling N) CoreError α

section Client

variable {N α : Type}

def now : Program (Calling N) Nat := Program.perform (S := Calling N) .now

def sleep (nanos : Nat) : Program (Calling N) Unit :=
  Program.perform (S := Calling N) (.sleep nanos)

def postJsonWithHeaders (url : String) (headers : List (String × String)) (body : Json N) :
    Method N (UInt16 × String) := do
  match ← ExceptT.lift (Program.perform (S := Calling N) (.post ⟨url, headers, body⟩)) with
  | .ok response => pure response
  | .error e => throw e.core

def bearerHeaders (bearer : Option String) : List (String × String) :=
  match bearer with
  | some token => [("authorization", s!"Bearer {token}")]
  | none => []

/-- What every provider does with a response: the statuses that may be retried are errors of
`http`, the others of `llm`. -/
def readResponse (parse : String → CoreResult α) (response : UInt16 × String) : CoreResult α :=
  match HttpClassification.fromStatus response.1 with
  | .retryable => .error (.http s!"status {response.1}: {response.2}")
  | .permanent => .error (.llm s!"status {response.1}: {response.2}")
  | .ok => parse response.2

def request (url : String) (headers : List (String × String)) (body : Json N)
    (parse : String → CoreResult α) : Method N α := do
  let response ← postJsonWithHeaders url headers body
  Fallible.ofExcept (readResponse parse response)

def receive (parse : String → CoreResult α) : HttpAnswer → CoreResult α
  | .ok response => readResponse parse response
  | .error e => .error e.core

def HttpAnswer.transient (answer : HttpAnswer) : Bool :=
  match answer with
  | .ok response => HttpClassification.fromStatus response.1 = .retryable
  | .error _ => true

theorem receive_transient (parse : String → CoreResult α) {answer : HttpAnswer}
    (failed : HttpAnswer.transient answer = true) : ∃ m, receive parse answer = .error (.http m) := by
  rcases answer with (e | e) | response
  · exact ⟨_, rfl⟩
  · exact ⟨_, rfl⟩
  · have retryable : HttpClassification.fromStatus response.1 = .retryable :=
      of_decide_eq_true failed
    refine ⟨s!"status {response.1}: {response.2}", ?_⟩
    simp only [receive, readResponse, retryable]

theorem run_request {σ ε : Type} (handler : Handler (Calling N) σ ε) (url : String)
    (headers : List (String × String)) (body : Json N) (parse : String → CoreResult α) (state : σ) :
    Program.run handler (request url headers body parse).run state =
      (handler (.post ⟨url, headers, body⟩) state).map
        (fun reply => (receive parse reply.1, reply.2)) := by
  have posted : (request url headers body parse).run =
      Program.perform (S := Calling N) (.post ⟨url, headers, body⟩) >>= fun answer =>
        Program.done (receive parse answer) := by
    change Program.call _ _ = Program.call _ _
    congr 1
    funext answer
    rcases answer with e | response
    · rfl
    · change (Fallible.ofExcept (readResponse parse response) : Method N α).run = _
      have read : receive parse (.ok response) = readResponse parse response := rfl
      change _ = Program.done (receive parse (.ok response))
      rw [read]
      cases readResponse parse response with
      | ok value => rfl
      | error e => rfl
  rw [posted]
  change Program.run handler (Program.call _ _) state = _
  rw [Program.run]
  cases handler (.post ⟨url, headers, body⟩) state with
  | ok reply => rfl
  | error failure => rfl

end Client

end PgRaggraph

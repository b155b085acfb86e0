import PgRaggraph.Library.Interaction
import PgRaggraph.Sidecar.HttpAsk

/-! `pgrg.ask` of `client.sql`, which puts the question to the sidecar through `pg_net`. -/

namespace PgRaggraph

open Interaction

variable {R N : Type}

/-- `jsonb_build_object`. -/
def Json.buildObject (members : List (String × Json N)) : Json N :=
  .object (members.foldr (fun m built => addMember m.1 m.2 built) [])

namespace Shim

/-- The arguments of a function that is not STRICT. -/
structure Call (N : Type) where
  q : Option String
  filter : Option (Json N)
  topK : Option Int32
  ns : Option String
  hops : Option Int32
  llmProvider : Option String

structure Post (N : Type) where
  url : String
  body : Json N
  headers : List (String × String)
  timeoutMilliseconds : Nat

/-- A row of `net._http_response`. -/
structure HttpResponse where
  statusCode : Option Int
  content : Option String
  errorMsg : Option String
  timedOut : Option Bool

inductive Io (N : Type) where
  | httpPost (post : Post N)
  | awaitResponse (id : Nat)
  | httpResponse (id : Nat)
  | sleep

@[reducible] def Io.Answer : Io N → Type
  | .httpPost _ => Nat
  | .awaitResponse _ => Unit
  | .httpResponse _ => Option HttpResponse
  | .sleep => Unit

abbrev Net (N : Type) : Signature := ⟨Io N, Io.Answer⟩

abbrev Routine (N α : Type) := Fallible (Net N) String α

structure Row (N : Type) where
  answer : Option String
  citations : Json N
  signals : Json N
  modeUsed : String

def io (request : Io N) : Routine N request.Answer :=
  ExceptT.lift (Program.perform (S := Net N) request)

def noResponse (id : Nat) : String :=
  s!"pgrg.ask: no pg_net response for request {id} (worker not " ++
    "delivering — check sidecar URL/egress)"

def poll (id : Nat) : Nat → Routine N HttpResponse
  | 0 => do
      match ← io (.httpResponse id) with
      | some found => return found
      | none => throw (noResponse id)
  | left + 1 => do
      match ← io (.httpResponse id) with
      | some found => return found
      | none => do
          io .sleep
          poll id left

def textJson : Option String → Json N
  | some s => .string s
  | none => .null

def intJson (number : Int → N) : Option Int32 → Json N
  | some n => .number (number n.toInt)
  | none => .null

def Call.body (number : Int → N) (call : Call N) : Json N :=
  .buildObject
    [("q", textJson call.q),
     ("filter", call.filter.getD .null),
     ("top_k", intJson number call.topK),
     ("namespace", textJson call.ns),
     ("hops", intJson number call.hops),
     ("llm_provider", textJson call.llmProvider)]

/-- A NULL as `RAISE` writes it. -/
def raised (value : Option String) : String := value.getD "<NULL>"

/-- What follows the loop. `jsonbIn` is the cast of a text to `jsonb`, whose NULL is NULL. -/
def finish (host : AskHost R N) (jsonbIn : String → Except String (Json N))
    (found : HttpResponse) : Except String (Row N) := do
  if found.timedOut = some true then
    throw "pgrg.ask: sidecar request timed out"
  if let some e := found.errorMsg then
    throw s!"pgrg.ask: sidecar request failed: {e}"
  let fits := found.statusCode.any (fun code => 200 ≤ code && code < 300)
  if !fits then
    throw (s!"pgrg.ask: sidecar returned HTTP {raised (found.statusCode.map toString)} : " ++
      found.content.getD "(no body)")
  match found.content with
  | none => return ⟨none, .array [], .object [], "hybrid"⟩
  | some content =>
      let resp ← jsonbIn content
      return {
        answer := host.member resp "answer"
        citations := (resp.get? "citations").getD (.array [])
        signals := (resp.get? "signals").getD (.object [])
        modeUsed := (host.member resp "mode_used").getD "hybrid" }

def ask (host : AskHost R N) (jsonbIn : String → Except String (Json N)) (url : Option String)
    (call : Call N) : Routine N (Row N) := do
  let some url := url.filter (fun url => url ≠ "")
    | throw "pgrg.sidecar_url is not set (SET pgrg.sidecar_url = 'http://host:8410')"
  let id ← io (.httpPost {
    url := url ++ "/v1/ask"
    body := call.body host.number
    headers := [("Content-Type", "application/json")]
    timeoutMilliseconds := 120000 })
  io (.awaitResponse id)
  let found ← poll id 300
  Fallible.ofExcept (finish host jsonbIn found)

def looks (id : Nat) : Nat → Option HttpResponse → List (Exchange (Net N))
  | 0, look => [⟨.httpResponse id, look⟩]
  | tries + 1, look =>
      ⟨.httpResponse id, (none : Option HttpResponse)⟩ :: ⟨.sleep, ()⟩ :: looks id tries look

def Polled (id left tries : Nat) (result : Except String HttpResponse) : Option HttpResponse → Prop
  | some found => result = .ok found
  | none => tries = left ∧ result = .error (noResponse id)

section Runs

variable {σ ε : Type} (net : Handler (Net N) σ ε)

theorem wp_io (request : Io N) (state : σ × List (Exchange (Net N)))
    (post : Except String request.Answer → σ × List (Exchange (Net N)) → Prop) :
    Program.wp net.recorded.spec (io request).run state post ↔
      ∀ answer after, net request state.1 = .ok (answer, after) →
        post (.ok answer) (after, state.2 ++ [⟨request, answer⟩]) := by
  rw [io, Fallible.wp_lift, ← Handler.spec_iff]
  exact Handler.recorded_spec net request state _

theorem poll_looks (id left : Nat) (state : σ × List (Exchange (Net N))) :
    Program.wp net.recorded.spec (poll id left).run state (fun result last =>
      ∃ tries look, tries ≤ left ∧ last.2 = state.2 ++ looks id tries look ∧
        Polled id left tries result look) := by
  induction left generalizing state with
  | zero =>
      rw [poll, Fallible.wp_bind, wp_io]
      rintro look after -
      cases look with
      | some found => exact ⟨0, some found, Nat.le_refl _, rfl, rfl⟩
      | none => exact ⟨0, none, Nat.le_refl _, rfl, rfl, rfl⟩
  | succ left ih =>
      rw [poll, Fallible.wp_bind, wp_io]
      rintro look after -
      cases look with
      | some found => exact ⟨0, some found, Nat.zero_le _, rfl, rfl⟩
      | none =>
          dsimp only
          rw [Fallible.wp_bind, wp_io]
          rintro _ later -
          refine Program.wp_mono net.recorded.spec_monotone _ _ ?_ (ih _)
          rintro result last ⟨tries, look, within, record, polled⟩
          refine ⟨tries + 1, look, Nat.succ_le_succ within, ?_, ?_⟩
          · rw [record]
            simp only [looks, List.append_assoc, List.cons_append, List.nil_append]
          · cases look with
            | some found => exact polled
            | none => exact ⟨congrArg Nat.succ polled.1, polled.2⟩

def Call.request (number : Int → N) (url : String) (call : Call N) : Post N where
  url := url ++ "/v1/ask"
  body := call.body number
  headers := [("Content-Type", "application/json")]
  timeoutMilliseconds := 120000

/-- How a call ends whose exchanges with `pg_net` are on record. -/
def Settled (host : AskHost R N) (jsonbIn : String → Except String (Json N)) (url : String)
    (call : Call N) (result : Except String (Row N)) (record : List (Exchange (Net N))) : Prop :=
  ∃ id tries look, tries ≤ 300 ∧
    record = [⟨.httpPost (call.request host.number url), id⟩, ⟨.awaitResponse id, ()⟩] ++
      looks id tries look ∧
    match look with
    | some found => result = finish host jsonbIn found
    | none => tries = 300 ∧ result = .error (noResponse id)

theorem ask_settled (start : σ) (host : AskHost R N) (jsonbIn : String → Except String (Json N))
    {url : String} (set : url ≠ "") (call : Call N) :
    Program.wp net.recorded.spec (ask host jsonbIn (some url) call).run (start, [])
      (fun result last => Settled host jsonbIn url call result last.2) := by
  have given : (some url).filter (fun url => url ≠ "") = some url := by simp [set]
  rw [ask, given]
  dsimp only
  rw [Fallible.wp_bind, wp_io]
  rintro id posted -
  dsimp only
  rw [Fallible.wp_bind, wp_io]
  rintro _ awaited -
  dsimp only
  rw [Fallible.wp_bind]
  refine Program.wp_mono net.recorded.spec_monotone _ _ ?_ (poll_looks net id 300 _)
  rintro outcome last ⟨tries, look, within, record, polled⟩
  cases look with
  | some found =>
      cases polled
      apply (Fallible.wp_ofExcept _ _ _ _).mpr
      exact ⟨id, tries, some found, within, record, rfl⟩
  | none =>
      rcases polled with ⟨spent, rfl⟩
      exact ⟨id, tries, none, within, record, spent, rfl⟩

/-- Whatever `pg_net` and the network do, a call that comes to an end has made one request, has
waited for it once, and has made at most 301 looks with a sleep between two. It ends as the first
look that finds a row says, or with an error after 301 that find none. A call comes to an end where
those that it makes do. -/
theorem ask_settles (start : σ) (host : AskHost R N) (jsonbIn : String → Except String (Json N))
    (url : String) (set : url ≠ "") (call : Call N) :
    (∀ result last record, Program.run net.recorded (ask host jsonbIn (some url) call).run
        (start, []) = .ok (result, (last, record)) →
      Settled host jsonbIn url call result record) ∧
    ((∀ request state, ∃ reply, net request state = .ok reply) → ∃ result last record,
      Program.run net.recorded (ask host jsonbIn (some url) call).run (start, []) =
        .ok (result, (last, record))) := by
  constructor
  · intro result last record
    exact (Program.wp_run _ _ _ _).mp (ask_settled net start host jsonbIn set call) result
      (last, record)
  · intro answers
    have recorded : ∀ request state, ∃ reply, net.recorded request state = .ok reply := by
      intro request state
      rcases answers request state.1 with ⟨reply, answered⟩
      exact ⟨_, congrArg (Except.map _) answered⟩
    rcases Program.run_answered recorded (ask host jsonbIn (some url) call).run (start, []) with
      ⟨⟨result, last, record⟩, finished⟩
    exact ⟨result, last, record, finished⟩

end Runs

def Call.direct (call : Call N) : Option (AskBody N) := do
  return ⟨← call.q, call.filter, ← call.topK, ← call.ns, ← call.hops, call.llmProvider⟩

open Sidecar

/-- The texts on the wire: of a `jsonb` that is sent, of the JSON of a response, and the `jsonb` read
of a response. -/
structure Wire (N : Type) where
  jsonbOut : Json N → String
  write : Json N → String
  jsonbIn : String → Except String (Json N)

def rowOf (row : AskRow N) : Row N := ⟨some row.answer, row.citations, row.signals, row.modeUsed⟩

variable {server : AskServer R N} (wire : Wire N)

variable [LinearOrder R] [Zero R] [Add R] [Mul R] [Div R] [IntCast R] {state : AskState R N}
  {call : Call N} {body : AskBody N}

def Post.received (wire : Wire N) (post : Post N) : Request :=
  ⟨post.headers.contains ("Content-Type", "application/json"), some (wire.jsonbOut post.body)⟩

/-- Each end reads what the other has written: the request of the call, and its response. -/
structure Carries (host : AskHost R N) (server : AskServer R N) (wire : Wire N)
    (state : AskState R N) (call : Call N) (body : AskBody N) : Prop where
  direct : call.direct = some body
  plain : call.filter ≠ some .null
  ints : ∀ n : Int32, server.asI32 (host.number n.toInt) = some n
  request : server.fromSlice (wire.jsonbOut (call.body host.number)) = .ok (call.body host.number)
  response : ∀ sent row, server.askHandler calm state body = some (sent, .ok row) →
    wire.jsonbIn (wire.write row.body) = .ok row.body.jsonb

variable {host : AskHost R N} {wire}

section Sample

def Call.sample : Call Int := ⟨some "who", none, some 10, some "default", some 1, none⟩

def serverSample : AskServer Int Int := .citing (fun _ => .ok (Call.sample.body id))

def wireSample : Wire Int where
  jsonbOut _ := "\x7b\"q\": \"who\", \"hops\": 1, \"top_k\": 10, ...\x7d"
  write _ := "\x7b\"answer\":\"Ann does [1].\", ...\x7d"
  jsonbIn _ :=
    match serverSample.askHandler calm (AskState.sample Int) .sample with
    | some (_, .ok row) => .ok row.body.jsonb
    | _ => .error "invalid input syntax for type json"

def netSample : Handler (Net Int) Nat Empty
  | .httpPost _, looked => .ok (7, looked)
  | .awaitResponse _, looked => .ok ((), looked)
  | .httpResponse _, looked =>
      .ok (if looked = 0 then none else some ⟨none, none, some "Couldn't connect to server",
        some false⟩, looked + 1)
  | .sleep, looked => .ok ((), looked)

theorem sample_settles : ∃ last record, Program.run netSample.recorded
    (ask serverSample.toAskHost wireSample.jsonbIn (some "http://host:8410") Call.sample).run
      (0, []) = .ok (.error "pgrg.ask: sidecar request failed: Couldn't connect to server",
        (last, record)) ∧
    Settled serverSample.toAskHost wireSample.jsonbIn "http://host:8410" Call.sample
      (.error "pgrg.ask: sidecar request failed: Couldn't connect to server") record := by
  have settles := ask_settles netSample 0 serverSample.toAskHost wireSample.jsonbIn
    "http://host:8410" (by decide) Call.sample
  exact ⟨_, _, rfl, settles.1 _ _ _ rfl⟩

end Sample

end Shim

end PgRaggraph

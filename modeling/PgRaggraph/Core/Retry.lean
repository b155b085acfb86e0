import PgRaggraph.Core.Http
import Mathlib.Tactic.Common

/-! `RetryingProvider`, and the transient failures that it masks. -/

namespace PgRaggraph

open Interaction

variable {N α : Type}

structure RetryPolicy where
  maxAttempts : Nat
  backoffMs : List Nat
  totalCapMs : Nat

def RetryPolicy.default : RetryPolicy where
  maxAttempts := 3
  backoffMs := [1000, 2000, 4000]
  totalCapMs := 10000

def fallbackBackoffMs : Nat := 1000

def millis (ms : Nat) : Nat := ms * 1000000

namespace RetryPolicy

def backoff (policy : RetryPolicy) (attempt : Nat) : Nat :=
  millis (policy.backoffMs[attempt]?.getD (policy.backoffMs.getLast?.getD fallbackBackoffMs))

def cap (policy : RetryPolicy) : Nat := millis policy.totalCapMs

end RetryPolicy

def isRetryable : CoreError → Bool
  | .http _ => true
  | _ => false

def lastError (last : Option CoreError) : CoreError := last.getD (.llm "retries exhausted")

def attempts (policy : RetryPolicy) (op : Method N α) (start : Nat) :
    Nat → Nat → Option CoreError → Method N α
  | 0, _, last => throw (lastError last)
  | left + 1, attempt, last => do
      let begun ← ExceptT.lift now
      if policy.cap ≤ begun - start then throw (lastError last)
      else
        match ← ExceptT.lift op.run with
        | .ok value => pure value
        | .error e =>
            if isRetryable e then
              if attempt + 1 < policy.maxAttempts then
                let failed ← ExceptT.lift now
                let pause := min (policy.backoff attempt) (policy.cap - (failed - start))
                if pause = 0 then throw e
                else
                  ExceptT.lift (sleep pause)
                  attempts policy op start left (attempt + 1) (some e)
              else attempts policy op start left (attempt + 1) (some e)
            else throw e

def runWithRetry (policy : RetryPolicy) (op : Method N α) : Method N α := do
  let start ← ExceptT.lift now
  attempts policy op start policy.maxAttempts 0 none

structure Reply where
  took : Nat
  answer : HttpAnswer

namespace RetryPolicy

def delay (policy : RetryPolicy) : Nat → List Reply → Nat
  | _, [] => 0
  | attempt, r :: rest => r.took + policy.backoff attempt + policy.delay (attempt + 1) rest

end RetryPolicy

/-- The responses to one call: transient failures, then one with status 200, within the attempts and
the time of the default policy. -/
structure Script where
  failures : List Reply
  valid : Nat × String
  transient : ∀ r ∈ failures, HttpAnswer.transient r.answer = true
  few : failures.length < RetryPolicy.default.maxAttempts
  early : RetryPolicy.default.delay 0 failures < RetryPolicy.default.cap

structure Line where
  sent : Nat := 0
  clock : Nat := 0

namespace Script

def success (script : Script) : Reply where
  took := script.valid.1
  answer := .ok (200, script.valid.2)

def reply (script : Script) (k : Nat) : Reply := script.failures[k]?.getD script.success

def handler (script : Script) : Handler (Calling N) Line Empty
  | .post _, line =>
      .ok ((script.reply line.sent).answer,
        { sent := line.sent + 1, clock := line.clock + (script.reply line.sent).took })
  | .now, line => .ok (line.clock, line)
  | .sleep nanos, line => .ok ((), { line with clock := line.clock + nanos })

def answers (script : Script) (method : Method N α) : CoreResult α :=
  match Program.run script.handler method.run {} with
  | .ok ended => ended.1
  | .error never => never.elim

def untroubled (script : Script) : Script where
  failures := []
  valid := script.valid
  transient := fun _ member => absurd member List.not_mem_nil
  few := by decide
  early := by decide

theorem answers_request (script : Script) (url : String) (headers : List (String × String))
    (body : Json N) (parse : String → CoreResult α) :
    script.answers (request url headers body parse) = receive parse (script.reply 0).answer := by
  rw [answers, run_request]
  rfl

theorem answers_untroubled (script : Script) (url : String) (headers : List (String × String))
    (body : Json N) (parse : String → CoreResult α) :
    script.untroubled.answers (request url headers body parse) = parse script.valid.2 := by
  rw [answers_request]
  rfl

theorem reply_zero (script : Script) :
    (script.failures = [] ∧ (script.reply 0).answer = .ok (200, script.valid.2)) ∨
      (script.failures ≠ [] ∧ HttpAnswer.transient (script.reply 0).answer = true) := by
  rcases listed : script.failures with _ | ⟨first, rest⟩
  · left
    rw [reply, listed]
    exact ⟨rfl, rfl⟩
  · right
    have failed := script.transient first (listed ▸ List.mem_cons_self)
    rw [reply, listed]
    exact ⟨List.cons_ne_nil _ _, failed⟩

end Script

section Retrying

variable {script : Script} {policy : RetryPolicy} {url : String} {headers : List (String × String)}
  {body : Json N} {parse : String → CoreResult α} {value : α} {start : Nat}

theorem wp_request (line : Line) (post : CoreResult α → Line → Prop) :
    Program.wp script.handler.spec (request url headers body parse).run line post ↔
      post (receive parse (script.reply line.sent).answer)
        { sent := line.sent + 1, clock := line.clock + (script.reply line.sent).took } := by
  rw [Handler.spec, Program.wp_guarantee, run_request]
  rfl

theorem wp_now (line : Line) (post : Nat → Line → Prop) :
    Program.wp (script.handler (N := N)).spec now line post ↔ post line.clock line := Iff.rfl

theorem wp_sleep (nanos : Nat) (line : Line) (post : Unit → Line → Prop) :
    Program.wp (script.handler (N := N)).spec (sleep nanos) line post ↔
      post () { line with clock := line.clock + nanos } := Iff.rfl

theorem time_left {cap clock took pause rest : Nat} (later : start ≤ clock)
    (early : clock - start + (took + pause + rest) < cap) :
    ¬ cap ≤ clock - start ∧ min pause (cap - (clock + took - start)) = pause ∧
      start ≤ clock + took + pause ∧ clock + took + pause - start + rest < cap := by
  omega

/-- The attempts that are left outlast the failures that are left. -/
theorem attempts_masked (patient : ∀ k, 0 < policy.backoff k)
    (accepted : parse script.valid.2 = .ok value) (rest : List Reply) (left attempt : Nat)
    (last : Option CoreError) (line : Line) (remaining : script.failures.drop line.sent = rest)
    (enough : rest.length < left) (counted : attempt + left = policy.maxAttempts)
    (later : start ≤ line.clock)
    (early : line.clock - start + policy.delay attempt rest < policy.cap) :
    Program.wp script.handler.spec
      (attempts policy (request url headers body parse) start left attempt last).run line
      (fun result _ => result = .ok value) := by
  induction rest generalizing left attempt last line with
  | nil =>
      cases left with
      | zero => cases enough
      | succ left =>
          have reply : script.reply line.sent = script.success := by
            rw [Script.reply, List.getElem?_eq_none (List.drop_eq_nil_iff.mp remaining)]
            rfl
          have begun : ¬ policy.cap ≤ line.clock - start := by
            rw [RetryPolicy.delay, Nat.add_zero] at early
            exact Nat.not_le.mpr early
          have received : receive parse script.success.answer = .ok value := accepted
          rw [attempts, Fallible.wp_bind, Fallible.wp_lift, wp_now]
          dsimp only
          rw [if_neg begun, Fallible.wp_bind, Fallible.wp_lift, wp_request, reply, received]
          rfl
  | cons r rest ih =>
      cases left with
      | zero => cases enough
      | succ left =>
          have found : script.failures[line.sent]? = some r := by
            have first := congrArg (fun listed => listed[0]?) remaining
            simpa using first
          have reply : script.reply line.sent = r := by
            rw [Script.reply, found]
            rfl
          have failed := script.transient r (List.mem_of_getElem? found)
          rcases receive_transient parse failed with ⟨m, received⟩
          have next : script.failures.drop (line.sent + 1) = rest := by
            rw [← List.tail_drop, remaining, List.tail_cons]
          rw [RetryPolicy.delay] at early
          rcases time_left later early with ⟨begun, pause, onward, soon⟩
          have enough : rest.length < left := Nat.lt_of_succ_lt_succ enough
          have counted : attempt + 1 + left = policy.maxAttempts := by
            rw [← counted, Nat.add_right_comm, Nat.add_assoc]
          have again : attempt + 1 < policy.maxAttempts := by
            rw [← counted]
            exact Nat.lt_add_of_pos_right (Nat.zero_lt_of_lt enough)
          rw [attempts, Fallible.wp_bind, Fallible.wp_lift, wp_now]
          dsimp only
          rw [if_neg begun, Fallible.wp_bind, Fallible.wp_lift, wp_request, reply, received]
          dsimp only
          have retryable : isRetryable (.http m) = true := rfl
          rw [if_pos retryable, if_pos again, Fallible.wp_bind, Fallible.wp_lift, wp_now]
          dsimp only
          rw [pause, if_neg (Nat.ne_of_gt (patient attempt)), Fallible.wp_bind, Fallible.wp_lift,
            wp_sleep]
          exact ih left (attempt + 1) _ _ next enough counted onward soon

theorem run_masked (patient : ∀ k, 0 < policy.backoff k)
    (accepted : parse script.valid.2 = .ok value)
    (enough : script.failures.length < policy.maxAttempts)
    (early : policy.delay 0 script.failures < policy.cap) :
    Program.wp script.handler.spec
      (runWithRetry policy (request url headers body parse)).run {}
      (fun result _ => result = .ok value) := by
  rw [runWithRetry, Fallible.wp_bind, Fallible.wp_lift]
  refine attempts_masked patient accepted script.failures _ 0 none {} rfl enough
    (Nat.zero_add _) (Nat.le_refl 0) ?_
  rw [Nat.sub_self, Nat.zero_add]
  exact early

theorem default_patient (k : Nat) : 0 < RetryPolicy.default.backoff k := by
  match k with
  | 0 => decide
  | 1 => decide
  | 2 => decide
  | k + 3 => exact Nat.succ_pos _

theorem retry_masks (accepted : parse script.valid.2 = .ok value) :
    script.answers (runWithRetry .default (request url headers body parse)) =
      script.untroubled.answers (request url headers body parse) := by
  have masked : Program.wp script.handler.spec
      (runWithRetry .default (request url headers body parse)).run {}
      (fun result _ => result = .ok value) :=
    run_masked default_patient accepted script.few script.early
  rw [Script.answers_untroubled, accepted, Script.answers]
  rw [Program.wp_run] at masked
  cases ran : Program.run script.handler
      (runWithRetry .default (request url headers body parse)).run {} with
  | ok ended => exact masked ended.1 ended.2 ran
  | error never => exact never.elim

end Retrying

end PgRaggraph

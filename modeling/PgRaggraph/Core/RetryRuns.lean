import PgRaggraph.Core.Retry

/-! `run_with_retry` over any outcomes and durations of the calls that it makes. -/

namespace PgRaggraph

open Interaction

structure Thread (S : Signature) where
  now : Program S Nat
  sleep : Nat → Program S Unit

namespace Thread

variable {S : Signature} {α : Type}

def attempts (thread : Thread S) (policy : RetryPolicy) (op : Fallible S CoreError α) (start : Nat) :
    Nat → Nat → Option CoreError → Fallible S CoreError α
  | 0, _, last => throw (lastError last)
  | left + 1, attempt, last => do
      let begun ← ExceptT.lift thread.now
      if policy.cap ≤ begun - start then throw (lastError last)
      else
        match ← ExceptT.lift op.run with
        | .ok value => pure value
        | .error e =>
            if isRetryable e then
              if attempt + 1 < policy.maxAttempts then
                let failed ← ExceptT.lift thread.now
                let pause := min (policy.backoff attempt) (policy.cap - (failed - start))
                if pause = 0 then throw e
                else
                  ExceptT.lift (thread.sleep pause)
                  thread.attempts policy op start left (attempt + 1) (some e)
              else thread.attempts policy op start left (attempt + 1) (some e)
            else throw e

def runWithRetry (thread : Thread S) (policy : RetryPolicy) (op : Fallible S CoreError α) :
    Fallible S CoreError α := do
  let start ← ExceptT.lift thread.now
  thread.attempts policy op start policy.maxAttempts 0 none

def ofProvider {N : Type} : Thread (Calling N) where
  now := PgRaggraph.now
  sleep := PgRaggraph.sleep

theorem attempts_ofProvider {N : Type} (policy : RetryPolicy) (op : Method N α) (start left : Nat)
    (attempt : Nat) (last : Option CoreError) :
    ofProvider.attempts policy op start left attempt last =
      PgRaggraph.attempts policy op start left attempt last := by
  induction left generalizing attempt last with
  | zero => rfl
  | succ left ih =>
      simp only [attempts, PgRaggraph.attempts, ih]
      rfl

theorem runWithRetry_ofProvider {N : Type} (policy : RetryPolicy) (op : Method N α) :
    ofProvider.runWithRetry policy op = PgRaggraph.runWithRetry policy op := by
  simp only [runWithRetry, PgRaggraph.runWithRetry, attempts_ofProvider]
  rfl

end Thread

inductive RetryIo where
  | op
  | now
  | sleep (nanos : Nat)

@[reducible] def RetryIo.Answer (α : Type) : RetryIo → Type
  | .op => CoreResult α
  | .now => Nat
  | .sleep _ => Unit

abbrev Retried (α : Type) : Signature := ⟨RetryIo, RetryIo.Answer α⟩

structure Tried (α : Type) where
  begun : Nat
  took : Nat
  result : CoreResult α

structure Timeline (α : Type) where
  clock : Nat
  calls : List (Tried α) := []

structure Course (α : Type) where
  outcome : Nat → CoreResult α
  took : Nat → Nat

namespace Course

variable {α : Type}

def handler (course : Course α) : Handler (Retried α) (Timeline α) Empty
  | .op, line =>
      let k := line.calls.length
      let made := ⟨line.clock, course.took k, course.outcome k⟩
      .ok (course.outcome k, ⟨line.clock + course.took k, line.calls ++ [made]⟩)
  | .now, line => .ok (line.clock, line)
  | .sleep nanos, line => .ok ((), { line with clock := line.clock + nanos })

def thread : Thread (Retried α) where
  now := Program.perform (S := Retried α) .now
  sleep nanos := Program.perform (S := Retried α) (.sleep nanos)

def op : Fallible (Retried α) CoreError α := ExceptT.mk (Program.perform (S := Retried α) .op)

def retried (course : Course α) (policy : RetryPolicy) (start : Nat) : CoreResult α × Timeline α :=
  match Program.run course.handler (thread.runWithRetry policy op).run { clock := start } with
  | .ok ended => ended
  | .error never => never.elim

section Schedule

variable (course : Course α) (policy : RetryPolicy) (start : Nat)

/-- The time after the start when call `k` is due, all calls before it being followed by the whole of
their pauses. -/
def dueAt : Nat → Nat
  | 0 => 0
  | k + 1 => dueAt k + course.took k + policy.backoff k

def log (n : Nat) : List (Tried α) :=
  (List.range n).map (fun k => ⟨start + course.dueAt policy k, course.took k, course.outcome k⟩)

theorem log_succ (n : Nat) : course.log policy start (n + 1) = course.log policy start n ++
    [⟨start + course.dueAt policy n, course.took n, course.outcome n⟩] := by
  rw [log, List.range_succ, List.map_append, List.map_singleton, ← log]

@[simp] theorem log_length (n : Nat) : (course.log policy start n).length = n := by
  rw [log, List.length_map, List.length_range]

theorem dueAt_mono {j k : Nat} (le : j ≤ k) : course.dueAt policy j ≤ course.dueAt policy k := by
  induction k with
  | zero =>
      cases Nat.le_zero.mp le
      exact Nat.le_refl _
  | succ k ih =>
      rcases Nat.le_succ_iff.mp le with earlier | rfl
      · calc
          course.dueAt policy j ≤ course.dueAt policy k := ih earlier
          _ ≤ course.dueAt policy (k + 1) := by
            rw [dueAt, Nat.add_assoc]
            exact Nat.le_add_right _ _
      · exact Nat.le_refl _

end Schedule

def Transient (result : CoreResult α) : Prop := ∃ e, result = .error e ∧ isRetryable e = true

section Runs

variable (course : Course α) (policy : RetryPolicy) (start : Nat)

structure Heading (attempt : Nat) (last : Option CoreError) (line : Timeline α) : Prop where
  calls : line.calls = course.log policy start attempt
  early : ∀ k < attempt, course.dueAt policy k < policy.cap
  failing : ∀ k < attempt, Transient (course.outcome k)
  paused : ∀ k < attempt, 0 < policy.backoff k
  lastly : ∀ k, attempt = k + 1 → course.outcome k = .error (lastError last)
  clock : line.clock = start + min (course.dueAt policy attempt) policy.cap

structure Finished (n : Nat) (result : CoreResult α) (line : Timeline α) : Prop where
  calls : line.calls = course.log policy start n
  few : n ≤ policy.maxAttempts
  early : ∀ k < n, course.dueAt policy k < policy.cap
  failing : ∀ k, k + 1 < n → Transient (course.outcome k)
  paused : ∀ k, k + 1 < n → 0 < policy.backoff k
  idle : n = 0 → line.clock = start
  ended : ∀ k, n = k + 1 → result = course.outcome k ∧
    line.clock ≤ start + max policy.cap (course.dueAt policy k + course.took k)
  stopped : policy.maxAttempts ≤ n ∨ policy.cap ≤ course.dueAt policy n ∨
    ∃ k, n = k + 1 ∧ (¬ Transient (course.outcome k) ∨ policy.backoff k = 0)

variable {course policy start} {attempt : Nat} {last : Option CoreError} {line : Timeline α}

theorem Heading.stop (head : course.Heading policy start attempt last line)
    (few : attempt ≤ policy.maxAttempts)
    (reason : policy.maxAttempts ≤ attempt ∨ policy.cap ≤ course.dueAt policy attempt) :
    course.Finished policy start attempt (.error (lastError last)) line where
  calls := head.calls
  few := few
  early := head.early
  failing k le := head.failing k (Nat.lt_of_succ_lt le)
  paused k le := head.paused k (Nat.lt_of_succ_lt le)
  idle := by
    rintro rfl
    rw [head.clock, dueAt, Nat.zero_min, Nat.add_zero]
  ended := by
    intro k same
    refine ⟨(head.lastly k same).symm, ?_⟩
    rw [head.clock]
    exact Nat.add_le_add_left (Nat.le_trans (Nat.min_le_right _ _) (Nat.le_max_left _ _)) start
  stopped := reason.imp_right Or.inl

theorem Heading.settle (head : course.Heading policy start attempt last line)
    (few : attempt + 1 ≤ policy.maxAttempts) (early : course.dueAt policy attempt < policy.cap)
    (reason : policy.maxAttempts ≤ attempt + 1 ∨
      policy.cap ≤ course.dueAt policy (attempt + 1) ∨
      ¬ Transient (course.outcome attempt) ∨ policy.backoff attempt = 0) :
    course.Finished policy start (attempt + 1) (course.outcome attempt)
      ⟨start + course.dueAt policy attempt + course.took attempt,
        course.log policy start (attempt + 1)⟩ where
  calls := rfl
  few := few
  early k le := by
    rcases Nat.lt_succ_iff_lt_or_eq.mp le with before | rfl
    · exact head.early k before
    · exact early
  failing k le := head.failing k (Nat.lt_of_succ_lt_succ le)
  paused k le := head.paused k (Nat.lt_of_succ_lt_succ le)
  idle := nofun
  ended := by
    intro k same
    cases same
    refine ⟨rfl, ?_⟩
    rw [Nat.add_assoc]
    exact Nat.add_le_add_left (Nat.le_max_right _ _) start
  stopped := reason.imp_right (fun later => later.imp_right (fun ended => ⟨attempt, rfl, ended⟩))

theorem clock_paused {due took backoff cap : Nat} (start : Nat)
    (left : 0 < min backoff (cap - (due + took))) :
    start + due + took + min backoff (cap - (start + due + took - start)) =
      start + min (due + took + backoff) cap := by
  omega

theorem no_pause {due took backoff cap : Nat} (none : min backoff (cap - (due + took)) = 0) :
    cap ≤ due + took + backoff ∨ backoff = 0 := by
  omega

theorem Heading.next (head : course.Heading policy start attempt last line)
    (early : course.dueAt policy attempt < policy.cap) {e : CoreError}
    (failed : course.outcome attempt = .error e) (retryable : isRetryable e = true)
    (left : 0 < min (policy.backoff attempt)
      (policy.cap - (course.dueAt policy attempt + course.took attempt))) :
    course.Heading policy start (attempt + 1) (some e)
      ⟨start + course.dueAt policy attempt + course.took attempt +
        min (policy.backoff attempt) (policy.cap -
          (start + course.dueAt policy attempt + course.took attempt - start)),
        course.log policy start (attempt + 1)⟩ where
  calls := rfl
  early k le := by
    rcases Nat.lt_succ_iff_lt_or_eq.mp le with before | rfl
    · exact head.early k before
    · exact early
  failing k le := by
    rcases Nat.lt_succ_iff_lt_or_eq.mp le with before | rfl
    · exact head.failing k before
    · exact ⟨e, failed, retryable⟩
  paused k le := by
    rcases Nat.lt_succ_iff_lt_or_eq.mp le with before | rfl
    · exact head.paused k before
    · exact Nat.lt_of_lt_of_le left (Nat.min_le_left _ _)
  lastly := by
    intro k same
    cases same
    exact failed
  clock := clock_paused start left

theorem wp_clock (line : Timeline α) (post : Nat → Timeline α → Prop) :
    Program.wp course.handler.spec thread.now line post ↔ post line.clock line := Iff.rfl

theorem wp_pause (nanos : Nat) (line : Timeline α) (post : Unit → Timeline α → Prop) :
    Program.wp course.handler.spec (thread.sleep nanos) line post ↔
      post () { line with clock := line.clock + nanos } := Iff.rfl

theorem Heading.wp_op (head : course.Heading policy start attempt last line)
    (early : course.dueAt policy attempt < policy.cap)
    (post : CoreResult α → Timeline α → Prop) :
    Program.wp course.handler.spec op.run line post ↔
      post (course.outcome attempt)
        ⟨start + course.dueAt policy attempt + course.took attempt,
          course.log policy start (attempt + 1)⟩ := by
  have count : line.calls.length = attempt := by rw [head.calls, log_length]
  have time : line.clock = start + course.dueAt policy attempt := by
    rw [head.clock, Nat.min_eq_left (Nat.le_of_lt early)]
  rw [log_succ, ← head.calls, ← time]
  change post (course.outcome line.calls.length) _ ↔ _
  rw [count]

theorem attempts_finished (left attempt : Nat) (last : Option CoreError) (line : Timeline α)
    (counted : attempt + left = policy.maxAttempts)
    (head : course.Heading policy start attempt last line) :
    Program.wp course.handler.spec (thread.attempts policy op start left attempt last).run line
      (fun result line => ∃ n, course.Finished policy start n result line) := by
  induction left generalizing attempt last line with
  | zero => exact ⟨attempt, head.stop (Nat.le_of_eq counted) (.inl (Nat.le_of_eq counted.symm))⟩
  | succ left ih =>
      have counted' : attempt + 1 + left = policy.maxAttempts := by
        rw [← counted, Nat.add_right_comm, Nat.add_assoc]
      have few : attempt + 1 ≤ policy.maxAttempts := Nat.le.intro counted'
      rw [Thread.attempts, Fallible.wp_bind, Fallible.wp_lift, wp_clock, head.clock]
      dsimp only
      rw [Nat.add_sub_cancel_left]
      by_cases late : policy.cap ≤ course.dueAt policy attempt
      · rw [if_pos (Nat.le_min.mpr ⟨late, Nat.le_refl _⟩)]
        exact ⟨attempt, head.stop (Nat.le_of_succ_le few) (.inr late)⟩
      have early := Nat.not_le.mp late
      rw [if_neg (fun le => late (Nat.le_min.mp le).1), Fallible.wp_bind, Fallible.wp_lift,
        head.wp_op early]
      cases outcome : course.outcome attempt with
      | ok value =>
          have settled : ¬ Transient (course.outcome attempt) := by
            rintro ⟨e, failed, -⟩
            rw [outcome] at failed
            cases failed
          exact ⟨attempt + 1, outcome ▸ head.settle few early (.inr (.inr (.inl settled)))⟩
      | error e =>
          dsimp only
          by_cases retryable : isRetryable e = true
          · rw [if_pos retryable]
            by_cases more : attempt + 1 < policy.maxAttempts
            · rw [if_pos more, Fallible.wp_bind, Fallible.wp_lift, wp_clock]
              dsimp only
              by_cases pause : min (policy.backoff attempt) (policy.cap -
                  (start + course.dueAt policy attempt + course.took attempt - start)) = 0
              · rw [if_pos pause]
                refine ⟨attempt + 1, outcome ▸ head.settle few early (.inr ?_)⟩
                rw [Nat.add_assoc, Nat.add_sub_cancel_left] at pause
                exact (no_pause pause).imp_right Or.inr
              · rw [if_neg pause, Fallible.wp_bind, Fallible.wp_lift, wp_pause]
                rw [Nat.add_assoc, Nat.add_sub_cancel_left] at pause
                exact ih (attempt + 1) _ _ counted'
                  (head.next early outcome retryable (Nat.pos_of_ne_zero pause))
            · rw [if_neg more]
              have none : left = 0 := by omega
              rw [none]
              exact ⟨attempt + 1, outcome ▸ head.settle few early (.inl (Nat.not_lt.mp more))⟩
          · rw [if_neg retryable]
            have settled : ¬ Transient (course.outcome attempt) := by
              rintro ⟨e', failed, retried⟩
              rw [outcome] at failed
              cases failed
              exact retryable retried
            exact ⟨attempt + 1, outcome ▸ head.settle few early (.inr (.inr (.inl settled)))⟩

theorem retried_finished (course : Course α) (policy : RetryPolicy) (start : Nat) :
    ∃ n, course.Finished policy start n (course.retried policy start).1
      (course.retried policy start).2 := by
  have head : course.Heading policy start 0 none { clock := start } :=
    { calls := rfl, early := nofun, failing := nofun, paused := nofun, lastly := nofun,
      clock := by rw [dueAt, Nat.zero_min, Nat.add_zero] }
  have finished : Program.wp course.handler.spec (thread.runWithRetry policy op).run
      { clock := start } (fun result line => ∃ n, course.Finished policy start n result line) := by
    rw [Thread.runWithRetry, Fallible.wp_bind, Fallible.wp_lift, wp_clock]
    exact attempts_finished _ 0 none _ (Nat.zero_add _) head
  rw [Program.wp_run] at finished
  rw [retried]
  cases ran : Program.run course.handler (thread.runWithRetry policy op).run
      { clock := start } with
  | ok ended => exact finished ended.1 ended.2 ran
  | error never => exact never.elim

end Runs

structure Bounded (course : Course α) (policy : RetryPolicy) (start : Nat) (result : CoreResult α)
    (line : Timeline α) : Prop where
  played : ∀ k call, line.calls[k]? = some call →
    call.result = course.outcome k ∧ call.took = course.took k
  few : line.calls.length ≤ policy.maxAttempts
  early : ∀ call ∈ line.calls, call.begun - start < policy.cap
  total : line.clock - start ≤ policy.cap + (line.calls.getLast?.elim 0 Tried.took)
  retried : ∀ k call, line.calls[k]? = some call → k + 1 < line.calls.length → Transient call.result
  last : ∀ call ∈ line.calls.getLast?, result = call.result

section Bounds

variable {course : Course α} {policy : RetryPolicy} {start : Nat}

theorem log_getElem? {n k : Nat} {call : Tried α}
    (made : (course.log policy start n)[k]? = some call) : k < n ∧
      call = ⟨start + course.dueAt policy k, course.took k, course.outcome k⟩ := by
  rw [log, List.getElem?_map, Option.map_eq_some_iff] at made
  rcases made with ⟨j, found, rfl⟩
  rcases List.getElem?_eq_some_iff.mp found with ⟨bound, same⟩
  rw [List.getElem_range] at same
  rw [List.length_range] at bound
  rw [← same]
  exact ⟨bound, rfl⟩

theorem log_getLast? (n : Nat) : (course.log policy start (n + 1)).getLast? =
    some ⟨start + course.dueAt policy n, course.took n, course.outcome n⟩ := by
  rw [log_succ, List.getLast?_concat]

/-- The loop makes at most `maxAttempts` calls, none of them after the cap; it takes no longer than
the cap and its last call, stops at an `Ok` and at an error that is not retried, and returns the
result of its last call. -/
theorem retry_bounds (course : Course α) (policy : RetryPolicy) (start : Nat) :
    course.Bounded policy start (course.retried policy start).1
      (course.retried policy start).2 := by
  rcases course.retried_finished policy start with ⟨n, finished⟩
  have calls := finished.calls
  refine ⟨?_, ?_, ?_, ?_, ?_, ?_⟩
  · intro k call made
    rw [calls] at made
    rcases log_getElem? made with ⟨-, rfl⟩
    exact ⟨rfl, rfl⟩
  · rw [calls, log_length]
    exact finished.few
  · intro call member
    rw [calls] at member
    rcases List.mem_iff_getElem?.mp member with ⟨k, made⟩
    rcases log_getElem? made with ⟨bound, rfl⟩
    rw [Nat.add_sub_cancel_left]
    exact finished.early k bound
  · cases n with
    | zero =>
        rw [finished.idle rfl, Nat.sub_self]
        exact Nat.zero_le _
    | succ n =>
        have clock := (finished.ended n rfl).2
        have early := finished.early n (Nat.lt_succ_self n)
        rw [calls, log_getLast?]
        dsimp only [Option.elim_some]
        omega
  · intro k call made more
    rw [calls, log_length] at more
    rw [calls] at made
    rcases log_getElem? made with ⟨-, rfl⟩
    exact finished.failing k more
  · intro call final
    rw [calls] at final
    cases n with
    | zero => cases final
    | succ n =>
        rw [log_getLast?] at final
        cases final
        exact (finished.ended n rfl).1

end Bounds

structure Progress (course : Course α) (policy : RetryPolicy) (start : Nat) (result : CoreResult α)
    (line : Timeline α) : Prop where
  next : ∀ k call, line.calls[k]? = some call → Transient call.result →
    k + 1 < policy.maxAttempts →
    call.begun + call.took - start + policy.backoff k < policy.cap → k + 1 < line.calls.length
  reached : ∀ k value, k < policy.maxAttempts → (∀ j < k, Transient (course.outcome j)) →
    course.dueAt policy k < policy.cap → course.outcome k = .ok value → result = .ok value

section Progressing

variable {course : Course α} {policy : RetryPolicy} {start n : Nat} {result : CoreResult α}
  {line : Timeline α}

theorem Finished.made (finished : course.Finished policy start n result line) {k : Nat}
    (bound : k < n) : line.calls[k]? =
      some ⟨start + course.dueAt policy k, course.took k, course.outcome k⟩ := by
  rw [finished.calls, log, List.getElem?_map, List.getElem?_range bound, Option.map_some]

def Persists (course : Course α) (policy : RetryPolicy) (n : Nat) : Prop :=
  ∀ k < n, Transient (course.outcome k) → k + 1 < policy.maxAttempts →
    course.dueAt policy (k + 1) < policy.cap → k + 1 < n

theorem Finished.goes_on (finished : course.Finished policy start n result line)
    (next : course.Persists policy n) {k : Nat}
    (few : k < policy.maxAttempts) (failing : ∀ j < k, Transient (course.outcome j))
    (early : course.dueAt policy k < policy.cap) : k < n := by
  induction k with
  | zero =>
      rcases finished.stopped with most | late | ⟨j, rfl, -⟩
      · exact Nat.lt_of_lt_of_le few most
      · by_contra none
        rw [Nat.le_zero.mp (Nat.not_lt.mp none)] at late
        exact Nat.not_lt.mpr late early
      · exact Nat.succ_pos j
  | succ k ih =>
      have before : course.dueAt policy k < policy.cap :=
        Nat.lt_of_le_of_lt (course.dueAt_mono policy (Nat.le_succ k)) early
      have made := ih (Nat.lt_of_succ_lt few) (fun j le => failing j (Nat.lt_succ_of_lt le)) before
      exact next k made (failing k (Nat.lt_succ_self k)) few early

theorem due_next {due took backoff : Nat} :
    start + due + took - start + backoff = due + took + backoff := by
  omega

theorem Finished.progress_iff (finished : course.Finished policy start n result line) :
    course.Progress policy start result line ↔ course.Persists policy n := by
  have length : line.calls.length = n := by
    rw [finished.calls, log_length]
  constructor
  · intro progress k bound failed more early
    rw [← length]
    refine progress.next k _ (finished.made bound) failed more ?_
    rw [due_next]
    exact early
  · intro next
    refine ⟨?_, ?_⟩
    · intro k call made failed more early
      rw [finished.calls] at made
      rcases log_getElem? made with ⟨bound, rfl⟩
      rw [due_next] at early
      rw [length]
      exact next k bound failed more early
    · intro k value few failing early succeeds
      have made : k < n := finished.goes_on next few failing early
      have last : n = k + 1 := by
        by_contra more
        rcases finished.failing k (by omega) with ⟨e, failed, -⟩
        rw [succeeds] at failed
        cases failed
      rw [(finished.ended k last).1, succeeds]

/-- Only a pause of no time keeps a call that is due from being made. -/
theorem Finished.persists_iff (finished : course.Finished policy start n result line) :
    course.Persists policy n ↔
      ∀ k, (∀ j ≤ k, Transient (course.outcome j)) → k + 1 < policy.maxAttempts →
        course.dueAt policy (k + 1) < policy.cap → policy.backoff k ≠ 0 := by
  constructor
  · intro next k failing more early
    have made : k + 1 < n :=
      finished.goes_on next more (fun j le => failing j (Nat.le_of_lt_succ le)) early
    exact Nat.ne_of_gt (finished.paused k made)
  · intro patient k bound failed more early
    rcases finished.stopped with most | late | ⟨j, last, ended⟩
    · exact Nat.lt_of_lt_of_le more most
    · by_contra none
      have last : n = k + 1 := Nat.le_antisymm (Nat.not_lt.mp none) bound
      rw [last] at late
      exact Nat.not_lt.mpr late early
    · by_contra none
      have same : j = k := by omega
      rw [same] at ended
      rcases ended with settled | hasty
      · exact settled failed
      · refine patient k (fun i le => ?_) more early hasty
        rcases Nat.lt_or_eq_of_le le with before | rfl
        · exact finished.failing i (by omega)
        · exact failed

/-- The loop gives up early exactly where a pause of no time follows a call that may be repeated. -/
theorem retry_progress_iff (course : Course α) (policy : RetryPolicy) (start : Nat) :
    course.Progress policy start (course.retried policy start).1 (course.retried policy start).2 ↔
      ∀ k, (∀ j ≤ k, Transient (course.outcome j)) → k + 1 < policy.maxAttempts →
        course.dueAt policy (k + 1) < policy.cap → policy.backoff k ≠ 0 := by
  rcases course.retried_finished policy start with ⟨n, finished⟩
  calc course.Progress policy start (course.retried policy start).1 (course.retried policy start).2
    _ ↔ course.Persists policy n := finished.progress_iff
    _ ↔ _ := finished.persists_iff

end Progressing

def recovering : Course Unit where
  outcome k := if k = 0 then .error (.http "status 503: busy") else .ok ()
  took _ := 0

def unpaused : RetryPolicy where
  maxAttempts := 2
  backoffMs := [0]
  totalCapMs := 10000

/-- Two calls are allowed and ten seconds are left, and only one is made. -/
theorem unpaused_gives_up : ¬ recovering.Progress unpaused 0 (recovering.retried unpaused 0).1
    (recovering.retried unpaused 0).2 := by
  intro progress
  have failing : ∀ j < 1, Transient (recovering.outcome j) := by
    intro j first
    rw [Nat.lt_one_iff.mp first]
    exact ⟨_, rfl, rfl⟩
  have reached := progress.reached 1 () (by decide) failing (by decide) rfl
  have gaveUp : (recovering.retried unpaused 0).1 = .error (.http "status 503: busy") := rfl
  rw [gaveUp] at reached
  cases reached

end Course

end PgRaggraph

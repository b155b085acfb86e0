import Mathlib.Logic.Basic

/-! Programs over an interface of calls, their weakest preconditions and their runs.

A program is the finite tree of the calls it issues. One program can be folded against a
predicate transformer for each call (`wp`), executed by a handler (`run`), or advanced one
call at a time by a scheduler that owns the tree. -/

namespace Interaction

/-- Calls, each with the type of its answer. -/
structure Signature where
  Call : Type
  Answer : Call → Type

inductive Program (S : Signature) (α : Type) : Type where
  | done (value : α)
  | call (request : S.Call) (next : S.Answer request → Program S α)

/-- A predicate transformer for each call, over the states `σ` the calls act on. -/
abbrev Spec (S : Signature) (σ : Type) :=
  (request : S.Call) → σ → (S.Answer request → σ → Prop) → Prop

/-- An execution of each call, which may instead abandon the run with an `ε`. -/
abbrev Handler (S : Signature) (σ ε : Type) :=
  (request : S.Call) → σ → Except ε (S.Answer request × σ)

variable {S : Signature} {α β σ ε φ : Type}

def Spec.Monotone (spec : Spec S σ) : Prop :=
  ∀ request state (post weaker : S.Answer request → σ → Prop),
    (∀ answer after, post answer after → weaker answer after) →
    spec request state post → spec request state weaker

/-- What a handler guarantees of one call, where abandoning the run must meet `stop`. -/
def Handler.guarantee (handler : Handler S σ ε) (stop : ε → Prop) : Spec S σ :=
  fun request state post =>
    match handler request state with
    | .ok (answer, after) => post answer after
    | .error failure => stop failure

def Handler.spec (handler : Handler S σ ε) : Spec S σ := handler.guarantee (fun _ => True)

def Handler.agree (first second : Handler S σ ε) (stop : ε → Prop) : Spec S σ :=
  fun request state post =>
    first request state = second request state ∧ first.guarantee stop request state post

/-- Each call may find the state moved along `rely` by somebody else. -/
def Spec.under (spec : Spec S σ) (rely : σ → σ → Prop) : Spec S σ := fun request state post =>
  ∀ moved, rely state moved → spec request moved post

/-- Calls are issued only where `allowed`, and answered in any way `answers` admits. -/
def Spec.discipline (allowed : S.Call → σ → Prop)
    (answers : (request : S.Call) → σ → S.Answer request → σ → Prop) : Spec S σ :=
  fun request state post =>
    allowed request state ∧ ∀ answer after, answers request state answer after → post answer after

theorem Handler.guarantee_monotone (handler : Handler S σ ε) (stop : ε → Prop) :
    (handler.guarantee stop).Monotone := by
  intro request state post weaker implies holds
  simp only [Handler.guarantee] at holds ⊢
  split
  · rename_i answer after answered
    rw [answered] at holds
    exact implies answer after holds
  · rename_i failure failed
    rw [failed] at holds
    exact holds

theorem Handler.spec_monotone (handler : Handler S σ ε) : handler.spec.Monotone :=
  handler.guarantee_monotone _

theorem Handler.spec_iff (handler : Handler S σ ε) (request : S.Call) (state : σ)
    (post : S.Answer request → σ → Prop) :
    handler.spec request state post ↔
      ∀ answer after, handler request state = .ok (answer, after) → post answer after := by
  simp only [Handler.spec, Handler.guarantee]
  split
  · rename_i answer after answered
    simp only [answered, Except.ok.injEq, Prod.mk.injEq, and_imp]
    constructor
    · intro holds _ _ sameAnswer sameState
      rw [← sameAnswer, ← sameState]
      exact holds
    · intro holds
      exact holds answer after rfl rfl
  · rename_i failure failed
    simp only [failed, reduceCtorEq, false_implies, implies_true]

theorem Handler.agree_monotone (first second : Handler S σ ε) (stop : ε → Prop) :
    (first.agree second stop).Monotone := by
  intro request state post weaker implies holds
  exact ⟨holds.1, first.guarantee_monotone stop _ _ _ _ implies holds.2⟩

theorem Spec.under_monotone {spec : Spec S σ} (monotone : spec.Monotone) (rely : σ → σ → Prop) :
    (spec.under rely).Monotone := by
  intro request state post weaker implies holds moved along
  exact monotone request moved post weaker implies (holds moved along)

theorem Spec.discipline_monotone (allowed : S.Call → σ → Prop)
    (answers : (request : S.Call) → σ → S.Answer request → σ → Prop) :
    (Spec.discipline allowed answers).Monotone := by
  intro request state post weaker implies holds
  exact ⟨holds.1, fun answer after admitted => implies answer after (holds.2 answer after admitted)⟩

namespace Program

def bind : Program S α → (α → Program S β) → Program S β
  | done value, f => f value
  | call request next, f => call request (fun answer => bind (next answer) f)

instance : Monad (Program S) where
  pure := done
  bind := bind

def perform (request : S.Call) : Program S (S.Answer request) :=
  call request done

def wp (spec : Spec S σ) : Program S α → σ → (α → σ → Prop) → Prop
  | done value, state, post => post value state
  | call request next, state, post =>
      spec request state (fun answer after => wp spec (next answer) after post)

def run (handler : Handler S σ ε) : Program S α → σ → Except ε (α × σ)
  | done value, state => .ok (value, state)
  | call request next, state =>
      match handler request state with
      | .ok (answer, after) => run handler (next answer) after
      | .error failure => .error failure

@[simp] theorem wp_pure (spec : Spec S σ) (value : α) (state : σ) (post : α → σ → Prop) :
    wp spec (pure value) state post ↔ post value state := Iff.rfl

@[simp] theorem wp_bind (spec : Spec S σ) (p : Program S α) (f : α → Program S β) (state : σ)
    (post : β → σ → Prop) :
    wp spec (p >>= f) state post ↔
      wp spec p state (fun value after => wp spec (f value) after post) := by
  change wp spec (bind p f) state post ↔ _
  induction p generalizing state with
  | done value => rfl
  | call request next ih =>
      simp only [bind, wp]
      have same : (fun answer after => wp spec (bind (next answer) f) after post) =
          fun answer after => wp spec (next answer) after
            (fun value last => wp spec (f value) last post) := by
        funext answer after
        exact propext (ih answer after)
      rw [same]

theorem wp_mono {spec : Spec S σ} (monotone : spec.Monotone) (p : Program S α) (state : σ)
    {post weaker : α → σ → Prop} (implies : ∀ value after, post value after → weaker value after)
    (holds : wp spec p state post) : wp spec p state weaker := by
  induction p generalizing state with
  | done value => exact implies value state holds
  | call request next ih => exact monotone _ _ _ _ (fun answer after => ih answer after) holds

theorem wp_guarantee (handler : Handler S σ ε) (stop : ε → Prop) (p : Program S α) (state : σ)
    (post : α → σ → Prop) :
    wp (handler.guarantee stop) p state post ↔
      match run handler p state with
      | .ok (value, after) => post value after
      | .error failure => stop failure := by
  induction p generalizing state with
  | done value => rfl
  | call request next ih =>
      simp only [wp, Handler.guarantee, run]
      split
      · exact ih _ _
      · rfl

theorem wp_run (handler : Handler S σ ε) (p : Program S α) (state : σ) (post : α → σ → Prop) :
    wp handler.spec p state post ↔
      ∀ value after, run handler p state = .ok (value, after) → post value after := by
  rw [Handler.spec, wp_guarantee]
  split
  · rename_i value after finished
    simp only [finished, Except.ok.injEq, Prod.mk.injEq, and_imp]
    constructor
    · intro holds _ _ sameValue sameState
      rw [← sameValue, ← sameState]
      exact holds
    · intro holds
      exact holds value after rfl rfl
  · rename_i failure failed
    simp only [failed, reduceCtorEq, false_implies, implies_true]

theorem run_agree {first second : Handler S σ ε} {stop : ε → Prop} (p : Program S α) (state : σ)
    {post : α → σ → Prop} (alike : wp (first.agree second stop) p state post) :
    run first p state = run second p state ∧ wp (first.guarantee stop) p state post := by
  induction p generalizing state with
  | done value => exact ⟨rfl, alike⟩
  | call request next ih =>
      rcases alike with ⟨same, continues⟩
      simp only [run, wp, Handler.guarantee] at continues ⊢
      rw [← same]
      split
      · rename_i answer after answered
        rw [answered] at continues
        exact ih answer after continues
      · rename_i failure failed
        rw [failed] at continues
        exact ⟨rfl, continues⟩

theorem run_invariant {handler : Handler S σ ε} {invariant : σ → Prop}
    (preserved : ∀ request state answer after, invariant state →
      handler request state = .ok (answer, after) → invariant after)
    (p : Program S α) {state last : σ} {value : α} (holds : invariant state)
    (finished : run handler p state = .ok (value, last)) : invariant last := by
  induction p generalizing state with
  | done value =>
      cases finished
      exact holds
  | call request next ih =>
      simp only [run] at finished
      split at finished
      · rename_i answer after answered
        exact ih answer (preserved request state answer after holds answered) finished
      · cases finished

theorem run_answered {handler : Handler S σ ε}
    (answers : ∀ request state, ∃ reply, handler request state = .ok reply) (p : Program S α)
    (state : σ) : ∃ ended, run handler p state = .ok ended := by
  induction p generalizing state with
  | done value => exact ⟨(value, state), rfl⟩
  | call request next ih =>
      rcases answers request state with ⟨reply, answered⟩
      rcases ih reply.1 reply.2 with ⟨ended, finished⟩
      refine ⟨ended, ?_⟩
      rw [run, answered]
      exact finished

theorem wp_moved {spec : Spec S σ} {rely : σ → σ → Prop}
    (transitive : ∀ a b c, rely a b → rely b c → rely a c) (p : Program S α) (state moved : σ)
    {post : α → σ → Prop} (stable : ∀ value a b, rely a b → post value a → post value b)
    (along : rely state moved) (holds : wp (spec.under rely) p state post) :
    wp (spec.under rely) p moved post := by
  cases p with
  | done value => exact stable value state moved along holds
  | call request next =>
      intro further later
      exact holds further (transitive _ _ _ along later)

theorem run_bind (handler : Handler S σ ε) (p : Program S α) (f : α → Program S β) (state : σ) :
    run handler (p >>= f) state =
      match run handler p state with
      | .ok (value, after) => run handler (f value) after
      | .error failure => .error failure := by
  change run handler (bind p f) state = _
  induction p generalizing state with
  | done value => rfl
  | call request next ih =>
      simp only [bind, run]
      split
      · exact ih _ _
      · rfl

def interrupted (handler : Handler S σ ε) (fails : Nat → Option ε) : Handler S (σ × Nat) ε :=
  fun request state =>
    match fails state.2 with
    | some failure => .error failure
    | none => (handler request state.1).map (fun reply => (reply.1, reply.2, state.2 + 1))

theorem run_interrupted (handler : Handler S σ ε) (fails : Nat → Option ε) (p : Program S α)
    (state : σ) (n : Nat) :
    (∃ k failure, fails k = some failure ∧
        run (interrupted handler fails) p (state, n) = .error failure) ∨
      (run (interrupted handler fails) p (state, n)).map (fun ended => (ended.1, ended.2.1)) =
        run handler p state := by
  induction p generalizing state n with
  | done value => exact .inr rfl
  | call request next ih =>
      simp only [run, interrupted]
      cases failed : fails n with
      | some failure => exact .inl ⟨n, failure, failed, rfl⟩
      | none =>
          cases answered : handler request state with
          | error failure => exact .inr rfl
          | ok reply => exact ih reply.1 reply.2 (n + 1)

end Program

structure Exchange (S : Signature) where
  request : S.Call
  answer : S.Answer request

def Handler.recorded (handler : Handler S σ ε) : Handler S (σ × List (Exchange S)) ε :=
  fun request state =>
    (handler request state.1).map (fun reply =>
      (reply.1, reply.2, state.2 ++ [⟨request, reply.1⟩]))

theorem Handler.recorded_spec (handler : Handler S σ ε) (request : S.Call)
    (state : σ × List (Exchange S)) (post : S.Answer request → σ × List (Exchange S) → Prop) :
    handler.recorded.spec request state post ↔
      handler.spec request state.1 (fun answer after =>
        post answer (after, state.2 ++ [⟨request, answer⟩])) := by
  simp only [Handler.spec, Handler.guarantee, Handler.recorded]
  cases handler request state.1 with
  | ok reply => rfl
  | error failure => rfl

theorem Program.run_recorded (handler : Handler S σ ε) (p : Program S α)
    (state : σ × List (Exchange S)) :
    (run handler.recorded p state).map (fun ended => (ended.1, ended.2.1)) =
      run handler p state.1 := by
  induction p generalizing state with
  | done value => rfl
  | call request next ih =>
      simp only [run, Handler.recorded]
      cases handler request state.1 with
      | ok reply => exact ih reply.1 _
      | error failure => rfl

/-- Programs that end with a value or with an error of their own. -/
abbrev Fallible (S : Signature) (φ : Type) := ExceptT φ (Program S)

namespace Fallible

open Program

@[simp] theorem wp_pure (spec : Spec S σ) (value : α) (state : σ) (post : Except φ α → σ → Prop) :
    wp spec (pure value : Fallible S φ α).run state post ↔ post (.ok value) state := Iff.rfl

@[simp] theorem wp_throw (spec : Spec S σ) (failure : φ) (state : σ)
    (post : Except φ α → σ → Prop) :
    wp spec (throw failure : Fallible S φ α).run state post ↔ post (.error failure) state := Iff.rfl

@[simp] theorem wp_lift (spec : Spec S σ) (p : Program S α) (state : σ)
    (post : Except φ α → σ → Prop) :
    wp spec (ExceptT.lift p : Fallible S φ α).run state post ↔
      wp spec p state (fun value after => post (.ok value) after) := by
  change wp spec (p >>= fun value => pure (.ok value)) state post ↔ _
  simp only [Program.wp_bind, Program.wp_pure]

@[simp] theorem wp_bind (spec : Spec S σ) (p : Fallible S φ α) (f : α → Fallible S φ β) (state : σ)
    (post : Except φ β → σ → Prop) :
    wp spec (p >>= f).run state post ↔
      wp spec p.run state (fun result after =>
        match result with
        | .ok value => wp spec (f value).run after post
        | .error failure => post (.error failure) after) := by
  rw [ExceptT.run_bind, Program.wp_bind]
  apply iff_of_eq
  congr 1
  funext result after
  cases result <;> rfl

def ofExcept : Except φ α → Fallible S φ α
  | .ok value => pure value
  | .error failure => throw failure

@[simp] theorem wp_ofExcept (spec : Spec S σ) (result : Except φ α) (state : σ)
    (post : Except φ α → σ → Prop) :
    wp spec (ofExcept result : Fallible S φ α).run state post ↔ post result state := by
  cases result <;> rfl

/-- A stage that ends well establishes `keep`; one that ends with an error, `failed`. -/
def Settles (keep : α → σ → Prop) (failed : φ → σ → Prop) : Except φ α → σ → Prop
  | .ok value, state => keep value state
  | .error failure, state => failed failure state

theorem Settles.mono {keep wider : α → σ → Prop} {failed looser : φ → σ → Prop}
    (kept : ∀ value state, keep value state → wider value state)
    (stopped : ∀ failure state, failed failure state → looser failure state)
    (result : Except φ α) (state : σ) (settled : Settles keep failed result state) :
    Settles wider looser result state := by
  cases result with
  | ok value => exact kept value state settled
  | error failure => exact stopped failure state settled

theorem wp_seq {spec : Spec S σ} (monotone : spec.Monotone) {p : Fallible S φ α}
    {f : α → Fallible S φ β} {state : σ} {keep : α → σ → Prop} {failed : φ → σ → Prop}
    {post : Except φ β → σ → Prop} (first : wp spec p.run state (Settles keep failed))
    (next : ∀ value after, keep value after → wp spec (f value).run after post)
    (stop : ∀ failure after, failed failure after → post (.error failure) after) :
    wp spec (p >>= f).run state post := by
  rw [wp_bind]
  refine wp_mono monotone _ _ ?_ first
  intro result after settled
  cases result with
  | ok value => exact next value after settled
  | error failure => exact stop failure after settled

theorem wp_lift_seq {spec : Spec S σ} (monotone : spec.Monotone) {p : Program S α}
    {f : α → Fallible S φ β} {state : σ} {middle : α → σ → Prop} {post : Except φ β → σ → Prop}
    (first : wp spec p state middle)
    (next : ∀ value after, middle value after → wp spec (f value).run after post) :
    wp spec (ExceptT.lift p >>= f).run state post := by
  rw [wp_bind, wp_lift]
  exact wp_mono monotone _ _ next first

theorem wp_foldlM {spec : Spec S σ} (monotone : spec.Monotone) {f : β → α → Fallible S φ β}
    {failed : φ → σ → Prop} (invariant : List α → β → σ → Prop)
    (body : ∀ item rest acc state, invariant (item :: rest) acc state →
      wp spec (f acc item).run state (Settles (invariant rest) failed))
    (items : List α) (acc : β) (state : σ) (start : invariant items acc state) :
    wp spec (items.foldlM f acc).run state (Settles (invariant []) failed) := by
  induction items generalizing acc state with
  | nil => exact start
  | cons item rest ih =>
      rw [List.foldlM_cons]
      refine wp_seq monotone (body item rest acc state start) ?_ ?_
      · intro next after kept
        exact ih next after kept
      · intro failure after stopped
        exact stopped

end Fallible

end Interaction

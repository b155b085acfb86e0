import PgRaggraph.Library.Interaction

/-! Runs in which some calls are answered with a fault.

`sound` answers every call; `faulty` answers the calls that are not `calm` with an error that
`fault` recognises. A program surfaces its faults if a run that meets one ends with one. -/

namespace Interaction

variable {S : Signature} {α β σ ε φ : Type}

def Handler.within (handler : Handler S σ ε) (calm : S.Call → σ → Prop) : Spec S σ :=
  fun request state post => calm request state ∧ handler.spec request state post

structure Faulting (S : Signature) (σ ε φ : Type) where
  sound : Handler S σ ε
  faulty : Handler S σ ε
  calm : S.Call → σ → Prop
  fault : φ → Prop
  alike : ∀ request state, calm request state → faulty request state = sound request state

namespace Faulting

open Program

variable (f : Faulting S σ ε φ)

/-- The sound run meets calm calls only. -/
def Undisturbed (p : Program S α) (state : σ) : Prop :=
  wp (f.sound.within f.calm) p state (fun _ _ => True)

structure Surfaces (p : Fallible S φ α) : Prop where
  quiet : ∀ state e after, run f.sound p.run state = .ok (.error e, after) → ¬ f.fault e
  surfaced : ∀ state, f.Undisturbed p.run state ∨
    ∃ e after, f.fault e ∧ run f.faulty p.run state = .ok (.error e, after)

variable {f}

theorem wp_within (p : Program S α) (state : σ) (post : α → σ → Prop) :
    wp (f.sound.within f.calm) p state post ↔
      f.Undisturbed p state ∧ wp f.sound.spec p state post := by
  induction p generalizing state with
  | done value => exact (iff_of_eq (true_and _)).symm
  | call request next ih =>
      simp only [Undisturbed] at ih
      simp only [Undisturbed, wp, Handler.within, Handler.spec, Handler.guarantee, ih, and_assoc]
      cases f.sound request state with
      | ok reply => simp
      | error failure => simp

theorem Undisturbed.run_eq {p : Program S α} {state : σ} (undisturbed : f.Undisturbed p state) :
    run f.faulty p state = run f.sound p state := by
  induction p generalizing state with
  | done value => rfl
  | call request next ih =>
      rcases undisturbed with ⟨calm, continues⟩
      simp only [run, Handler.spec, Handler.guarantee, f.alike request state calm] at continues ⊢
      cases answered : f.sound request state with
      | ok reply =>
          rw [answered] at continues
          exact ih reply.1 continues
      | error failure => rfl

theorem Undisturbed.bind {p : Program S α} {g : α → Program S β} {state : σ}
    (first : f.Undisturbed p state)
    (next : ∀ value after, run f.sound p state = .ok (value, after) → f.Undisturbed (g value) after) :
    f.Undisturbed (p >>= g) state := by
  rw [Undisturbed, wp_bind, wp_within]
  exact ⟨first, (wp_run _ _ _ _).mpr next⟩

theorem lift_bind (p : Program S α) (g : α → Fallible S φ β) :
    (ExceptT.lift p >>= g).run = p >>= fun value => (g value).run := by
  change Program.bind (Program.bind p (fun value => .done (.ok value))) (ExceptT.bindCont g) =
    Program.bind p (fun value => (g value).run)
  induction p with
  | done value => rfl
  | call request next ih =>
      simp only [Program.bind, Program.call.injEq, heq_eq_eq, true_and]
      funext answer
      exact ih answer

namespace Surfaces

/-- The two runs differ exactly where a call is disturbed. -/
theorem run_eq_iff {p : Fallible S φ α} (surfaces : f.Surfaces p) (state : σ) :
    run f.faulty p.run state = run f.sound p.run state ↔ f.Undisturbed p.run state := by
  constructor
  · intro same
    rcases surfaces.surfaced state with undisturbed | ⟨e, after, fault, ended⟩
    · exact undisturbed
    · exact absurd fault (surfaces.quiet state e after (same ▸ ended))
  · exact Undisturbed.run_eq

theorem pure (value : α) : f.Surfaces (pure value : Fallible S φ α) where
  quiet := fun state e after ended => by cases ended
  surfaced := fun state => .inl trivial

theorem throw {e : φ} (other : ¬ f.fault e) : f.Surfaces (throw e : Fallible S φ α) where
  quiet := by
    intro state e' after ended
    cases ended
    exact other
  surfaced := fun state => .inl trivial

theorem ofExcept {result : Except φ α} (other : ∀ e, result = .error e → ¬ f.fault e) :
    f.Surfaces (Fallible.ofExcept result) := by
  cases result with
  | ok value => exact pure value
  | error e => exact throw (other e rfl)

theorem perform (request : S.Call) (g : S.Answer request → Except φ α)
    (quiet : ∀ state answer after e, f.sound request state = .ok (answer, after) →
      g answer = .error e → ¬ f.fault e)
    (surfaced : ∀ state, f.calm request state ∨
      ∃ answer after e, f.faulty request state = .ok (answer, after) ∧ g answer = .error e ∧
        f.fault e) :
    f.Surfaces (ExceptT.mk (Program.perform request >>= fun answer => .done (g answer))) where
  quiet := by
    intro state e after ended
    change run f.sound (.call request (fun answer => .done (g answer))) state = _ at ended
    rw [run] at ended
    cases answered : f.sound request state with
    | error failure =>
        rw [answered] at ended
        cases ended
    | ok reply =>
        rw [answered] at ended
        simp only [run, Except.ok.injEq, Prod.mk.injEq] at ended
        exact quiet state reply.1 reply.2 e answered ended.1
  surfaced := by
    intro state
    rcases surfaced state with calm | ⟨answer, after, e, answered, failed, fault⟩
    · left
      refine ⟨calm, ?_⟩
      simp only [Handler.spec, Handler.guarantee]
      cases f.sound request state with
      | ok reply => trivial
      | error failure => trivial
    · right
      refine ⟨e, after, fault, ?_⟩
      change run f.faulty (.call request (fun answer => .done (g answer))) state = _
      rw [run, answered]
      simp only [run, failed]

theorem lift {p : Program S α} (calm : ∀ state, f.Undisturbed p state) :
    f.Surfaces (ExceptT.lift p : Fallible S φ α) where
  quiet := by
    intro state e after ended
    change run f.sound (p >>= fun value => Program.done (Except.ok value)) state = _ at ended
    rw [run_bind] at ended
    cases ran : run f.sound p state with
    | error failure =>
        rw [ran] at ended
        cases ended
    | ok reply =>
        rw [ran] at ended
        cases ended
  surfaced := fun state => .inl ((calm state).bind (fun _ _ _ => trivial))

theorem caught {p : Fallible S φ α} {g : Except φ α → Fallible S φ β} (first : f.Surfaces p)
    (next : ∀ result, (∀ e, result = .error e → ¬ f.fault e) → f.Surfaces (g result))
    (passed : ∀ e state, f.fault e →
      ∃ e' after, f.fault e' ∧ run f.faulty (g (.error e)).run state = .ok (.error e', after)) :
    f.Surfaces (ExceptT.lift p.run >>= g) where
  quiet := by
    intro state e after ended
    rw [lift_bind, run_bind] at ended
    cases ran : run f.sound p.run state with
    | error failure =>
        rw [ran] at ended
        cases ended
    | ok reply =>
        rw [ran] at ended
        refine (next reply.1 ?_).quiet reply.2 e after ended
        intro e' failed
        refine first.quiet state e' reply.2 ?_
        rw [ran, ← failed]
  surfaced := by
    intro state
    rw [lift_bind, run_bind]
    rcases first.surfaced state with undisturbed | ⟨e, after, fault, ended⟩
    · cases ran : run f.sound p.run state with
      | error failure =>
          refine .inl (undisturbed.bind ?_)
          intro result after finished
          rw [ran] at finished
          cases finished
      | ok reply =>
          have other : ∀ e, reply.1 = .error e → ¬ f.fault e := by
            intro e failed
            refine first.quiet state e reply.2 ?_
            rw [ran, ← failed]
          rcases (next reply.1 other).surfaced reply.2 with later | ended
          · refine .inl (undisturbed.bind ?_)
            intro result after finished
            rw [ran, Except.ok.injEq] at finished
            rw [finished] at later
            exact later
          · right
            rw [undisturbed.run_eq, ran]
            exact ended
    · right
      rw [ended]
      exact passed e after fault

theorem bind {p : Fallible S φ α} {g : α → Fallible S φ β} (first : f.Surfaces p)
    (next : ∀ value, f.Surfaces (g value)) : f.Surfaces (p >>= g) := by
  have handled : f.Surfaces (ExceptT.lift p.run >>= fun result =>
      ExceptT.mk (ExceptT.bindCont g result)) := by
    refine first.caught ?_ (fun e state fault => ⟨e, state, fault, rfl⟩)
    intro result other
    cases result with
    | ok value => exact next value
    | error e => exact throw (other e rfl)
  have same : p >>= g = (ExceptT.lift p.run >>= fun result =>
      ExceptT.mk (ExceptT.bindCont g result)) := by
    apply ExceptT.ext
    rw [lift_bind]
    rfl
  rw [same]
  exact handled

theorem foldlM {g : β → α → Fallible S φ β} (body : ∀ acc item, f.Surfaces (g acc item))
    (items : List α) (acc : β) : f.Surfaces (items.foldlM g acc) := by
  induction items generalizing acc with
  | nil => exact pure acc
  | cons item rest ih =>
      rw [List.foldlM_cons]
      exact (body acc item).bind ih

end Surfaces

end Faulting

end Interaction

import Mathlib.Init

/-!
# Programs over an interface of calls

A program is a finite tree of calls: each call names an operation of an
`Interface`, and the continuation receives the answer of that operation. The
same program can be run to completion by one handler, or be interleaved with
other programs one call at a time. Nothing here refers to a concrete interface.
-/

namespace Foundation

set_option autoImplicit false

/-- The operations a component offers and the type of answer of each one. -/
structure Interface where
  Call : Type
  Answer : Call → Type

inductive Program (I : Interface) (α : Type) : Type where
  | done (value : α) : Program I α
  | call (request : I.Call) (next : I.Answer request → Program I α) : Program I α

namespace Program

variable {I : Interface} {α β γ σ : Type}

def bind : Program I α → (α → Program I β) → Program I β
  | done value, rest => rest value
  | call request next, rest => call request fun answer => (next answer).bind rest

def perform (request : I.Call) : Program I (I.Answer request) :=
  call request done

def nextCall : Program I α → Option I.Call
  | done _ => none
  | call request _ => some request

def result : Program I α → Option α
  | done value => some value
  | call _ _ => none

theorem eq_done_of_result {program : Program I α} {value : α}
    (finished : program.result = some value) : program = done value := by
  cases program with
  | done other => exact congrArg done (Option.some.inj finished)
  | call request next => cases finished

instance : Monad (Program I) where
  pure := done
  bind := bind

theorem bind_done (program : Program I α) : program.bind done = program := by
  induction program with
  | done value => rfl
  | call request next ih =>
      simp only [bind]
      exact congrArg (call request) (funext ih)

theorem bind_assoc (program : Program I α) (first : α → Program I β)
    (second : β → Program I γ) :
    (program.bind first).bind second =
      program.bind fun value => (first value).bind second := by
  induction program with
  | done value => rfl
  | call request next ih =>
      simp only [bind]
      exact congrArg (call request) (funext ih)

instance : LawfulMonad (Program I) :=
  LawfulMonad.mk' (Program I) bind_done (fun _ _ => rfl) bind_assoc

/-- What each call answers and how it changes the state behind the interface. -/
abbrev Handler (I : Interface) (σ : Type) :=
  (request : I.Call) → σ → I.Answer request × σ

/-- Runs a program to completion with no other client of the state. -/
def run (handler : Handler I σ) : Program I α → σ → α × σ
  | done value, state => (value, state)
  | call request next, state =>
      (next (handler request state).1).run handler (handler request state).2

variable (handler : Handler I σ)

@[simp] theorem run_pure (value : α) (state : σ) :
    (pure value : Program I α).run handler state = (value, state) := rfl

@[simp] theorem run_perform (request : I.Call) (state : σ) :
    (perform request).run handler state = handler request state := rfl

@[simp] theorem run_bind (program : Program I α) (rest : α → Program I β) (state : σ) :
    (program >>= rest).run handler state =
      (rest (program.run handler state).1).run handler (program.run handler state).2 := by
  change (program.bind rest).run handler state = _
  induction program generalizing state with
  | done value => rfl
  | call request next ih => exact ih _ _

@[simp] theorem run_map (program : Program I α) (f : α → β) (state : σ) :
    (f <$> program).run handler state =
      (f (program.run handler state).1, (program.run handler state).2) :=
  run_bind handler program (fun value => pure (f value)) state

theorem run_mapM_cons (f : α → Program I β) (head : α) (tail : List α) (state : σ) :
    ((head :: tail).mapM f).run handler state =
      (((f head).run handler state).1 ::
          ((tail.mapM f).run handler ((f head).run handler state).2).1,
        ((tail.mapM f).run handler ((f head).run handler state).2).2) := by
  rw [List.mapM_cons]
  simp only [run_bind, run_pure]

theorem run_preserves {Inv : σ → Prop}
    (preserved : ∀ request state, Inv state → Inv (handler request state).2)
    (program : Program I α) {state : σ} (holds : Inv state) :
    Inv (program.run handler state).2 := by
  induction program generalizing state with
  | done value => exact holds
  | call request next ih => exact ih _ (preserved request state holds)

section Guarded

variable {first second : Handler I σ} {Guard : I.Call → σ → Prop}

/-- `Guard` holds of every call of a run, in the state the call is made in. -/
def GuardedRun (handler : Handler I σ) (Guard : I.Call → σ → Prop) : Program I α → σ → Prop
  | done _, _ => True
  | call request next, state =>
      Guard request state ∧
        GuardedRun handler Guard (next (handler request state).1) (handler request state).2

instance decidableGuardedRun [∀ request state, Decidable (Guard request state)] :
    ∀ (program : Program I α) (state : σ), Decidable (GuardedRun handler Guard program state)
  | done _, _ => isTrue trivial
  | call request next, state =>
      have := decidableGuardedRun (next (handler request state).1) (handler request state).2
      inferInstanceAs (Decidable (Guard request state ∧ _))

theorem run_eq_of_guarded
    (agree : ∀ request state, Guard request state → second request state = first request state)
    (program : Program I α) (state : σ) (guarded : GuardedRun first Guard program state) :
    program.run second state = program.run first state := by
  induction program generalizing state with
  | done value => rfl
  | call request next ih =>
      obtain ⟨here, later⟩ := guarded
      rw [run, run, agree request state here]
      exact ih _ _ later

end Guarded

section Calls

variable {Allowed : I.Call → Prop}

/-- Whatever the program is answered, each of its calls is `Allowed`. -/
def Calls (Allowed : I.Call → Prop) : Program I α → Prop
  | done _ => True
  | call request next => Allowed request ∧ ∀ answer, (next answer).Calls Allowed

theorem Calls.mono {Wider : I.Call → Prop} {program : Program I α}
    (calls : program.Calls Allowed) (wider : ∀ request, Allowed request → Wider request) :
    program.Calls Wider := by
  induction program with
  | done value => trivial
  | call request next ih => exact ⟨wider request calls.1, fun answer => ih answer (calls.2 answer)⟩

theorem calls_pure (value : α) : (pure value : Program I α).Calls Allowed := trivial

theorem calls_perform {request : I.Call} (allowed : Allowed request) :
    (perform request).Calls Allowed := ⟨allowed, fun _ => trivial⟩

theorem calls_bind {program : Program I α} {rest : α → Program I β}
    (first : program.Calls Allowed) (second : ∀ value, (rest value).Calls Allowed) :
    (program >>= rest).Calls Allowed := by
  change (program.bind rest).Calls Allowed
  induction program with
  | done value => exact second value
  | call request next ih => exact ⟨first.1, fun answer => ih answer (first.2 answer)⟩

theorem Calls.run_preserves {handler : Handler I σ} {Inv : σ → Prop} {program : Program I α}
    (calls : program.Calls Allowed)
    (preserved : ∀ request state, Allowed request → Inv state → Inv (handler request state).2)
    {state : σ} (holds : Inv state) : Inv (program.run handler state).2 := by
  induction program generalizing state with
  | done value => exact holds
  | call request next ih =>
      exact ih _ (calls.2 _) (preserved request state calls.1 holds)

end Calls

section Returns

variable {Post : α → Prop}

/-- Whatever its calls are answered, the program can end only with a value in `Post`. -/
def Returns (Post : α → Prop) : Program I α → Prop
  | done value => Post value
  | call _ next => ∀ answer, (next answer).Returns Post

theorem returns_bind {program : Program I α} {rest : α → Program I β} {Last : β → Prop}
    (first : program.Returns Post) (second : ∀ value, Post value → (rest value).Returns Last) :
    (program >>= rest).Returns Last := by
  change (program.bind rest).Returns Last
  induction program with
  | done value => exact second value first
  | call request next ih => exact fun answer => ih answer (first answer)

theorem Returns.bind_congr {program : Program I α} {first second : α → Program I β}
    (returns : program.Returns Post) (agree : ∀ value, Post value → first value = second value) :
    program >>= first = program >>= second := by
  change program.bind first = program.bind second
  induction program with
  | done value => exact agree value returns
  | call request next ih =>
      simp only [bind]
      exact congrArg (call request) (funext fun answer => ih answer (returns answer))

end Returns

section Transcripts

/-- The calls of a sequence together with what each of them answers. -/
def Handler.transcript (handler : Handler I σ) : List I.Call → σ → List (Sigma I.Answer)
  | [], _ => []
  | request :: rest, state =>
      ⟨request, (handler request state).1⟩ :: transcript handler rest (handler request state).2

variable {τ : Type} {concrete : Handler I σ} {abstract : Handler I τ}
  {Related : σ → τ → Prop} {Allowed : I.Call → Prop}

/-- Two handlers that answer alike from related states, and stay related, have one transcript. -/
theorem transcript_eq_of_simulation
    (simulates : ∀ request state specified, Allowed request → Related state specified →
      (concrete request state).1 = (abstract request specified).1 ∧
        Related (concrete request state).2 (abstract request specified).2)
    (requests : List I.Call) (allowed : ∀ request ∈ requests, Allowed request)
    {state : σ} {specified : τ} (related : Related state specified) :
    concrete.transcript requests state = abstract.transcript requests specified := by
  induction requests generalizing state specified with
  | nil => rfl
  | cons request rest ih =>
      obtain ⟨answers, stillRelated⟩ :=
        simulates request state specified (allowed request List.mem_cons_self) related
      have restAllowed : ∀ later ∈ rest, Allowed later :=
        fun later member => allowed later (List.mem_cons_of_mem request member)
      rw [Handler.transcript, Handler.transcript, answers, ih restAllowed stillRelated]

end Transcripts

end Program

end Foundation

import Relevanced.Foundation.Program

/-!
# Layers of components

A component that offers one interface and is written against another one: each of its
operations is a program of calls of the lower interface. Where one handler of the lower
interface simulates another, the component on top of the first simulates the component on
top of the second, and simulations follow one another.
-/

namespace Foundation

namespace Program

set_option autoImplicit false

variable {I J : Interface} {α σ τ υ : Type}

/-- From related states the two handlers answer allowed calls alike and stay related. -/
def Simulates (concrete : Handler I σ) (abstract : Handler I τ) (Allowed : I.Call → Prop)
    (Related : σ → τ → Prop) : Prop :=
  ∀ request state specified, Allowed request → Related state specified →
    (concrete request state).1 = (abstract request specified).1 ∧
      Related (concrete request state).2 (abstract request specified).2

/-- A component whose operations are programs over the handler. -/
def Handler.layered (handler : Handler I σ)
    (method : (request : J.Call) → Program I (J.Answer request)) : Handler J σ :=
  fun request state => (method request).run handler state

variable {concrete : Handler I σ} {abstract : Handler I τ} {specification : Handler I υ}
  {Allowed : I.Call → Prop} {Related : σ → τ → Prop} {Refined : τ → υ → Prop}

namespace Simulates

theorem run (simulates : Simulates concrete abstract Allowed Related) {program : Program I α}
    (calls : program.Calls Allowed) {state : σ} {specified : τ}
    (related : Related state specified) :
    (program.run concrete state).1 = (program.run abstract specified).1 ∧
      Related (program.run concrete state).2 (program.run abstract specified).2 := by
  induction program generalizing state specified with
  | done value => exact ⟨rfl, related⟩
  | call request next ih =>
      obtain ⟨allowed, later⟩ := calls
      obtain ⟨answers, stillRelated⟩ := simulates request state specified allowed related
      have rest := ih (concrete request state).1 (later _) stillRelated
      rw [Program.run, Program.run, ← answers]
      exact rest

theorem layered (simulates : Simulates concrete abstract Allowed Related)
    {method : (request : J.Call) → Program I (J.Answer request)} {Above : J.Call → Prop}
    (calls : ∀ request, Above request → (method request).Calls Allowed) :
    Simulates (concrete.layered method) (abstract.layered method) Above Related :=
  fun request _ _ above related => simulates.run (calls request above) related

theorem trans (first : Simulates concrete abstract Allowed Related)
    (second : Simulates abstract specification Allowed Refined) :
    Simulates concrete specification Allowed fun state refined =>
      ∃ specified, Related state specified ∧ Refined specified refined := by
  rintro request state refined allowed ⟨specified, related, isRefined⟩
  obtain ⟨answers, stillRelated⟩ := first request state specified allowed related
  obtain ⟨same, stillRefined⟩ := second request specified refined allowed isRefined
  exact ⟨answers.trans same, _, stillRelated, stillRefined⟩

theorem transcript (simulates : Simulates concrete abstract Allowed Related)
    (requests : List I.Call) (allowed : ∀ request ∈ requests, Allowed request) {state : σ}
    {specified : τ} (related : Related state specified) :
    concrete.transcript requests state = abstract.transcript requests specified :=
  transcript_eq_of_simulation simulates requests allowed related

end Simulates

section Sequences

variable (handler : Handler I σ)

def Handler.final : List I.Call → σ → σ
  | [], state => state
  | request :: rest, state => final rest (handler request state).2

theorem Simulates.final (simulates : Simulates concrete abstract Allowed Related)
    (requests : List I.Call) (allowed : ∀ request ∈ requests, Allowed request) {state : σ}
    {specified : τ} (related : Related state specified) :
    Related (concrete.final requests state) (abstract.final requests specified) := by
  induction requests generalizing state specified with
  | nil => exact related
  | cons request rest ih =>
      have answered :=
        simulates request state specified (allowed request List.mem_cons_self) related
      exact ih (fun later member => allowed later (List.mem_cons_of_mem request member)) answered.2

theorem transcript_append (first second : List I.Call) (state : σ) :
    handler.transcript (first ++ second) state =
      handler.transcript first state ++ handler.transcript second (handler.final first state) := by
  induction first generalizing state with
  | nil => rfl
  | cons request rest ih =>
      rw [List.cons_append, Handler.transcript, Handler.transcript, Handler.final, ih]
      rfl

theorem length_transcript (requests : List I.Call) (state : σ) :
    (handler.transcript requests state).length = requests.length := by
  induction requests generalizing state with
  | nil => rfl
  | cons request rest ih => rw [Handler.transcript, List.length_cons, List.length_cons, ih]

theorem answered_in_some_state {requests : List I.Call} {state : σ} {entry : Sigma I.Answer}
    (member : entry ∈ handler.transcript requests state) :
    ∃ found, entry = ⟨entry.1, (handler entry.1 found).1⟩ := by
  induction requests generalizing state with
  | nil => cases member
  | cons request rest ih =>
      rcases List.mem_cons.mp member with here | later
      · rw [here]
        exact ⟨state, rfl⟩
      · exact ih later

theorem final_preserves {Inv : σ → Prop} {Allowed : I.Call → Prop}
    (preserved : ∀ request state, Allowed request → Inv state → Inv (handler request state).2)
    (requests : List I.Call) (allowed : ∀ request ∈ requests, Allowed request) {state : σ}
    (holds : Inv state) : Inv (handler.final requests state) := by
  induction requests generalizing state with
  | nil => exact holds
  | cons request rest ih =>
      exact ih (fun later member => allowed later (List.mem_cons_of_mem request member))
        (preserved request state (allowed request List.mem_cons_self) holds)

theorem answers_of_mapM {γ δ : Type} {handler : Handler I σ} {step : γ → Program I δ}
    {Post : δ → Prop} (each : ∀ item state, Post ((step item).run handler state).1)
    (items : List γ) (state : σ) :
    ∀ answer ∈ ((items.mapM step).run handler state).1, Post answer := by
  induction items generalizing state with
  | nil => exact nofun
  | cons item items ih =>
      rw [run_mapM_cons]
      exact List.forall_mem_cons.mpr ⟨each item state, ih _⟩

end Sequences

end Program

end Foundation

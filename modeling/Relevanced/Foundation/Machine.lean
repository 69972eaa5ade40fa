import Mathlib.Init

/-!
# Runs of partial state machines

A machine takes one action at a time, and an action may be disabled in a state.
A run is the list of its actions. What one step preserves is lifted here to whole
runs, with conditions on the actions, on the steps, or on neither.
-/

namespace Foundation

set_option autoImplicit false

/-- The next state for each action, and none where the action is disabled. -/
structure Machine (σ A : Type) where
  step : σ → A → Option σ

namespace Machine

variable {σ A : Type} (machine : Machine σ A)

/-- The state a run ends in. -/
def exec : List A → σ → Option σ
  | [], state => some state
  | action :: rest, state => (machine.step state action).bind (exec rest)

/-- `P` holds of every state a run passes through, its two ends included. -/
def Along (P : σ → Prop) : List A → σ → Prop
  | [], state => P state
  | action :: rest, state =>
      P state ∧ ∀ next, machine.step state action = some next → Along P rest next

/-- `Guard` holds of every step of a run, in the state the step is taken in. -/
def Guarded (Guard : σ → A → Prop) : List A → σ → Prop
  | [], _ => True
  | action :: rest, state =>
      Guard state action ∧
        ∀ next, machine.step state action = some next → Guarded Guard rest next

variable {machine} {P : σ → Prop} {Guard : σ → A → Prop} {Allowed : A → Prop}

instance decidableGuarded [∀ state action, Decidable (Guard state action)] :
    ∀ actions state, Decidable (machine.Guarded Guard actions state)
  | [], _ => isTrue trivial
  | action :: rest, state =>
      have : ∀ next, Decidable (machine.Guarded Guard rest next) := decidableGuarded rest
      inferInstanceAs (Decidable (Guard state action ∧
        ∀ next ∈ machine.step state action, machine.Guarded Guard rest next))

theorem exec_cons {action : A} {rest : List A} {state last : σ}
    (executed : machine.exec (action :: rest) state = some last) :
    ∃ next, machine.step state action = some next ∧ machine.exec rest next = some last :=
  Option.bind_eq_some_iff.mp executed

theorem exec_of_step {action : A} {state next : σ} (stepped : machine.step state action = some next)
    (rest : List A) : machine.exec (action :: rest) state = machine.exec rest next := by
  rw [exec, stepped, Option.bind_some]

theorem guarded_of_step {action : A} {rest : List A} {state next : σ} (guard : Guard state action)
    (stepped : machine.step state action = some next) (guarded : machine.Guarded Guard rest next) :
    machine.Guarded Guard (action :: rest) state := by
  refine ⟨guard, ?_⟩
  intro other also
  rw [stepped] at also
  cases also
  exact guarded

theorem exec_append (first second : List A) (state : σ) :
    machine.exec (first ++ second) state =
      (machine.exec first state).bind (machine.exec second) := by
  induction first generalizing state with
  | nil => rfl
  | cons action rest ih =>
      rw [List.cons_append, exec, exec]
      cases machine.step state action with
      | none => rfl
      | some next => exact ih next

theorem invariant_of_allowed
    (preserved : ∀ state action next, P state → Allowed action →
      machine.step state action = some next → P next)
    (actions : List A) (allowed : ∀ action ∈ actions, Allowed action) {state last : σ}
    (holds : P state) (executed : machine.exec actions state = some last) : P last := by
  induction actions generalizing state with
  | nil =>
      cases executed
      exact holds
  | cons action rest ih =>
      obtain ⟨next, stepped, remaining⟩ := exec_cons executed
      have stillHolds :=
        preserved state action next holds (allowed action List.mem_cons_self) stepped
      exact ih (fun later member => allowed later (List.mem_cons_of_mem action member)) stillHolds
        remaining

theorem along_start {actions : List A} {state : σ} (along : machine.Along P actions state) :
    P state := by
  cases actions with
  | nil => exact along
  | cons action rest => exact along.1

theorem along_last {actions : List A} {state last : σ} (along : machine.Along P actions state)
    (executed : machine.exec actions state = some last) : P last := by
  induction actions generalizing state with
  | nil =>
      cases executed
      exact along
  | cons action rest ih =>
      obtain ⟨next, stepped, remaining⟩ := exec_cons executed
      exact ih (along.2 next stepped) remaining

theorem along_append {first second : List A} {state middle : σ}
    (before : machine.Along P first state) (executed : machine.exec first state = some middle)
    (after : machine.Along P second middle) : machine.Along P (first ++ second) state := by
  induction first generalizing state with
  | nil =>
      cases executed
      exact after
  | cons action rest ih =>
      obtain ⟨next, stepped, remaining⟩ := exec_cons executed
      refine ⟨before.1, ?_⟩
      intro other alsoStepped
      rw [stepped] at alsoStepped
      cases alsoStepped
      exact ih (before.2 next stepped) remaining

theorem Along.mono {Weaker : σ → Prop} {actions : List A} {state : σ}
    (along : machine.Along P actions state) (weaker : ∀ state, P state → Weaker state) :
    machine.Along Weaker actions state := by
  induction actions generalizing state with
  | nil => exact weaker state along
  | cons action rest ih =>
      exact ⟨weaker state along.1, fun next stepped => ih (along.2 next stepped)⟩

theorem along_of_always (always : ∀ state, P state) (actions : List A) (state : σ) :
    machine.Along P actions state := by
  induction actions generalizing state with
  | nil => exact always state
  | cons action rest ih => exact ⟨always state, fun next _ => ih next⟩

theorem along_of_preserved
    (preserved : ∀ state action next, P state → machine.step state action = some next → P next)
    (actions : List A) {state : σ} (holds : P state) : machine.Along P actions state := by
  induction actions generalizing state with
  | nil => exact holds
  | cons action rest ih =>
      exact ⟨holds, fun next stepped => ih (preserved state action next holds stepped)⟩

theorem Guarded.mono {Weaker : σ → A → Prop} {actions : List A} {state : σ}
    (guarded : machine.Guarded Guard actions state)
    (weaker : ∀ state action, Guard state action → Weaker state action) :
    machine.Guarded Weaker actions state := by
  induction actions generalizing state with
  | nil => exact guarded
  | cons action rest ih =>
      exact ⟨weaker state action guarded.1, fun next stepped => ih (guarded.2 next stepped)⟩

theorem guarded_of_always {actions : List A}
    (always : ∀ action ∈ actions, ∀ state, Guard state action) (state : σ) :
    machine.Guarded Guard actions state := by
  induction actions generalizing state with
  | nil => trivial
  | cons action rest ih =>
      refine ⟨always action List.mem_cons_self state, ?_⟩
      intro next _
      exact ih (fun later member => always later (List.mem_cons_of_mem action member)) next

theorem guarded_append {first second : List A} {state : σ}
    (before : machine.Guarded Guard first state)
    (after : ∀ middle, machine.exec first state = some middle →
      machine.Guarded Guard second middle) :
    machine.Guarded Guard (first ++ second) state := by
  induction first generalizing state with
  | nil => exact after state rfl
  | cons action rest ih =>
      refine ⟨before.1, ?_⟩
      intro next stepped
      apply ih (before.2 next stepped)
      intro middle executed
      exact after middle ((exec_of_step stepped rest).trans executed)

/-- Where a step is one of another machine, or none, what the steps of that machine preserve
holds of an image of the next state, too. -/
theorem simulated_of_step {τ B : Type} {abstract : Machine τ B} {Related : σ → τ → Prop}
    {Invariant : τ → Prop} {state next : σ}
    (simulates : ∀ image, Related state image →
      ∃ after, (after = image ∨ ∃ move, abstract.step image move = some after) ∧ Related next after)
    (preserved : ∀ image move after, Invariant image → abstract.step image move = some after →
      Invariant after)
    (simulated : ∃ image, Related state image ∧ Invariant image) :
    ∃ image, Related next image ∧ Invariant image := by
  obtain ⟨image, related, invariant⟩ := simulated
  obtain ⟨after, same | ⟨move, moved⟩, stillRelated⟩ := simulates image related
  · subst same
    exact ⟨after, stillRelated, invariant⟩
  · exact ⟨after, stillRelated, preserved image move after invariant moved⟩

theorem along_of_guarded {Invariant : σ → Prop}
    (preserved : ∀ state action next, Invariant state → Allowed action → Guard state action →
      machine.step state action = some next → Invariant next)
    (implies : ∀ state, Invariant state → P state) (actions : List A)
    (allowed : ∀ action ∈ actions, Allowed action) {state : σ} (invariant : Invariant state)
    (guarded : machine.Guarded Guard actions state) : machine.Along P actions state := by
  induction actions generalizing state with
  | nil => exact implies state invariant
  | cons action rest ih =>
      refine ⟨implies state invariant, ?_⟩
      intro next stepped
      have kept := preserved state action next invariant (allowed action List.mem_cons_self)
        guarded.1 stepped
      exact ih (fun later member => allowed later (List.mem_cons_of_mem action member)) kept
        (guarded.2 next stepped)

/-- When, from a state with the invariant, exactly the guarded steps lead to a state in which
`P` holds, and these keep the invariant, `P` holds in every state of a run exactly when each
step is guarded. -/
theorem along_iff_guarded_of_kept {Invariant : σ → Prop}
    (preserved : ∀ state action next, Invariant state → Allowed action → Guard state action →
      machine.step state action = some next → Invariant next)
    (implies : ∀ state, Invariant state → P state)
    (exactly : ∀ state action, Invariant state → Allowed action →
      ((∀ next, machine.step state action = some next → P next) ↔ Guard state action))
    (actions : List A) (allowed : ∀ action ∈ actions, Allowed action) {state : σ}
    (invariant : Invariant state) :
    machine.Along P actions state ↔ machine.Guarded Guard actions state := by
  refine ⟨?_, along_of_guarded preserved implies actions allowed invariant⟩
  intro along
  induction actions generalizing state with
  | nil => trivial
  | cons action rest ih =>
      have actionAllowed := allowed action List.mem_cons_self
      have guarded := (exactly state action invariant actionAllowed).mp
        fun next stepped => along_start (along.2 next stepped)
      refine ⟨guarded, ?_⟩
      intro next stepped
      exact ih (fun later member => allowed later (List.mem_cons_of_mem action member))
        (preserved state action next invariant actionAllowed guarded stepped) (along.2 next stepped)

theorem along_iff_guarded {Invariant : σ → Prop}
    (preserved : ∀ state action next, Invariant state → Allowed action →
      machine.step state action = some next → Invariant next)
    (exactly : ∀ state action, Invariant state → Allowed action → P state →
      ((∀ next, machine.step state action = some next → P next) ↔ Guard state action))
    (actions : List A) (allowed : ∀ action ∈ actions, Allowed action) {state : σ}
    (invariant : Invariant state) (holds : P state) :
    machine.Along P actions state ↔ machine.Guarded Guard actions state := by
  refine @along_iff_guarded_of_kept σ A machine P Guard Allowed
    (fun state => Invariant state ∧ P state) ?_ ?_ ?_ actions allowed state ⟨invariant, holds⟩
  · rintro state action next ⟨kept, before⟩ actionAllowed guarded stepped
    exact ⟨preserved state action next kept actionAllowed stepped,
      (exactly state action kept actionAllowed before).mpr guarded next stepped⟩
  · exact fun _ both => both.2
  · rintro state action ⟨kept, before⟩ actionAllowed
    exact exactly state action kept actionAllowed before

end Machine

end Foundation

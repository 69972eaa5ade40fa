import Relevanced.CentroidUpdate.Exclusion

/-!
# Where a registered callback can be

A callback waits in the table under the id it was registered for, is carried by the
call of `update` that has collected it, or has been invoked.
-/

namespace Relevanced.CentroidUpdate

open Foundation
open Persistence (Try)

set_option autoImplicit false

/-- The callbacks a call of `update` has collected and not yet invoked. -/
def Stage.forCentroidCbs {R : Type} : Stage R → List Nat
  | .collected forCentroidCbs _ => forCentroidCbs
  | _ => []

def Stage.isBroadcast {R : Type} : Stage R → Bool
  | .broadcast _ => true
  | _ => false

variable {T R : Type}

/-- A property of the callbacks in the table, and one of those taken out of it. -/
structure CallbacksSatisfy (Pending : T → Nat → Prop) (Taken : Nat → Prop) (worker : Worker T R) :
    Prop where
  pending : ∀ id, ∀ callback ∈ worker.callbacks.pending id, Pending id callback
  collected : Each (fun _ stage => ∀ callback ∈ stage.forCentroidCbs, Taken callback)
    worker.attempts
  invoked : ∀ callback ∈ worker.callbacks.invoked, Taken callback

variable {Pending : T → Nat → Prop} {Taken : Nat → Prop} {worker next : Worker T R} {index : Nat}
  {id : T} {stage later : Stage R}

theorem Quiet.forCentroidCbs_subset {stopping : Bool} (quiet : Quiet stopping stage later) :
    later.forCentroidCbs = [] := by
  cases quiet with
  | _ => rfl

theorem CallbacksSatisfy.mono {More : T → Nat → Prop} {Wider : Nat → Prop}
    (satisfy : CallbacksSatisfy Pending Taken worker)
    (pending : ∀ id callback, Pending id callback → More id callback)
    (taken : ∀ callback, Taken callback → Wider callback) :
    CallbacksSatisfy More Wider worker where
  pending id callback member := pending id callback (satisfy.pending id callback member)
  collected := satisfy.collected.mono fun _ _ each callback member =>
    taken callback (each callback member)
  invoked callback member := taken callback (satisfy.invoked callback member)

theorem CallbacksSatisfy.update (satisfy : CallbacksSatisfy Pending Taken worker) (id : T) :
    CallbacksSatisfy Pending Taken (worker.update id) where
  pending := satisfy.pending
  collected := satisfy.collected.append fun callback member => by cases member
  invoked := satisfy.invoked

theorem CallbacksSatisfy.move (satisfy : CallbacksSatisfy Pending Taken worker)
    (empty : later.forCentroidCbs = []) :
    CallbacksSatisfy Pending Taken (worker.moveTo index id later) where
  pending := satisfy.pending
  collected := by
    apply satisfy.collected.set
    rw [empty]
    intro callback member
    cases member
  invoked := satisfy.invoked

variable [DecidableEq T]

theorem CallbacksSatisfy.register (satisfy : CallbacksSatisfy Pending Taken worker) (id : T)
    (new : Pending id worker.callbacks.registered) :
    CallbacksSatisfy Pending Taken (worker.joinUpdate id) := by
  have registered : CallbacksSatisfy Pending Taken (worker.onUpdateSpecificOnce id) := by
    refine ⟨?_, satisfy.collected, satisfy.invoked⟩
    intro other callback member
    change callback ∈ Function.update worker.callbacks.pending id
      (worker.callbacks.pending id ++ [worker.callbacks.registered]) other at member
    by_cases same : other = id
    · subst same
      rw [Function.update_self] at member
      rcases List.mem_append.mp member with before | added
      · exact satisfy.pending other callback before
      · rw [List.mem_singleton.mp added]
        exact new
    · rw [Function.update_of_ne same] at member
      exact satisfy.pending other callback member
  exact registered.update id

/-- Callbacks leave the table only when a call that has echoed its run collects them. -/
theorem CallbacksSatisfy.advance (satisfy : CallbacksSatisfy Pending Taken worker)
    (found : worker.attempts[index]? = some ⟨id, stage⟩)
    (advanced : Advance worker index id stage next)
    (collects : stage.isBroadcast = true → ∀ callback, Pending id callback → Taken callback) :
    CallbacksSatisfy Pending Taken next := by
  cases advanced with
  | guard free => exact ⟨satisfy.pending, (satisfy.move rfl).collected, satisfy.invoked⟩
  | skip held => exact satisfy.move rfl
  | release result => exact ⟨satisfy.pending, (satisfy.move rfl).collected, satisfy.invoked⟩
  | echo value => exact ⟨satisfy.pending, (satisfy.move rfl).collected, satisfy.invoked⟩
  | collect result =>
      refine ⟨?_, ?_, satisfy.invoked⟩
      · intro other callback member
        change callback ∈ Function.update worker.callbacks.pending id [] other at member
        by_cases same : other = id
        · subst same
          rw [Function.update_self] at member
          cases member
        · rw [Function.update_of_ne same] at member
          exact satisfy.pending other callback member
      · apply satisfy.collected.set
        intro callback member
        exact collects rfl callback (satisfy.pending id callback member)
  | invoke callback rest result =>
      have carried := satisfy.collected index id _ found
      refine ⟨satisfy.pending, ?_, ?_⟩
      · apply satisfy.collected.set
        intro other member
        exact carried other (List.mem_cons_of_mem callback member)
      · intro other member
        rcases List.mem_cons.mp member with same | before
        · subst same
          exact carried other List.mem_cons_self
        · exact satisfy.invoked other before
  | quiet stage later numInProgress moves =>
      exact ⟨satisfy.pending, (satisfy.move moves.forCentroidCbs_subset).collected,
        satisfy.invoked⟩

/-- Every callback anywhere has been registered. -/
def CallbacksKnown (worker : Worker T R) : Prop :=
  CallbacksSatisfy (fun _ callback => callback < worker.callbacks.registered)
    (fun callback => callback < worker.callbacks.registered) worker

theorem advance_registered (advanced : Advance worker index id stage next) :
    next.callbacks.registered = worker.callbacks.registered := by
  cases advanced with
  | _ => rfl

theorem CallbacksKnown.advance (known : CallbacksKnown worker)
    (found : worker.attempts[index]? = some ⟨id, stage⟩)
    (advanced : Advance worker index id stage next) : CallbacksKnown next := by
  unfold CallbacksKnown
  rw [advance_registered advanced]
  exact CallbacksSatisfy.advance known found advanced fun _ _ registered => registered

theorem CallbacksKnown.joinUpdate (known : CallbacksKnown worker) (id : T) :
    CallbacksKnown (worker.joinUpdate id) := by
  have wider := CallbacksSatisfy.mono known
    (fun _ callback registered => Nat.lt_succ_of_lt registered)
    (fun callback registered => Nat.lt_succ_of_lt registered)
  exact wider.register id (Nat.lt_succ_self _)

/-- The callback was registered for the id, and where it has been taken out of the table the
fact it waits for holds. -/
structure CallbackOwed (worker : Worker T R) (fact : Prop) (id : T) (callback : Nat) : Prop where
  registered : callback < worker.callbacks.registered
  places : CallbacksSatisfy (fun other place => place = callback → other = id)
    (fun place => place = callback → fact) worker

theorem callback_owed_of_join (known : CallbacksKnown worker) (fact : Prop) (id : T) :
    CallbackOwed (worker.joinUpdate id) fact id worker.callbacks.registered where
  registered := Nat.lt_succ_self _
  places := by
    have fresh : CallbacksSatisfy
        (fun other place => place = worker.callbacks.registered → other = id)
        (fun place => place = worker.callbacks.registered → fact) worker :=
      CallbacksSatisfy.mono known
        (fun _ callback registered same => absurd same (Nat.ne_of_lt registered))
        (fun callback registered same => absurd same (Nat.ne_of_lt registered))
    exact fresh.register id fun _ => rfl

omit [DecidableEq T] in
theorem CallbackOwed.mono {fact weaker : Prop} {callback : Nat}
    (owed : CallbackOwed worker fact id callback) (implies : fact → weaker) :
    CallbackOwed worker weaker id callback where
  registered := owed.registered
  places := owed.places.mono (fun _ _ owned => owned) fun _ taken same => implies (taken same)

omit [DecidableEq T] in
theorem CallbackOwed.update {fact : Prop} {callback : Nat}
    (owed : CallbackOwed worker fact id callback) (other : T) :
    CallbackOwed (worker.update other) fact id callback where
  registered := owed.registered
  places := owed.places.update other

omit [DecidableEq T] in
theorem CallbackOwed.move {fact : Prop} {owner : T} {callback : Nat}
    (owed : CallbackOwed worker fact owner callback) (empty : later.forCentroidCbs = []) :
    CallbackOwed (worker.moveTo index id later) fact owner callback where
  registered := owed.registered
  places := owed.places.move empty

theorem CallbackOwed.advance {fact : Prop} {owner : T} {callback : Nat}
    (owed : CallbackOwed worker fact owner callback)
    (found : worker.attempts[index]? = some ⟨id, stage⟩)
    (advanced : Advance worker index id stage next)
    (holds : id = owner → stage.isBroadcast = true → fact) :
    CallbackOwed next fact owner callback where
  registered := by
    rw [advance_registered advanced]
    exact owed.registered
  places := owed.places.advance found advanced fun broadcast _ owned same =>
    holds (owned same) broadcast

theorem CallbackOwed.joinUpdate {fact : Prop} {callback : Nat}
    (owed : CallbackOwed worker fact id callback) (other : T) :
    CallbackOwed (worker.joinUpdate other) fact id callback where
  registered := Nat.lt_succ_of_lt owed.registered
  places := owed.places.register other fun same =>
    absurd same (Nat.ne_of_gt owed.registered)

end Relevanced.CentroidUpdate

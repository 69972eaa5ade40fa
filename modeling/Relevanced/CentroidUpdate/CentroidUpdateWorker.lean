import Mathlib.Data.Finset.Erase
import Mathlib.Data.Finset.Insert
import Relevanced.Foundation.Machine
import Relevanced.Persistence.SyncPersistence

/-!
# CentroidUpdateWorker

The worker's members and the calls of `update` in progress. Every access to
`stopping_`, `updatingSet_`, `numInProgress_` and the callback tables is one step, so
calls interleave between any two of them. What a run of `CentroidUpdater` does between
its start and its end is not determined here: `R` is what is known of its progress.
-/

namespace Relevanced.CentroidUpdate

open Foundation
open Persistence (Try ProtocolException)

set_option autoImplicit false

/-- How far one call of `update` has come. -/
inductive Stage (R : Type) where
  | called
  | queued
  | guarded (shouldUpdate : Bool)
  | admitted
  | running (progress : Option R)
  | ran (result : Try Bool)
  | delayed (result : Try Bool)
  | released (result : Try Bool)
  | broadcast (result : Try Bool)
  | collected (forCentroidCbs : List Nat) (result : Try Bool)
  | settled (result : Try Bool)
  | responded (result : Try Bool)
  | finished (result : Try Bool)
  | thrown

structure Attempt (T R : Type) where
  id : T
  stage : Stage R

/-- `perCentroidUpdateCallbacks_`, with every callback known by the order of its registration. -/
structure CallbackTable (T : Type) where
  pending : T → List Nat
  registered : Nat
  invoked : List Nat

namespace CallbackTable

variable {T : Type} [DecidableEq T]

def empty : CallbackTable T := ⟨fun _ => [], 0, []⟩

def onUpdateSpecificOnce (table : CallbackTable T) (id : T) : CallbackTable T :=
  { table with
    pending := Function.update table.pending id (table.pending id ++ [table.registered])
    registered := table.registered + 1 }

/-- The block of `echoUpdated` that moves the callbacks of one centroid out of the table. -/
def collect (table : CallbackTable T) (id : T) : CallbackTable T :=
  { table with pending := Function.update table.pending id [] }

def invoke (table : CallbackTable T) (callback : Nat) : CallbackTable T :=
  { table with invoked := callback :: table.invoked }

end CallbackTable

/-- The members of a `CentroidUpdateWorker`, the calls of `update` made so far, and the ids
`updateCallbacks_` have been called with. -/
structure Worker (T R : Type) where
  updatingSet : Finset T
  stopping : Bool
  numInProgress : Int
  callbacks : CallbackTable T
  attempts : List (Attempt T R)
  echoed : List T

namespace Worker

variable {T R : Type} [DecidableEq T]

def initial : Worker T R where
  updatingSet := ∅
  stopping := false
  numInProgress := 0
  callbacks := .empty
  attempts := []
  echoed := []

def incrInProgress (worker : Worker T R) : Worker T R :=
  { worker with numInProgress := worker.numInProgress + 1 }

/-- The delayed part of `decrInProgress`. -/
def decrInProgress (worker : Worker T R) : Worker T R :=
  { worker with numInProgress := worker.numInProgress - 1 }

def stop (worker : Worker T R) : Worker T R :=
  { worker with stopping := true }

def update (worker : Worker T R) (id : T) : Worker T R :=
  { worker with attempts := worker.attempts ++ [⟨id, .called⟩] }

def onUpdateSpecificOnce (worker : Worker T R) (id : T) : Worker T R :=
  { worker with callbacks := worker.callbacks.onUpdateSpecificOnce id }

def joinUpdate (worker : Worker T R) (id : T) : Worker T R :=
  (worker.onUpdateSpecificOnce id).update id

def insertUpdating (worker : Worker T R) (id : T) : Worker T R :=
  { worker with updatingSet := insert id worker.updatingSet }

def eraseUpdating (worker : Worker T R) (id : T) : Worker T R :=
  { worker with updatingSet := worker.updatingSet.erase id }

/-- The first block of `echoUpdated`. -/
def callUpdateCallbacks (worker : Worker T R) (id : T) : Worker T R :=
  { worker with echoed := id :: worker.echoed }

/-- The second block of `echoUpdated`. -/
def collectCallbacks (worker : Worker T R) (id : T) : Worker T R :=
  { worker with callbacks := worker.callbacks.collect id }

def invoke (worker : Worker T R) (callback : Nat) : Worker T R :=
  { worker with callbacks := worker.callbacks.invoke callback }

def moveTo (worker : Worker T R) (index : Nat) (id : T) (stage : Stage R) : Worker T R :=
  { worker with attempts := worker.attempts.set index ⟨id, stage⟩ }

/-- The next access a call of `update` makes, whatever `run` has returned. -/
def advance (worker : Worker T R) (index : Nat) (id : T) : Stage R → Option (Worker T R)
  | .called =>
      if worker.stopping then some (worker.moveTo index id (.finished (.ok false)))
      else some (worker.moveTo index id .queued)
  | .queued =>
      if id ∈ worker.updatingSet then some (worker.moveTo index id (.guarded false))
      else some ((worker.insertUpdating id).moveTo index id (.guarded true))
  | .guarded shouldUpdate =>
      if !shouldUpdate || worker.stopping then
        some (worker.moveTo index id (.finished (.ok false)))
      else some (worker.moveTo index id .admitted)
  | .admitted => some (worker.incrInProgress.moveTo index id (.running none))
  | .running _ => none
  | .ran result =>
      if worker.stopping then
        some (worker.moveTo index id (.settled (result.map fun _ => true)))
      else some (worker.moveTo index id (.delayed result))
  | .delayed result => some ((worker.eraseUpdating id).moveTo index id (.released result))
  | .released (.error exception) => some (worker.moveTo index id (.settled (.error exception)))
  | .released (.ok value) =>
      some ((worker.callUpdateCallbacks id).moveTo index id (.broadcast (.ok value)))
  | .broadcast result =>
      some ((worker.collectCallbacks id).moveTo index id
        (.collected (worker.callbacks.pending id) result))
  | .collected [] result => some (worker.moveTo index id (.settled result))
  | .collected (callback :: rest) result =>
      if worker.stopping then some (worker.moveTo index id (.settled result))
      else some ((worker.invoke callback).moveTo index id (.collected rest result))
  | .settled result => some (worker.moveTo index id (.responded result))
  | .responded result => some (worker.decrInProgress.moveTo index id (.finished result))
  | .finished _ => none
  | .thrown => none

def proceed (worker : Worker T R) (index : Nat) : Option (Worker T R) :=
  worker.attempts[index]?.bind fun attempt => worker.advance index attempt.id attempt.stage

/-- `updater->run()` gets further, or ends, with a result or by an exception that leaves it. -/
def moveRun (worker : Worker T R) (index : Nat) (later : Stage R) : Option (Worker T R) :=
  match worker.attempts[index]? with
  | some ⟨id, .running _⟩ => some (worker.moveTo index id later)
  | _ => none

end Worker

inductive WorkerAction (T R : Type) where
  | update (id : T)
  | joinUpdate (id : T)
  | proceed (index : Nat)
  | runs (index : Nat) (progress : R)
  | returns (index : Nat) (result : Try Bool)
  | throws (index : Nat)
  | stop

namespace Worker

variable {T R : Type} [DecidableEq T]

def step (worker : Worker T R) : WorkerAction T R → Option (Worker T R)
  | .update id => some (worker.update id)
  | .joinUpdate id => some (worker.joinUpdate id)
  | .proceed index => worker.proceed index
  | .runs index progress => worker.moveRun index (.running (some progress))
  | .returns index result => worker.moveRun index (.ran result)
  | .throws index => worker.moveRun index .thrown
  | .stop => some worker.stop

end Worker

def workerMachine (T R : Type) [DecidableEq T] : Machine (Worker T R) (WorkerAction T R) where
  step := Worker.step

section Attempts

variable {T R : Type}

def Attempted (P : Stage R → Prop) (id : T) (attempts : List (Attempt T R)) : Prop :=
  ∃ (index : Nat) (attempt : Attempt T R), attempts[index]? = some attempt ∧ attempt.id = id ∧
    P attempt.stage

/-- Some call of `update(id)` other than the one at the index is at a stage with the property. -/
def AttemptedElsewhere (P : Stage R → Prop) (index : Nat) (id : T)
    (attempts : List (Attempt T R)) : Prop :=
  ∃ (other : Nat) (attempt : Attempt T R), other ≠ index ∧ attempts[other]? = some attempt ∧
    attempt.id = id ∧ P attempt.stage

variable {P : Stage R → Prop} {attempts : List (Attempt T R)} {index : Nat} {id : T}

theorem attempted_iff_at {attempt : Attempt T R} (found : attempts[index]? = some attempt) :
    Attempted P id attempts ↔
      (attempt.id = id ∧ P attempt.stage) ∨ AttemptedElsewhere P index id attempts := by
  constructor
  · intro attempted
    obtain ⟨other, otherAttempt, otherFound, sameId, property⟩ := attempted
    by_cases same : other = index
    · rw [same, found] at otherFound
      cases otherFound
      exact Or.inl ⟨sameId, property⟩
    · exact Or.inr ⟨other, otherAttempt, same, otherFound, sameId, property⟩
  · intro either
    rcases either with ⟨sameId, property⟩ | ⟨other, otherAttempt, _, otherFound, sameId, property⟩
    · exact ⟨index, attempt, found, sameId, property⟩
    · exact ⟨other, otherAttempt, otherFound, sameId, property⟩

theorem attempted_elsewhere_set {moved : Attempt T R} :
    AttemptedElsewhere P index id (attempts.set index moved) ↔
      AttemptedElsewhere P index id attempts := by
  unfold AttemptedElsewhere
  apply exists_congr
  intro other
  apply exists_congr
  intro attempt
  apply and_congr_right
  intro different
  rw [List.getElem?_set_ne (Ne.symm different)]

theorem attempted_set {attempt moved : Attempt T R} (found : attempts[index]? = some attempt) :
    Attempted P id (attempts.set index moved) ↔
      (moved.id = id ∧ P moved.stage) ∨ AttemptedElsewhere P index id attempts := by
  have within : index < attempts.length := (List.getElem?_eq_some_iff.mp found).1
  have placed : (attempts.set index moved)[index]? = some moved := by
    rw [List.getElem?_set_self within]
  rw [attempted_iff_at placed, attempted_elsewhere_set]

theorem Attempted.move {other : T} {stage later : Stage R}
    (attempted : Attempted P other attempts) (found : attempts[index]? = some ⟨id, stage⟩)
    (keeps : other = id → P stage → P later) :
    Attempted P other (attempts.set index ⟨id, later⟩) := by
  apply (attempted_set found).mpr
  rcases (attempted_iff_at found).mp attempted with ⟨same, property⟩ | elsewhere
  · exact Or.inl ⟨same, keeps same.symm property⟩
  · exact Or.inr elsewhere

theorem attempted_append (attempted : Attempted P id attempts) (attempt : Attempt T R) :
    Attempted P id (attempts ++ [attempt]) := by
  obtain ⟨position, old, found, sameId, property⟩ := attempted
  refine ⟨position, old, ?_, sameId, property⟩
  rw [List.getElem?_append_left (List.getElem?_eq_some_iff.mp found).1]
  exact found

theorem attempted_last (attempt : Attempt T R) (property : P attempt.stage) :
    Attempted P attempt.id (attempts ++ [attempt]) :=
  ⟨attempts.length, attempt, List.getElem?_concat_length, rfl, property⟩

end Attempts

/-- The call has not started its run, is in it, or has yet to collect the callbacks after it. -/
def Stage.outstanding {R : Type} : Stage R → Bool
  | .called => true
  | .queued => true
  | .guarded shouldUpdate => shouldUpdate
  | .admitted => true
  | .running _ => true
  | .ran _ => true
  | .delayed _ => true
  | .released (.ok _) => true
  | .broadcast _ => true
  | _ => false

/-- The call has put its id into `updatingSet_` and not taken it out. -/
def Stage.holding {R : Type} : Stage R → Bool
  | .guarded shouldUpdate => shouldUpdate
  | .admitted => true
  | .running _ => true
  | .ran _ => true
  | .delayed _ => true
  | _ => false

def Stage.isQueued {R : Type} : Stage R → Bool
  | .queued => true
  | _ => false

def Stage.isRunning {R : Type} : Stage R → Bool
  | .running _ => true
  | _ => false

/-- What is known of the run the call is in. -/
def Stage.progress {R : Type} : Stage R → Option R
  | .running progress => progress
  | _ => none

theorem holding_of_progress {R : Type} {stage : Stage R} {progress : R}
    (known : stage.progress = some progress) : stage.holding = true := by
  cases stage with
  | running other => rfl
  | _ => cases known

theorem outstanding_of_holding {R : Type} (stage : Stage R) (holding : stage.holding = true) :
    stage.outstanding = true := by
  cases stage with
  | guarded shouldUpdate => exact holding
  | admitted => rfl
  | running progress => rfl
  | ran result => rfl
  | delayed result => rfl
  | called => cases holding
  | queued => cases holding
  | released result => cases holding
  | broadcast result => cases holding
  | collected forCentroidCbs result => cases holding
  | settled result => cases holding
  | responded result => cases holding
  | finished result => cases holding
  | thrown => cases holding

section Steps

variable {T R : Type} [DecidableEq T] {worker next : Worker T R} {index : Nat}

/-- The accesses that touch neither `updatingSet_` nor a callback. -/
inductive Quiet (stopping : Bool) : Stage R → Stage R → Prop where
  | refuse (stopped : stopping = true) : Quiet stopping .called (.finished (.ok false))
  | enqueue (running : stopping = false) : Quiet stopping .called .queued
  | dismiss : Quiet stopping (.guarded false) (.finished (.ok false))
  | withdraw (stopped : stopping = true) : Quiet stopping (.guarded true) (.finished (.ok false))
  | letIn (running : stopping = false) : Quiet stopping (.guarded true) .admitted
  | start : Quiet stopping .admitted (.running none)
  | abandon (stopped : stopping = true) (result : Try Bool) :
      Quiet stopping (.ran result) (.settled (result.map fun _ => true))
  | delay (running : stopping = false) (result : Try Bool) :
      Quiet stopping (.ran result) (.delayed result)
  | fail (exception : ProtocolException) :
      Quiet stopping (.released (.error exception)) (.settled (.error exception))
  | drain (result : Try Bool) : Quiet stopping (.collected [] result) (.settled result)
  | interrupt (stopped : stopping = true) (forCentroidCbs : List Nat) (result : Try Bool) :
      Quiet stopping (.collected forCentroidCbs result) (.settled result)
  | respond (result : Try Bool) : Quiet stopping (.settled result) (.responded result)
  | finish (result : Try Bool) : Quiet stopping (.responded result) (.finished result)

theorem Quiet.holding_of_later {stopping : Bool} {stage later : Stage R}
    (quiet : Quiet stopping stage later) (holding : later.holding = true) :
    stage.holding = true := by
  cases quiet with
  | letIn running => rfl
  | start => rfl
  | delay running result => rfl
  | refuse stopped => cases holding
  | enqueue running => cases holding
  | dismiss => cases holding
  | withdraw stopped => cases holding
  | abandon stopped result => cases holding
  | fail exception => cases holding
  | drain result => cases holding
  | interrupt stopped forCentroidCbs result => cases holding
  | respond result => cases holding
  | finish result => cases holding

theorem Quiet.unchanged {stage later : Stage R} (quiet : Quiet false stage later) :
    later.holding = stage.holding ∧ later.outstanding = stage.outstanding := by
  cases quiet with
  | refuse stopped => cases stopped
  | withdraw stopped => cases stopped
  | abandon stopped result => cases stopped
  | interrupt stopped forCentroidCbs result => cases stopped
  | _ => exact ⟨rfl, rfl⟩

/-- What a call of `update` can do at its next access, by its effect on `updatingSet_` and on
the callbacks. -/
inductive Advance (worker : Worker T R) (index : Nat) (id : T) : Stage R → Worker T R → Prop where
  | guard (free : id ∉ worker.updatingSet) :
      Advance worker index id .queued
        ((worker.insertUpdating id).moveTo index id (.guarded true))
  | skip (held : id ∈ worker.updatingSet) :
      Advance worker index id .queued (worker.moveTo index id (.guarded false))
  | release (result : Try Bool) :
      Advance worker index id (.delayed result)
        ((worker.eraseUpdating id).moveTo index id (.released result))
  | echo (value : Bool) :
      Advance worker index id (.released (.ok value))
        ((worker.callUpdateCallbacks id).moveTo index id (.broadcast (.ok value)))
  | collect (result : Try Bool) :
      Advance worker index id (.broadcast result)
        ((worker.collectCallbacks id).moveTo index id
          (.collected (worker.callbacks.pending id) result))
  | invoke (callback : Nat) (rest : List Nat) (result : Try Bool) :
      Advance worker index id (.collected (callback :: rest) result)
        ((worker.invoke callback).moveTo index id (.collected rest result))
  | quiet (stage later : Stage R) (numInProgress : Int)
      (moves : Quiet worker.stopping stage later) :
      Advance worker index id stage
        (({ worker with numInProgress := numInProgress } : Worker T R).moveTo index id later)

/-- An access that leaves the counter alone as well. -/
theorem Advance.still {id : T} {stage later : Stage R} (moves : Quiet worker.stopping stage later) :
    Advance worker index id stage (worker.moveTo index id later) :=
  .quiet stage later worker.numInProgress moves

theorem advance_cases {id : T} {stage : Stage R}
    (advanced : worker.advance index id stage = some next) :
    Advance worker index id stage next := by
  cases stage with
  | called =>
      simp only [Worker.advance] at advanced
      split at advanced
      · rename_i stopped
        cases advanced
        exact .still (.refuse stopped)
      · rename_i running
        cases advanced
        exact .still (.enqueue (Bool.eq_false_iff.mpr running))
  | queued =>
      simp only [Worker.advance] at advanced
      split at advanced
      · rename_i held
        cases advanced
        exact .skip held
      · rename_i free
        cases advanced
        exact .guard free
  | guarded shouldUpdate =>
      cases shouldUpdate with
      | true =>
          cases stopping : worker.stopping with
          | true =>
              simp only [Worker.advance, stopping] at advanced
              cases advanced
              exact .still (.withdraw stopping)
          | false =>
              simp only [Worker.advance, stopping] at advanced
              cases advanced
              exact .still (.letIn stopping)
      | false =>
          cases advanced
          exact .still .dismiss
  | admitted =>
      cases advanced
      exact .quiet _ _ _ .start
  | running progress => cases advanced
  | ran result =>
      simp only [Worker.advance] at advanced
      split at advanced
      · rename_i stopped
        cases advanced
        exact .still (.abandon stopped result)
      · rename_i running
        cases advanced
        exact .still (.delay (Bool.eq_false_iff.mpr running) result)
  | delayed result =>
      cases advanced
      exact .release result
  | released result =>
      cases result with
      | error exception =>
          cases advanced
          exact .still (.fail exception)
      | ok value =>
          cases advanced
          exact .echo value
  | broadcast result =>
      cases advanced
      exact .collect result
  | collected forCentroidCbs result =>
      cases forCentroidCbs with
      | nil =>
          cases advanced
          exact .still (.drain result)
      | cons callback rest =>
          simp only [Worker.advance] at advanced
          split at advanced
          · rename_i stopped
            cases advanced
            exact .still (.interrupt stopped (callback :: rest) result)
          · cases advanced
            exact .invoke callback rest result
  | settled result =>
      cases advanced
      exact .still (.respond result)
  | responded result =>
      cases advanced
      exact .quiet _ _ _ (.finish result)
  | finished result => cases advanced
  | thrown => cases advanced

theorem proceed_cases (proceeded : worker.proceed index = some next) :
    ∃ id stage, worker.attempts[index]? = some ⟨id, stage⟩ ∧
      Advance worker index id stage next := by
  obtain ⟨attempt, found, advanced⟩ := Option.bind_eq_some_iff.mp proceeded
  exact ⟨attempt.id, attempt.stage, found, advance_cases advanced⟩

theorem advance_stopping {id : T} {stage : Stage R}
    (advanced : Advance worker index id stage next) :
    next.stopping = worker.stopping := by
  cases advanced with
  | _ => rfl

theorem Quiet.no_progress {stopping : Bool} {stage later : Stage R}
    (quiet : Quiet stopping stage later) : stage.progress = none ∧ later.progress = none := by
  cases quiet with
  | _ => exact ⟨rfl, rfl⟩

theorem advance_attempts {id : T} {stage : Stage R}
    (advanced : Advance worker index id stage next) :
    ∃ later, next.attempts = worker.attempts.set index ⟨id, later⟩ ∧
      stage.progress = none ∧ later.progress = none := by
  cases advanced with
  | guard free => exact ⟨_, rfl, rfl, rfl⟩
  | skip held => exact ⟨_, rfl, rfl, rfl⟩
  | release result => exact ⟨_, rfl, rfl, rfl⟩
  | echo value => exact ⟨_, rfl, rfl, rfl⟩
  | collect result => exact ⟨_, rfl, rfl, rfl⟩
  | invoke callback rest result => exact ⟨_, rfl, rfl, rfl⟩
  | quiet stage later numInProgress moves => exact ⟨later, rfl, moves.no_progress⟩

omit [DecidableEq T] in
theorem move_run_some {later : Stage R} (stepped : worker.moveRun index later = some next) :
    ∃ id progress, worker.attempts[index]? = some ⟨id, .running progress⟩ ∧
      next = worker.moveTo index id later := by
  unfold Worker.moveRun at stepped
  split at stepped
  · rename_i id progress found
    cases stepped
    exact ⟨id, progress, found, rfl⟩
  · cases stepped

end Steps

end Relevanced.CentroidUpdate

import Relevanced.CentroidUpdate.Exclusion
import Relevanced.CentroidUpdate.Joins
import Relevanced.Foundation.Tally

/-!
# Runs in progress

At most one `CentroidUpdater::run()` at a time is executing for a centroid. The id of a call
of `update` leaves `updatingSet_`, and the call leaves the count of `numInProgress_`, by steps
that come after its run; a run that throws takes neither.
-/

namespace Relevanced.CentroidUpdate

open Foundation
open Persistence (Try)

set_option autoImplicit false

/-- The call has made its `incrInProgress` and not the subtraction that answers it. -/
def Stage.entered {R : Type} : Stage R → Bool
  | .running _ => true
  | .ran _ => true
  | .delayed _ => true
  | .released _ => true
  | .broadcast _ => true
  | .collected _ _ => true
  | .settled _ => true
  | .responded _ => true
  | .thrown => true
  | _ => false

def Stage.isThrown {R : Type} : Stage R → Bool
  | .thrown => true
  | _ => false

def Stage.isDelayed {R : Type} : Stage R → Bool
  | .delayed _ => true
  | _ => false

/-- The call is between `incrInProgress` and the completion of its `decrInProgress`. -/
def Stage.inProgress {R : Type} (stage : Stage R) : Bool := stage.entered && !stage.isThrown

theorem holding_of_running {R : Type} {stage : Stage R} (running : stage.isRunning = true) :
    stage.holding = true := by
  cases stage with
  | running progress => rfl
  | _ => cases running

theorem holding_of_delayed {R : Type} {stage : Stage R} (delayed : stage.isDelayed = true) :
    stage.holding = true := by
  cases stage with
  | delayed result => rfl
  | _ => cases delayed

section Exclusion

variable {T R : Type} [DecidableEq T] {worker next : Worker T R}

omit [DecidableEq T] in
theorem Exclusive.moveRun (exclusive : Exclusive worker) {index : Nat} {later : Stage R}
    (stepped : worker.moveRun index later = some next) : Exclusive next := by
  obtain ⟨id, progress, found, rfl⟩ := move_run_some stepped
  exact exclusive.keep found rfl rfl fun _ => rfl

theorem Exclusive.step (exclusive : Exclusive worker) {action : WorkerAction T R}
    (stepped : worker.step action = some next) : Exclusive next := by
  cases action with
  | update id =>
      cases stepped
      exact exclusive.update id
  | joinUpdate id =>
      cases stepped
      exact exclusive.joinUpdate id
  | proceed index =>
      obtain ⟨id, stage, found, advanced⟩ := proceed_cases stepped
      exact exclusive.advance found advanced
  | runs index progress => exact exclusive.moveRun stepped
  | returns index result => exact exclusive.moveRun stepped
  | throws index => exact exclusive.moveRun stepped
  | stop =>
      cases stepped
      exact ⟨exclusive.listed, exclusive.alone⟩

/-- One run for a centroid, and the ids of those that are executing or delayed are guarded. -/
structure OneRunPerCentroid (worker : Worker T R) : Prop where
  alone : ∀ (first second : Nat) (id : T) (stage other : Stage R),
    worker.attempts[first]? = some ⟨id, stage⟩ → worker.attempts[second]? = some ⟨id, other⟩ →
    stage.isRunning = true → other.isRunning = true → first = second
  guarded : worker.stopping = false → ∀ (index : Nat) (id : T) (stage : Stage R),
    worker.attempts[index]? = some ⟨id, stage⟩ →
    stage.isRunning = true ∨ stage.isDelayed = true → id ∈ worker.updatingSet

omit [DecidableEq T] in
theorem Exclusive.one_run (exclusive : Exclusive worker) : OneRunPerCentroid worker where
  alone first second id stage other foundFirst foundSecond running otherRunning :=
    exclusive.alone first second id stage other foundFirst foundSecond
      (holding_of_running running) (holding_of_running otherRunning)
  guarded _ index id stage found executing := by
    apply exclusive.listed index id stage found
    rcases executing with running | delayed
    · exact holding_of_running running
    · exact holding_of_delayed delayed

/-- However the steps of the worker interleave, stops and failing runs included. -/
theorem one_run_at_a_time (actions : List (WorkerAction T R)) :
    (workerMachine T R).Along OneRunPerCentroid actions .initial := by
  have preserved : ∀ (worker : Worker T R) (action : WorkerAction T R) (next : Worker T R),
      Exclusive worker → (workerMachine T R).step worker action = some next → Exclusive next :=
    fun worker action next exclusive stepped => exclusive.step stepped
  have along := Machine.along_of_preserved preserved actions exclusive_initial
  exact along.mono fun worker exclusive => exclusive.one_run

end Exclusion

section Counter

variable {T R : Type}

def callsAt (P : Stage R → Bool) (attempts : List (Attempt T R)) : Nat :=
  tally (fun attempt => (P attempt.stage).toNat) attempts

/-- `numInProgress_` is the number of calls that have entered. -/
def Counted (worker : Worker T R) : Prop :=
  worker.numInProgress = callsAt Stage.entered worker.attempts

theorem counted_initial : Counted (Worker.initial : Worker T R) := rfl

variable {worker next : Worker T R} {index : Nat} {id : T} {stage later : Stage R}

theorem calls_at_set {P : Stage R → Bool} {attempts : List (Attempt T R)}
    (found : attempts[index]? = some ⟨id, stage⟩) :
    callsAt P (attempts.set index ⟨id, later⟩) + (P stage).toNat =
      callsAt P attempts + (P later).toNat := by
  have replaced := @tally_set _ (fun attempt : Attempt T R => (P attempt.stage).toNat) attempts
    index ⟨id, stage⟩ ⟨id, later⟩ found
  exact replaced

theorem Counted.move (counted : Counted worker)
    (found : worker.attempts[index]? = some ⟨id, stage⟩)
    (moved : next.attempts = worker.attempts.set index ⟨id, later⟩)
    (balance : next.numInProgress + (stage.entered.toNat : Int) =
      worker.numInProgress + (later.entered.toNat : Int)) : Counted next := by
  have replaced := @calls_at_set _ _ index id stage later Stage.entered _ found
  unfold Counted at counted ⊢
  rw [moved]
  omega

theorem Counted.update (counted : Counted worker) (id : T) : Counted (worker.update id) := by
  unfold Counted callsAt Worker.update
  rw [tally_append]
  exact counted

variable [DecidableEq T]

theorem advance_counter (advanced : worker.advance index id stage = some next) :
    ∃ later, next.attempts = worker.attempts.set index ⟨id, later⟩ ∧
      next.numInProgress + (stage.entered.toNat : Int) =
        worker.numInProgress + (later.entered.toNat : Int) := by
  cases stage with
  | called =>
      simp only [Worker.advance] at advanced
      split at advanced <;> cases advanced <;> exact ⟨_, rfl, rfl⟩
  | queued =>
      simp only [Worker.advance] at advanced
      split at advanced <;> cases advanced <;> exact ⟨_, rfl, rfl⟩
  | guarded shouldUpdate =>
      simp only [Worker.advance] at advanced
      split at advanced <;> cases advanced <;> exact ⟨_, rfl, rfl⟩
  | admitted =>
      cases advanced
      exact ⟨_, rfl, by simp [Worker.moveTo, Worker.incrInProgress, Stage.entered]⟩
  | running progress => cases advanced
  | ran result =>
      simp only [Worker.advance] at advanced
      split at advanced <;> cases advanced <;> exact ⟨_, rfl, rfl⟩
  | delayed result =>
      cases advanced
      exact ⟨_, rfl, rfl⟩
  | released result =>
      cases result with
      | error exception =>
          cases advanced
          exact ⟨_, rfl, rfl⟩
      | ok value =>
          cases advanced
          exact ⟨_, rfl, rfl⟩
  | broadcast result =>
      cases advanced
      exact ⟨_, rfl, rfl⟩
  | collected forCentroidCbs result =>
      cases forCentroidCbs with
      | nil =>
          cases advanced
          exact ⟨_, rfl, rfl⟩
      | cons callback rest =>
          simp only [Worker.advance] at advanced
          split at advanced <;> cases advanced <;> exact ⟨_, rfl, rfl⟩
  | settled result =>
      cases advanced
      exact ⟨_, rfl, rfl⟩
  | responded result =>
      cases advanced
      exact ⟨_, rfl, by simp [Worker.moveTo, Worker.decrInProgress, Stage.entered]⟩
  | finished result => cases advanced
  | thrown => cases advanced

theorem Counted.step (counted : Counted worker) {action : WorkerAction T R}
    (stepped : worker.step action = some next) : Counted next := by
  cases action with
  | update id =>
      cases stepped
      exact counted.update id
  | joinUpdate id =>
      cases stepped
      have registered : Counted (worker.onUpdateSpecificOnce id) := counted
      exact registered.update id
  | proceed index =>
      obtain ⟨attempt, found, advanced⟩ := Option.bind_eq_some_iff.mp stepped
      obtain ⟨later, moved, balance⟩ := advance_counter advanced
      exact counted.move found moved balance
  | runs index progress =>
      obtain ⟨id, before, found, rfl⟩ := move_run_some stepped
      exact counted.move found rfl rfl
  | returns index result =>
      obtain ⟨id, before, found, rfl⟩ := move_run_some stepped
      exact counted.move found rfl rfl
  | throws index =>
      obtain ⟨id, before, found, rfl⟩ := move_run_some stepped
      exact counted.move found rfl rfl
  | stop =>
      cases stepped
      exact counted

end Counter

section Release

variable {T R : Type}

def NeverStops : WorkerAction T R → Prop
  | .stop => False
  | _ => True

instance : ∀ action : WorkerAction T R, Decidable (NeverStops action)
  | .stop => isFalse id
  | .update _ => isTrue trivial
  | .joinUpdate _ => isTrue trivial
  | .proceed _ => isTrue trivial
  | .runs _ _ => isTrue trivial
  | .returns _ _ => isTrue trivial
  | .throws _ => isTrue trivial

/-- Every id in `updatingSet_` has a call of `update` past the guard, in its run or in its delay,
and `numInProgress_` is the number of calls in progress. -/
structure GuardReleased (worker : Worker T R) : Prop where
  held : Attended Stage.holding (fun id => id ∈ worker.updatingSet) worker.attempts
  counted : worker.numInProgress = callsAt Stage.inProgress worker.attempts

/-- No exception leaves a run that is executing. -/
def NoRunThrows (worker : Worker T R) : WorkerAction T R → Prop
  | .throws index => ∀ (id : T) (stage : Stage R), worker.attempts[index]? = some ⟨id, stage⟩ →
      stage.isRunning = false
  | _ => True

/-- What holds as long as no run throws and nobody stops the worker. -/
structure NoneThrown (worker : Worker T R) : Prop where
  guarding : Guarding worker
  exclusive : Exclusive worker
  counted : Counted worker
  returned : Each (fun _ stage => stage.isThrown = false) worker.attempts

theorem none_thrown_initial : NoneThrown (Worker.initial : Worker T R) where
  guarding := guarding_initial
  exclusive := exclusive_initial
  counted := counted_initial
  returned index id stage found := by cases found

theorem NoneThrown.released {worker : Worker T R} (noneThrown : NoneThrown worker) :
    GuardReleased worker where
  held := noneThrown.guarding.held
  counted := by
    have same (attempt : Attempt T R) (member : attempt ∈ worker.attempts) :
        attempt.stage.entered.toNat = attempt.stage.inProgress.toNat := by
      obtain ⟨index, found⟩ := List.mem_iff_getElem?.mp member
      have returned := noneThrown.returned index attempt.id attempt.stage found
      rw [Stage.inProgress, returned, Bool.not_false, Bool.and_true]
    rw [noneThrown.counted, callsAt, callsAt, tally_congr same]

variable [DecidableEq T] {worker next : Worker T R} {index : Nat} {id : T} {stage : Stage R}

theorem advance_not_thrown (advanced : Advance worker index id stage next) :
    ∃ later, next.attempts = worker.attempts.set index ⟨id, later⟩ ∧ later.isThrown = false := by
  cases advanced with
  | quiet stage later numInProgress moves =>
      refine ⟨later, rfl, ?_⟩
      cases moves with
      | _ => rfl
  | _ => exact ⟨_, rfl, rfl⟩

theorem NoneThrown.step (noneThrown : NoneThrown worker) {action : WorkerAction T R}
    (neverStops : NeverStops action) (noThrow : NoRunThrows worker action)
    (stepped : worker.step action = some next) : NoneThrown next := by
  have exclusive := noneThrown.exclusive.step stepped
  have counted := noneThrown.counted.step stepped
  have guarding (ordinary : action.ordinary = true) := noneThrown.guarding.step ordinary stepped
  cases action with
  | update id =>
      refine ⟨guarding rfl, exclusive, counted, ?_⟩
      cases stepped
      exact noneThrown.returned.append rfl
  | joinUpdate id =>
      refine ⟨guarding rfl, exclusive, counted, ?_⟩
      cases stepped
      exact noneThrown.returned.append rfl
  | proceed index =>
      refine ⟨guarding rfl, exclusive, counted, ?_⟩
      obtain ⟨id, stage, found, advanced⟩ := proceed_cases stepped
      obtain ⟨later, moved, returned⟩ := advance_not_thrown advanced
      rw [moved]
      exact noneThrown.returned.set returned
  | runs index progress =>
      refine ⟨guarding rfl, exclusive, counted, ?_⟩
      obtain ⟨id, before, found, rfl⟩ := move_run_some stepped
      exact noneThrown.returned.set rfl
  | returns index result =>
      refine ⟨guarding rfl, exclusive, counted, ?_⟩
      obtain ⟨id, before, found, rfl⟩ := move_run_some stepped
      exact noneThrown.returned.set rfl
  | throws index =>
      obtain ⟨id, before, found, _⟩ := move_run_some stepped
      cases noThrow id _ found
  | stop => exact False.elim neverStops

omit [DecidableEq T] in
/-- The id of a run that throws is in the set with nobody to take it out. -/
theorem not_released_of_throw (exclusive : Exclusive worker) {progress : Option R}
    (found : worker.attempts[index]? = some ⟨id, .running progress⟩) :
    ¬ GuardReleased (worker.moveTo index id .thrown) := by
  intro released
  have inSet := exclusive.listed index id _ found rfl
  rcases (attempted_set found).mp (released.held id inSet) with ⟨_, holding⟩ | elsewhere
  · cases holding
  · obtain ⟨other, ⟨_, stage⟩, different, foundOther, rfl, holding⟩ := elsewhere
    exact different (exclusive.alone other index _ stage _ foundOther found holding rfl)

/-- However the calls of `update` interleave, guard and counter are released in every state of a
run without `stop()` exactly when no `CentroidUpdater::run()` throws. -/
theorem guard_released_iff_no_run_throws (actions : List (WorkerAction T R))
    (neverStops : ∀ action ∈ actions, NeverStops action) :
    (workerMachine T R).Along GuardReleased actions .initial ↔
      (workerMachine T R).Guarded NoRunThrows actions .initial := by
  have preserved : ∀ (worker : Worker T R) (action : WorkerAction T R) (next : Worker T R),
      NoneThrown worker → NeverStops action → NoRunThrows worker action →
      (workerMachine T R).step worker action = some next → NoneThrown next :=
    fun worker action next noneThrown allowed noThrow stepped =>
      noneThrown.step allowed noThrow stepped
  refine Machine.along_iff_guarded_of_kept preserved (fun _ noneThrown => noneThrown.released) ?_
    actions neverStops none_thrown_initial
  intro worker action noneThrown allowed
  constructor
  · intro kept
    cases action with
    | throws index =>
        intro id stage found
        cases stage with
        | running progress =>
            have stepped : worker.moveRun index .thrown =
                some (worker.moveTo index id .thrown) := by
              rw [Worker.moveRun, found]
            exact absurd (kept _ stepped) (not_released_of_throw noneThrown.exclusive found)
        | _ => rfl
    | _ => trivial
  · intro noThrow next stepped
    exact (noneThrown.step allowed noThrow stepped).released

end Release

def updatedOnce : List (WorkerAction Nat Unit) :=
  [.update 7, .proceed 0, .proceed 0, .proceed 0, .proceed 0, .returns 0 (.ok true), .proceed 0,
    .proceed 0, .proceed 0, .proceed 0, .proceed 0, .proceed 0, .proceed 0]

theorem updated_once_released :
    (workerMachine Nat Unit).Along GuardReleased updatedOnce .initial ↔
      (workerMachine Nat Unit).Guarded NoRunThrows updatedOnce .initial :=
  guard_released_iff_no_run_throws updatedOnce (by decide)

/-- An update whose run throws, and a second one of the same centroid. -/
def updatedAfterThrow : List (WorkerAction Nat Unit) :=
  [.update 7, .proceed 0, .proceed 0, .proceed 0, .proceed 0, .throws 0, .update 7, .proceed 1,
    .proceed 1, .proceed 1]

/-- The second update does nothing, and both have ended. -/
theorem thrown_run_keeps_its_guard :
    (∀ action ∈ updatedAfterThrow, NeverStops action) ∧
      ∃ worker, (workerMachine Nat Unit).exec updatedAfterThrow .initial = some worker ∧
        7 ∈ worker.updatingSet ∧ worker.numInProgress = 1 ∧
        (∀ attempt ∈ worker.attempts, attempt.stage.holding = false ∧
          attempt.stage.inProgress = false) ∧ ¬ GuardReleased worker := by
  refine ⟨by decide, _, rfl, by decide, rfl, by decide, ?_⟩
  intro released
  exact absurd released.counted (by decide)

end Relevanced.CentroidUpdate

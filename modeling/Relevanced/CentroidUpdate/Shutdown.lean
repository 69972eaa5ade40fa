import Relevanced.CentroidUpdate.InProgress
import Relevanced.Util.DebouncerThreads

/-!
# After join

The worker together with its `updateQueue_` and the threads that are inside `triggerUpdate`,
`stop` or `join`. A call of `update` tests `stopping_` before its `incrInProgress`, and `join`
waits for the counter alone: one that is between the two starts its run after `join` has
returned.
-/

namespace Relevanced.CentroidUpdate

open Foundation
open Persistence (Try)
open Util (Threads Frame)

set_option autoImplicit false

/-- How far a thread has come in `triggerUpdate`, `stop` or `join`; `joins` tells the last two
apart, since `join` begins with a call of `stop`. -/
inductive Caller (T : Type) where
  | triggering (centroidId : T)
  | writing (toWrite : T)
  | stopping (joins : Bool)
  | setting (joins : Bool)
  | stoppingQueue (joins : Bool)
  | joiningQueue
  | awaiting
  | joined
  | returned
  deriving DecidableEq

def Caller.stopped {T : Type} (joins : Bool) : Caller T :=
  if joins then .joiningQueue else .returned

structure WorkerThreads (T R : Type) where
  worker : Worker T R
  updateQueue : Threads T
  callers : List (Caller T)

inductive WorkerThreadsAction (T R : Type) where
  | update (id : T)
  | joinUpdate (id : T)
  | proceed (index : Nat)
  | runs (index : Nat) (progress : R)
  | returns (index : Nat) (result : Try Bool)
  | throws (index : Nat)
  | queue (index : Nat)
  | triggerUpdate (id : T)
  | stop
  | join
  | caller (index : Nat)

namespace WorkerThreads

variable {T R : Type}

def initial : WorkerThreads T R where
  worker := .initial
  updateQueue := .initial
  callers := []

def call (state : WorkerThreads T R) (caller : Caller T) : WorkerThreads T R :=
  { state with callers := state.callers ++ [caller] }

def moveTo (state : WorkerThreads T R) (index : Nat) (caller : Caller T) : WorkerThreads T R :=
  { state with callers := state.callers.set index caller }

variable [DecidableEq T]

def worked (state : WorkerThreads T R) (action : WorkerAction T R) : Option (WorkerThreads T R) :=
  (state.worker.step action).map fun worker => { state with worker := worker }

/-- A thread of the debouncer moves; when it is at `onValueCb_`, it calls `update`. -/
def queued (state : WorkerThreads T R) (index : Nat) : Option (WorkerThreads T R) :=
  (state.updateQueue.proceed index).map fun updateQueue =>
    match state.updateQueue.frames[index]? with
    | some (.calling centroidId) =>
        { state with updateQueue := updateQueue, worker := state.worker.update centroidId }
    | _ => { state with updateQueue := updateQueue }

/-- The next access of a caller. -/
def advance (state : WorkerThreads T R) (index : Nat) : Caller T → Option (WorkerThreads T R)
  | .triggering centroidId =>
      if state.worker.stopping then some (state.moveTo index .returned)
      else some (state.moveTo index (.writing centroidId))
  | .writing toWrite =>
      (state.updateQueue.step (.write toWrite)).map fun updateQueue =>
        { state with updateQueue := updateQueue, callers := state.callers.set index .returned }
  | .stopping joins =>
      if state.worker.stopping then some (state.moveTo index (.stopped joins))
      else some (state.moveTo index (.setting joins))
  | .setting joins =>
      some { state with
        worker := state.worker.stop
        callers := state.callers.set index (.stoppingQueue joins) }
  | .stoppingQueue joins =>
      some { state with
        updateQueue := state.updateQueue.stop
        callers := state.callers.set index (.stopped joins) }
  | .joiningQueue =>
      if state.updateQueue.numInFlight = 0 then some (state.moveTo index .awaiting) else none
  | .awaiting =>
      if state.worker.numInProgress = 0 then some (state.moveTo index .joined) else none
  | .joined => none
  | .returned => none

def step (state : WorkerThreads T R) : WorkerThreadsAction T R → Option (WorkerThreads T R)
  | .update id => state.worked (.update id)
  | .joinUpdate id => state.worked (.joinUpdate id)
  | .proceed index => state.worked (.proceed index)
  | .runs index progress => state.worked (.runs index progress)
  | .returns index result => state.worked (.returns index result)
  | .throws index => state.worked (.throws index)
  | .queue index => state.queued index
  | .triggerUpdate id => some (state.call (.triggering id))
  | .stop => some (state.call (.stopping false))
  | .join => some (state.call (.stopping true))
  | .caller index => state.callers[index]?.bind (state.advance index)

end WorkerThreads

def workerThreadsMachine (T R : Type) [DecidableEq T] :
    Machine (WorkerThreads T R) (WorkerThreadsAction T R) where
  step := WorkerThreads.step

section Ended

variable {T R : Type}

/-- The call is past its last test of `stopping_` and has not ended its run. -/
def Stage.starts : Stage R → Bool
  | .admitted => true
  | .running _ => true
  | _ => false

def Stage.isAdmitted : Stage R → Bool
  | .admitted => true
  | _ => false

/-- The worker is stopped, and no call is past its tests of `stopping_` with its run ahead. -/
structure Ended (worker : Worker T R) : Prop where
  stopped : worker.stopping = true
  idle : Each (fun _ stage => stage.starts = false) worker.attempts

variable {worker next : Worker T R} {index : Nat} {id : T} {stage : Stage R}

theorem Ended.moveRun (ended : Ended worker) {later : Stage R} :
    worker.moveRun index later ≠ some next := by
  intro stepped
  obtain ⟨id, progress, found, _⟩ := move_run_some stepped
  cases ended.idle index id _ found

variable [DecidableEq T]

theorem stopping_of_step {action : WorkerAction T R} (stopped : worker.stopping = true)
    (stepped : worker.step action = some next) : next.stopping = true := by
  cases action with
  | update id =>
      cases stepped
      exact stopped
  | joinUpdate id =>
      cases stepped
      exact stopped
  | proceed index =>
      obtain ⟨id, stage, _, advanced⟩ := proceed_cases stepped
      rw [advance_stopping advanced]
      exact stopped
  | runs index progress =>
      obtain ⟨_, _, _, rfl⟩ := move_run_some stepped
      exact stopped
  | returns index result =>
      obtain ⟨_, _, _, rfl⟩ := move_run_some stepped
      exact stopped
  | throws index =>
      obtain ⟨_, _, _, rfl⟩ := move_run_some stepped
      exact stopped
  | stop =>
      cases stepped
      rfl

theorem advance_not_starting (stopped : worker.stopping = true)
    (advanced : Advance worker index id stage next) (idle : stage.starts = false) :
    ∃ later, next.attempts = worker.attempts.set index ⟨id, later⟩ ∧ later.starts = false := by
  cases advanced with
  | quiet stage later numInProgress moves =>
      refine ⟨later, rfl, ?_⟩
      cases moves with
      | letIn running =>
          rw [stopped] at running
          cases running
      | start => cases idle
      | _ => rfl
  | _ => exact ⟨_, rfl, rfl⟩

theorem Ended.step (ended : Ended worker) {action : WorkerAction T R}
    (stepped : worker.step action = some next) : Ended next := by
  refine ⟨stopping_of_step ended.stopped stepped, ?_⟩
  cases action with
  | update id =>
      cases stepped
      exact ended.idle.append rfl
  | joinUpdate id =>
      cases stepped
      exact ended.idle.append rfl
  | proceed index =>
      obtain ⟨id, stage, found, advanced⟩ := proceed_cases stepped
      obtain ⟨later, moved, idle⟩ :=
        advance_not_starting ended.stopped advanced (ended.idle index id stage found)
      rw [moved]
      exact ended.idle.set idle
  | runs index progress => exact absurd stepped ended.moveRun
  | returns index result => exact absurd stepped ended.moveRun
  | throws index => exact absurd stepped ended.moveRun
  | stop =>
      cases stepped
      exact ended.idle

end Ended

section Joins

variable {T R : Type}

def Caller.pastStop : Caller T → Bool
  | .stoppingQueue _ => true
  | .joiningQueue => true
  | .awaiting => true
  | .joined => true
  | _ => false

variable [DecidableEq T]

/-- No run is executing, now or in any continuation. -/
def NothingRuns (state : WorkerThreads T R) : Prop :=
  ∀ actions, (workerThreadsMachine T R).Along
    (fun later => Each (fun _ stage => stage.isRunning = false) later.worker.attempts) actions state

def QuietOnceJoined (state : WorkerThreads T R) : Prop :=
  .joined ∈ state.callers → NothingRuns state

/-- A `join()` that reads `numInProgress_` as 0 does so while no call of `update` is between its
last test of `stopping_` and its `incrInProgress`. -/
def NoneAdmittedAtJoin (state : WorkerThreads T R) : WorkerThreadsAction T R → Prop
  | .caller index => state.callers[index]? = some .awaiting → state.worker.numInProgress = 0 →
      Each (fun _ stage => stage.isAdmitted = false) state.worker.attempts
  | _ => True

/-- What holds as long as no `join()` returns too early. -/
structure Watched (state : WorkerThreads T R) : Prop where
  counted : Counted state.worker
  stopped : ∀ caller ∈ state.callers, caller.pastStop = true → state.worker.stopping = true
  joined : .joined ∈ state.callers → Ended state.worker

omit [DecidableEq T] in
theorem watched_initial : Watched (WorkerThreads.initial : WorkerThreads T R) where
  counted := counted_initial
  stopped caller member := by cases member
  joined member := by cases member

/-- What a step does to the worker and to the callers. -/
inductive Turn (state : WorkerThreads T R) (action : WorkerThreadsAction T R) :
    WorkerThreads T R → Prop where
  | works (taken : WorkerAction T R) (worker : Worker T R) (updateQueue : Threads T)
      (stepped : state.worker.step taken = some worker) :
      Turn state action { state with worker := worker, updateQueue := updateQueue }
  | passes (updateQueue : Threads T) :
      Turn state action { state with updateQueue := updateQueue }
  | calls (caller : Caller T) (fresh : caller.pastStop = false) :
      Turn state action (state.call caller)
  | moves (index : Nat) (later : Caller T) (updateQueue : Threads T) (waits : later ≠ .joined)
      (stopped : later.pastStop = true →
        state.worker.stopping = true ∨ ∃ caller ∈ state.callers, caller.pastStop = true) :
      Turn state action
        { state with updateQueue := updateQueue, callers := state.callers.set index later }
  | stops (index : Nat) (joins : Bool) :
      Turn state action
        { state with
          worker := state.worker.stop
          callers := state.callers.set index (.stoppingQueue joins) }
  | joins (index : Nat) (turn : action = .caller index)
      (found : state.callers[index]? = some .awaiting) (drained : state.worker.numInProgress = 0) :
      Turn state action (state.moveTo index .joined)

variable {state next : WorkerThreads T R} {action : WorkerThreadsAction T R}

theorem turn_of_worked {taken : WorkerAction T R} (worked : state.worked taken = some next) :
    Turn state action next := by
  obtain ⟨worker, stepped, rfl⟩ := Option.map_eq_some_iff.mp worked
  exact .works taken worker state.updateQueue stepped

omit [DecidableEq T] in
theorem stopped_not_joined (joins : Bool) : (Caller.stopped joins : Caller T) ≠ .joined := by
  cases joins with
  | true => exact nofun
  | false => exact nofun

theorem turn_of_advance {index : Nat} {caller : Caller T}
    (found : state.callers[index]? = some caller)
    (advanced : state.advance index caller = some next) : Turn state (.caller index) next := by
  cases caller with
  | triggering centroidId =>
      simp only [WorkerThreads.advance] at advanced
      split at advanced
      · cases advanced
        exact .moves index .returned state.updateQueue nofun nofun
      · cases advanced
        exact .moves index (.writing centroidId) state.updateQueue nofun nofun
  | writing toWrite =>
      cases advanced
      exact .moves index .returned _ nofun nofun
  | stopping joins =>
      simp only [WorkerThreads.advance] at advanced
      split at advanced
      · rename_i stopped
        cases advanced
        exact .moves index (.stopped joins) state.updateQueue (stopped_not_joined joins)
          fun _ => Or.inl stopped
      · cases advanced
        exact .moves index (.setting joins) state.updateQueue nofun nofun
  | setting joins =>
      cases advanced
      exact .stops index joins
  | stoppingQueue joins =>
      cases advanced
      exact .moves index (.stopped joins) _ (stopped_not_joined joins)
        fun _ => Or.inr ⟨_, List.mem_of_getElem? found, rfl⟩
  | joiningQueue =>
      simp only [WorkerThreads.advance] at advanced
      split at advanced
      · cases advanced
        exact .moves index .awaiting state.updateQueue nofun
          fun _ => Or.inr ⟨_, List.mem_of_getElem? found, rfl⟩
      · cases advanced
  | awaiting =>
      simp only [WorkerThreads.advance] at advanced
      split at advanced
      · rename_i drained
        cases advanced
        exact .joins index rfl found drained
      · cases advanced
  | joined => cases advanced
  | returned => cases advanced

theorem turn_of_step (stepped : state.step action = some next) : Turn state action next := by
  cases action with
  | update id => exact turn_of_worked stepped
  | joinUpdate id => exact turn_of_worked stepped
  | proceed index => exact turn_of_worked stepped
  | runs index progress => exact turn_of_worked stepped
  | returns index result => exact turn_of_worked stepped
  | throws index => exact turn_of_worked stepped
  | queue index =>
      obtain ⟨updateQueue, _, rfl⟩ := Option.map_eq_some_iff.mp stepped
      split
      · rename_i centroidId _
        exact .works (.update centroidId) _ updateQueue rfl
      · exact .passes updateQueue
  | triggerUpdate id =>
      cases stepped
      exact .calls (.triggering id) rfl
  | stop =>
      cases stepped
      exact .calls (.stopping false) rfl
  | join =>
      cases stepped
      exact .calls (.stopping true) rfl
  | caller index =>
      obtain ⟨caller, found, advanced⟩ := Option.bind_eq_some_iff.mp stepped
      exact turn_of_advance found advanced

theorem Ended.turn (ended : Ended state.worker) (turn : Turn state action next) :
    Ended next.worker := by
  cases turn with
  | works taken worker updateQueue stepped => exact ended.step stepped
  | stops index joins => exact ⟨rfl, ended.idle⟩
  | _ => exact ended

theorem Ended.nothing_runs (ended : Ended state.worker) : NothingRuns state := by
  intro actions
  have preserved : ∀ (state : WorkerThreads T R) (action : WorkerThreadsAction T R)
      (next : WorkerThreads T R), Ended state.worker →
      (workerThreadsMachine T R).step state action = some next → Ended next.worker :=
    fun state action next ended stepped => ended.turn (turn_of_step stepped)
  have along := Machine.along_of_preserved preserved actions ended
  refine along.mono fun later ended => ended.idle.mono ?_
  intro id stage idle
  cases stage with
  | running progress => cases idle
  | _ => rfl

omit [DecidableEq T] in
/-- `numInProgress_` is 0 only while no run is executing. -/
theorem ended_of_drained {worker : Worker T R} (counted : Counted worker)
    (stopped : worker.stopping = true) (drained : worker.numInProgress = 0)
    (noneAdmitted : Each (fun _ stage => stage.isAdmitted = false) worker.attempts) :
    Ended worker := by
  refine ⟨stopped, ?_⟩
  intro index id stage found
  have weighs : stage.entered.toNat ≤ callsAt Stage.entered worker.attempts :=
    @weight_le_tally _ (fun attempt : Attempt T R => attempt.stage.entered.toNat) _ _
      (List.mem_of_getElem? found)
  unfold Counted at counted
  cases stage with
  | admitted => exact noneAdmitted index id _ found
  | running progress =>
      change 1 ≤ _ at weighs
      omega
  | _ => rfl

theorem Watched.turn (watched : Watched state) (guarded : NoneAdmittedAtJoin state action)
    (turn : Turn state action next) : Watched next := by
  have past (member : ∃ caller ∈ state.callers, caller.pastStop = true) :
      state.worker.stopping = true := by
    obtain ⟨caller, inCallers, pastStop⟩ := member
    exact watched.stopped caller inCallers pastStop
  cases turn with
  | works taken worker updateQueue stepped =>
      refine ⟨watched.counted.step stepped, ?_, fun joined => (watched.joined joined).step stepped⟩
      intro caller member pastStop
      exact stopping_of_step (watched.stopped caller member pastStop) stepped
  | passes updateQueue => exact ⟨watched.counted, watched.stopped, watched.joined⟩
  | calls caller fresh =>
      refine ⟨watched.counted, ?_, ?_⟩
      · intro other member pastStop
        rcases List.mem_append.mp member with before | new
        · exact watched.stopped other before pastStop
        · rw [List.mem_singleton.mp new, fresh] at pastStop
          cases pastStop
      · intro joined
        rcases List.mem_append.mp joined with before | new
        · exact watched.joined before
        · rw [← List.mem_singleton.mp new] at fresh
          cases fresh
  | moves index later updateQueue waits stopped =>
      refine ⟨watched.counted, ?_, ?_⟩
      · intro other member pastStop
        rcases List.mem_or_eq_of_mem_set member with before | rfl
        · exact watched.stopped other before pastStop
        · exact (stopped pastStop).elim id past
      · intro joined
        rcases List.mem_or_eq_of_mem_set joined with before | same
        · exact watched.joined before
        · exact absurd same.symm waits
  | stops index joins =>
      refine ⟨watched.counted, fun _ _ _ => rfl, ?_⟩
      intro joined
      rcases List.mem_or_eq_of_mem_set joined with before | same
      · exact ⟨rfl, (watched.joined before).idle⟩
      · cases same
  | joins index turn found drained =>
      subst turn
      have stopped := watched.stopped _ (List.mem_of_getElem? found) rfl
      refine ⟨watched.counted, fun _ _ _ => stopped, ?_⟩
      intro _
      exact ended_of_drained watched.counted stopped drained (guarded found drained)

theorem Watched.quiet (watched : Watched state) : QuietOnceJoined state :=
  fun joined => (watched.joined joined).nothing_runs

/-- A call that a `join()` has overlooked starts its run. -/
theorem NothingRuns.none_admitted (quiet : NothingRuns state) :
    Each (fun _ stage => stage.isAdmitted = false) state.worker.attempts := by
  intro index id stage found
  cases stage with
  | admitted =>
      have along := quiet [.proceed index]
      have started : (workerThreadsMachine T R).step state (.proceed index) =
          some { state with
            worker := state.worker.incrInProgress.moveTo index id (.running none) } := by
        change (state.worker.proceed index).map _ = _
        rw [Worker.proceed, found]
        rfl
      have within := (List.getElem?_eq_some_iff.mp found).1
      have running := along.2 _ started index id (.running none) (List.getElem?_set_self within)
      cases running
  | _ => rfl

theorem quiet_exactly (watched : Watched state) :
    (∀ next, (workerThreadsMachine T R).step state action = some next → QuietOnceJoined next) ↔
      NoneAdmittedAtJoin state action := by
  constructor
  · intro kept
    cases action with
    | caller index =>
        intro found drained
        have returned : (workerThreadsMachine T R).step state (.caller index) =
            some (state.moveTo index .joined) := by
          change (state.callers[index]?.bind (state.advance index)) = _
          rw [found, Option.bind_some, WorkerThreads.advance, if_pos drained]
        have quiet := kept _ returned (List.mem_set (List.getElem?_eq_some_iff.mp found).1 _)
        exact quiet.none_admitted
    | _ => trivial
  · intro guarded next stepped
    exact (watched.turn guarded (turn_of_step stepped)).quiet

/-- However calls of `update`, `triggerUpdate`, `stop` and `join`, the debouncer and the runs
interleave, nothing runs once a `join()` has returned, in every state of a run exactly when no
`join()` overlooks a call on its way into its run. -/
theorem nothing_runs_after_join_iff (actions : List (WorkerThreadsAction T R)) :
    (workerThreadsMachine T R).Along QuietOnceJoined actions .initial ↔
      (workerThreadsMachine T R).Guarded NoneAdmittedAtJoin actions .initial := by
  have preserved : ∀ (state : WorkerThreads T R) (action : WorkerThreadsAction T R)
      (next : WorkerThreads T R), Watched state → True → NoneAdmittedAtJoin state action →
      (workerThreadsMachine T R).step state action = some next → Watched next :=
    fun state action next watched _ guarded stepped =>
      watched.turn guarded (turn_of_step stepped)
  exact Machine.along_iff_guarded_of_kept preserved (fun _ watched => watched.quiet)
    (fun _ _ watched _ => quiet_exactly watched) actions (fun _ _ => trivial) watched_initial

end Joins

/-- A call of `update` is let in, a `join()` runs from its start to its return, and the call
goes on. -/
def joinedBeforeRun : List (WorkerThreadsAction Nat Unit) :=
  [.update 7, .proceed 0, .proceed 0, .proceed 0, .join, .caller 0, .caller 0, .caller 0,
    .caller 0, .caller 0, .proceed 0]

/-- The run executes after `join()` has returned. -/
theorem run_starts_after_join :
    ∃ state, (workerThreadsMachine Nat Unit).exec joinedBeforeRun .initial = some state ∧
      .joined ∈ state.callers ∧
        (∃ attempt ∈ state.worker.attempts, attempt.stage.isRunning = true) ∧
      ¬ QuietOnceJoined state := by
  refine ⟨_, rfl, by decide, ⟨_, List.mem_singleton_self _, rfl⟩, ?_⟩
  intro quiet
  cases quiet (by decide) [] 0 7 _ rfl

end Relevanced.CentroidUpdate

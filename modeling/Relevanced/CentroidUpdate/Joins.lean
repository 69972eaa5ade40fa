import Relevanced.CentroidUpdate.CentroidUpdateWorker

/-!
# Joins that can still be answered

A callback registered by `joinUpdate(id)` leaves the table when some call of
`update(id)` collects it. Whether one is on its way follows from the stages of the
calls, except where a run has failed: that call collects nothing.
-/

namespace Relevanced.CentroidUpdate

open Foundation
open Persistence (Try ProtocolException)

set_option autoImplicit false

/-- The call waits out the delay after a run that returned an exception. -/
def Stage.afterFailure {R : Type} : Stage R → Bool
  | .delayed (.error _) => true
  | _ => false

theorem Quiet.not_after_failure {R : Type} {stopping : Bool} {stage later : Stage R}
    (quiet : Quiet stopping stage later) : stage.afterFailure = false := by
  cases quiet with
  | _ => rfl

/-- Neither `stop()` nor an exception that leaves `run`. -/
def WorkerAction.ordinary {T R : Type} : WorkerAction T R → Bool
  | .stop => false
  | .throws _ => false
  | _ => true

section Attended

variable {T R : Type}

/-- Every id in need has a call of `update` at a stage with the property. -/
def Attended (P : Stage R → Bool) (needs : T → Prop) (attempts : List (Attempt T R)) : Prop :=
  ∀ id, needs id → Attempted (fun stage => P stage = true) id attempts

variable {P : Stage R → Bool} {needs needs' : T → Prop} {attempts : List (Attempt T R)}

theorem Attended.append (attended : Attended P needs attempts) (attempt : Attempt T R)
    (added : ∀ id, needs' id → needs id ∨ (id = attempt.id ∧ P attempt.stage = true)) :
    Attended P needs' (attempts ++ [attempt]) := by
  intro id need
  rcases added id need with before | ⟨same, property⟩
  · exact attempted_append (attended id before) attempt
  · rw [same]
    exact attempted_last attempt property

theorem Attended.move (attended : Attended P needs attempts) {index : Nat} {id : T}
    {stage : Stage R} (found : attempts[index]? = some ⟨id, stage⟩) (later : Stage R)
    (covers : ∀ other, needs' other →
      (other = id ∧ P later = true) ∨ (needs other ∧ (other = id → P stage = false)) ∨
        AttemptedElsewhere (fun stage => P stage = true) index other attempts) :
    Attended P needs' (attempts.set index ⟨id, later⟩) := by
  intro other need
  apply (attempted_set found).mpr
  rcases covers other need with ⟨same, property⟩ | ⟨before, idle⟩ | elsewhere
  · exact Or.inl ⟨same.symm, property⟩
  · rcases (attempted_iff_at found).mp (attended other before) with ⟨same, property⟩ | elsewhere
    · rw [idle same.symm] at property
      cases property
    · exact Or.inr elsewhere
  · exact Or.inr elsewhere

end Attended

section Orphans

variable {T R : Type}

/-- Every callback in the table has a call of `update` for its id on the way. -/
def NoOrphan (worker : Worker T R) : Prop :=
  Attended Stage.outstanding (fun id => worker.callbacks.pending id ≠ []) worker.attempts

/-- The worker is not stopping, and a call of `update` holds each id of `updatingSet_`. -/
structure Guarding (worker : Worker T R) : Prop where
  running : worker.stopping = false
  held : Attended Stage.holding (fun id => id ∈ worker.updatingSet) worker.attempts

/-- When the delay after a failed run ends, no callback waits for its id, or another call of
`update` for that id is on the way. -/
def FailureStrandsNobody (worker : Worker T R) : WorkerAction T R → Prop
  | .proceed index => ∀ id exception,
      worker.attempts[index]? = some ⟨id, .delayed (.error exception)⟩ →
      worker.callbacks.pending id ≠ [] →
      AttemptedElsewhere (fun stage => stage.outstanding = true) index id worker.attempts
  | _ => True

variable [DecidableEq T] {worker next : Worker T R}

omit [DecidableEq T] in
theorem guarding_initial : Guarding (Worker.initial : Worker T R) where
  running := rfl
  held id member := by cases member

omit [DecidableEq T] in
theorem no_orphan_initial : NoOrphan (Worker.initial : Worker T R) := by
  intro id waiting
  exact absurd rfl waiting

theorem Attended.plain {P : Stage R → Bool} {needs : T → Prop} {attempts : List (Attempt T R)}
    (attended : Attended P needs attempts) {index : Nat} {id : T} {stage later : Stage R}
    (found : attempts[index]? = some ⟨id, stage⟩) (same : P later = P stage) :
    Attended P needs (attempts.set index ⟨id, later⟩) := by
  apply attended.move found
  intro other need
  by_cases property : P stage = true
  · by_cases sameId : other = id
    · exact Or.inl ⟨sameId, same.trans property⟩
    · exact Or.inr (Or.inl ⟨need, fun equal => absurd equal sameId⟩)
  · exact Or.inr (Or.inl ⟨need, fun _ => Bool.eq_false_iff.mpr property⟩)

theorem Guarding.advance (guarding : Guarding worker) {index : Nat} {id : T} {stage : Stage R}
    (found : worker.attempts[index]? = some ⟨id, stage⟩)
    (advanced : Advance worker index id stage next) : Guarding next := by
  cases advanced with
  | guard free =>
      refine ⟨guarding.running, ?_⟩
      apply guarding.held.move found
      intro other member
      rcases Finset.mem_insert.mp member with same | before
      · exact Or.inl ⟨same, rfl⟩
      · exact Or.inr (Or.inl ⟨before, fun _ => rfl⟩)
  | skip held => exact ⟨guarding.running, guarding.held.plain found rfl⟩
  | release result =>
      refine ⟨guarding.running, ?_⟩
      apply guarding.held.move found
      intro other member
      obtain ⟨different, before⟩ := Finset.mem_erase.mp member
      exact Or.inr (Or.inl ⟨before, fun same => absurd same different⟩)
  | echo value => exact ⟨guarding.running, guarding.held.plain found rfl⟩
  | collect result => exact ⟨guarding.running, guarding.held.plain found rfl⟩
  | invoke callback rest result => exact ⟨guarding.running, guarding.held.plain found rfl⟩
  | quiet stage later numInProgress moves =>
      rw [guarding.running] at moves
      exact ⟨guarding.running, guarding.held.plain found moves.unchanged.1⟩

omit [DecidableEq T] in
theorem Guarding.update (guarding : Guarding worker) (id : T) : Guarding (worker.update id) where
  running := guarding.running
  held := guarding.held.append ⟨id, .called⟩ fun _ member => Or.inl member

theorem Guarding.step (guarding : Guarding worker) {action : WorkerAction T R}
    (ordinary : action.ordinary = true) (stepped : worker.step action = some next) :
    Guarding next := by
  cases action with
  | update id =>
      cases stepped
      exact guarding.update id
  | joinUpdate id =>
      cases stepped
      have registered : Guarding (worker.onUpdateSpecificOnce id) :=
        ⟨guarding.running, guarding.held⟩
      exact registered.update id
  | proceed index =>
      obtain ⟨id, stage, found, advanced⟩ := proceed_cases stepped
      exact guarding.advance found advanced
  | runs index progress =>
      obtain ⟨id, before, found, rfl⟩ := move_run_some stepped
      exact ⟨guarding.running, guarding.held.plain found rfl⟩
  | returns index result =>
      obtain ⟨id, before, found, rfl⟩ := move_run_some stepped
      exact ⟨guarding.running, guarding.held.plain found rfl⟩
  | throws index => cases ordinary
  | stop => cases ordinary

theorem NoOrphan.joinUpdate (noOrphan : NoOrphan worker) (id : T) :
    NoOrphan (worker.joinUpdate id) := by
  apply Attended.append noOrphan
  intro other waiting
  by_cases same : other = id
  · exact Or.inr ⟨same, rfl⟩
  · have kept : (worker.joinUpdate id).callbacks.pending other = worker.callbacks.pending other :=
      Function.update_of_ne same _ _
    rw [kept] at waiting
    exact Or.inl waiting

/-- A call that skips leaves its id to the call that holds it in `updatingSet_`. -/
theorem NoOrphan.skip (noOrphan : NoOrphan worker) (guarding : Guarding worker) {index : Nat}
    {id : T} (found : worker.attempts[index]? = some ⟨id, .queued⟩)
    (held : id ∈ worker.updatingSet) : NoOrphan (worker.moveTo index id (.guarded false)) := by
  apply Attended.move noOrphan found
  intro other waiting
  by_cases same : other = id
  · subst same
    right
    right
    rcases (attempted_iff_at found).mp (guarding.held other held) with ⟨_, holding⟩ | elsewhere
    · cases holding
    · obtain ⟨position, attempt, different, foundOther, sameId, holding⟩ := elsewhere
      exact ⟨position, attempt, different, foundOther, sameId,
        outstanding_of_holding attempt.stage holding⟩
  · exact Or.inr (Or.inl ⟨waiting, fun equal => absurd equal same⟩)

theorem NoOrphan.collect (noOrphan : NoOrphan worker) {index : Nat} {id : T} {stage : Stage R}
    (found : worker.attempts[index]? = some ⟨id, stage⟩) (later : Stage R) :
    NoOrphan ((worker.collectCallbacks id).moveTo index id later) := by
  apply Attended.move noOrphan found
  intro other waiting
  by_cases same : other = id
  · subst same
    exact absurd (Function.update_self _ _ _) waiting
  · have kept : (worker.collectCallbacks id).callbacks.pending other =
        worker.callbacks.pending other := Function.update_of_ne same _ _
    exact Or.inr (Or.inl ⟨fun none => waiting (kept.trans none), fun equal => absurd equal same⟩)

/-- Releasing an id after a failed run strands its callbacks unless another call is on the way. -/
theorem no_orphan_release_iff (noOrphan : NoOrphan worker) {index : Nat} {id : T}
    {exception : ProtocolException}
    (found : worker.attempts[index]? = some ⟨id, .delayed (.error exception)⟩) :
    NoOrphan ((worker.eraseUpdating id).moveTo index id (.released (.error exception))) ↔
      (worker.callbacks.pending id ≠ [] →
        AttemptedElsewhere (fun stage => stage.outstanding = true) index id worker.attempts) := by
  constructor
  · intro after waiting
    rcases (attempted_set found).mp (after id waiting) with ⟨_, outstanding⟩ | elsewhere
    · cases outstanding
    · exact elsewhere
  · intro guarded
    apply Attended.move noOrphan found
    intro other waiting
    by_cases same : other = id
    · subst same
      exact Or.inr (Or.inr (guarded waiting))
    · exact Or.inr (Or.inl ⟨waiting, fun equal => absurd equal same⟩)

theorem no_orphan_advance_iff (noOrphan : NoOrphan worker) (guarding : Guarding worker)
    {index : Nat} {id : T} {stage : Stage R}
    (found : worker.attempts[index]? = some ⟨id, stage⟩)
    (advanced : Advance worker index id stage next) :
    NoOrphan next ↔ FailureStrandsNobody worker (.proceed index) := by
  have harmless (other : stage.afterFailure = false) (kept : NoOrphan next) :
      NoOrphan next ↔ FailureStrandsNobody worker (.proceed index) := by
    apply iff_of_true kept
    intro failed exception atFailure
    rw [found] at atFailure
    cases atFailure
    cases other
  cases advanced with
  | guard free =>
      exact harmless rfl (Attended.plain noOrphan found rfl)
  | skip held => exact harmless rfl (noOrphan.skip guarding found held)
  | collect result =>
      exact harmless rfl (noOrphan.collect found _)
  | release result =>
      cases result with
      | ok value => exact harmless rfl (Attended.plain noOrphan found rfl)
      | error exception =>
          apply (no_orphan_release_iff noOrphan found).trans
          constructor
          · intro guarded failed other atFailure
            rw [found] at atFailure
            cases atFailure
            exact guarded
          · intro guarded
            exact guarded id exception found
  | echo value =>
      exact harmless rfl (Attended.plain noOrphan found rfl)
  | invoke callback rest result =>
      exact harmless rfl (Attended.plain noOrphan found rfl)
  | quiet stage later numInProgress moves =>
      rw [guarding.running] at moves
      exact harmless moves.not_after_failure (Attended.plain noOrphan found moves.unchanged.2)

theorem no_orphan_step_iff (guarding : Guarding worker) {action : WorkerAction T R}
    (ordinary : action.ordinary = true) (noOrphan : NoOrphan worker) :
    (∀ next, worker.step action = some next → NoOrphan next) ↔
      FailureStrandsNobody worker action := by
  cases action with
  | update id =>
      apply iff_of_true _ trivial
      intro next stepped
      cases stepped
      exact Attended.append noOrphan ⟨id, .called⟩ fun _ waiting => Or.inl waiting
  | joinUpdate id =>
      apply iff_of_true _ trivial
      intro next stepped
      cases stepped
      exact noOrphan.joinUpdate id
  | runs index progress =>
      apply iff_of_true _ trivial
      intro next stepped
      obtain ⟨id, before, found, rfl⟩ := move_run_some stepped
      exact Attended.plain noOrphan found rfl
  | returns index result =>
      apply iff_of_true _ trivial
      intro next stepped
      obtain ⟨id, before, found, rfl⟩ := move_run_some stepped
      exact Attended.plain noOrphan found rfl
  | proceed index =>
      constructor
      · intro kept id exception found
        have stepped : worker.proceed index =
            some ((worker.eraseUpdating id).moveTo index id (.released (.error exception))) := by
          rw [Worker.proceed, found]
          rfl
        exact (no_orphan_release_iff noOrphan found).mp (kept _ stepped)
      · intro guarded next stepped
        obtain ⟨id, stage, found, advanced⟩ := proceed_cases stepped
        exact (no_orphan_advance_iff noOrphan guarding found advanced).mpr guarded
  | throws index => cases ordinary
  | stop => cases ordinary

/-- However calls of `joinUpdate` and `update` interleave, every callback in the table has a
call of `update` on the way in every state of the run exactly when no failed run, at the end of
its delay, leaves behind a callback that no other call of `update` is on the way to. -/
theorem joins_attended_iff_failures_strand_nobody (actions : List (WorkerAction T R))
    (ordinary : ∀ action ∈ actions, action.ordinary = true) :
    (workerMachine T R).Along NoOrphan actions .initial ↔
      (workerMachine T R).Guarded FailureStrandsNobody actions .initial := by
  have preserved : ∀ (worker : Worker T R) (action : WorkerAction T R) (next : Worker T R),
      Guarding worker → action.ordinary = true →
      (workerMachine T R).step worker action = some next → Guarding next :=
    fun worker action next guarding allowed stepped => guarding.step allowed stepped
  have exactly : ∀ (worker : Worker T R) (action : WorkerAction T R), Guarding worker →
      action.ordinary = true → NoOrphan worker →
      ((∀ next, (workerMachine T R).step worker action = some next → NoOrphan next) ↔
        FailureStrandsNobody worker action) :=
    fun worker action guarding allowed noOrphan => no_orphan_step_iff guarding allowed noOrphan
  exact Machine.along_iff_guarded preserved exactly actions ordinary guarding_initial
    no_orphan_initial

end Orphans

/-- A join whose run succeeds while a second join for the same centroid comes in. -/
def joinedTwice : List (WorkerAction Nat Unit) :=
  [.joinUpdate 7, .proceed 0, .proceed 0, .proceed 0, .proceed 0, .joinUpdate 7, .proceed 1,
    .proceed 1, .returns 0 (.ok true), .proceed 0, .proceed 0, .proceed 0, .proceed 0, .proceed 0]

theorem joined_twice_attended :
    (workerMachine Nat Unit).Along NoOrphan joinedTwice .initial ↔
      (workerMachine Nat Unit).Guarded FailureStrandsNobody joinedTwice .initial :=
  joins_attended_iff_failures_strand_nobody joinedTwice (by decide)

/-- A join whose run returns `ECentroidDoesNotExist`, up to the end of the delay after it. -/
def joinedMissingCentroid : List (WorkerAction Nat Unit) :=
  [.joinUpdate 7, .proceed 0, .proceed 0, .proceed 0, .proceed 0,
    .returns 0 (.error .eCentroidDoesNotExist), .proceed 0, .proceed 0]

theorem joined_missing_centroid_is_orphaned :
    (∀ action ∈ joinedMissingCentroid, action.ordinary = true) ∧
      ∃ worker, (workerMachine Nat Unit).exec joinedMissingCentroid .initial = some worker ∧
        worker.callbacks.pending 7 ≠ [] ∧
        ∀ attempt ∈ worker.attempts, attempt.id = 7 → attempt.stage.outstanding = false :=
  ⟨by decide, _, rfl, by decide, by decide⟩

end Relevanced.CentroidUpdate

import Relevanced.CentroidUpdate.CentroidUpdater
import Relevanced.Persistence.Creation
import Relevanced.Persistence.Listings

/-!
# Deleted centroids

`deleteCentroid` removes the body of a centroid, then the records an iterator shows of its
members, then those of its metadata. What is written of the centroid once the delete has
gone past it stays; without such a write nothing of a deleted centroid is left.
-/

namespace Relevanced.CentroidUpdate

open Foundation
open Models
open Persistence
open Persistence.SyncPersistence

set_option autoImplicit false

variable {F α : Type}

structure CentroidGone (store : Store) (centroidId : Bytes) : Prop where
  body : ((doesCentroidExist centroidId).run rockHandle store).1 = false
  members : ∀ docId, getCentroidDocumentKey centroidId docId ∉ store
  metadata : ∀ metadataName, getCentroidMetadataKey centroidId metadataName ∉ store

def centroidDeletedBy : PersistenceCall F → Option Bytes
  | .deleteCentroid id => some id
  | _ => none

/-- A delete of the centroid that has reported success has left nothing of it. -/
def StaysDeleted (centroidId : Bytes) (pool : ThreadPool F α) : Prop :=
  ∀ task ∈ pool.tasks, centroidDeletedBy task.request = some centroidId →
    PersistenceTask.outcome task = some (.ok true) → CentroidGone pool.store centroidId

/-- The labels whose records `deleteCentroid` erases, in that order. -/
def centroidLabels (centroidId : Bytes) : List Bytes :=
  [getCentroidDocumentPrefix centroidId, centroidMetadataPrefix centroidId]

/-- The calls that have been made reach past the key: the body has been deleted, or the iterator
that would show the key has been made. -/
def ReachedPast (centroidId : Bytes) (made : List RockCall) (key : Bytes) : Prop :=
  key = getCentroidKey centroidId ∧ .del key ∈ made ∨
    ∃ label ∈ (centroidLabels centroidId).take (made.count .newIterator), label ++ [colon] <+: key

/-- A delete of the centroid that has found it has gone past the key. -/
def Passed (centroidId : Bytes) (task : PersistenceTask F) (key : Bytes) : Prop :=
  centroidDeletedBy task.request = some centroidId ∧
    PersistenceTask.outcome task ≠ some (.error .eCentroidDoesNotExist) ∧
    ReachedPast centroidId task.made key

instance (centroidId : Bytes) (task : PersistenceTask F) (key : Bytes) :
    Decidable (Passed centroidId task key) := by
  unfold Passed ReachedPast
  infer_instance

def keyWritten (task : PersistenceTask F) : Option Bytes :=
  match task.next with
  | some (.put key _) => some key
  | _ => none

/-- No record is written anew that a delete of the centroid has gone past. -/
def NoLateWrites (centroidId : Bytes) (pool : ThreadPool F α) : PersistenceAction F → Prop
  | .task index => ∀ writer ∈ pool.tasks[index]?, ∀ key ∈ keyWritten writer, key ∉ pool.store →
      ∀ task ∈ pool.tasks, ¬ Passed centroidId task key
  | _ => True

instance (centroidId : Bytes) (pool : ThreadPool F α) :
    ∀ action : PersistenceAction F, Decidable (NoLateWrites centroidId pool action)
  | .task index => inferInstanceAs (Decidable (∀ writer ∈ pool.tasks[index]?,
      ∀ key ∈ keyWritten writer, key ∉ pool.store →
        ∀ task ∈ pool.tasks, ¬ Passed centroidId task key))
  | .issue _ | .client _ => isTrue trivial

section Erasing

/-- The calls that delete the keys, and then what remains. -/
def deletes : List Bytes → RockProgram (Try Bool) → RockProgram (Try Bool)
  | [], rest => rest
  | key :: keys, rest => .call (.del key) fun _ => deletes keys rest

/-- What remains of `deleteCentroid` when the records under the labels are still to be erased. -/
def eraseLabels : List Bytes → RockProgram (Try Bool)
  | [] => pure (.ok true)
  | label :: labels => .call .newIterator fun entries =>
      deletes ((visited (label ++ [colon]) (label ++ [semicolon]) entries).map Prod.fst)
        (eraseLabels labels)

theorem walk_erasing_bind (entries : List (Bytes × Bytes)) (foundAny : Bool)
    (rest : RockProgram (Try Bool)) :
    (walk erasing entries foundAny () >>= fun _ => rest) = deletes (entries.map Prod.fst) rest := by
  induction entries generalizing foundAny with
  | nil => rfl
  | cons entry entries ih =>
      apply congrArg (@Program.call RockHandleIf (Try Bool) (.del entry.1))
      funext _
      exact ih true

theorem erase_under_prefix_bind (label : Bytes) (labels : List Bytes) :
    (eraseUnderPrefix label >>= fun _ => eraseLabels labels) = eraseLabels (label :: labels) := by
  rw [eraseUnderPrefix, iterPrefix, iter_range_eq, bind_assoc, bind_assoc]
  apply congrArg (@Program.call RockHandleIf (Try Bool) .newIterator)
  funext entries
  exact walk_erasing_bind _ false (eraseLabels labels)

theorem delete_centroid_eq (centroidId : Bytes) :
    deleteCentroid centroidId = .call (.del (getCentroidKey centroidId)) fun found =>
      if found then eraseLabels (centroidLabels centroidId)
      else pure (.error .eCentroidDoesNotExist) := by
  apply congrArg (@Program.call RockHandleIf (Try Bool) (.del (getCentroidKey centroidId)))
  funext found
  cases found with
  | false => rfl
  | true =>
      change (eraseUnderPrefix (getCentroidDocumentPrefix centroidId) >>= fun _ =>
        eraseUnderPrefix (centroidMetadataPrefix centroidId) >>= fun _ => eraseLabels []) = _
      rw [erase_under_prefix_bind, erase_under_prefix_bind]
      rfl

end Erasing

/-- How far a delete of the centroid has come. -/
inductive DeleteStage (centroidId : Bytes) (store : Store) (made : List RockCall)
    (program : RockProgram (Try Bool)) : Prop where
  | waiting (untouched : made = []) (remaining : program = deleteCentroid centroidId)
  | failed (remaining : program = .done (.error .eCentroidDoesNotExist))
  /-- The keys are those the latest iterator has shown and that are still to be deleted. -/
  | erasing (keys : List Bytes) (begun : .del (getCentroidKey centroidId) ∈ made)
      (remaining : program =
        deletes keys (eraseLabels ((centroidLabels centroidId).drop (made.count .newIterator))))
      (left : ∀ key ∈ store, ReachedPast centroidId made key → key ∈ keys)
      (bodyGone : getCentroidKey centroidId ∉ store)

/-- A task that deletes the centroid is in one of the stages. -/
def DeleteStaged (centroidId : Bytes) (store : Store) : PersistenceTask F → Prop
  | ⟨.deleteCentroid id, made, program⟩ =>
      id = centroidId → DeleteStage centroidId store made program
  | _ => True

section Stages

variable {centroidId : Bytes} {store : Store} {made : List RockCall}

theorem reached_past_cons {call : RockCall} {key : Bytes}
    (reached : ReachedPast centroidId (call :: made) key) :
    ReachedPast centroidId made key ∨ call = .del key ∨
      call = .newIterator ∧ ∃ label ∈ (centroidLabels centroidId)[made.count .newIterator]?,
        label ++ [colon] <+: key := by
  rcases reached with ⟨isBody, deleted⟩ | ⟨label, taken, under⟩
  · rcases List.mem_cons.mp deleted with now | before
    · exact .inr (.inl now.symm)
    · exact .inl (.inl ⟨isBody, before⟩)
  · by_cases iterates : call = .newIterator
    · rw [iterates, List.count_cons_self, List.take_add_one] at taken
      rcases List.mem_append.mp taken with before | now
      · exact .inl (.inr ⟨label, before, under⟩)
      · exact .inr (.inr ⟨iterates, label, Option.mem_toList.mp now, under⟩)
    · rw [List.count_cons_of_ne iterates] at taken
      exact .inl (.inr ⟨label, taken, under⟩)

theorem label_begins_key (record : LogicalRecord) :
    record.scan.label ++ [colon] <+: record.storeKey := by
  rw [LogicalRecord.store_key_eq_join]
  exact ⟨record.rest, by simp [join]⟩

theorem result_of_deletes (keys labels : List Bytes) (error : ProtocolException) :
    (deletes keys (eraseLabels labels)).result ≠ some (.error error) := by
  intro failed
  cases keys with
  | cons key keys => cases failed
  | nil =>
      cases labels with
      | cons label labels => cases failed
      | nil => cases failed

theorem DeleteStage.ended (stage : DeleteStage centroidId store made (.done (.ok true))) :
    CentroidGone store centroidId := by
  cases stage with
  | waiting untouched remaining => cases remaining
  | failed remaining => cases remaining
  | erasing keys begun remaining left bodyGone =>
      have noKeys : keys = [] := by
        cases keys with
        | nil => rfl
        | cons key keys => cases remaining
      subst noKeys
      have allReached : (centroidLabels centroidId).drop (made.count .newIterator) = [] := by
        cases toErase : (centroidLabels centroidId).drop (made.count .newIterator) with
        | nil => rfl
        | cons label labels =>
            rw [toErase] at remaining
            cases remaining
      have absent {label key : Bytes} (isLabel : label ∈ centroidLabels centroidId)
          (under : label ++ [colon] <+: key) : key ∉ store := by
        intro present
        apply List.not_mem_nil (left key present (.inr ⟨label, _, under⟩))
        rw [List.take_of_length_le (List.drop_eq_nil_iff.mp allReached)]
        exact isLabel
      constructor
      · rw [doesCentroidExist, run_exists_key]
        exact eq_false_of_ne_true fun held => bodyGone (Std.ExtTreeMap.contains_iff_mem.mp held)
      · intro docId
        exact absent List.mem_cons_self (label_begins_key (.member centroidId docId))
      · intro metadataName
        exact absent (List.mem_cons_of_mem _ List.mem_cons_self)
          (label_begins_key (.centroidMetadata centroidId metadataName))

theorem DeleteStage.step {call : RockCall}
    {rest : RockHandleIf.Answer call → RockProgram (Try Bool)}
    (stage : DeleteStage centroidId store made (.call call rest)) :
    DeleteStage centroidId (rockHandle call store).2 (call :: made)
      (rest (rockHandle call store).1) := by
  cases stage with
  | failed remaining => cases remaining
  | waiting untouched remaining =>
      rw [delete_centroid_eq] at remaining
      cases remaining
      subst untouched
      by_cases present : getCentroidKey centroidId ∈ store
      · have found : store.contains (getCentroidKey centroidId) = true :=
          Std.ExtTreeMap.contains_iff_mem.mpr present
        simp only [rockHandle, found, if_true]
        apply DeleteStage.erasing [] List.mem_cons_self rfl
        · intro key stored reached
          rcases reached_past_cons reached with before | now | ⟨iterates, _⟩
          · rcases before with ⟨_, deleted⟩ | ⟨label, taken, _⟩
            · cases deleted
            · cases taken
          · cases now
            exact absurd rfl (OrderedMap.mem_erase_iff.mp stored).1
          · cases iterates
        · intro stored
          exact (OrderedMap.mem_erase_iff.mp stored).1 rfl
      · have missing : store.contains (getCentroidKey centroidId) = false :=
          eq_false_of_ne_true fun held => present (Std.ExtTreeMap.contains_iff_mem.mp held)
        simp only [rockHandle, missing, Bool.false_eq_true, if_false]
        exact .failed rfl
  | erasing keys begun remaining left bodyGone =>
      cases keys with
      | cons key keys =>
          cases remaining
          rw [store_after_del]
          have deletesOnly : RockCall.del key ≠ .newIterator := by
            intro same
            cases same
          have others := List.count_cons_of_ne deletesOnly (l := made)
          apply DeleteStage.erasing keys (List.mem_cons_of_mem _ begun)
          · rw [others]
          · intro other stored reached
            obtain ⟨different, before⟩ := OrderedMap.mem_erase_iff.mp stored
            rcases reached_past_cons reached with earlier | now | ⟨iterates, _⟩
            · exact (List.mem_cons.mp (left other before earlier)).resolve_left different
            · exact absurd (RockCall.del.inj now).symm different
            · cases iterates
          · intro stored
            exact bodyGone (OrderedMap.mem_erase_iff.mp stored).2
      | nil =>
          rw [List.drop_eq_getElem?_toList_append] at remaining
          cases isNext : (centroidLabels centroidId)[made.count .newIterator]? with
          | none =>
              have allReached := List.getElem?_eq_none_iff.mp isNext
              rw [isNext, List.drop_eq_nil_of_le (Nat.le_succ_of_le allReached)] at remaining
              cases remaining
          | some label =>
              rw [isNext] at remaining
              cases remaining
              have one : (RockCall.newIterator :: made).count .newIterator =
                  made.count .newIterator + 1 := List.count_cons_self
              apply DeleteStage.erasing _ (List.mem_cons_of_mem _ begun)
              · rw [one]
                rfl
              · intro key stored reached
                rcases reached_past_cons reached with before | now | ⟨_, shown, isShown, under⟩
                · cases left key stored before
                · cases now
                · rw [isNext] at isShown
                  cases isShown
                  change key ∈ (visited _ _ store.toList).map Prod.fst
                  rw [visited_to_list]
                  exact (mem_keys_under_iff store label key).mpr ⟨under, stored⟩
              · exact bodyGone

/-- What the other tasks do does not matter as long as they write nothing anew that the delete has
gone past. -/
theorem DeleteStage.frame {program : RockProgram (Try Bool)} {later : Store}
    (stage : DeleteStage centroidId store made program)
    (anew : ∀ key ∈ later, key ∉ store →
      program.result ≠ some (.error .eCentroidDoesNotExist) → ¬ ReachedPast centroidId made key) :
    DeleteStage centroidId later made program := by
  cases stage with
  | waiting untouched remaining => exact .waiting untouched remaining
  | failed remaining => exact .failed remaining
  | erasing keys begun remaining left bodyGone =>
      have erases : program.result ≠ some (.error .eCentroidDoesNotExist) := by
        rw [remaining]
        exact result_of_deletes keys _ _
      have old {key : Bytes} (stored : key ∈ later) (reached : ReachedPast centroidId made key) :
          key ∈ store := by
        by_contra absent
        exact anew key stored absent erases reached
      apply DeleteStage.erasing keys begun remaining
      · intro key stored reached
        exact left key (old stored reached) reached
      · intro stored
        exact bodyGone (old stored (.inl ⟨rfl, begun⟩))

theorem put_of_anew {call : RockCall} {key : Bytes} (stored : key ∈ (rockHandle call store).2)
    (absent : key ∉ store) : ∃ value, call = .put key value := by
  cases call with
  | put written value =>
      have isWritten := (OrderedMap.mem_insert_iff.mp stored).resolve_right absent
      exact ⟨value, by rw [isWritten]⟩
  | del deleted =>
      rw [store_after_del] at stored
      exact absurd (OrderedMap.mem_erase_iff.mp stored).2 absent
  | _ => exact absurd stored absent

end Stages

section Tasks

variable {centroidId : Bytes} {store : Store} {task : PersistenceTask F}

theorem DeleteStaged.frame {later : Store} (staged : DeleteStaged centroidId store task)
    (anew : ∀ key ∈ later, key ∉ store → ¬ Passed centroidId task key) :
    DeleteStaged centroidId later task := by
  obtain ⟨request, made, program⟩ := task
  cases request with
  | deleteCentroid id =>
      intro same
      apply (staged same).frame
      intro key stored absent unfailed reached
      have answered : PersistenceTask.outcome (F := F) ⟨.deleteCentroid id, made, program⟩ =
          program.result := Option.map_id'
      exact anew key stored absent ⟨congrArg some same, answered ▸ unfailed, reached⟩
  | _ => trivial

theorem DeleteStaged.after {call : RockCall}
    {rest : RockHandleIf.Answer call → RockProgram ((PersistenceIf F).Reply task.request)}
    (staged : DeleteStaged centroidId store task) (remaining : task.program = .call call rest) :
    DeleteStaged centroidId (rockHandle call store).2
      (task.after call (rest (rockHandle call store).1)) := by
  obtain ⟨request, made, program⟩ := task
  cases request with
  | deleteCentroid id =>
      intro same
      have stage := staged same
      have isCall : program = .call call rest := remaining
      rw [isCall] at stage
      exact stage.step
  | _ => trivial

theorem DeleteStaged.gone (staged : DeleteStaged centroidId store task)
    (deletes : centroidDeletedBy task.request = some centroidId)
    (succeeded : PersistenceTask.outcome task = some (.ok true)) :
    CentroidGone store centroidId := by
  obtain ⟨request, made, program⟩ := task
  cases request with
  | deleteCentroid id =>
      have answered : program.result = some (.ok true) := Option.map_id'.symm.trans succeeded
      have stage := staged (Option.some.inj deletes)
      rw [Program.eq_done_of_result answered] at stage
      exact stage.ended
  | _ => cases deletes

variable [Zero F] [One F] {serialization : Serialization F} {pool next : ThreadPool F α}

theorem delete_staged_new (request : PersistenceCall F) :
    DeleteStaged centroidId store (.new (persistence serialization) request) := by
  cases request with
  | deleteCentroid id =>
      intro same
      rw [← same]
      exact .waiting rfl rfl
  | _ => trivial

theorem delete_staged_issue
    (staged : ∀ task ∈ pool.tasks, DeleteStaged centroidId pool.store task)
    (request : PersistenceCall F) :
    ∀ task ∈ (pool.issue (persistence serialization) request).tasks,
      DeleteStaged centroidId pool.store task := by
  intro task member
  rcases List.mem_append.mp member with old | new
  · exact staged task old
  · rw [List.mem_singleton.mp new]
    exact delete_staged_new request

theorem delete_staged_step
    (staged : ∀ task ∈ pool.tasks, DeleteStaged centroidId pool.store task)
    {action : PersistenceAction F} (inTime : NoLateWrites centroidId pool action)
    (stepped : (persistenceMachine α serialization).step pool action = some next) :
    ∀ task ∈ next.tasks, DeleteStaged centroidId next.store task := by
  cases pool_step_cases stepped with
  | issued request => exact delete_staged_issue staged request
  | submitted index request rest found => exact delete_staged_issue staged request
  | awaited index future kind rest task same value found present finished => exact staged
  | called index task call rest found remaining =>
      intro other member
      rcases List.mem_or_eq_of_mem_set member with old | rfl
      · apply (staged other old).frame
        intro key stored absent
        obtain ⟨value, rfl⟩ := put_of_anew stored absent
        have writes : keyWritten task = some key := by
          rw [keyWritten, next_of_call remaining]
        exact inTime task found key writes absent other old
      · exact (staged task (List.mem_of_getElem? found)).after remaining

/-- In every run in which no record of a centroid is written anew once a delete has gone past it,
nothing is stored of the centroid from the time a delete of it has been answered. -/
theorem stays_deleted_of_no_late_writes (centroidId : Bytes) (store : Store)
    (clients : List (ClientProgram (PersistenceIf F) α)) (actions : List (PersistenceAction F))
    (inTime : (persistenceMachine α serialization).Guarded (NoLateWrites centroidId) actions
      (.initial store clients)) :
    (persistenceMachine α serialization).Along (StaysDeleted centroidId) actions
      (.initial store clients) := by
  have preserved : ∀ (pool : ThreadPool F α) (action : PersistenceAction F) (next : ThreadPool F α),
      (∀ task ∈ pool.tasks, DeleteStaged centroidId pool.store task) → True →
      NoLateWrites centroidId pool action →
      (persistenceMachine α serialization).step pool action = some next →
      ∀ task ∈ next.tasks, DeleteStaged centroidId next.store task := by
    intro pool action next staged _ guarded stepped
    exact delete_staged_step staged guarded stepped
  have implies : ∀ pool : ThreadPool F α,
      (∀ task ∈ pool.tasks, DeleteStaged centroidId pool.store task) →
      StaysDeleted centroidId pool := by
    intro pool staged task member deletes succeeded
    exact (staged task member).gone deletes succeeded
  apply Machine.along_of_guarded preserved implies actions (fun _ _ => trivial) _ inTime
  intro task member
  cases member

end Tasks

section Windows

open CentroidUpdater

def memberlessStore : Store :=
  ((createNewCentroid (.idsOnly : Serialization Nat) (ascii "c")).run rockHandle ∅).2

/-- A run over the centroid up to the request to save it. -/
def untilSaving : List (PersistenceAction Nat) :=
  [.client 0, .task 0, .client 0, .client 0, .task 1, .task 1, .client 0, .client 0, .task 2,
    .client 0, .client 0]

/-- The centroid is deleted when the run has saved it and stamped it. -/
def deletedAfterwards : List (PersistenceAction Nat) :=
  untilSaving ++ [.task 3, .client 0, .client 0, .task 4, .issue (.deleteCentroid (ascii "c")),
    .task 5, .task 5, .task 5, .task 5]

theorem deleted_afterwards_stays_deleted :
    (persistenceMachine (RunOutcome Nat) .idsOnly).Along (StaysDeleted (ascii "c"))
      deletedAfterwards (.initial memberlessStore [run id (ascii "c") 0 1]) :=
  stays_deleted_of_no_late_writes (ascii "c") memberlessStore [run id (ascii "c") 0 1]
    deletedAfterwards (by decide +kernel)

/-- The centroid is deleted between the last look at it and the request to save it. -/
def deletedBeforeSaving : List (PersistenceAction Nat) :=
  untilSaving ++ [.issue (.deleteCentroid (ascii "c")), .task 4, .task 4, .task 4, .task 3,
    .client 0, .client 0, .task 5]

/-- The ids a run has passed; whether the delete has succeeded, every request is done and none was
to create a centroid; and whether the centroid is there. -/
def deletedSummary (last : ThreadPool Nat (RunOutcome Nat)) :
    Option (List Bytes) × Bool × Bool × Bool × Bool :=
  (passedIds last,
    last.tasks.any fun task => decide (centroidDeletedBy task.request = some (ascii "c") ∧
      PersistenceTask.outcome task = some (.ok true)),
    last.tasks.all fun task => decide (task.next = none),
    last.requests.all fun request => decide (request.creates = none),
    last.store.contains (getCentroidKey (ascii "c")))

/-- The delete reports success, everything in flight ends, and the centroid is there. -/
theorem saved_centroid_returns :
    ∃ (last : ThreadPool Nat (RunOutcome Nat)) (passed : List (ProcessedDocument Nat))
      (centroid : Centroid Nat),
      (persistenceMachine (RunOutcome Nat) .idsOnly).exec deletedBeforeSaving
        (.initial memberlessStore [run id (ascii "c") 0 1]) = some last ∧
      last.clients = [.done (.updated passed centroid)] ∧
      (∀ task ∈ last.tasks, task.next = none) ∧
      (∀ request ∈ last.requests, request.creates = none) ∧
      ¬ StaysDeleted (ascii "c") last := by
  have summary : ((persistenceMachine (RunOutcome Nat) .idsOnly).exec deletedBeforeSaving
      (.initial memberlessStore [run id (ascii "c") 0 1])).map deletedSummary =
        some (some [], true, true, true, true) := by
    decide +kernel
  obtain ⟨last, executed, ended⟩ := Option.map_eq_some_iff.mp summary
  simp only [deletedSummary, Prod.mk.injEq, List.any_eq_true, List.all_eq_true, decide_eq_true_eq]
    at ended
  obtain ⟨done, ⟨task, member, deletes, succeeded⟩, atRest, noCreation, present⟩ := ended
  obtain ⟨passed, centroid, isDone, _⟩ := updated_of_passed_ids done
  refine ⟨last, passed, centroid, executed, isDone, atRest, noCreation, ?_⟩
  intro staysDeleted
  have missing := (staysDeleted task member deletes succeeded).body
  change last.store.contains (getCentroidKey (ascii "c")) = false at missing
  rw [present] at missing
  cases missing

end Windows

end Relevanced.CentroidUpdate

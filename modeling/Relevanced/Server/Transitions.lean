import Relevanced.Server.RelevanceServer

/-!
# What one step of the server can do

Each enabled action is put into the form its effect has, with the entry it acts on.
The invariants of the server are proved from these forms alone.
-/

namespace Relevanced.Server

open Foundation
open CentroidUpdate
open Persistence (Try ProtocolException)

set_option autoImplicit false

variable {T D : Type} [DecidableEq T] [DecidableEq D]

/-- The effect of an enabled action. -/
inductive Transition (server : RelevanceServer T D) :
    ServerAction T D → RelevanceServer T D → Prop where
  | commit (id : T) (change : Change D) (ignoring : Bool)
      (absent : ∀ docId, change = .add docId → addedAt docId (server.history id) = none) :
      Transition server (.request id change ignoring)
        { server with
          history := Function.update server.history id (change :: server.history id)
          requests := server.requests ++ [⟨id, change, (server.history id).length, .committed⟩] }
  | confirm (id : T) (docId : D) (ordinal : Nat)
      (present : addedAt docId (server.history id) = some ordinal) :
      Transition server (.request id (.add docId) true)
        { server with
          requests := server.requests ++
            [⟨id, .add docId, ordinal, .acknowledged none none⟩] }
  | reject (id : T) (change : Change D) (ignoring : Bool) :
      Transition server (.request id change ignoring) server
  | stamp (index : Nat) (id : T) (change : Change D) (ordinal : Nat)
      (found : server.requests[index]? = some ⟨id, change, ordinal, .committed⟩) :
      Transition server (.stampRequest index)
        { server with
          requests := server.requests.set index ⟨id, change, ordinal, .stamped server.clock⟩
          puts := server.puts ++ [.lastDocumentChange id ordinal server.clock] }
  | trigger (index time : Nat) (id : T) (change : Change D) (ordinal stamp : Nat)
      (queue : Util.World T)
      (found : server.requests[index]? = some ⟨id, change, ordinal, .stamped stamp⟩)
      (running : server.updateWorker.stopping = false)
      (stepped : server.updateQueue.step (.write id time) = some queue) :
      Transition server (.triggerUpdate index time)
        { server with
          requests := server.requests.set index
            ⟨id, change, ordinal, .acknowledged (some stamp) (some queue.now)⟩
          updateQueue := queue }
  | refuse (index time : Nat) (id : T) (change : Change D) (ordinal stamp : Nat)
      (found : server.requests[index]? = some ⟨id, change, ordinal, .stamped stamp⟩)
      (stopped : server.updateWorker.stopping = true) :
      Transition server (.triggerUpdate index time)
        { server with
          requests := server.requests.set index
            ⟨id, change, ordinal, .acknowledged (some stamp) none⟩ }
  | putChange (index : Nat) (id : T) (ordinal stamp : Nat)
      (found : server.puts[index]? = some (.lastDocumentChange id ordinal stamp)) :
      Transition server (.executePut index)
        { server with
          puts := server.puts.eraseIdx index
          lastDocumentChange := Function.update server.lastDocumentChange id (some stamp) }
  | putCalculated (index : Nat) (id : T) (stamp upTo : Nat)
      (found : server.puts[index]? = some (.lastCalculated id stamp upTo)) :
      Transition server (.executePut index)
        { server with
          puts := server.puts.eraseIdx index
          lastCalculated := Function.update server.lastCalculated id (some stamp) }
  | tick (seconds : Nat) :
      Transition server (.tick seconds) { server with clock := server.clock + seconds }
  | fire (index time : Nat) (queue : Util.World T)
      (stepped : server.updateQueue.step (.fire index time) = some queue)
      (silent : RelevanceServer.calling server.updateQueue (.fire index time) = none) :
      Transition server (.fire index time) { server with updateQueue := queue }
  | call (index time : Nat) (queue : Util.World T) (id : T)
      (stepped : server.updateQueue.step (.fire index time) = some queue)
      (calls : RelevanceServer.calling server.updateQueue (.fire index time) = some id) :
      Transition server (.fire index time)
        { server with updateQueue := queue, updateWorker := server.updateWorker.update id }
  | update (id : T) :
      Transition server (.update id)
        { server with updateWorker := server.updateWorker.update id }
  | proceed (index : Nat) (id : T) (stage : Stage RunProgress)
      (worker : Worker T RunProgress) (reloads : List (Reload T))
      (found : server.updateWorker.attempts[index]? = some ⟨id, stage⟩)
      (advanced : Advance server.updateWorker index id stage worker)
      (echoed : reloads = server.reloads ∨ reloads = server.reloads ++ [⟨id, .submitted⟩]) :
      Transition server (.proceed index)
        { server with updateWorker := worker, reloads := reloads }
  | readClock (index : Nat) (id : T)
      (found : server.updateWorker.attempts[index]? = some ⟨id, .running none⟩) :
      Transition server (.readClock index)
        (server.moveRun index id (.running (some (.started server.clock))))
  | listMembers (index : Nat) (id : T) (start : Nat)
      (found : server.updateWorker.attempts[index]? = some ⟨id, .running (some (.started start))⟩) :
      Transition server (.listMembers index)
        { server.moveRun index id (.running (some (.listed start (server.history id).length))) with
          listings := ⟨id, start, (server.history id).length⟩ :: server.listings }
  | saveCentroid (index : Nat) (id : T) (start upTo : Nat)
      (found : server.updateWorker.attempts[index]? =
        some ⟨id, .running (some (.listed start upTo))⟩) :
      Transition server (.saveCentroid index)
        { server.moveRun index id (.running (some (.saved start upTo))) with
          saved := Function.update server.saved id upTo }
  | finishRun (index : Nat) (id : T) (start upTo : Nat)
      (found : server.updateWorker.attempts[index]? =
        some ⟨id, .running (some (.saved start upTo))⟩) :
      Transition server (.finishRun index)
        { server.moveRun index id (.ran (.ok true)) with
          puts := server.puts ++ [.lastCalculated id start upTo] }
  | returnException (index : Nat) (id : T) (progress : Option RunProgress)
      (exception : ProtocolException)
      (found : server.updateWorker.attempts[index]? = some ⟨id, .running progress⟩) :
      Transition server (.returnException index exception)
        (server.moveRun index id (.ran (.error exception)))
  | throwException (index : Nat) (id : T) (progress : Option RunProgress)
      (found : server.updateWorker.attempts[index]? = some ⟨id, .running progress⟩) :
      Transition server (.throwException index) (server.moveRun index id .thrown)
  | readStored (index : Nat) (id : T)
      (found : server.reloads[index]? = some ⟨id, .submitted⟩) :
      Transition server (.stepReload index)
        { server with reloads := server.reloads.set index ⟨id, .read (server.saved id)⟩ }
  | findNone (index : Nat) (id : T) (upTo : Nat)
      (found : server.reloads[index]? = some ⟨id, .read upTo⟩) :
      Transition server (.stepReload index)
        { server with reloads := server.reloads.set index ⟨id, .adding upTo⟩ }
  | find (index : Nat) (id : T) (upTo : Nat)
      (found : server.reloads[index]? = some ⟨id, .read upTo⟩) :
      Transition server (.stepReload index)
        { server with reloads := server.reloads.set index ⟨id, .updating upTo⟩ }
  | setValue (index : Nat) (id : T) (upTo : Nat)
      (found : server.reloads[index]? = some ⟨id, .updating upTo⟩) :
      Transition server (.stepReload index)
        { server with
          reloads := server.reloads.set index ⟨id, .inserted upTo⟩
          held := Function.update server.held id (some upTo) }
  | addData (index : Nat) (id : T) (upTo : Nat)
      (found : server.reloads[index]? = some ⟨id, .adding upTo⟩) (absent : server.held id = none) :
      Transition server (.stepReload index)
        { server with
          reloads := server.reloads.set index ⟨id, .inserted upTo⟩
          held := Function.update server.held id (some upTo) }
  | getData (index : Nat) (id : T) (upTo other : Nat)
      (found : server.reloads[index]? = some ⟨id, .adding upTo⟩)
      (added : server.held id = some other) :
      Transition server (.stepReload index)
        { server with reloads := server.reloads.set index ⟨id, .inserted upTo⟩ }
  | joinCentroid (id : T) :
      Transition server (.joinCentroid id)
        { server with
          joins := server.joins ++ [⟨id, server.acknowledged id, .reading none none⟩] }
  | readLastCalculated (index : Nat) (id : T) (expects : List (D × Nat))
      (lastChanged : Option (Option Nat))
      (found : server.joins[index]? = some ⟨id, expects, .reading none lastChanged⟩) :
      Transition server (.readLastCalculated index)
        { server with
          joins := server.joins.set index
            ⟨id, expects, .reading (some (server.lastCalculated id)) lastChanged⟩ }
  | readLastDocumentChange (index : Nat) (id : T) (expects : List (D × Nat))
      (lastCalculated : Option (Option Nat))
      (found : server.joins[index]? = some ⟨id, expects, .reading lastCalculated none⟩) :
      Transition server (.readLastDocumentChange index)
        { server with
          joins := server.joins.set index
            ⟨id, expects, .reading lastCalculated (some (server.lastDocumentChange id))⟩ }
  | answerCurrent (index : Nat) (id : T) (expects : List (D × Nat))
      (lastCalculated lastChanged : Option Nat)
      (found : server.joins[index]? =
        some ⟨id, expects, .reading (some lastCalculated) (some lastChanged)⟩)
      (current : isCentroidUpToDate true lastCalculated lastChanged = .ok true) :
      Transition server (.stepJoin index)
        { server with joins := server.joins.set index ⟨id, expects, .answered (.ok false)⟩ }
  | answerException (index : Nat) (id : T) (expects : List (D × Nat))
      (lastCalculated lastChanged : Option Nat) (exception : ProtocolException)
      (found : server.joins[index]? =
        some ⟨id, expects, .reading (some lastCalculated) (some lastChanged)⟩) :
      Transition server (.stepJoin index)
        { server with
          joins := server.joins.set index ⟨id, expects, .answered (.error exception)⟩ }
  | answerReloaded (index : Nat) (id : T) (expects : List (D × Nat)) (reload : Nat)
      (reloaded : T) (upTo : Nat)
      (found : server.joins[index]? = some ⟨id, expects, .reloading reload⟩)
      (inserted : server.reloads[reload]? = some ⟨reloaded, .inserted upTo⟩) :
      Transition server (.stepJoin index)
        { server with joins := server.joins.set index ⟨id, expects, .answered (.ok true)⟩ }
  | joinUpdate (index : Nat) (id : T) (expects : List (D × Nat))
      (lastCalculated lastChanged : Option Nat)
      (found : server.joins[index]? =
        some ⟨id, expects, .reading (some lastCalculated) (some lastChanged)⟩)
      (outdated : isCentroidUpToDate true lastCalculated lastChanged = .ok false) :
      Transition server (.stepJoin index)
        { server with
          joins := server.joins.set index
            ⟨id, expects, .waiting server.updateWorker.callbacks.registered⟩
          updateWorker := server.updateWorker.joinUpdate id }
  | reloadCentroid (index : Nat) (id : T) (expects : List (D × Nat)) (callback : Nat)
      (found : server.joins[index]? = some ⟨id, expects, .waiting callback⟩)
      (invoked : callback ∈ server.updateWorker.callbacks.invoked) :
      Transition server (.stepJoin index)
        { server with
          joins := server.joins.set index ⟨id, expects, .reloading server.reloads.length⟩
          reloads := server.reloads ++ [⟨id, .submitted⟩] }
  | returnJoin (index : Nat) (id : T) (expects : List (D × Nat)) (result : Try Bool)
      (found : server.joins[index]? = some ⟨id, expects, .answered result⟩) :
      Transition server (.stepJoin index)
        { server with
          joins := server.joins.set index ⟨id, expects, .returned result (server.held id)⟩ }
  | stop : Transition server .stop server.stop

variable {server next : RelevanceServer T D}

theorem request_cases (id : T) (change : Change D) (ignoring : Bool) :
    Transition server (.request id change ignoring) (server.request id change ignoring) := by
  unfold RelevanceServer.request
  cases change with
  | add docId =>
      cases present : addedAt docId (server.history id) with
      | none =>
          simp only [present]
          apply Transition.commit
          intro other same
          cases same
          exact present
      | some ordinal =>
          simp only [present]
          cases ignoring with
          | true => exact .confirm id docId ordinal present
          | false => exact .reject id _ false
  | remove docId =>
      cases present : addedAt docId (server.history id) with
      | none =>
          simp only [present]
          exact .reject id _ ignoring
      | some ordinal =>
          simp only [present]
          apply Transition.commit
          intro other same
          cases same

theorem stamp_request_cases {index : Nat} (stepped : server.stampRequest index = some next) :
    Transition server (.stampRequest index) next := by
  unfold RelevanceServer.stampRequest at stepped
  split at stepped
  · rename_i found
    cases stepped
    exact .stamp index _ _ _ found
  · cases stepped

theorem trigger_update_cases {index time : Nat}
    (stepped : server.triggerUpdate index time = some next) :
    Transition server (.triggerUpdate index time) next := by
  unfold RelevanceServer.triggerUpdate at stepped
  split at stepped
  · rename_i found
    split at stepped
    · rename_i stopped
      cases stepped
      exact .refuse index time _ _ _ _ found stopped
    · rename_i running
      split at stepped
      · cases stepped
      · rename_i queue written
        cases stepped
        exact .trigger index time _ _ _ _ queue found (Bool.eq_false_iff.mpr running) written
  · cases stepped

theorem execute_put_cases {index : Nat} (stepped : server.executePut index = some next) :
    Transition server (.executePut index) next := by
  unfold RelevanceServer.executePut at stepped
  split at stepped
  · rename_i found
    cases stepped
    exact .putChange index _ _ _ found
  · rename_i found
    cases stepped
    exact .putCalculated index _ _ _ found
  · cases stepped

theorem fire_cases {index time : Nat} (stepped : server.fire index time = some next) :
    Transition server (.fire index time) next := by
  unfold RelevanceServer.fire at stepped
  split at stepped
  · cases stepped
  · rename_i queue fired
    split at stepped
    · rename_i silent
      cases stepped
      exact .fire index time queue fired silent
    · rename_i id calls
      cases stepped
      exact .call index time queue id fired calls

theorem proceed_server_cases {index : Nat} (stepped : server.proceed index = some next) :
    Transition server (.proceed index) next := by
  unfold RelevanceServer.proceed at stepped
  split at stepped
  · cases stepped
  · rename_i worker proceeded
    obtain ⟨id, stage, found, advanced⟩ := proceed_cases proceeded
    split at stepped
    · cases stepped
      exact .proceed index id stage worker _ found advanced (Or.inl rfl)
    · rename_i echoed echoes
      have sameId : echoed = id := by
        rw [RelevanceServer.echoing, found] at echoes
        split at echoes
        · rename_i same
          cases same
          exact (Option.some.inj echoes).symm
        · cases echoes
      cases stepped
      subst sameId
      exact .proceed index echoed stage worker _ found advanced (Or.inr rfl)

omit [DecidableEq T] [DecidableEq D] in
theorem fail_run_some {index : Nat} {failed : Stage RunProgress}
    (stepped : server.failRun index failed = some next) :
    ∃ id progress, server.updateWorker.attempts[index]? = some ⟨id, .running progress⟩ ∧
      next = server.moveRun index id failed := by
  unfold RelevanceServer.failRun at stepped
  split at stepped
  · cases stepped
  · rename_i found
    cases stepped
    exact ⟨_, _, found, rfl⟩
  · cases stepped

theorem step_reload_cases {index : Nat} (stepped : server.stepReload index = some next) :
    Transition server (.stepReload index) next := by
  unfold RelevanceServer.stepReload at stepped
  split at stepped
  · rename_i found
    cases stepped
    exact .readStored index _ found
  · rename_i found
    split at stepped
    · cases stepped
      exact .findNone index _ _ found
    · cases stepped
      exact .find index _ _ found
  · rename_i found
    cases stepped
    exact .setValue index _ _ found
  · rename_i found
    split at stepped
    · rename_i absent
      cases stepped
      exact .addData index _ _ found absent
    · rename_i added
      cases stepped
      exact .getData index _ _ _ found added
  · cases stepped

theorem step_join_cases {index : Nat} (stepped : server.stepJoin index = some next) :
    Transition server (.stepJoin index) next := by
  unfold RelevanceServer.stepJoin at stepped
  split at stepped
  · rename_i found
    split at stepped
    · cases stepped
      exact .answerException index _ _ _ _ _ found
    · rename_i current
      cases stepped
      exact .answerCurrent index _ _ _ _ found current
    · rename_i outdated
      cases stepped
      exact .joinUpdate index _ _ _ _ found outdated
  · rename_i found
    split at stepped
    · rename_i invoked
      cases stepped
      exact .reloadCentroid index _ _ _ found invoked
    · cases stepped
  · rename_i found
    split at stepped
    · rename_i inserted
      cases stepped
      exact .answerReloaded index _ _ _ _ _ found inserted
    · cases stepped
  · rename_i found
    cases stepped
    exact .returnJoin index _ _ _ found
  · cases stepped

theorem step_cases {action : ServerAction T D} (stepped : server.step action = some next) :
    Transition server action next := by
  cases action with
  | request id change ignoring =>
      cases stepped
      exact request_cases id change ignoring
  | stampRequest index => exact stamp_request_cases stepped
  | triggerUpdate index time => exact trigger_update_cases stepped
  | executePut index => exact execute_put_cases stepped
  | tick seconds =>
      cases stepped
      exact .tick seconds
  | fire index time => exact fire_cases stepped
  | update id =>
      cases stepped
      exact .update id
  | proceed index => exact proceed_server_cases stepped
  | readClock index =>
      simp only [RelevanceServer.step, RelevanceServer.readClock] at stepped
      split at stepped
      · rename_i found
        cases stepped
        exact .readClock index _ found
      · cases stepped
  | listMembers index =>
      simp only [RelevanceServer.step, RelevanceServer.listMembers] at stepped
      split at stepped
      · rename_i found
        cases stepped
        exact .listMembers index _ _ found
      · cases stepped
  | saveCentroid index =>
      simp only [RelevanceServer.step, RelevanceServer.saveCentroid] at stepped
      split at stepped
      · rename_i found
        cases stepped
        exact .saveCentroid index _ _ _ found
      · cases stepped
  | finishRun index =>
      simp only [RelevanceServer.step, RelevanceServer.finishRun] at stepped
      split at stepped
      · rename_i found
        cases stepped
        exact .finishRun index _ _ _ found
      · cases stepped
  | returnException index exception =>
      obtain ⟨id, progress, found, rfl⟩ := fail_run_some stepped
      exact .returnException index id progress exception found
  | throwException index =>
      obtain ⟨id, progress, found, rfl⟩ := fail_run_some stepped
      exact .throwException index id progress found
  | stepReload index => exact step_reload_cases stepped
  | joinCentroid id =>
      cases stepped
      exact .joinCentroid id
  | readLastCalculated index =>
      simp only [RelevanceServer.step, RelevanceServer.readLastCalculated] at stepped
      split at stepped
      · rename_i found
        cases stepped
        exact .readLastCalculated index _ _ _ found
      · cases stepped
  | readLastDocumentChange index =>
      simp only [RelevanceServer.step, RelevanceServer.readLastDocumentChange] at stepped
      split at stepped
      · rename_i found
        cases stepped
        exact .readLastDocumentChange index _ _ _ found
      · cases stepped
  | stepJoin index => exact step_join_cases stepped
  | stop =>
      cases stepped
      exact .stop

end Relevanced.Server

import Relevanced.CentroidUpdate.CentroidUpdateWorker
import Relevanced.Util.Debouncer

/-!
# RelevanceServer

The part of the server that keeps centroid vectors in step with their members:
requests that change members, the update queue and its worker, runs of
`CentroidUpdater`, the metadata stamps, the score worker's map and `joinCentroid`.
Every persistence task, and every continuation attached to one, is a step of its own,
so a task submitted without waiting may be executed at any later point. A vector is
known by how many member changes of its centroid had been committed when the run that
computed it listed the members. Centroids are created before the run and never deleted.
-/

namespace Relevanced.Server

open Foundation
open CentroidUpdate
open Persistence (Try ProtocolException)

set_option autoImplicit false

/-- A committed `addDocumentToCentroid` or `removeDocumentFromCentroid`. -/
inductive Change (D : Type) where
  | add (docId : D)
  | remove (docId : D)
  deriving DecidableEq

/-- Where in the history, newest change first, the current membership of the document began. -/
def addedAt {D : Type} [DecidableEq D] (docId : D) : List (Change D) → Option Nat
  | [] => none
  | .add added :: earlier => if added = docId then some earlier.length else addedAt docId earlier
  | .remove removed :: earlier => if removed = docId then none else addedAt docId earlier

/-- How far a run of `CentroidUpdater` has come, with its `startTimestamp` and the number of
changes its member listing has seen. -/
inductive RunProgress where
  | started (startTimestamp : Nat)
  | listed (startTimestamp upTo : Nat)
  | saved (startTimestamp upTo : Nat)
  deriving DecidableEq

/-- A member listing some run has made. -/
structure Listing (T : Type) where
  id : T
  startTimestamp : Nat
  upTo : Nat

/-- A metadata write submitted to the persistence pool, and what its stamp stands for. -/
inductive MetadataPut (T : Type) where
  | lastDocumentChange (id : T) (ordinal stamp : Nat)
  | lastCalculated (id : T) (stamp upTo : Nat)

inductive RequestStage where
  | committed
  | stamped (stamp : Nat)
  | acknowledged (stamp : Option Nat) (written : Option Util.Moment)

/-- One document of an `addDocumentsToCentroid` or `removeDocumentsFromCentroid` request. -/
structure Request (T D : Type) where
  id : T
  change : Change D
  ordinal : Nat
  stage : RequestStage

/-- Before the load, before the look-up of `insertOrUpdate`, and with its outcome. -/
inductive ReloadStage where
  | submitted
  | read (upTo : Nat)
  | updating (upTo : Nat)
  | adding (upTo : Nat)
  | inserted (upTo : Nat)

/-- One call of `SimilarityScoreWorker::reloadCentroid`. -/
structure Reload (T : Type) where
  id : T
  stage : ReloadStage

inductive JoinStage where
  | reading (lastCalculated lastDocumentChange : Option (Option Nat))
  | waiting (callback : Nat)
  | reloading (reload : Nat)
  | answered (result : Try Bool)
  | returned (result : Try Bool) (held : Option Nat)

/-- One call of `joinCentroid`, with the additions acknowledged before it was made. -/
structure Join (T D : Type) where
  id : T
  expects : List (D × Nat)
  stage : JoinStage

structure RelevanceServer (T D : Type) where
  updateQueue : Util.World T
  updateWorker : Worker T RunProgress
  clock : Nat
  history : T → List (Change D)
  saved : T → Nat
  lastCalculated : T → Option Nat
  lastDocumentChange : T → Option Nat
  puts : List (MetadataPut T)
  requests : List (Request T D)
  listings : List (Listing T)
  held : T → Option Nat
  reloads : List (Reload T)
  joins : List (Join T D)

/-- `CentroidMetadataDb::isCentroidUpToDate`, once both stamps have been read. -/
def isCentroidUpToDate (centroidExists : Bool) (lastCalculated lastChanged : Option Nat) :
    Try Bool :=
  match lastChanged, lastCalculated with
  | none, none => if centroidExists then .ok true else .error .eCentroidDoesNotExist
  | none, some _ => .ok true
  | some _, none => .ok false
  | some changed, some calculated => .ok (!decide (changed > calculated))

namespace RelevanceServer

variable {T D : Type}

/-- The delays are those of `CentroidUpdateWorker::initialize`. -/
def initial : RelevanceServer T D where
  updateQueue := .initial 5000 30000
  updateWorker := .initial
  clock := 0
  history := fun _ => []
  saved := fun _ => 0
  lastCalculated := fun _ => none
  lastDocumentChange := fun _ => none
  puts := []
  requests := []
  listings := []
  held := fun _ => none
  reloads := []
  joins := []

variable [DecidableEq T]

/-- The value a fired timer passes to `onValueCb_`. -/
def calling (queue : Util.World T) (action : Util.Action T) : Option T :=
  match queue.firing action with
  | some ⟨.onValue elem, _, _⟩ => if queue.debouncer.stopping then none else some elem
  | _ => none

/-- The centroid a call of `update` is about to pass to `updateCallbacks_`. -/
def echoing (worker : Worker T RunProgress) (index : Nat) : Option T :=
  match worker.attempts[index]? with
  | some ⟨id, .released (.ok _)⟩ => some id
  | _ => none

/-- `updateQueue_` fires a timer; a value it calls for is handed to the worker. -/
def fire (server : RelevanceServer T D) (index time : Nat) : Option (RelevanceServer T D) :=
  match server.updateQueue.step (.fire index time) with
  | none => none
  | some queue =>
      match calling server.updateQueue (.fire index time) with
      | none => some { server with updateQueue := queue }
      | some id => some { server with
          updateQueue := queue
          updateWorker := server.updateWorker.update id }

def submitReload (server : RelevanceServer T D) (id : T) : RelevanceServer T D :=
  { server with reloads := server.reloads ++ [⟨id, .submitted⟩] }

def proceed (server : RelevanceServer T D) (index : Nat) : Option (RelevanceServer T D) :=
  match server.updateWorker.proceed index with
  | none => none
  | some worker =>
      match echoing server.updateWorker index with
      | none => some { server with updateWorker := worker }
      | some id => some ({ server with updateWorker := worker }.submitReload id)

def moveRun (server : RelevanceServer T D) (index : Nat) (id : T)
    (stage : Stage RunProgress) : RelevanceServer T D :=
  { server with updateWorker := server.updateWorker.moveTo index id stage }

/-- `startTimestamp = clock_->getEpochTime()`. -/
def readClock (server : RelevanceServer T D) (index : Nat) : Option (RelevanceServer T D) :=
  match server.updateWorker.attempts[index]? with
  | some ⟨id, .running none⟩ =>
      some (server.moveRun index id (.running (some (.started server.clock))))
  | _ => none

def listMembers (server : RelevanceServer T D) (index : Nat) : Option (RelevanceServer T D) :=
  match server.updateWorker.attempts[index]? with
  | some ⟨id, .running (some (.started start))⟩ =>
      let upTo := (server.history id).length
      some { server.moveRun index id (.running (some (.listed start upTo))) with
        listings := ⟨id, start, upTo⟩ :: server.listings }
  | _ => none

def saveCentroid (server : RelevanceServer T D) (index : Nat) : Option (RelevanceServer T D) :=
  match server.updateWorker.attempts[index]? with
  | some ⟨id, .running (some (.listed start upTo))⟩ =>
      some { server.moveRun index id (.running (some (.saved start upTo))) with
        saved := Function.update server.saved id upTo }
  | _ => none

/-- The run submits its `lastCalculated` stamp and returns without waiting for it. -/
def finishRun (server : RelevanceServer T D) (index : Nat) : Option (RelevanceServer T D) :=
  match server.updateWorker.attempts[index]? with
  | some ⟨id, .running (some (.saved start upTo))⟩ =>
      some { server.moveRun index id (.ran (.ok true)) with
        puts := server.puts ++ [.lastCalculated id start upTo] }
  | _ => none

/-- The run returns an exception, or throws one, before it has saved a vector. -/
def failRun (server : RelevanceServer T D) (index : Nat) (failed : Stage RunProgress) :
    Option (RelevanceServer T D) :=
  match server.updateWorker.attempts[index]? with
  | some ⟨_, .running (some (.saved _ _))⟩ => none
  | some ⟨id, .running _⟩ => some (server.moveRun index id failed)
  | _ => none

def stop (server : RelevanceServer T D) : RelevanceServer T D :=
  { server with
    updateQueue := server.updateQueue.stop
    updateWorker := server.updateWorker.stop }

def setRequest (server : RelevanceServer T D) (index : Nat) (request : Request T D) :
    RelevanceServer T D :=
  { server with requests := server.requests.set index request }

/-- The continuation of a committed request submits its `lastDocumentChange` stamp. -/
def stampRequest (server : RelevanceServer T D) (index : Nat) : Option (RelevanceServer T D) :=
  match server.requests[index]? with
  | some ⟨id, change, ordinal, .committed⟩ =>
      some { server.setRequest index ⟨id, change, ordinal, .stamped server.clock⟩ with
        puts := server.puts ++ [.lastDocumentChange id ordinal server.clock] }
  | _ => none

/-- The continuation calls `triggerUpdate` and answers the request. -/
def triggerUpdate (server : RelevanceServer T D) (index time : Nat) :
    Option (RelevanceServer T D) :=
  match server.requests[index]? with
  | some ⟨id, change, ordinal, .stamped stamp⟩ =>
      if server.updateWorker.stopping then
        some (server.setRequest index ⟨id, change, ordinal, .acknowledged (some stamp) none⟩)
      else
        match server.updateQueue.step (.write id time) with
        | none => none
        | some queue =>
            some { server.setRequest index
                ⟨id, change, ordinal, .acknowledged (some stamp) (some queue.now)⟩ with
              updateQueue := queue }
  | _ => none

def executePut (server : RelevanceServer T D) (index : Nat) : Option (RelevanceServer T D) :=
  match server.puts[index]? with
  | some (.lastDocumentChange id _ stamp) =>
      some { server with
        puts := server.puts.eraseIdx index
        lastDocumentChange := Function.update server.lastDocumentChange id (some stamp) }
  | some (.lastCalculated id stamp _) =>
      some { server with
        puts := server.puts.eraseIdx index
        lastCalculated := Function.update server.lastCalculated id (some stamp) }
  | none => none

/-- The tasks of a reload: the read of the stored centroid, and `insertOrUpdate`, which looks the
item up before it sets its value or adds one; `addOrGetData` keeps an item added meanwhile. -/
def stepReload (server : RelevanceServer T D) (index : Nat) : Option (RelevanceServer T D) :=
  match server.reloads[index]? with
  | some ⟨id, .submitted⟩ =>
      some { server with reloads := server.reloads.set index ⟨id, .read (server.saved id)⟩ }
  | some ⟨id, .read upTo⟩ =>
      match server.held id with
      | none => some { server with reloads := server.reloads.set index ⟨id, .adding upTo⟩ }
      | some _ => some { server with reloads := server.reloads.set index ⟨id, .updating upTo⟩ }
  | some ⟨id, .updating upTo⟩ =>
      some { server with
        reloads := server.reloads.set index ⟨id, .inserted upTo⟩
        held := Function.update server.held id (some upTo) }
  | some ⟨id, .adding upTo⟩ =>
      match server.held id with
      | none => some { server with
          reloads := server.reloads.set index ⟨id, .inserted upTo⟩
          held := Function.update server.held id (some upTo) }
      | some _ => some { server with reloads := server.reloads.set index ⟨id, .inserted upTo⟩ }
  | _ => none

/-- The additions to a centroid that have been acknowledged as successful. -/
def acknowledged (server : RelevanceServer T D) (id : T) : List (D × Nat) :=
  server.requests.filterMap fun request =>
    match request with
    | ⟨centroidId, .add docId, ordinal, .acknowledged _ _⟩ =>
        if centroidId = id then some (docId, ordinal) else none
    | _ => none

def joinCentroid (server : RelevanceServer T D) (id : T) : RelevanceServer T D :=
  { server with joins := server.joins ++ [⟨id, server.acknowledged id, .reading none none⟩] }

def setJoin (server : RelevanceServer T D) (index : Nat) (join : Join T D) :
    RelevanceServer T D :=
  { server with joins := server.joins.set index join }

def readLastCalculated (server : RelevanceServer T D) (index : Nat) :
    Option (RelevanceServer T D) :=
  match server.joins[index]? with
  | some ⟨id, expects, .reading none lastDocumentChange⟩ =>
      some (server.setJoin index
        ⟨id, expects, .reading (some (server.lastCalculated id)) lastDocumentChange⟩)
  | _ => none

def readLastDocumentChange (server : RelevanceServer T D) (index : Nat) :
    Option (RelevanceServer T D) :=
  match server.joins[index]? with
  | some ⟨id, expects, .reading lastCalculated none⟩ =>
      some (server.setJoin index
        ⟨id, expects, .reading lastCalculated (some (server.lastDocumentChange id))⟩)
  | _ => none

/-- What a join does next once it does not read stamps. -/
def stepJoin (server : RelevanceServer T D) (index : Nat) : Option (RelevanceServer T D) :=
  match server.joins[index]? with
  | some ⟨id, expects, .reading (some lastCalculated) (some lastChanged)⟩ =>
      match isCentroidUpToDate true lastCalculated lastChanged with
      | .error exception => some (server.setJoin index ⟨id, expects, .answered (.error exception)⟩)
      | .ok true => some (server.setJoin index ⟨id, expects, .answered (.ok false)⟩)
      | .ok false =>
          some { server.setJoin index
              ⟨id, expects, .waiting server.updateWorker.callbacks.registered⟩ with
            updateWorker := server.updateWorker.joinUpdate id }
  | some ⟨id, expects, .waiting callback⟩ =>
      if callback ∈ server.updateWorker.callbacks.invoked then
        some
          ((server.setJoin index ⟨id, expects, .reloading server.reloads.length⟩).submitReload id)
      else none
  | some ⟨id, expects, .reloading reload⟩ =>
      match server.reloads[reload]? with
      | some ⟨_, .inserted _⟩ => some (server.setJoin index ⟨id, expects, .answered (.ok true)⟩)
      | _ => none
  | some ⟨id, expects, .answered result⟩ =>
      some (server.setJoin index ⟨id, expects, .returned result (server.held id)⟩)
  | _ => none

variable [DecidableEq D]

/-- The persistence pool executes one addition or removal. An addition of a member changes
nothing, and counts as a success when the request ignores that. -/
def request (server : RelevanceServer T D) (id : T) (change : Change D) (ignoring : Bool) :
    RelevanceServer T D :=
  let committed : RelevanceServer T D :=
    { server with
      history := Function.update server.history id (change :: server.history id)
      requests := server.requests ++ [⟨id, change, (server.history id).length, .committed⟩] }
  match change with
  | .add docId =>
      match addedAt docId (server.history id) with
      | none => committed
      | some ordinal =>
          if ignoring then
            { server with
              requests := server.requests ++ [⟨id, change, ordinal, .acknowledged none none⟩] }
          else server
  | .remove docId =>
      match addedAt docId (server.history id) with
      | none => server
      | some _ => committed

end RelevanceServer

inductive ServerAction (T D : Type) where
  | request (id : T) (change : Change D) (ignoring : Bool)
  | stampRequest (index : Nat)
  | triggerUpdate (index time : Nat)
  | executePut (index : Nat)
  | tick (seconds : Nat)
  | fire (index time : Nat)
  | update (id : T)
  | proceed (index : Nat)
  | readClock (index : Nat)
  | listMembers (index : Nat)
  | saveCentroid (index : Nat)
  | finishRun (index : Nat)
  | returnException (index : Nat) (exception : ProtocolException)
  | throwException (index : Nat)
  | stepReload (index : Nat)
  | joinCentroid (id : T)
  | readLastCalculated (index : Nat)
  | readLastDocumentChange (index : Nat)
  | stepJoin (index : Nat)
  | stop
  deriving DecidableEq

namespace RelevanceServer

variable {T D : Type} [DecidableEq T] [DecidableEq D]

def step (server : RelevanceServer T D) : ServerAction T D → Option (RelevanceServer T D)
  | .request id change ignoring => some (server.request id change ignoring)
  | .stampRequest index => server.stampRequest index
  | .triggerUpdate index time => server.triggerUpdate index time
  | .executePut index => server.executePut index
  | .tick seconds => some { server with clock := server.clock + seconds }
  | .fire index time => server.fire index time
  | .update id => some { server with updateWorker := server.updateWorker.update id }
  | .proceed index => server.proceed index
  | .readClock index => server.readClock index
  | .listMembers index => server.listMembers index
  | .saveCentroid index => server.saveCentroid index
  | .finishRun index => server.finishRun index
  | .returnException index exception => server.failRun index (.ran (.error exception))
  | .throwException index => server.failRun index .thrown
  | .stepReload index => server.stepReload index
  | .joinCentroid id => some (server.joinCentroid id)
  | .readLastCalculated index => server.readLastCalculated index
  | .readLastDocumentChange index => server.readLastDocumentChange index
  | .stepJoin index => server.stepJoin index
  | .stop => some server.stop

end RelevanceServer

def serverMachine (T D : Type) [DecidableEq T] [DecidableEq D] :
    Machine (RelevanceServer T D) (ServerAction T D) where
  step := RelevanceServer.step

end Relevanced.Server

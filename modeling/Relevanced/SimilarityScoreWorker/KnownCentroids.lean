import Relevanced.CentroidUpdate.CentroidUpdateWorker

/-!
# Which centroids the score worker knows

The score worker answers from a map of its own. `initialize` fills it from the store,
and afterwards only `reloadCentroid` writes to it: after a successful run of
`CentroidUpdater` and after a join. `createCentroid` and `deleteCentroid` change the
store alone. Vectors play no part here, so a centroid is stored or not, and in the map
or not. A pending call of the update queue may come at any time.
-/

namespace Relevanced.SimilarityScoreWorker

open Foundation
open CentroidUpdate
open Persistence (Try ProtocolException)

set_option autoImplicit false

/-- How far a run of `CentroidUpdater` has come: past its first existence check, past its last,
past `saveCentroid`. -/
inductive RunStage where
  | started
  | checked
  | saved
  deriving DecidableEq

inductive LoadStage where
  | submitted
  | read (found : Bool)
  | finished
  deriving DecidableEq

/-- One call of `reloadCentroid`. -/
structure CentroidLoad (T : Type) where
  id : T
  stage : LoadStage
  deriving DecidableEq

inductive JoinStage where
  | waiting (callback : Nat)
  | reloading (load : Nat)
  | answered

/-- One call of `joinCentroid` that found its centroid out of date. -/
structure CentroidJoin (T : Type) where
  id : T
  stage : JoinStage

structure KnownCentroids (T : Type) where
  stored : T → Bool
  held : T → Bool
  /-- The centroid came into the store since the last start and has not been loaded since. -/
  unloaded : T → Bool
  pendingUpdates : List T
  updateWorker : Worker T RunStage
  loads : List (CentroidLoad T)
  joins : List (CentroidJoin T)

namespace KnownCentroids

variable {T : Type}

/-- What `getTextSimilarity`, and `getDocumentSimilarity` of an existing document, answer but for
the score. -/
def getDocumentSimilarity (known : KnownCentroids T) (centroidId : T) : Try Unit :=
  if known.held centroidId then .ok () else .error .eCentroidDoesNotExist

def getCentroidSimilarity (known : KnownCentroids T) (centroid1Id centroid2Id : T) : Try Unit :=
  if !known.held centroid1Id || !known.held centroid2Id then .error .eCentroidDoesNotExist
  else .ok ()

variable [DecidableEq T]

/-- A start of the server on a store: `SimilarityScoreWorker::initialize` loads every centroid. -/
def initialized (stored : T → Bool) : KnownCentroids T where
  stored := stored
  held := stored
  unloaded := fun _ => false
  pendingUpdates := []
  updateWorker := .initial
  loads := []
  joins := []

/-- The store gets the centroid's body. -/
def store (known : KnownCentroids T) (id : T) : KnownCentroids T :=
  if known.stored id then known
  else { known with
    stored := Function.update known.stored id true
    unloaded := Function.update known.unloaded id true }

def createCentroid (known : KnownCentroids T) (id : T) : KnownCentroids T := known.store id

def deleteCentroid (known : KnownCentroids T) (id : T) : KnownCentroids T :=
  { known with
    stored := Function.update known.stored id false
    unloaded := Function.update known.unloaded id false }

/-- A successful `addDocumentsToCentroid` or `removeDocumentsFromCentroid` writes to the update
queue, which may merge the call into one that is pending. -/
def changeMembers (known : KnownCentroids T) (id : T) (merged : Bool) : KnownCentroids T :=
  if known.stored id && !(merged && decide (id ∈ known.pendingUpdates)) then
    { known with pendingUpdates := known.pendingUpdates ++ [id] }
  else known

/-- The update queue calls `update`. -/
def fire (known : KnownCentroids T) (index : Nat) : Option (KnownCentroids T) :=
  match known.pendingUpdates[index]? with
  | some id => some { known with
      pendingUpdates := known.pendingUpdates.eraseIdx index
      updateWorker := known.updateWorker.update id }
  | none => none

def submitReload (known : KnownCentroids T) (id : T) : KnownCentroids T :=
  { known with loads := known.loads ++ [⟨id, .submitted⟩] }

/-- `isCentroidUpToDate` has answered; an outdated centroid is joined. -/
def joinCentroid (known : KnownCentroids T) (id : T) (upToDate : Bool) : KnownCentroids T :=
  if upToDate then known
  else { known with
    joins := known.joins ++ [⟨id, .waiting known.updateWorker.callbacks.registered⟩]
    updateWorker := known.updateWorker.joinUpdate id }

/-- The centroid a call of `update` is about to pass to `updateCallbacks_`. -/
def echoing (worker : Worker T RunStage) (index : Nat) : Option T :=
  match worker.attempts[index]? with
  | some ⟨id, .released (.ok _)⟩ => some id
  | _ => none

def proceed (known : KnownCentroids T) (index : Nat) : Option (KnownCentroids T) :=
  match known.updateWorker.proceed index with
  | none => none
  | some worker =>
      match echoing known.updateWorker index with
      | none => some { known with updateWorker := worker }
      | some id => some ({ known with updateWorker := worker }.submitReload id)

def moveRun (known : KnownCentroids T) (index : Nat) (id : T) (stage : Stage RunStage) :
    KnownCentroids T :=
  { known with updateWorker := known.updateWorker.moveTo index id stage }

/-- The two existence checks of a run. -/
def checkExists (known : KnownCentroids T) (index : Nat) : Option (KnownCentroids T) :=
  match known.updateWorker.attempts[index]? with
  | some ⟨id, .running none⟩ =>
      if known.stored id then some (known.moveRun index id (.running (some .started)))
      else some (known.moveRun index id (.ran (.error .eCentroidDoesNotExist)))
  | some ⟨id, .running (some .started)⟩ =>
      if known.stored id then some (known.moveRun index id (.running (some .checked)))
      else some (known.moveRun index id (.ran (.error .eCentroidDoesNotExist)))
  | _ => none

def saveCentroid (known : KnownCentroids T) (index : Nat) : Option (KnownCentroids T) :=
  match known.updateWorker.attempts[index]? with
  | some ⟨id, .running (some .checked)⟩ =>
      some ((known.store id).moveRun index id (.running (some .saved)))
  | _ => none

def finishRun (known : KnownCentroids T) (index : Nat) : Option (KnownCentroids T) :=
  match known.updateWorker.attempts[index]? with
  | some ⟨id, .running (some .saved)⟩ => some (known.moveRun index id (.ran (.ok true)))
  | _ => none

/-- The two tasks of a reload: the read of the stored centroid and `insertOrUpdate`. -/
def stepReload (known : KnownCentroids T) (index : Nat) : Option (KnownCentroids T) :=
  match known.loads[index]? with
  | some ⟨id, .submitted⟩ =>
      some { known with loads := known.loads.set index ⟨id, .read (known.stored id)⟩ }
  | some ⟨id, .read true⟩ =>
      some { known with
        loads := known.loads.set index ⟨id, .finished⟩
        held := Function.update known.held id true
        unloaded := Function.update known.unloaded id false }
  | some ⟨id, .read false⟩ =>
      some { known with loads := known.loads.set index ⟨id, .finished⟩ }
  | _ => none

def setJoin (known : KnownCentroids T) (index : Nat) (join : CentroidJoin T) :
    KnownCentroids T :=
  { known with joins := known.joins.set index join }

def stepJoin (known : KnownCentroids T) (index : Nat) : Option (KnownCentroids T) :=
  match known.joins[index]? with
  | some ⟨id, .waiting callback⟩ =>
      if callback ∈ known.updateWorker.callbacks.invoked then
        some ((known.setJoin index ⟨id, .reloading known.loads.length⟩).submitReload id)
      else none
  | some ⟨id, .reloading load⟩ =>
      match known.loads[load]? with
      | some ⟨_, .finished⟩ => some (known.setJoin index ⟨id, .answered⟩)
      | _ => none
  | _ => none

end KnownCentroids

inductive KnownAction (T : Type) where
  | createCentroid (id : T)
  | deleteCentroid (id : T)
  | changeMembers (id : T) (merged : Bool)
  | joinCentroid (id : T) (upToDate : Bool)
  | restart
  | fire (index : Nat)
  | proceed (index : Nat)
  | checkExists (index : Nat)
  | saveCentroid (index : Nat)
  | finishRun (index : Nat)
  | stepReload (index : Nat)
  | stepJoin (index : Nat)
  deriving DecidableEq

/-- Requests, the steps of the background work they cause, and restarts. -/
def knownMachine (T : Type) [DecidableEq T] : Machine (KnownCentroids T) (KnownAction T) where
  step known
    | .createCentroid id => some (known.createCentroid id)
    | .deleteCentroid id => some (known.deleteCentroid id)
    | .changeMembers id merged => some (known.changeMembers id merged)
    | .joinCentroid id upToDate => some (known.joinCentroid id upToDate)
    | .restart => some (.initialized known.stored)
    | .fire index => known.fire index
    | .proceed index => known.proceed index
    | .checkExists index => known.checkExists index
    | .saveCentroid index => known.saveCentroid index
    | .finishRun index => known.finishRun index
    | .stepReload index => known.stepReload index
    | .stepJoin index => known.stepJoin index

section Steps

variable {T : Type}

/-- The action leaves the store alone, and the map and what reloads carry to it. -/
def KnownAction.isBackground : KnownAction T → Bool
  | .createCentroid _ | .deleteCentroid _ | .restart | .saveCentroid _ | .stepReload _ => false
  | _ => true

def attemptIds (known : KnownCentroids T) : List T := known.updateWorker.attempts.map Attempt.id

def loadIds (known : KnownCentroids T) : List T := known.loads.map CentroidLoad.id

theorem ids_of_set {α : Type} {items : List α} {index : Nat} {old new : α} (f : α → T)
    (found : items[index]? = some old) (same : f new = f old) :
    items.map f <+: (items.set index new).map f := by
  obtain ⟨inside, rfl⟩ := List.getElem?_eq_some_iff.mp found
  have kept : (items.map f).set index (f items[index]) = items.map f := by
    rw [← List.getElem_map f (h := (List.length_map f).symm ▸ inside), List.set_getElem_self]
  rw [List.map_set, same, kept]

variable [DecidableEq T]

theorem attempt_ids_of_proceed {worker moved : Worker T RunStage} {index : Nat}
    (proceeded : worker.proceed index = some moved) :
    worker.attempts.map Attempt.id <+: moved.attempts.map Attempt.id := by
  obtain ⟨id, stage, found, advanced⟩ := proceed_cases proceeded
  obtain ⟨later, attempts, _⟩ := advance_attempts advanced
  rw [attempts]
  exact ids_of_set Attempt.id found rfl

/-- What a step can do. In the background calls of `update` and joins go on, and at most one reload
is submitted. -/
inductive KnownStep (known : KnownCentroids T) : KnownAction T → KnownCentroids T → Prop where
  | create (id : T) : KnownStep known (.createCentroid id) (known.store id)
  | delete (id : T) : KnownStep known (.deleteCentroid id) (known.deleteCentroid id)
  | restart : KnownStep known .restart (.initialized known.stored)
  | save (index : Nat) (id : T)
      (found : known.updateWorker.attempts[index]? = some ⟨id, .running (some .checked)⟩) :
      KnownStep known (.saveCentroid index)
        ((known.store id).moveRun index id (.running (some .saved)))
  | read (index : Nat) (id : T) (found : known.loads[index]? = some ⟨id, .submitted⟩) :
      KnownStep known (.stepReload index)
        { known with loads := known.loads.set index ⟨id, .read (known.stored id)⟩ }
  | insert (index : Nat) (id : T) (found : known.loads[index]? = some ⟨id, .read true⟩) :
      KnownStep known (.stepReload index) { known with
        loads := known.loads.set index ⟨id, .finished⟩
        held := Function.update known.held id true
        unloaded := Function.update known.unloaded id false }
  | nothing (index : Nat) (id : T) (found : known.loads[index]? = some ⟨id, .read false⟩) :
      KnownStep known (.stepReload index)
        { known with loads := known.loads.set index ⟨id, .finished⟩ }
  | background {action : KnownAction T} {next : KnownCentroids T}
      (quiet : action.isBackground = true) (stored : next.stored = known.stored)
      (held : next.held = known.held) (unloaded : next.unloaded = known.unloaded)
      (loads : next.loads = known.loads ∨ ∃ id, next.loads = known.loads ++ [⟨id, .submitted⟩])
      (attempts : attemptIds known <+: attemptIds next) : KnownStep known action next

variable {known next : KnownCentroids T} {action : KnownAction T}

theorem known_step_of_reload {index : Nat} (stepped : known.stepReload index = some next) :
    KnownStep known (.stepReload index) next := by
  unfold KnownCentroids.stepReload at stepped
  split at stepped
  · rename_i id found
    cases stepped
    exact .read index id found
  · rename_i id found
    cases stepped
    exact .insert index id found
  · rename_i id found
    cases stepped
    exact .nothing index id found
  · cases stepped

theorem known_step_of_step (stepped : (knownMachine T).step known action = some next) :
    KnownStep known action next := by
  have moved {index : Nat} {id : T} {stage later : Stage RunStage}
      (found : known.updateWorker.attempts[index]? = some ⟨id, stage⟩) :
      attemptIds known <+: attemptIds (known.moveRun index id later) := by
    have sameId : Attempt.id (⟨id, later⟩ : Attempt T RunStage) = id := rfl
    exact ids_of_set Attempt.id found sameId
  cases action with
  | createCentroid id =>
      cases stepped
      exact .create id
  | deleteCentroid id =>
      cases stepped
      exact .delete id
  | changeMembers id merged =>
      cases stepped
      unfold KnownCentroids.changeMembers
      split <;> exact .background rfl rfl rfl rfl (Or.inl rfl) (List.prefix_refl _)
  | joinCentroid id upToDate =>
      cases stepped
      unfold KnownCentroids.joinCentroid
      split
      · exact .background rfl rfl rfl rfl (Or.inl rfl) (List.prefix_refl _)
      · exact .background rfl rfl rfl rfl (Or.inl rfl) ((List.prefix_append _ _).map _)
  | restart =>
      cases stepped
      exact .restart
  | fire index =>
      change known.fire index = some next at stepped
      unfold KnownCentroids.fire at stepped
      split at stepped
      · cases stepped
        exact .background rfl rfl rfl rfl (Or.inl rfl) ((List.prefix_append _ _).map _)
      · cases stepped
  | proceed index =>
      change known.proceed index = some next at stepped
      unfold KnownCentroids.proceed at stepped
      split at stepped
      · cases stepped
      · rename_i worker proceeded
        have kept : attemptIds known <+: worker.attempts.map Attempt.id :=
          attempt_ids_of_proceed proceeded
        split at stepped
        · cases stepped
          exact .background rfl rfl rfl rfl (Or.inl rfl) kept
        · cases stepped
          exact .background rfl rfl rfl rfl (Or.inr ⟨_, rfl⟩) kept
  | checkExists index =>
      change known.checkExists index = some next at stepped
      unfold KnownCentroids.checkExists at stepped
      split at stepped
      · rename_i id found
        split at stepped <;> cases stepped <;>
          exact .background rfl rfl rfl rfl (Or.inl rfl) (moved found)
      · rename_i id found
        split at stepped <;> cases stepped <;>
          exact .background rfl rfl rfl rfl (Or.inl rfl) (moved found)
      · cases stepped
  | saveCentroid index =>
      change known.saveCentroid index = some next at stepped
      unfold KnownCentroids.saveCentroid at stepped
      split at stepped
      · rename_i id found
        cases stepped
        exact .save index id found
      · cases stepped
  | finishRun index =>
      change known.finishRun index = some next at stepped
      unfold KnownCentroids.finishRun at stepped
      split at stepped
      · rename_i id found
        cases stepped
        exact .background rfl rfl rfl rfl (Or.inl rfl) (moved found)
      · cases stepped
  | stepReload index => exact known_step_of_reload stepped
  | stepJoin index =>
      change known.stepJoin index = some next at stepped
      unfold KnownCentroids.stepJoin at stepped
      split at stepped
      · split at stepped
        · cases stepped
          exact .background rfl rfl rfl rfl (Or.inr ⟨_, rfl⟩) (List.prefix_refl _)
        · cases stepped
      · split at stepped
        · cases stepped
          exact .background rfl rfl rfl rfl (Or.inl rfl) (List.prefix_refl _)
        · cases stepped
      · cases stepped

/-- Only a start forgets which centroid a call of `update` or a reload is about. -/
theorem same_background_of_store (known : KnownCentroids T) (id : T) :
    (known.store id).updateWorker = known.updateWorker ∧ (known.store id).loads = known.loads := by
  unfold KnownCentroids.store
  split <;> exact ⟨rfl, rfl⟩

/-- Only a start forgets which centroid a call of `update` or a reload is about. -/
theorem KnownStep.ids (step : KnownStep known action next) (notStart : action ≠ .restart) :
    attemptIds known <+: attemptIds next ∧ loadIds known <+: loadIds next := by
  have loaded {index : Nat} {id : T} {stage later : LoadStage}
      (found : known.loads[index]? = some ⟨id, stage⟩) :
      loadIds known <+: (known.loads.set index ⟨id, later⟩).map CentroidLoad.id :=
    ids_of_set CentroidLoad.id found rfl
  cases step with
  | create id =>
      obtain ⟨sameWorker, sameLoads⟩ := same_background_of_store known id
      rw [attemptIds, attemptIds, loadIds, loadIds, sameWorker, sameLoads]
      exact ⟨List.prefix_refl _, List.prefix_refl _⟩
  | delete id => exact ⟨List.prefix_refl _, List.prefix_refl _⟩
  | restart => exact absurd rfl notStart
  | save index id found =>
      obtain ⟨sameWorker, sameLoads⟩ := same_background_of_store known id
      rw [attemptIds, attemptIds, loadIds, loadIds, KnownCentroids.moveRun, sameWorker, sameLoads]
      exact ⟨ids_of_set Attempt.id found rfl, List.prefix_refl _⟩
  | read index id found => exact ⟨List.prefix_refl _, loaded found⟩
  | insert index id found => exact ⟨List.prefix_refl _, loaded found⟩
  | nothing index id found => exact ⟨List.prefix_refl _, loaded found⟩
  | background quiet stored held unloaded loads attempts =>
      refine ⟨attempts, ?_⟩
      rw [loadIds, loadIds]
      rcases loads with same | ⟨id, added⟩
      · rw [same]
      · rw [added]
        exact (List.prefix_append _ _).map _

end Steps

section Agreement

variable {T : Type}

structure KnownCentroids.AtRest (known : KnownCentroids T) : Prop where
  pendingUpdates : known.pendingUpdates = []
  attempts : ∀ attempt ∈ known.updateWorker.attempts, ∃ result, attempt.stage = .finished result
  loads : ∀ load ∈ known.loads, load.stage = .finished
  joins : ∀ join ∈ known.joins, join.stage = .answered

/-- Similarity requests fail with `ECentroidDoesNotExist` exactly for centroids not stored. -/
structure KnownCentroids.Agrees (known : KnownCentroids T) : Prop where
  document : ∀ id, known.getDocumentSimilarity id = .error .eCentroidDoesNotExist ↔
    known.stored id = false
  centroids : ∀ id other, known.stored other = true →
    (known.getCentroidSimilarity id other = .error .eCentroidDoesNotExist ↔
      known.stored id = false)
  swapped : ∀ id other, known.stored other = true →
    (known.getCentroidSimilarity other id = .error .eCentroidDoesNotExist ↔
      known.stored id = false)

/-- A delete of a stored centroid finds that the score worker does not hold it and that no
reload has read it. -/
def DeletesUnheld [DecidableEq T] (known : KnownCentroids T) : KnownAction T → Prop
  | .deleteCentroid id => known.stored id = true →
      known.held id = false ∧ (⟨id, .read true⟩ : CentroidLoad T) ∉ known.loads
  | _ => True

instance [DecidableEq T] (known : KnownCentroids T) (action : KnownAction T) :
    Decidable (DeletesUnheld known action) := by
  cases action with
  | deleteCentroid id =>
      exact inferInstanceAs (Decidable (known.stored id = true →
        known.held id = false ∧ (⟨id, .read true⟩ : CentroidLoad T) ∉ known.loads))
  | _ => exact isTrue trivial

/-- What the map holds is stored, and what it lacks has come into the store since the start. -/
structure Accounted (stored held unloaded : T → Bool) (loads : List (CentroidLoad T)) : Prop where
  covered : ∀ id, stored id = (held id || unloaded id)
  unheld : ∀ id, unloaded id = true → held id = false
  read : ∀ id, (⟨id, .read true⟩ : CentroidLoad T) ∈ loads → stored id = true

def KnownCentroids.Sound (known : KnownCentroids T) : Prop :=
  Accounted known.stored known.held known.unloaded known.loads

theorem agrees_iff (known : KnownCentroids T) :
    known.Agrees ↔ ∀ id, known.held id = known.stored id := by
  constructor
  · intro agrees id
    have answer := agrees.document id
    cases held : known.held id <;> cases stored : known.stored id <;>
      simp_all [KnownCentroids.getDocumentSimilarity]
  · intro same
    constructor
    · intro id
      cases stored : known.stored id <;> simp [KnownCentroids.getDocumentSimilarity, same, stored]
    · intro id other isStored
      cases stored : known.stored id <;>
        simp [KnownCentroids.getCentroidSimilarity, same, stored, isStored]
    · intro id other isStored
      cases stored : known.stored id <;>
        simp [KnownCentroids.getCentroidSimilarity, same, stored, isStored]

theorem agrees_iff_of_sound {known : KnownCentroids T} (sound : known.Sound) :
    known.Agrees ↔ ∀ id, known.unloaded id = false := by
  rw [agrees_iff]
  apply forall_congr'
  intro id
  rw [sound.covered id]
  cases unloaded : known.unloaded id with
  | false => simp
  | true => simp [sound.unheld id unloaded]

section Accounts

variable {stored held unloaded : T → Bool} {loads : List (CentroidLoad T)} {id : T}

theorem Accounted.submit (accounted : Accounted stored held unloaded loads) (id : T) :
    Accounted stored held unloaded (loads ++ [⟨id, .submitted⟩]) where
  covered := accounted.covered
  unheld := accounted.unheld
  read other member := by
    rcases List.mem_append.mp member with before | added
    · exact accounted.read other before
    · cases List.mem_singleton.mp added

theorem Accounted.setLoad (accounted : Accounted stored held unloaded loads) (index : Nat)
    {stage : LoadStage} (reads : stage = .read true → stored id = true) :
    Accounted stored held unloaded (loads.set index ⟨id, stage⟩) where
  covered := accounted.covered
  unheld := accounted.unheld
  read other member := by
    rcases List.mem_or_eq_of_mem_set member with before | same
    · exact accounted.read other before
    · cases same
      exact reads rfl

variable [DecidableEq T]

theorem Accounted.insert (accounted : Accounted stored held unloaded loads)
    (isStored : stored id = true) :
    Accounted stored (Function.update held id true) (Function.update unloaded id false) loads where
  covered other := by
    by_cases same : other = id
    · subst same
      simp [isStored]
    · simp [same, accounted.covered other]
  unheld other := by
    by_cases same : other = id
    · subst same
      simp
    · simpa [same] using accounted.unheld other
  read := accounted.read

theorem Accounted.create (accounted : Accounted stored held unloaded loads)
    (absent : stored id = false) :
    Accounted (Function.update stored id true) held (Function.update unloaded id true) loads where
  covered other := by
    by_cases same : other = id
    · subst same
      simp
    · simp [same, accounted.covered other]
  unheld other := by
    by_cases same : other = id
    · subst same
      intro _
      have notHeld := accounted.covered other
      rw [absent] at notHeld
      exact (Bool.or_eq_false_iff.mp notHeld.symm).1
    · simpa [same] using accounted.unheld other
  read other member := by
    by_cases same : other = id
    · subst same
      simp
    · simpa [same] using accounted.read other member

theorem Accounted.delete (accounted : Accounted stored held unloaded loads)
    (notHeld : held id = false) (notRead : (⟨id, .read true⟩ : CentroidLoad T) ∉ loads) :
    Accounted (Function.update stored id false) held (Function.update unloaded id false) loads where
  covered other := by
    by_cases same : other = id
    · subst same
      simp [notHeld]
    · simp [same, accounted.covered other]
  unheld other := by
    by_cases same : other = id
    · subst same
      simp
    · simpa [same] using accounted.unheld other
  read other member := by
    have different : other ≠ id := by
      intro same
      subst same
      exact notRead member
    simpa [different] using accounted.read other member

end Accounts

section Runs

variable [DecidableEq T] {known next : KnownCentroids T} {action : KnownAction T}

omit [DecidableEq T] in
theorem known_sound_initialized (stored : T → Bool) :
    (KnownCentroids.initialized stored).Sound where
  covered id := (Bool.or_false _).symm
  unheld id := nofun
  read id member := by cases member

theorem KnownCentroids.Sound.store (sound : known.Sound) (id : T) : (known.store id).Sound := by
  unfold KnownCentroids.store
  split
  · exact sound
  · rename_i absent
    exact Accounted.create sound (Bool.eq_false_iff.mpr absent)

theorem KnownCentroids.Sound.deleteCentroid (sound : known.Sound) (id : T)
    (guarded : DeletesUnheld known (.deleteCentroid id)) : (known.deleteCentroid id).Sound := by
  cases isStored : known.stored id with
  | true =>
      obtain ⟨notHeld, notRead⟩ := guarded isStored
      exact Accounted.delete sound notHeld notRead
  | false =>
      have neither := sound.covered id
      rw [isStored] at neither
      have notHeld := (Bool.or_eq_false_iff.mp neither.symm).1
      apply Accounted.delete sound notHeld
      intro member
      rw [sound.read id member] at isStored
      cases isStored

theorem KnownCentroids.Sound.step (sound : known.Sound) (guarded : DeletesUnheld known action)
    (stepped : (knownMachine T).step known action = some next) : next.Sound := by
  cases known_step_of_step stepped with
  | create id => exact sound.store id
  | delete id => exact sound.deleteCentroid id guarded
  | restart => exact known_sound_initialized known.stored
  | save index id found => exact sound.store id
  | read index id found =>
      apply Accounted.setLoad sound
      intro reads
      exact LoadStage.read.inj reads
  | insert index id found =>
      have isStored := sound.read id (List.mem_of_getElem? found)
      have finished : Accounted known.stored known.held known.unloaded
          (known.loads.set index ⟨id, .finished⟩) := Accounted.setLoad sound index nofun
      exact finished.insert isStored
  | nothing index id found => exact Accounted.setLoad sound index nofun
  | background quiet stored held unloaded loads attempts =>
      rw [KnownCentroids.Sound, stored, held, unloaded]
      rcases loads with loads | ⟨id, loads⟩
      · rw [loads]
        exact sound
      · rw [loads]
        exact Accounted.submit sound id

/-- In every run from a start of the server that deletes no centroid the score worker holds, the
server, at rest or not, agrees with its store exactly when every centroid that came into the store
since the start has been loaded. -/
theorem agrees_iff_all_loaded (stored : T → Bool) (actions : List (KnownAction T))
    (guarded : (knownMachine T).Guarded DeletesUnheld actions (.initialized stored)) :
    (knownMachine T).Along (fun known => known.Agrees ↔ ∀ id, known.unloaded id = false) actions
      (.initialized stored) := by
  have preserved : ∀ (known : KnownCentroids T) (action : KnownAction T)
      (next : KnownCentroids T), known.Sound → True → DeletesUnheld known action →
      (knownMachine T).step known action = some next → next.Sound :=
    fun known action next sound _ guarded stepped => sound.step guarded stepped
  exact Machine.along_of_guarded preserved (fun _ sound => agrees_iff_of_sound sound) actions
    (fun _ _ => trivial) (known_sound_initialized stored) guarded

end Runs

end Agreement

/-- A centroid is created and deleted again; another is created, given a document and updated. -/
def createdAndUpdated : List (KnownAction Nat) :=
  [.createCentroid 1, .deleteCentroid 1, .createCentroid 2, .changeMembers 2 false, .fire 0,
    .proceed 0, .proceed 0, .proceed 0, .proceed 0, .checkExists 0, .checkExists 0,
    .saveCentroid 0, .finishRun 0, .proceed 0, .proceed 0, .proceed 0, .proceed 0, .proceed 0,
    .proceed 0, .proceed 0, .stepReload 0, .stepReload 0]

theorem created_and_updated_agrees :
    (knownMachine Nat).Along (fun known => known.Agrees ↔ ∀ id, known.unloaded id = false)
      createdAndUpdated (.initialized fun _ => false) :=
  agrees_iff_all_loaded (fun _ => false) createdAndUpdated (by decide +kernel)

/-- A created centroid is unknown to the score worker although nothing is left to be done. -/
theorem created_centroid_is_unknown :
    ∃ known, (knownMachine Nat).exec [.createCentroid 1] (.initialized fun _ => false) =
      some known ∧ known.AtRest ∧ known.stored 1 = true ∧
      known.getDocumentSimilarity 1 = .error .eCentroidDoesNotExist ∧ ¬ known.Agrees := by
  refine ⟨_, rfl, ⟨rfl, nofun, nofun, nofun⟩, rfl, rfl, ?_⟩
  intro agrees
  have answer := (agrees.document 1).mp rfl
  cases answer

end Relevanced.SimilarityScoreWorker

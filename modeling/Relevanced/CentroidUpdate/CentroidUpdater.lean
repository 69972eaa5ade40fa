import Relevanced.CentroidUpdate.DocumentAccumulator
import Relevanced.Persistence.Persistence

/-!
# CentroidUpdater

`CentroidUpdater::run` as a client of the thread pool of `Persistence`. Requests whose
futures are not waited for go on after the step that made them. The `do` loop takes
the number of pages it may process, since nothing in the code bounds it.
-/

namespace Relevanced.CentroidUpdate

open Foundation
open Models
open Persistence

set_option autoImplicit false

/-- How a run ends. -/
inductive RunOutcome (F : Type) where
  /-- `Try<bool>(true)`, with the documents that have been passed to `addDocument`, in order, and
  the centroid that has been saved. -/
  | updated (passed : List (ProcessedDocument F)) (centroid : Centroid F)
  /-- An exception is returned. -/
  | failed (error : ProtocolException)
  /-- An exception is thrown out of `run`. -/
  | threw
  | unfinished

/-- The accumulator, with the documents that have been passed to it. -/
structure Accumulated (F : Type) where
  accumulator : DocumentAccumulator F
  passed : List (ProcessedDocument F)

def Accumulated.add {F : Type} [Add F] (accumulated : Accumulated F)
    (document : ProcessedDocument F) : Accumulated F where
  accumulator := accumulated.accumulator.addDocument document
  passed := accumulated.passed ++ [document]

namespace CentroidUpdater

variable {F : Type}

abbrev Updater (F α : Type) := ClientProgram (PersistenceIf F) α

def idListBatchSize : Nat := 500

def documentBatchSize : Nat := 20

def request (call : PersistenceCall F) : Updater F Nat := @submit (PersistenceIf F) call

def get (futureType : FutureType) (future : Nat) : Updater F (futureType.Value F) :=
  @await (PersistenceIf F) futureType future

def doesCentroidExist (centroidId : Bytes) : Updater F Bool := do
  let future ← request (.doesCentroidExist centroidId)
  get .bool future

/-- The futures of a batch of documents, all requested before any is waited for. -/
def requestDocuments : List Bytes → Updater F (List Nat)
  | [] => pure []
  | id :: ids => do
      let future ← request (.loadDocument id)
      let futures ← requestDocuments ids
      pure (future :: futures)

/-- `collect(documentFutures).get()`: `none` where a load has thrown. -/
def collect : List Nat → Updater F (Option (List (Option (ProcessedDocument F))))
  | [] => pure (some [])
  | future :: futures => do
      match ← get .document future with
      | none => pure none
      | some loaded =>
          match ← collect futures with
          | none => pure none
          | some documents => pure (some (loaded.toOption :: documents))

/-- The loop over `loadedDocuments` from index `i`; `none` where `idSet.at(i)` throws. -/
def addDocuments [Add F] (centroidId : Bytes) (idSet : List Bytes) :
    Nat → List (Option (ProcessedDocument F)) → Accumulated F → Updater F (Option (Accumulated F))
  | _, [], accumulated => pure (some accumulated)
  | i, some document :: loadedDocuments, accumulated =>
      addDocuments centroidId idSet (i + 1) loadedDocuments (accumulated.add document)
  | i, none :: loadedDocuments, accumulated =>
      match idSet[i]? with
      | none => pure none
      | some docId => do
          let _ ← request (.removeDocumentFromCentroid centroidId docId)
          addDocuments centroidId idSet (i + 1) loadedDocuments accumulated

/-- The ids from index `docNum` to `lastDocIndex`, both included. -/
def batchAt (idSet : List Bytes) (docNum : Nat) : List Bytes :=
  let lastDocIndex := min (idSet.length - 1) (docNum + documentBatchSize)
  (idSet.drop docNum).take (lastDocIndex + 1 - docNum)

/-- The `for` loop over the batches that begin at the given indices. -/
def processBatches [Add F] (centroidId : Bytes) (idSet : List Bytes) :
    List Nat → Accumulated F → Updater F (Option (Accumulated F))
  | [], accumulated => pure (some accumulated)
  | docNum :: docNums, accumulated => do
      let documentFutures ← requestDocuments (batchAt idSet docNum)
      match ← collect documentFutures with
      | none => pure none
      | some loadedDocuments =>
          match ← addDocuments centroidId idSet 0 loadedDocuments accumulated with
          | none => pure none
          | some accumulated => processBatches centroidId idSet docNums accumulated

/-- `docNum = 0; docNum < idSet.size(); docNum += documentBatchSize`. -/
def batchStarts (idSet : List Bytes) : List Nat :=
  List.range' 0 ((idSet.length + (documentBatchSize - 1)) / documentBatchSize) documentBatchSize

/-- The `do` loop, for at most `pages` pages of ids. -/
def processPages [Add F] (centroidId : Bytes) :
    Nat → List Bytes → Accumulated F → Updater F (Except (RunOutcome F) (Accumulated F))
  | 0, _, _ => pure (.error .unfinished)
  | pages + 1, idSet, accumulated => do
      let nextIdSetFuture ← request (.listCentroidDocumentRangeFromDocumentIdOption centroidId
        (idSet.getLastD []) idListBatchSize)
      match ← processBatches centroidId idSet (batchStarts idSet) accumulated with
      | none => pure (.error .threw)
      | some accumulated =>
          match ← get .optionIds nextIdSetFuture with
          | none => pure (.error (.failed .eCentroidDoesNotExist))
          | some nextIdSet =>
              if nextIdSet.length ≥ idListBatchSize then
                processPages centroidId pages nextIdSet accumulated
              else pure (.ok accumulated)

variable [Zero F] [One F] [Add F] [Mul F] [NatCast F]

def centroidOf (sqrt : F → F) (centroidId : Bytes) (accumulator : DocumentAccumulator F) :
    Centroid F :=
  let (magnitude, accumulator) := accumulator.getMagnitude sqrt
  { id := centroidId
    wordVector := {
      magnitude := magnitude
      documentWeight := (accumulator.getCount : F)
      scores := accumulator.scores } }

/-- What is left of `run` once the documents have been accumulated. -/
def finish (sqrt : F → F) (centroidId : Bytes) (startTimestamp : Nat)
    (accumulated : Accumulated F) :
    Updater F (RunOutcome F) := do
  let centroid := centroidOf sqrt centroidId accumulated.accumulator
  if ← doesCentroidExist centroidId then
    let saved ← request (.saveCentroid centroidId centroid)
    let _ ← get .tryBool saved
    let _ ← request (.setCentroidMetadata centroidId (ascii "lastCalculated")
      (ascii (toString startTimestamp)))
    pure (.updated accumulated.passed centroid)
  else pure (.failed .eCentroidDoesNotExist)

/-- `startTimestamp` is what the clock shows. -/
def run (sqrt : F → F) (centroidId : Bytes) (startTimestamp pages : Nat) :
    Updater F (RunOutcome F) := do
  if ← doesCentroidExist centroidId then
    let listed ← request (.listCentroidDocumentRangeFromOffsetOption centroidId 0 idListBatchSize)
    match ← get .optionIds listed with
    | none => pure (.failed .eCentroidDoesNotExist)
    | some idSet =>
        if idSet.length > 0 then
          match ← processPages centroidId pages idSet ⟨.new, []⟩ with
          | .error outcome => pure outcome
          | .ok accumulated => finish sqrt centroidId startTimestamp accumulated
        else finish sqrt centroidId startTimestamp ⟨.new, []⟩
  else pure (.failed .eCentroidDoesNotExist)

/-- The ids of the documents passed to `addDocument` by the one run there is, once it has ended
successfully. -/
def passedIds (pool : ThreadPool F (RunOutcome F)) : Option (List Bytes) :=
  match pool.clients with
  | [.done (.updated passed _)] => some (passed.map ProcessedDocument.id)
  | _ => none

omit [Zero F] [One F] [Add F] [Mul F] [NatCast F] in
theorem updated_of_passed_ids {pool : ThreadPool F (RunOutcome F)} {ids : List Bytes}
    (ended : passedIds pool = some ids) :
    ∃ passed centroid, pool.clients = [.done (.updated passed centroid)] ∧
      passed.map ProcessedDocument.id = ids := by
  unfold passedIds at ended
  split at ended
  · rename_i passed centroid isDone
    exact ⟨passed, centroid, isDone, Option.some.inj ended⟩
  · cases ended

end CentroidUpdater

end Relevanced.CentroidUpdate

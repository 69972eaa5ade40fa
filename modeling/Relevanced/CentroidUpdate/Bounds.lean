import Relevanced.CentroidUpdate.CentroidUpdater

/-!
# Bounds of CentroidUpdater

The loop of `CentroidUpdater::run` once more, with a test before each `idSet.back()`,
`idSet.size() - 1` and `idSet.at(i)`. A test that fails ends the run. None does, whatever
the requests are answered: the tested run is the run.
-/

namespace Relevanced.CentroidUpdate

open Foundation
open Models
open Persistence

set_option autoImplicit false

/-- What is evaluated on a page that has no place for it. -/
inductive OutOfBounds where
  | back
  | size
  | at
  deriving DecidableEq

namespace CentroidUpdater

variable {F : Type}

def testedAt (idSet : List Bytes) (i : Nat) : Except OutOfBounds Bytes :=
  match idSet[i]? with
  | none => .error .at
  | some id => .ok id

/-- `idSet.at(i)` for the indices from `docNum` to `lastDocIndex`. -/
def testedBatchAt (idSet : List Bytes) (docNum : Nat) : Except OutOfBounds (List Bytes) :=
  if idSet = [] then .error .size
  else
    let lastDocIndex := min (idSet.length - 1) (docNum + documentBatchSize)
    (List.range' docNum (lastDocIndex + 1 - docNum)).mapM (testedAt idSet)

def testedAddDocuments [Add F] (centroidId : Bytes) (idSet : List Bytes) :
    Nat → List (Option (ProcessedDocument F)) → Accumulated F →
      Updater F (Except OutOfBounds (Accumulated F))
  | _, [], accumulated => pure (.ok accumulated)
  | i, some document :: loadedDocuments, accumulated =>
      testedAddDocuments centroidId idSet (i + 1) loadedDocuments (accumulated.add document)
  | i, none :: loadedDocuments, accumulated =>
      match testedAt idSet i with
      | .error failed => pure (.error failed)
      | .ok docId => do
          let _ ← request (.removeDocumentFromCentroid centroidId docId)
          testedAddDocuments centroidId idSet (i + 1) loadedDocuments accumulated

def testedBatches [Add F] (centroidId : Bytes) (idSet : List Bytes) :
    List Nat → Accumulated F → Updater F (Except OutOfBounds (Option (Accumulated F)))
  | [], accumulated => pure (.ok (some accumulated))
  | docNum :: docNums, accumulated =>
      match testedBatchAt idSet docNum with
      | .error failed => pure (.error failed)
      | .ok ids => do
          let documentFutures ← requestDocuments ids
          match ← collect documentFutures with
          | none => pure (.ok none)
          | some loadedDocuments =>
              match ← testedAddDocuments centroidId idSet 0 loadedDocuments accumulated with
              | .error failed => pure (.error failed)
              | .ok accumulated => testedBatches centroidId idSet docNums accumulated

def testedPages [Add F] (centroidId : Bytes) :
    Nat → List Bytes → Accumulated F →
      Updater F (Except OutOfBounds (Except (RunOutcome F) (Accumulated F)))
  | 0, _, _ => pure (.ok (.error .unfinished))
  | pages + 1, idSet, accumulated =>
      if idSet = [] then pure (.error .back)
      else do
        let nextIdSetFuture ← request (.listCentroidDocumentRangeFromDocumentIdOption centroidId
          (idSet.getLastD []) idListBatchSize)
        match ← testedBatches centroidId idSet (batchStarts idSet) accumulated with
        | .error failed => pure (.error failed)
        | .ok none => pure (.ok (.error .threw))
        | .ok (some accumulated) =>
            match ← get .optionIds nextIdSetFuture with
            | none => pure (.ok (.error (.failed .eCentroidDoesNotExist)))
            | some nextIdSet =>
                if nextIdSet.length ≥ idListBatchSize then
                  testedPages centroidId pages nextIdSet accumulated
                else pure (.ok (.ok accumulated))

def testedRun [Zero F] [One F] [Add F] [Mul F] [NatCast F] (sqrt : F → F) (centroidId : Bytes)
    (startTimestamp pages : Nat) : Updater F (Except OutOfBounds (RunOutcome F)) := do
  if ← doesCentroidExist centroidId then
    let listed ← request (.listCentroidDocumentRangeFromOffsetOption centroidId 0 idListBatchSize)
    match ← get .optionIds listed with
    | none => pure (.ok (.failed .eCentroidDoesNotExist))
    | some idSet =>
        if idSet.length > 0 then
          match ← testedPages centroidId pages idSet ⟨.new, []⟩ with
          | .error failed => pure (.error failed)
          | .ok (.error outcome) => pure (.ok outcome)
          | .ok (.ok accumulated) =>
              Except.ok <$> finish sqrt centroidId startTimestamp accumulated
        else Except.ok <$> finish sqrt centroidId startTimestamp ⟨.new, []⟩
  else pure (.ok (.failed .eCentroidDoesNotExist))

section Batches

variable {idSet : List Bytes}

theorem tested_range (count start : Nat) (fits : start + count ≤ idSet.length) :
    (List.range' start count).mapM (testedAt idSet) = .ok ((idSet.drop start).take count) := by
  induction count generalizing start with
  | zero => rfl
  | succ count ih =>
      have inside : start < idSet.length := by omega
      rw [List.range'_succ, List.mapM_cons, testedAt, List.getElem?_eq_getElem inside,
        ih (start + 1) (by omega), List.drop_eq_getElem_cons inside, List.take_succ_cons]
      rfl

theorem tested_batch_eq {docNum : Nat} (inside : docNum < idSet.length) :
    testedBatchAt idSet docNum = .ok (batchAt idSet docNum) := by
  have nonempty : idSet ≠ [] := List.ne_nil_of_length_pos (by omega)
  rw [testedBatchAt, if_neg nonempty]
  apply tested_range
  omega

theorem start_inside {docNum : Nat} (start : docNum ∈ batchStarts idSet) :
    docNum < idSet.length := by
  obtain ⟨i, within, rfl⟩ := List.mem_range'.mp start
  rw [documentBatchSize] at within ⊢
  omega

theorem requested_ids (ids : List Bytes) :
    (requestDocuments ids : Updater F (List Nat)).Returns fun futures =>
      futures.length = ids.length := by
  induction ids with
  | nil => rfl
  | cons id ids ih =>
      intro future
      apply Program.returns_bind ih
      intro futures same
      exact congrArg Nat.succ same

theorem collected_documents (futures : List Nat) :
    (collect futures : Updater F _).Returns fun collected =>
      ∀ documents, collected = some documents → documents.length = futures.length := by
  induction futures with
  | nil =>
      intro documents same
      cases same
      rfl
  | cons future futures ih =>
      intro loaded
      cases loaded with
      | none =>
          intro documents same
          cases same
      | some loaded =>
          apply Program.returns_bind ih
          intro collected sizes
          cases collected with
          | none =>
              intro documents same
              cases same
          | some documents =>
              intro all same
              cases same
              exact congrArg Nat.succ (sizes documents rfl)

end Batches

section Tested

variable {β : Type} [Add F] {centroidId : Bytes} {idSet : List Bytes}

theorem tested_add_documents {tested : Except OutOfBounds (Accumulated F) → Updater F β}
    {rest : Option (Accumulated F) → Updater F β}
    (agree : ∀ accumulated, tested (.ok accumulated) = rest (some accumulated)) {i : Nat}
    {loadedDocuments : List (Option (ProcessedDocument F))}
    (fits : i + loadedDocuments.length ≤ idSet.length) (accumulated : Accumulated F) :
    testedAddDocuments centroidId idSet i loadedDocuments accumulated >>= tested =
      addDocuments centroidId idSet i loadedDocuments accumulated >>= rest := by
  induction loadedDocuments generalizing i accumulated with
  | nil => exact agree accumulated
  | cons loaded loadedDocuments ih =>
      rw [List.length_cons] at fits
      cases loaded with
      | some document => exact ih (by omega) _
      | none =>
          have inside : i < idSet.length := by omega
          simp only [testedAddDocuments, addDocuments, testedAt, List.getElem?_eq_getElem inside,
            bind_assoc]
          apply congrArg (request _ >>= ·)
          funext _
          exact ih (by omega) _

theorem tested_batches {tested : Except OutOfBounds (Option (Accumulated F)) → Updater F β}
    {rest : Option (Accumulated F) → Updater F β}
    (agree : ∀ result, tested (.ok result) = rest result)
    {docNums : List Nat} (starts : ∀ docNum ∈ docNums, docNum < idSet.length)
    (accumulated : Accumulated F) :
    testedBatches centroidId idSet docNums accumulated >>= tested =
      processBatches centroidId idSet docNums accumulated >>= rest := by
  induction docNums generalizing accumulated with
  | nil => exact agree (some accumulated)
  | cons docNum docNums ih =>
      have later : ∀ other ∈ docNums, other < idSet.length :=
        fun other member => starts other (List.mem_cons_of_mem docNum member)
      simp only [testedBatches, processBatches, tested_batch_eq (starts docNum List.mem_cons_self),
        bind_assoc]
      apply (requested_ids _).bind_congr
      intro futures requested
      apply (collected_documents futures).bind_congr
      intro collected sizes
      cases collected with
      | none => exact agree none
      | some loadedDocuments =>
          have fits : 0 + loadedDocuments.length ≤ idSet.length := by
            have within : (batchAt idSet docNum).length ≤ idSet.length := by
              rw [batchAt, List.length_take, List.length_drop]
              omega
            have size := sizes loadedDocuments rfl
            omega
          simp only [bind_assoc]
          apply tested_add_documents _ fits
          intro accumulated
          exact ih later accumulated

theorem tested_pages (pages : Nat) (nonempty : idSet ≠ []) (accumulated : Accumulated F) :
    testedPages centroidId pages idSet accumulated =
      Except.ok <$> processPages centroidId pages idSet accumulated := by
  induction pages generalizing idSet accumulated with
  | zero => rfl
  | succ pages ih =>
      rw [map_eq_pure_bind, testedPages, if_neg nonempty, processPages, bind_assoc]
      apply congrArg (request _ >>= ·)
      funext nextIdSetFuture
      rw [bind_assoc]
      apply tested_batches _ fun docNum start => start_inside start
      intro result
      cases result with
      | none => rfl
      | some accumulated =>
          simp only [bind_assoc]
          apply congrArg (get _ _ >>= ·)
          funext nextIdSet
          cases nextIdSet with
          | none => rfl
          | some nextIdSet =>
              dsimp only
              split
              · rename_i full
                have filled : nextIdSet ≠ [] := by
                  rintro rfl
                  exact absurd full (by decide)
                rw [ih filled, map_eq_pure_bind]
              · rfl

variable [Zero F] [One F] [Mul F] [NatCast F]

theorem tested_run_eq (sqrt : F → F) (centroidId : Bytes) (startTimestamp pages : Nat) :
    testedRun sqrt centroidId startTimestamp pages =
      Except.ok <$> run sqrt centroidId startTimestamp pages := by
  rw [map_eq_pure_bind, testedRun, run, bind_assoc]
  apply congrArg (doesCentroidExist centroidId >>= ·)
  funext present
  cases present with
  | false => rfl
  | true =>
      simp only [if_true, bind_assoc]
      apply congrArg (request _ >>= ·)
      funext listed
      apply congrArg (get _ _ >>= ·)
      funext idSet
      cases idSet with
      | none => rfl
      | some idSet =>
          dsimp only
          by_cases nonempty : idSet.length > 0
          · rw [if_pos nonempty, if_pos nonempty,
              tested_pages pages (List.ne_nil_of_length_pos nonempty), map_eq_pure_bind, bind_assoc,
              bind_assoc]
            apply congrArg (processPages _ _ _ _ >>= ·)
            funext ended
            cases ended with
            | error outcome => rfl
            | ok accumulated =>
                change Except.ok <$> finish sqrt centroidId startTimestamp accumulated = _
                rw [map_eq_pure_bind]
          · rw [if_neg nonempty, if_neg nonempty, map_eq_pure_bind]

end Tested

end CentroidUpdater

end Relevanced.CentroidUpdate

import Mathlib.Data.List.ReduceOption
import Relevanced.CentroidUpdate.CentroidUpdater
import Relevanced.Foundation.Clients

/-!
# Runs of CentroidUpdater

What a run passes to the accumulator and what it asks to be removed, page by page and
batch by batch, for any contract the run keeps to. The answers it gets are those the
contract allows, in whatever order the tasks of the pool take their steps.
-/

namespace Relevanced.CentroidUpdate

open Foundation
open Models
open Persistence

set_option autoImplicit false

/-- What has come of the loaded documents: those passed to `addDocument` in order, and the ids
`removeDocumentFromCentroid` has been asked for. -/
structure Processed (F : Type) where
  passed : List (ProcessedDocument F)
  removed : List Bytes

namespace CentroidUpdater

variable {F : Type}

/-- `idSet.at(i)` for every position `i` at which nothing has been loaded. -/
def removedIds (idSet : List Bytes) (loadedDocuments : List (Option (ProcessedDocument F))) :
    List Bytes :=
  ((idSet.zip loadedDocuments).filter fun entry => entry.2.isNone).map Prod.fst

def addBatch (idSet : List Bytes) (processed : Processed F)
    (loadedDocuments : List (Option (ProcessedDocument F))) : Processed F where
  passed := processed.passed ++ loadedDocuments.reduceOption
  removed := processed.removed ++ removedIds idSet loadedDocuments

/-- The accumulator after the given documents. -/
def accumulatedOf [Zero F] [Add F] (passed : List (ProcessedDocument F)) : Accumulated F where
  accumulator := passed.foldl DocumentAccumulator.addDocument .new
  passed := passed

section Relations

variable (contract : Contract Store (PersistenceIf F))

/-- The load may be answered, and `collect` makes this of the answer. -/
def Loads (id : Bytes) (document : Option (ProcessedDocument F)) : Prop :=
  ∃ loaded, contract.Answers (.loadDocument id) (some loaded) ∧ document = loaded.toOption

/-- What the batches that begin at the given indices of a page can make of what there was. -/
inductive BatchesPass (idSet : List Bytes) : List Nat → Processed F → Processed F → Prop where
  | none (processed : Processed F) : BatchesPass idSet [] processed processed
  | batch {docNum : Nat} {docNums : List Nat} {processed last : Processed F}
      (loadedDocuments : List (Option (ProcessedDocument F)))
      (loaded : List.Forall₂ (Loads contract) (batchAt idSet docNum) loadedDocuments)
      (later : BatchesPass idSet docNums (addBatch idSet processed loadedDocuments) last) :
      BatchesPass idSet (docNum :: docNums) processed last

/-- What at most so many pages, the given one first, can make of what there was; nothing when
there are more. -/
inductive PagesPass (centroidId : Bytes) :
    Nat → List Bytes → Processed F → Option (Processed F) → Prop where
  | unfinished (idSet : List Bytes) (processed : Processed F) :
      PagesPass centroidId 0 idSet processed none
  | last {pages : Nat} {idSet : List Bytes} {processed after : Processed F} (nextIdSet : List Bytes)
      (batches : BatchesPass contract idSet (batchStarts idSet) processed after)
      (listed : contract.Answers (.listCentroidDocumentRangeFromDocumentIdOption centroidId
        (idSet.getLastD []) idListBatchSize) (some nextIdSet))
      (short : nextIdSet.length < idListBatchSize) :
      PagesPass centroidId (pages + 1) idSet processed (some after)
  | next {pages : Nat} {idSet : List Bytes} {processed after : Processed F}
      {result : Option (Processed F)} (nextIdSet : List Bytes)
      (batches : BatchesPass contract idSet (batchStarts idSet) processed after)
      (listed : contract.Answers (.listCentroidDocumentRangeFromDocumentIdOption centroidId
        (idSet.getLastD []) idListBatchSize) (some nextIdSet))
      (full : idListBatchSize ≤ nextIdSet.length)
      (later : PagesPass centroidId pages nextIdSet after result) :
      PagesPass centroidId (pages + 1) idSet processed result

/-- What a run can make of the first page. -/
def FirstPagePasses (centroidId : Bytes) (pages : Nat) (result : Option (Processed F)) : Prop :=
  ∃ idSet, contract.Answers (.listCentroidDocumentRangeFromOffsetOption centroidId 0
    idListBatchSize) (some idSet) ∧
    (idSet = [] ∧ result = some ⟨[], []⟩ ∨
      idSet ≠ [] ∧ PagesPass contract centroidId pages idSet ⟨[], []⟩ result)

/-- A contract under which a run is answered, with the pages it may read. -/
structure Serves (Stop : PersistenceCall F → Prop) (centroidId : Bytes) (Read : List Bytes → Prop) :
    Prop where
  finds : contract.Good (.doesCentroidExist centroidId)
  lists : contract.Good (.listCentroidDocumentRangeFromOffsetOption centroidId 0 idListBatchSize)
  first : ∀ idSet, contract.Answers (.listCentroidDocumentRangeFromOffsetOption centroidId 0
    idListBatchSize) (some idSet) → idSet ≠ [] → Read idSet
  continues : ∀ idSet, Read idSet → contract.Good
    (.listCentroidDocumentRangeFromDocumentIdOption centroidId (idSet.getLastD []) idListBatchSize)
  next : ∀ idSet nextIdSet, Read idSet → contract.Answers
    (.listCentroidDocumentRangeFromDocumentIdOption centroidId (idSet.getLastD []) idListBatchSize)
    (some nextIdSet) → idListBatchSize ≤ nextIdSet.length → Read nextIdSet
  loads : ∀ idSet, Read idSet → ∀ id ∈ idSet, contract.Good (.loadDocument id)
  removes : ∀ idSet, Read idSet → ∀ docNum ∈ batchStarts idSet, ∀ loadedDocuments,
    List.Forall₂ (Loads contract) (batchAt idSet docNum) loadedDocuments →
    ∀ id ∈ removedIds idSet loadedDocuments, Stop (.removeDocumentFromCentroid centroidId id) ∨
      contract.Good (.removeDocumentFromCentroid centroidId id)
  saves : ∀ centroid, contract.Good (.saveCentroid centroidId centroid)
  stamps : ∀ value, contract.Good (.setCentroidMetadata centroidId (ascii "lastCalculated") value)

end Relations

theorem mem_of_mem_batch {idSet : List Bytes} {docNum : Nat} {id : Bytes}
    (member : id ∈ batchAt idSet docNum) : id ∈ idSet :=
  List.mem_of_mem_drop (List.mem_of_mem_take member)

theorem batch_fits (idSet : List Bytes) (docNum : Nat) :
    (batchAt idSet docNum).length ≤ idSet.length := by
  rw [batchAt, List.length_take, List.length_drop]
  omega

theorem removed_cons (id : Bytes) (idSet : List Bytes)
    (loadedDocuments : List (Option (ProcessedDocument F))) :
    removedIds (id :: idSet) (none :: loadedDocuments) =
      id :: removedIds idSet loadedDocuments := rfl

theorem fold_add [Add F] (documents : List (ProcessedDocument F)) (accumulated : Accumulated F) :
    documents.foldl Accumulated.add accumulated =
      ⟨documents.foldl DocumentAccumulator.addDocument accumulated.accumulator,
        accumulated.passed ++ documents⟩ := by
  induction documents generalizing accumulated with
  | nil => simp
  | cons document documents ih =>
      rw [List.foldl_cons, ih]
      simp [Accumulated.add]

theorem accumulated_append [Zero F] [Add F] (passed documents : List (ProcessedDocument F)) :
    documents.foldl Accumulated.add (accumulatedOf passed) =
      accumulatedOf (passed ++ documents) := by
  rw [fold_add, accumulatedOf, accumulatedOf, List.foldl_append]

section Passing

variable {contract : Contract Store (PersistenceIf F)} {centroidId : Bytes} {idSet : List Bytes}
  {docNums : List Nat} {pages : Nat} {processed last : Processed F}

theorem BatchesPass.removed_subset (passes : BatchesPass contract idSet docNums processed last) :
    processed.removed ⊆ last.removed := by
  induction passes with
  | none processed => exact List.Subset.refl _
  | batch loadedDocuments loaded later ih =>
      exact List.Subset.trans (List.subset_append_left _ _) ih

theorem BatchesPass.covers (passes : BatchesPass contract idSet docNums processed last) :
    ∀ docNum ∈ docNums, ∃ loadedDocuments,
      List.Forall₂ (Loads contract) (batchAt idSet docNum) loadedDocuments ∧
      removedIds idSet loadedDocuments ⊆ last.removed := by
  induction passes with
  | none processed =>
      intro docNum member
      cases member
  | batch loadedDocuments loaded later ih =>
      intro docNum member
      rcases List.mem_cons.mp member with rfl | inRest
      · exact ⟨loadedDocuments, loaded,
          List.Subset.trans (List.subset_append_right _ _) later.removed_subset⟩
      · exact ih docNum inRest

theorem PagesPass.removed_subset {result : Option (Processed F)}
    (passes : PagesPass contract centroidId pages idSet processed result)
    (ended : result = some last) : processed.removed ⊆ last.removed := by
  induction passes with
  | unfinished idSet processed => cases ended
  | last nextIdSet batches listed short =>
      cases ended
      exact batches.removed_subset
  | next nextIdSet batches listed full later ih =>
      exact List.Subset.trans batches.removed_subset (ih ended)

theorem PagesPass.page (passes : PagesPass contract centroidId pages idSet processed (some last)) :
    ∃ after, BatchesPass contract idSet (batchStarts idSet) processed after ∧
      after.removed ⊆ last.removed := by
  cases passes with
  | last nextIdSet batches listed short => exact ⟨last, batches, List.Subset.refl _⟩
  | next nextIdSet batches listed full later => exact ⟨_, batches, later.removed_subset rfl⟩

/-- What the batches that begin at the given indices add to the passed documents. -/
structure Adds (contract : Contract Store (PersistenceIf F)) (idSet : List Bytes)
    (docNums : List Nat) (added : List (ProcessedDocument F)) : Prop where
  loaded : ∀ doc ∈ added, ∃ id ∈ idSet, Loads contract id (some doc)
  sublist : (∀ id doc, Loads contract id (some doc) → doc.id = id) →
    (added.map ProcessedDocument.id).Sublist (docNums.flatMap (batchAt idSet))
  all : (∀ id doc, Loads contract id (some doc) → doc.id = id) →
    (∀ id ∈ idSet, ¬ Loads contract id none) →
    added.map ProcessedDocument.id = docNums.flatMap (batchAt idSet)

theorem loaded_of_batch {ids : List Bytes} {loadedDocuments : List (Option (ProcessedDocument F))}
    (loads : List.Forall₂ (Loads contract) ids loadedDocuments) :
    (∀ doc ∈ loadedDocuments.reduceOption, ∃ id ∈ ids, Loads contract id (some doc)) ∧
    ((∀ id doc, Loads contract id (some doc) → doc.id = id) →
      (loadedDocuments.reduceOption.map ProcessedDocument.id).Sublist ids ∧
      ((∀ id ∈ ids, ¬ Loads contract id none) →
        loadedDocuments.reduceOption.map ProcessedDocument.id = ids)) := by
  induction loads with
  | nil => exact ⟨by simp [List.reduceOption], fun _ => ⟨.slnil, fun _ => rfl⟩⟩
  | cons here rest ih =>
      rename_i id document ids loadedDocuments
      cases document with
      | none =>
          rw [List.reduceOption_cons_of_none]
          refine ⟨?_, ?_⟩
          · intro doc member
            obtain ⟨other, isThere, loads⟩ := ih.1 doc member
            exact ⟨other, List.mem_cons_of_mem id isThere, loads⟩
          · intro owns
            refine ⟨(ih.2 owns).1.cons id, ?_⟩
            intro whole
            exact absurd here (whole id List.mem_cons_self)
      | some document =>
          rw [List.reduceOption_cons_of_some]
          refine ⟨?_, ?_⟩
          · intro doc member
            rcases List.mem_cons.mp member with rfl | inRest
            · exact ⟨id, List.mem_cons_self, here⟩
            · obtain ⟨other, isThere, loads⟩ := ih.1 doc inRest
              exact ⟨other, List.mem_cons_of_mem id isThere, loads⟩
          · intro owns
            rw [List.map_cons, owns id document here]
            refine ⟨(ih.2 owns).1.cons_cons id, ?_⟩
            intro whole
            rw [(ih.2 owns).2 fun other member => whole other (List.mem_cons_of_mem id member)]

theorem BatchesPass.adds (passes : BatchesPass contract idSet docNums processed last) :
    ∃ added, last.passed = processed.passed ++ added ∧ Adds contract idSet docNums added := by
  induction passes with
  | none processed =>
      exact ⟨[], (List.append_nil _).symm, by simp, fun _ => .slnil, fun _ _ => rfl⟩
  | batch loadedDocuments loaded later ih =>
      obtain ⟨added, same, adds⟩ := ih
      obtain ⟨origin, ids⟩ := loaded_of_batch loaded
      refine ⟨loadedDocuments.reduceOption ++ added, ?_, ?_, ?_, ?_⟩
      · rw [same, addBatch, List.append_assoc]
      · intro doc member
        rcases List.mem_append.mp member with here | further
        · obtain ⟨id, inBatch, loads⟩ := origin doc here
          exact ⟨id, mem_of_mem_batch inBatch, loads⟩
        · exact adds.loaded doc further
      · intro owns
        rw [List.map_append, List.flatMap_cons]
        exact (ids owns).1.append (adds.sublist owns)
      · intro owns whole
        rw [List.map_append, List.flatMap_cons, adds.all owns whole,
          (ids owns).2 fun id inBatch => whole id (mem_of_mem_batch inBatch)]

end Passing

section Delivering

variable {contract : Contract Store (PersistenceIf F)} {Stop : PersistenceCall F → Prop}
  {submitted : List (PersistenceCall F)}

theorem delivers_request_documents {ids : List Bytes}
    (good : ∀ id ∈ ids, contract.Good (.loadDocument id)) :
    Delivers contract Stop (fun futures later => later = submitted ++ ids.map .loadDocument ∧
      futures = List.range' submitted.length ids.length) (requestDocuments ids) submitted := by
  induction ids generalizing submitted with
  | nil =>
      apply delivers_pure
      simp
  | cons id ids ih =>
      apply delivers_submit_bind
      refine .inr ⟨good id List.mem_cons_self, ?_⟩
      apply delivers_bind (ih fun other member => good other (List.mem_cons_of_mem id member))
      intro futures later collected
      obtain ⟨rfl, rfl⟩ := collected
      apply delivers_pure
      simp [List.range'_succ]

def Collected (contract : Contract Store (PersistenceIf F)) (ids : List Bytes) :
    Option (List (Option (ProcessedDocument F))) → Prop
  | none => ∃ id ∈ ids, contract.Answers (.loadDocument id) none
  | some documents => List.Forall₂ (Loads contract) ids documents

theorem delivers_collect {futures : List Nat} {ids : List Bytes}
    (asked : List.Forall₂ (fun future id => submitted[future]? = some (.loadDocument id)) futures
      ids) :
    Delivers contract Stop (fun documents later => later = submitted ∧
      Collected contract ids documents) (collect futures) submitted := by
  induction asked with
  | nil => exact delivers_pure ⟨rfl, .nil⟩
  | cons found rest ih =>
      rename_i future id futures ids
      apply delivers_await_bind (J := PersistenceIf F) (.loadDocument id) rfl found
      intro loaded answers
      cases loaded with
      | none => exact delivers_pure ⟨rfl, id, List.mem_cons_self, answers⟩
      | some loaded =>
          apply delivers_bind ih
          intro documents later collected
          obtain ⟨rfl, collected⟩ := collected
          cases documents with
          | none =>
              obtain ⟨thrown, member, answered⟩ := collected
              exact delivers_pure ⟨rfl, thrown, List.mem_cons_of_mem id member, answered⟩
          | some documents =>
              exact delivers_pure ⟨rfl, .cons ⟨loaded, answers, rfl⟩ collected⟩

variable [Add F] {centroidId : Bytes}

theorem delivers_add_documents {idSet : List Bytes} (i : Nat)
    (loadedDocuments : List (Option (ProcessedDocument F))) (accumulated : Accumulated F)
    (fits : i + loadedDocuments.length ≤ idSet.length)
    (removes : ∀ id ∈ removedIds (idSet.drop i) loadedDocuments,
      Stop (.removeDocumentFromCentroid centroidId id) ∨
        contract.Good (.removeDocumentFromCentroid centroidId id)) :
    Delivers contract Stop (fun result later =>
      result = some (loadedDocuments.reduceOption.foldl Accumulated.add accumulated) ∧
        later = submitted ++ (removedIds (idSet.drop i) loadedDocuments).map
          (.removeDocumentFromCentroid centroidId))
      (addDocuments centroidId idSet i loadedDocuments accumulated) submitted := by
  induction loadedDocuments generalizing i accumulated submitted with
  | nil =>
      apply delivers_pure
      simp [removedIds, List.reduceOption]
  | cons document loadedDocuments ih =>
      rw [List.length_cons] at fits
      have within : i < idSet.length := by omega
      rw [List.drop_eq_getElem_cons within] at removes ⊢
      cases document with
      | some document =>
          exact ih (i + 1) (accumulated.add document) (by omega) removes
      | none =>
          have found : idSet[i]? = some idSet[i] := List.getElem?_eq_getElem within
          rw [addDocuments, found]
          apply delivers_submit_bind
          have here := removes idSet[i] (by
            rw [removed_cons]
            exact List.mem_cons_self)
          apply here.imp id
          intro good
          refine ⟨good, ?_⟩
          have removesLater : ∀ id ∈ removedIds (idSet.drop (i + 1)) loadedDocuments,
              Stop (.removeDocumentFromCentroid centroidId id) ∨
                contract.Good (.removeDocumentFromCentroid centroidId id) := by
            intro id member
            apply removes
            rw [removed_cons]
            exact List.mem_cons_of_mem _ member
          apply (ih (i + 1) accumulated (by omega) removesLater).mono
          intro result last ended
          obtain ⟨rfl, rfl⟩ := ended
          refine ⟨rfl, ?_⟩
          rw [removed_cons, List.map_cons, List.append_assoc, List.singleton_append]

omit [Add F] in
theorem requested_documents (ids : List Bytes) :
    List.Forall₂ (fun future id =>
        (submitted ++ ids.map PersistenceCall.loadDocument)[future]? = some (.loadDocument id))
      (List.range' submitted.length ids.length) ids := by
  induction ids generalizing submitted with
  | nil => exact .nil
  | cons id ids ih =>
      rw [List.length_cons, List.range'_succ]
      apply List.Forall₂.cons
      · rw [List.getElem?_append_right (le_refl _)]
        simp
      · have rest := @ih (submitted ++ [.loadDocument id])
        rw [List.length_append, List.length_singleton, List.append_assoc] at rest
        exact rest

variable [Zero F] {Read : List Bytes → Prop}

def Asked (centroidId : Bytes) (processed : Processed F) (submitted : List (PersistenceCall F)) :
    Prop :=
  ∀ id ∈ processed.removed, .removeDocumentFromCentroid centroidId id ∈ submitted

def BatchesEnd (contract : Contract Store (PersistenceIf F)) (centroidId : Bytes)
    (idSet : List Bytes) (docNums : List Nat) (processed : Processed F)
    (later : List (PersistenceCall F)) : Option (Accumulated F) → Prop
  | none => ∃ id ∈ idSet, contract.Answers (.loadDocument id) none
  | some accumulated => ∃ last, BatchesPass contract idSet docNums processed last ∧
      accumulated = accumulatedOf last.passed ∧ Asked centroidId last later

theorem delivers_process_batches (serves : Serves contract Stop centroidId Read)
    {idSet : List Bytes} (read : Read idSet) {docNums : List Nat}
    (starts : ∀ docNum ∈ docNums, docNum ∈ batchStarts idSet) {processed : Processed F}
    (asked : Asked centroidId processed submitted) :
    Delivers contract Stop (fun result later => submitted <+: later ∧
        BatchesEnd contract centroidId idSet docNums processed later result)
      (processBatches centroidId idSet docNums (accumulatedOf processed.passed)) submitted := by
  induction docNums generalizing submitted processed with
  | nil => exact delivers_pure ⟨List.prefix_rfl, processed, .none processed, rfl, asked⟩
  | cons docNum docNums ih =>
      have loads : ∀ id ∈ batchAt idSet docNum, contract.Good (.loadDocument id) :=
        fun id member => serves.loads idSet read id (mem_of_mem_batch member)
      apply delivers_bind (delivers_request_documents loads)
      intro futures later requested
      obtain ⟨rfl, rfl⟩ := requested
      apply delivers_bind (delivers_collect (requested_documents (batchAt idSet docNum)))
      intro documents later collected
      obtain ⟨rfl, collected⟩ := collected
      cases documents with
      | none =>
          obtain ⟨id, member, thrown⟩ := collected
          exact delivers_pure ⟨List.prefix_append _ _, id, mem_of_mem_batch member, thrown⟩
      | some loadedDocuments =>
          have fits : 0 + loadedDocuments.length ≤ idSet.length := by
            rw [Nat.zero_add, ← collected.length_eq]
            exact batch_fits idSet docNum
          have removes := serves.removes idSet read docNum (starts docNum List.mem_cons_self)
            loadedDocuments collected
          apply delivers_bind (delivers_add_documents 0 loadedDocuments _ fits removes)
          intro result later added
          obtain ⟨rfl, rfl⟩ := added
          rw [accumulated_append]
          have stillAsked : Asked centroidId (addBatch idSet processed loadedDocuments)
              (submitted ++ (batchAt idSet docNum).map .loadDocument ++
                (removedIds idSet loadedDocuments).map
                  (.removeDocumentFromCentroid centroidId)) := by
            intro id member
            rcases List.mem_append.mp member with before | now
            · apply List.mem_append_left
              exact List.mem_append_left _ (asked id before)
            · exact List.mem_append_right _ (List.mem_map_of_mem now)
          apply (ih (fun other member => starts other (List.mem_cons_of_mem docNum member))
            stillAsked).mono
          intro result last ended
          obtain ⟨further, ended⟩ := ended
          refine ⟨?_, ?_⟩
          · rw [List.append_assoc] at further
            exact (List.prefix_append _ _).trans further
          · cases result with
            | none => exact ended
            | some accumulated =>
                obtain ⟨last, passes, same, askedLast⟩ := ended
                exact ⟨last, .batch loadedDocuments collected passes, same, askedLast⟩

def PagesEnd (contract : Contract Store (PersistenceIf F)) (centroidId : Bytes)
    (Read : List Bytes → Prop) (pages : Nat) (idSet : List Bytes) (processed : Processed F)
    (later : List (PersistenceCall F)) : Except (RunOutcome F) (Accumulated F) → Prop
  | .error (.updated _ _) => False
  | .error (.failed _) => ∃ idSet, Read idSet ∧ contract.Answers
      (.listCentroidDocumentRangeFromDocumentIdOption centroidId (idSet.getLastD [])
        idListBatchSize) none
  | .error .threw => ∃ idSet, Read idSet ∧ ∃ id ∈ idSet, contract.Answers (.loadDocument id) none
  | .error .unfinished => PagesPass contract centroidId pages idSet processed none
  | .ok accumulated => ∃ last, PagesPass contract centroidId pages idSet processed (some last) ∧
      accumulated = accumulatedOf last.passed ∧ Asked centroidId last later

theorem PagesEnd.next {pages : Nat} {idSet nextIdSet : List Bytes} {processed after : Processed F}
    {later : List (PersistenceCall F)} {result : Except (RunOutcome F) (Accumulated F)}
    (batches : BatchesPass contract idSet (batchStarts idSet) processed after)
    (listed : contract.Answers (.listCentroidDocumentRangeFromDocumentIdOption centroidId
      (idSet.getLastD []) idListBatchSize) (some nextIdSet))
    (full : idListBatchSize ≤ nextIdSet.length)
    (ended : PagesEnd contract centroidId Read pages nextIdSet after later result) :
    PagesEnd contract centroidId Read (pages + 1) idSet processed later result := by
  cases result with
  | error outcome =>
      cases outcome with
      | updated passed centroid => exact ended
      | failed error => exact ended
      | threw => exact ended
      | unfinished => exact PagesPass.next nextIdSet batches listed full ended
  | ok accumulated =>
      obtain ⟨last, passes, same, asked⟩ := ended
      exact ⟨last, .next nextIdSet batches listed full passes, same, asked⟩

theorem delivers_process_pages (serves : Serves contract Stop centroidId Read) {pages : Nat}
    {idSet : List Bytes} (read : Read idSet) {processed : Processed F}
    (asked : Asked centroidId processed submitted) :
    Delivers contract Stop
      (fun result later => PagesEnd contract centroidId Read pages idSet processed later result)
      (processPages centroidId pages idSet (accumulatedOf processed.passed)) submitted := by
  induction pages generalizing idSet processed submitted with
  | zero => exact delivers_pure (.unfinished idSet processed)
  | succ pages ih =>
      apply delivers_submit_bind
      refine .inr ⟨serves.continues idSet read, ?_⟩
      have stillAsked : Asked centroidId processed (submitted ++
          [.listCentroidDocumentRangeFromDocumentIdOption centroidId (idSet.getLastD [])
            idListBatchSize]) :=
        fun id member => List.mem_append_left _ (asked id member)
      apply delivers_bind (delivers_process_batches serves read (fun _ start => start) stillAsked)
      intro result later ended
      obtain ⟨further, ended⟩ := ended
      cases result with
      | none => exact delivers_pure ⟨idSet, read, ended⟩
      | some accumulated =>
          obtain ⟨after, batches, rfl, askedAfter⟩ := ended
          have found : later[submitted.length]? =
              some (.listCentroidDocumentRangeFromDocumentIdOption centroidId (idSet.getLastD [])
                idListBatchSize) := by
            obtain ⟨rest, rfl⟩ := further
            rw [List.append_assoc, List.getElem?_append_right (le_refl _), Nat.sub_self]
            rfl
          apply delivers_await_bind (J := PersistenceIf F) _ rfl found
          intro nextIdSet answers
          cases nextIdSet with
          | none => exact delivers_pure ⟨idSet, read, answers⟩
          | some nextIdSet =>
              change Delivers contract Stop _ (if nextIdSet.length ≥ idListBatchSize then
                processPages centroidId pages nextIdSet (accumulatedOf after.passed)
                else pure (.ok (accumulatedOf after.passed))) later
              by_cases full : idListBatchSize ≤ nextIdSet.length
              · rw [if_pos full]
                have readNext := serves.next idSet nextIdSet read answers full
                apply (ih readNext askedAfter).mono
                intro result last ended
                exact ended.next batches answers full
              · rw [if_neg full]
                exact delivers_pure
                  ⟨after, .last nextIdSet batches answers (not_le.mp full), rfl, askedAfter⟩

omit [Add F] [Zero F] in
theorem delivers_does_centroid_exist (finds : contract.Good (.doesCentroidExist centroidId)) :
    Delivers contract Stop (fun present later =>
        contract.Answers (.doesCentroidExist centroidId) present ∧ submitted <+: later)
      (doesCentroidExist centroidId) submitted := by
  apply delivers_submit_bind
  refine .inr ⟨finds, (.doesCentroidExist centroidId : PersistenceCall F), rfl, by simp, ?_⟩
  intro present answers
  exact ⟨answers, List.prefix_append _ _⟩

variable [Mul F] [NatCast F]

def RunEnds (contract : Contract Store (PersistenceIf F)) (sqrt : F → F) (centroidId : Bytes)
    (Read : List Bytes → Prop) (pages : Nat) (later : List (PersistenceCall F)) :
    RunOutcome F → Prop
  | .updated passed centroid =>
      centroid = centroidOf sqrt centroidId (passed.foldl DocumentAccumulator.addDocument .new) ∧
        .saveCentroid centroidId centroid ∈ later ∧
        ∃ removed, FirstPagePasses contract centroidId pages (some ⟨passed, removed⟩) ∧
          ∀ id ∈ removed, .removeDocumentFromCentroid centroidId id ∈ later
  | .failed _ => contract.Answers (.doesCentroidExist centroidId) false ∨
      contract.Answers (.listCentroidDocumentRangeFromOffsetOption centroidId 0 idListBatchSize)
        none ∨
      ∃ idSet, Read idSet ∧ contract.Answers (.listCentroidDocumentRangeFromDocumentIdOption
        centroidId (idSet.getLastD []) idListBatchSize) none
  | .threw => ∃ idSet, Read idSet ∧ ∃ id ∈ idSet, contract.Answers (.loadDocument id) none
  | .unfinished => FirstPagePasses contract centroidId pages none

theorem delivers_finish (serves : Serves contract Stop centroidId Read) (sqrt : F → F)
    (startTimestamp : Nat) {pages : Nat} {processed : Processed F}
    (passes : FirstPagePasses contract centroidId pages (some processed))
    (asked : Asked centroidId processed submitted) :
    Delivers contract Stop
      (fun outcome later => RunEnds contract sqrt centroidId Read pages later outcome)
      (finish sqrt centroidId startTimestamp (accumulatedOf processed.passed)) submitted := by
  apply delivers_bind (delivers_does_centroid_exist serves.finds)
  intro present later found
  obtain ⟨answers, further⟩ := found
  cases present with
  | false => exact delivers_pure (.inl answers)
  | true =>
      apply delivers_submit_bind
      refine .inr ⟨serves.saves _, ?_⟩
      apply delivers_await_bind (J := PersistenceIf F) (.saveCentroid centroidId
        (centroidOf sqrt centroidId (accumulatedOf processed.passed).accumulator)) rfl (by simp)
      intro saved _
      apply delivers_submit_bind
      refine .inr ⟨serves.stamps _, ?_⟩
      apply delivers_pure
      refine ⟨rfl, ?_, processed.removed, passes, ?_⟩
      · apply List.mem_append_left
        exact List.mem_append_right _ List.mem_cons_self
      · intro id member
        apply List.mem_append_left
        exact List.mem_append_left _ (further.subset (asked id member))

theorem delivers_run (serves : Serves contract Stop centroidId Read) (sqrt : F → F)
    (startTimestamp pages : Nat) :
    Delivers contract Stop
      (fun outcome later => RunEnds contract sqrt centroidId Read pages later outcome)
      (run sqrt centroidId startTimestamp pages) submitted := by
  apply delivers_bind (delivers_does_centroid_exist serves.finds)
  intro present later found
  obtain ⟨answers, _⟩ := found
  cases present with
  | false => exact delivers_pure (.inl answers)
  | true =>
      apply delivers_submit_bind
      refine .inr ⟨serves.lists, ?_⟩
      apply delivers_await_bind (J := PersistenceIf F)
        (.listCentroidDocumentRangeFromOffsetOption centroidId 0 idListBatchSize) rfl (by simp)
      intro idSet listed
      cases idSet with
      | none => exact delivers_pure (.inr (.inl listed))
      | some idSet =>
          have nothingAsked (submitted : List (PersistenceCall F)) :
              Asked centroidId (⟨[], []⟩ : Processed F) submitted := by
            intro id member
            cases member
          cases idSet with
          | nil =>
              have passes : FirstPagePasses contract centroidId pages (some ⟨[], []⟩) :=
                ⟨[], listed, .inl ⟨rfl, rfl⟩⟩
              apply delivers_finish serves sqrt startTimestamp passes
              exact nothingAsked _
          | cons id ids =>
              have read := serves.first (id :: ids) listed (List.cons_ne_nil id ids)
              apply delivers_bind (delivers_process_pages serves read (nothingAsked _))
              intro result later ended
              cases result with
              | error outcome =>
                  cases outcome with
                  | updated passed centroid => exact False.elim ended
                  | failed error => exact delivers_pure (.inr (.inr ended))
                  | threw => exact delivers_pure ended
                  | unfinished =>
                      exact delivers_pure ⟨id :: ids, listed, .inr ⟨List.cons_ne_nil id ids, ended⟩⟩
              | ok accumulated =>
                  obtain ⟨last, passes, rfl, asked⟩ := ended
                  exact delivers_finish serves sqrt startTimestamp
                    ⟨id :: ids, listed, .inr ⟨List.cons_ne_nil id ids, passes⟩⟩ asked

end Delivering

end CentroidUpdater

end Relevanced.CentroidUpdate

import Mathlib.Data.List.MinMax
import Relevanced.CentroidUpdate.Forgetting

/-!
# Recomputation

Which members a successful run passes to `addDocument`, and how often. Pages overlap in
one id and batches in one index; the last page that is fetched is processed only when
it is full.
-/

namespace Relevanced.CentroidUpdate

open Foundation
open Models
open Persistence
open Persistence.SyncPersistence

set_option autoImplicit false

namespace CentroidUpdater

section Batches

variable {idSet : List Bytes}

/-- The ids that are loaded for a page, in the order of the requests. -/
def loadedIds (idSet : List Bytes) : List Bytes := (batchStarts idSet).flatMap (batchAt idSet)

theorem mem_loaded_ids (id : Bytes) : id ∈ loadedIds idSet ↔ id ∈ idSet := by
  rw [loadedIds, List.mem_flatMap]
  constructor
  · intro loaded
    obtain ⟨docNum, _, member⟩ := loaded
    exact mem_of_mem_batch member
  · intro member
    obtain ⟨i, within, rfl⟩ := List.mem_iff_getElem.mp member
    refine ⟨20 * (i / 20), ?_, ?_⟩
    · rw [batchStarts, documentBatchSize, List.mem_range']
      exact ⟨i / 20, by omega, by omega⟩
    · rw [batchAt, documentBatchSize]
      apply List.mem_of_getElem? (i := i - 20 * (i / 20))
      rw [List.getElem?_take, if_pos (by omega), List.getElem?_drop,
        show 20 * (i / 20) + (i - 20 * (i / 20)) = i by omega]
      exact List.getElem?_eq_getElem within

theorem loaded_ids_of_short (short : idSet.length ≤ 20) : loadedIds idSet = idSet := by
  cases idSet with
  | nil => rfl
  | cons id ids =>
      rw [List.length_cons] at short
      have one : (ids.length + 1 + (20 - 1)) / 20 = 1 := by omega
      have whole : ids.length + 1 ≤ min (ids.length + 1 - 1) (0 + 20) + 1 - 0 := by omega
      rw [loadedIds, batchStarts, documentBatchSize, List.length_cons, one]
      simp only [List.range'_one, List.flatMap_cons, List.flatMap_nil, List.append_nil, batchAt,
        documentBatchSize, List.length_cons, List.drop_zero]
      exact List.take_of_length_le whole

/-- The index a batch ends with begins the next one. -/
theorem loaded_twice (long : 20 < idSet.length) : 2 ≤ (loadedIds idSet).count idSet[20] := by
  obtain ⟨further, starts⟩ : ∃ further, batchStarts idSet = 0 :: 20 :: further := by
    have two : (idSet.length + (20 - 1)) / 20 = (idSet.length + (20 - 1)) / 20 - 2 + 1 + 1 := by
      omega
    rw [batchStarts, documentBatchSize, two, List.range'_succ, List.range'_succ]
    exact ⟨_, rfl⟩
  have inFirst : idSet[20] ∈ batchAt idSet 0 := by
    apply List.mem_of_getElem? (i := 20)
    rw [batchAt, documentBatchSize, List.getElem?_take, if_pos (by omega), List.drop_zero]
    exact List.getElem?_eq_getElem long
  have inSecond : idSet[20] ∈ batchAt idSet 20 := by
    apply List.mem_of_getElem? (i := 0)
    rw [batchAt, documentBatchSize, List.getElem?_take, if_pos (by omega), List.getElem?_drop]
    exact List.getElem?_eq_getElem long
  rw [loadedIds, starts, List.flatMap_cons, List.flatMap_cons, List.count_append,
    List.count_append]
  have first := List.count_pos_iff.mpr inFirst
  have second := List.count_pos_iff.mpr inSecond
  omega

end Batches

section Pages

variable {store : Store} {centroidId : Bytes}

theorem filter_from {ids : List Bytes} (ascending : ids.Pairwise (· < ·)) (i : Nat)
    (within : i < ids.length) : ids.filter (ids[i] ≤ ·) = ids.drop i := by
  induction ids generalizing i with
  | nil => cases within
  | cons id ids ih =>
      obtain ⟨below, later⟩ := List.pairwise_cons.mp ascending
      cases i with
      | zero =>
          apply List.filter_eq_self.mpr
          intro other member
          rw [List.getElem_cons_zero, decide_eq_true_eq]
          rcases List.mem_cons.mp member with rfl | further
          · exact le_refl _
          · exact (below other further).le
      | succ i =>
          rw [List.length_cons] at within
          have bound : i < ids.length := by omega
          rw [List.getElem_cons_succ, List.drop_succ_cons, List.filter_cons_of_neg]
          · exact ih later i bound
          · rw [decide_eq_true_eq, not_le]
            exact below _ (List.getElem_mem bound)

theorem listed_eq_members (free : colon ∉ centroidId) :
    listed store centroidId = members store centroidId := by
  rw [listed, ids_under_eq_members]
  have same : listedId centroidId = id := funext (listed_id_of_free free)
  rw [same, List.map_id]

theorem page_after_eq (free : colon ∉ centroidId) {s : Nat}
    (within : s < (listed store centroidId).length) :
    pageAfter store centroidId (((listed store centroidId).drop s).take idListBatchSize) =
      ((listed store centroidId).drop
        (min (s + 499) ((listed store centroidId).length - 1))).take idListBatchSize := by
  have labelFree := colon_not_in_member_label free
  have bound : min (s + 499) ((listed store centroidId).length - 1) <
      (listed store centroidId).length := by omega
  have last : (((listed store centroidId).drop s).take idListBatchSize).getLastD [] =
      (listed store centroidId)[min (s + 499) ((listed store centroidId).length - 1)] := by
    rw [List.getLastD_eq_getLast?, List.getLast?_eq_getElem?, List.length_take, List.length_drop,
      List.getElem?_take, if_pos (by rw [idListBatchSize]; omega), List.getElem?_drop,
      show s + (min idListBatchSize ((listed store centroidId).length - s) - 1) =
        min (s + 499) ((listed store centroidId).length - 1) by rw [idListBatchSize]; omega,
      List.getElem?_eq_getElem bound]
    rfl
  rw [pageAfter, last, ids_from_of_free labelFree]
  exact congrArg (List.take idListBatchSize)
    (filter_from (ids_under_ascending store labelFree) _ bound)

end Pages

section Passed

variable {F : Type} [Zero F] [One F] {serialization : Serialization F} {store : Store}
  {centroidId : Bytes}

/-- Every member has a stored document, and stored documents carry the ids they are stored under. -/
structure MembersStored (serialization : Serialization F) (store : Store) (centroidId : Bytes) :
    Prop where
  ownIds : ∀ id doc, loadedFrom serialization store id = some (.ok doc) → doc.id = id
  stored : ∀ docId ∈ members store centroidId, ∃ doc,
    loadedFrom serialization store docId = some (.ok doc)

/-- The documents that pages which begin at index `s`, and every 499 from there on up to `stop`,
have added. -/
structure PassedFrom (serialization : Serialization F) (store : Store) (centroidId : Bytes)
    (s stop : Nat) (added : List (ProcessedDocument F)) : Prop where
  start : s ≤ stop
  whole : (stop - s) % 499 = 0
  full : stop = s ∨ stop + 500 ≤ (listed store centroidId).length
  short : (listed store centroidId).length < stop + 999
  loaded : ∀ doc ∈ added, loadedFrom serialization store doc.id = some (.ok doc)
  ids : ∀ id, id ∈ added.map ProcessedDocument.id ↔
    ∃ i : Nat, s ≤ i ∧ i < stop + 500 ∧ (listed store centroidId)[i]? = some id
  first : loadedIds (((listed store centroidId).drop s).take idListBatchSize) <+:
    added.map ProcessedDocument.id

theorem loaded_of_loads {id : Bytes} {doc : ProcessedDocument F}
    (loads : Loads (undisturbed serialization store centroidId) id (some doc)) :
    loadedFrom serialization store id = some (.ok doc) := by
  obtain ⟨loaded, same, isDocument⟩ := loads_cases loads
  cases loaded with
  | error exception => cases isDocument
  | ok document =>
      cases isDocument
      exact same

theorem mem_page_iff (ids : List Bytes) (s : Nat) (id : Bytes) :
    id ∈ (ids.drop s).take idListBatchSize ↔
      ∃ i : Nat, s ≤ i ∧ i < s + 500 ∧ ids[i]? = some id := by
  rw [List.mem_iff_getElem?, idListBatchSize]
  constructor
  · intro shown
    obtain ⟨i, found⟩ := shown
    rw [List.getElem?_take] at found
    split at found
    · rw [List.getElem?_drop] at found
      exact ⟨s + i, by omega, by omega, found⟩
    · cases found
  · intro shown
    obtain ⟨i, later, before, found⟩ := shown
    refine ⟨i - s, ?_⟩
    rw [List.getElem?_take, if_pos (by omega), List.getElem?_drop,
      show s + (i - s) = i by omega, found]

variable (free : colon ∉ centroidId) (complete : MembersStored serialization store centroidId)

include free complete

theorem page_added {s : Nat} {idSet : List Bytes} {processed after : Processed F}
    (same : idSet = ((listed store centroidId).drop s).take idListBatchSize)
    (batches : BatchesPass (undisturbed serialization store centroidId) idSet (batchStarts idSet)
      processed after) :
    ∃ added, after.passed = processed.passed ++ added ∧
      (∀ doc ∈ added, loadedFrom serialization store doc.id = some (.ok doc)) ∧
      added.map ProcessedDocument.id = loadedIds idSet := by
  obtain ⟨added, isAdded, adds⟩ := batches.adds
  refine ⟨added, isAdded, ?_, ?_⟩
  · intro doc member
    obtain ⟨id, _, loads⟩ := adds.loaded doc member
    have loaded := loaded_of_loads loads
    rwa [complete.ownIds id doc loaded]
  · apply adds.all
    · intro id doc loads
      exact complete.ownIds id doc (loaded_of_loads loads)
    · intro id inPage loads
      have isMember : id ∈ members store centroidId := by
        rw [← listed_eq_members free]
        rw [same] at inPage
        exact List.mem_of_mem_drop (List.mem_of_mem_take inPage)
      obtain ⟨doc, stored⟩ := complete.stored id isMember
      have missing := (missing_iff_loaded serialization id).mpr (missing_of_loads loads)
      rw [stored] at missing
      cases missing

variable (present : getCentroidKey centroidId ∈ store)

include present

/-- What is left of a successful run from a page on, and how many pages an unfinished one had. -/
theorem pages_passed {pages : Nat} {idSet : List Bytes} {processed : Processed F}
    {result : Option (Processed F)}
    (passes : PagesPass (undisturbed serialization store centroidId) centroidId pages idSet
      processed result) (s : Nat) (within : s < (listed store centroidId).length)
    (same : idSet = ((listed store centroidId).drop s).take idListBatchSize) :
    (result = none → 499 * pages + s ≤ (listed store centroidId).length) ∧
      ∀ last, result = some last → ∃ added stop, last.passed = processed.passed ++ added ∧
        PassedFrom serialization store centroidId s stop added := by
  induction passes generalizing s with
  | unfinished idSet processed =>
      constructor
      · intro _
        omega
      · intro last ended
        cases ended
  | last nextIdSet batches answers short =>
      refine ⟨(fun ended => absurd ended (Option.some_ne_none _)), ?_⟩
      intro last ended
      cases ended
      obtain ⟨added, isAdded, loaded, ids⟩ := page_added free complete same batches
      cases answers_page_after present answers
      rw [same, page_after_eq free within, List.length_take, List.length_drop, idListBatchSize]
        at short
      refine ⟨added, s, isAdded, le_refl s, by omega, .inl rfl, by omega, loaded, ?_, ?_⟩
      · intro id
        rw [ids, mem_loaded_ids, same, mem_page_iff]
      · simp only [ids, same, List.prefix_rfl]
  | next nextIdSet batches answers full later ih =>
      obtain ⟨added, isAdded, loaded, ids⟩ := page_added free complete same batches
      cases answers_page_after present answers
      rw [same, page_after_eq free within] at ih full
      rw [List.length_take, List.length_drop, idListBatchSize] at full
      have further : min (s + 499) ((listed store centroidId).length - 1) = s + 499 := by omega
      rw [further] at ih full
      obtain ⟨unfinished, finished⟩ := ih (s + 499) (by omega) rfl
      refine ⟨?_, ?_⟩
      · intro ended
        have pagesBound := unfinished ended
        omega
      intro last ended
      obtain ⟨more, stop, isLast, passed⟩ := finished last ended
      have start := passed.start
      have whole := passed.whole
      have fullPages := passed.full
      refine ⟨added ++ more, stop, ?_, by omega, by omega, by omega, passed.short, ?_, ?_, ?_⟩
      · rw [isLast, isAdded, List.append_assoc]
      · intro doc member
        rcases List.mem_append.mp member with here | there
        · exact loaded doc here
        · exact passed.loaded doc there
      · intro id
        rw [List.map_append, List.mem_append, ids, mem_loaded_ids, same, mem_page_iff, passed.ids]
        constructor
        · intro shown
          rcases shown with ⟨i, above, below, found⟩ | ⟨i, above, below, found⟩
          · exact ⟨i, above, by omega, found⟩
          · exact ⟨i, by omega, below, found⟩
        · intro shown
          obtain ⟨i, above, below, found⟩ := shown
          by_cases here : i < s + 500
          · exact .inl ⟨i, above, here, found⟩
          · exact .inr ⟨i, by omega, below, found⟩
      · rw [List.map_append, ids, same]
        exact List.prefix_append _ _

theorem first_page_passed {pages : Nat} {result : Option (Processed F)}
    (passes : FirstPagePasses (undisturbed serialization store centroidId) centroidId pages
      result) :
    (result = none → 499 * pages ≤ (members store centroidId).length) ∧
      ∀ last, result = some last → members store centroidId = [] ∧ last.passed = [] ∨
        ∃ stop, PassedFrom serialization store centroidId 0 stop last.passed := by
  obtain ⟨idSet, answers, empty | nonempty⟩ := passes
  · cases answers_first_page present answers
    obtain ⟨nothing, rfl⟩ := empty
    refine ⟨(fun ended => absurd ended (Option.some_ne_none _)), ?_⟩
    intro last ended
    cases ended
    rw [firstPage, List.take_eq_nil_iff, listed_eq_members free] at nothing
    exact .inl ⟨nothing.resolve_left (by decide), rfl⟩
  · cases answers_first_page present answers
    obtain ⟨nonempty, passes⟩ := nonempty
    have within : 0 < (listed store centroidId).length := by
      rw [List.length_pos_iff]
      intro nothing
      rw [firstPage, nothing] at nonempty
      exact nonempty rfl
    obtain ⟨unfinished, finished⟩ := pages_passed free complete present passes 0 within rfl
    rw [← listed_eq_members free]
    refine ⟨unfinished, ?_⟩
    intro last ended
    obtain ⟨added, stop, isLast, passed⟩ := finished last ended
    rw [List.nil_append] at isLast
    rw [isLast]
    exact .inr ⟨stop, passed⟩

omit present

def EveryMemberPassed (serialization : Serialization F) (store : Store) (centroidId : Bytes)
    (passed : List (ProcessedDocument F)) : Prop :=
  ∀ docId ∈ members store centroidId, ∃ doc ∈ passed,
    loadedFrom serialization store docId = some (.ok doc)

omit [Zero F] [One F] in
theorem every_member_passed_iff {stop : Nat} {passed : List (ProcessedDocument F)}
    (from0 : PassedFrom serialization store centroidId 0 stop passed) :
    EveryMemberPassed serialization store centroidId passed ↔
      (members store centroidId).length < 500 ∨ (members store centroidId).length % 499 = 1 := by
  have reached : EveryMemberPassed serialization store centroidId passed ↔
      (listed store centroidId).length ≤ stop + 500 := by
    constructor
    · intro every
      by_contra further
      have within : stop + 500 < (listed store centroidId).length := by omega
      have isMember : (listed store centroidId)[stop + 500] ∈ members store centroidId := by
        rw [← listed_eq_members free]
        exact List.getElem_mem within
      obtain ⟨doc, member, loaded⟩ := every _ isMember
      have isPassed := List.mem_map_of_mem (f := ProcessedDocument.id) member
      rw [complete.ownIds _ doc loaded, from0.ids] at isPassed
      obtain ⟨i, _, below, found⟩ := isPassed
      have nodup : (listed store centroidId).Nodup := ids_under_nodup
      have bound : i < (listed store centroidId).length := by omega
      have same : i = stop + 500 := (List.getElem?_inj bound nodup).mp
        (found.trans (List.getElem?_eq_getElem within).symm)
      omega
    · intro covered docId isMember
      rw [← listed_eq_members free] at isMember
      obtain ⟨i, within, rfl⟩ := List.mem_iff_getElem.mp isMember
      have isPassed :=
        (from0.ids _).mpr ⟨i, Nat.zero_le i, by omega, List.getElem?_eq_getElem within⟩
      obtain ⟨doc, member, same⟩ := List.mem_map.mp isPassed
      have loaded := from0.loaded doc member
      rw [same] at loaded
      exact ⟨doc, member, loaded⟩
  have whole := from0.whole
  have full := from0.full
  have short := from0.short
  rw [reached, ← listed_eq_members free]
  omega

end Passed

section Origin

variable {F : Type} {serialization : Serialization F} {store : Store} {centroidId : Bytes}

theorem loaded_of_old {id : Bytes} {doc : ProcessedDocument F}
    (loads : Loads (forgetting serialization store centroidId) id (some doc)) :
    loadedFrom serialization store id = some (.ok doc) := by
  obtain ⟨loaded, answers, same⟩ := loads
  cases loaded with
  | error exception => cases same
  | ok document =>
      cases same
      exact answers doc rfl

theorem passed_origin {pages : Nat} {idSet : List Bytes} {processed last : Processed F}
    {result : Option (Processed F)}
    (passes : PagesPass (forgetting serialization store centroidId) centroidId pages idSet processed
      result)
    (read : idSet.Sublist (listed store centroidId)) (ended : result = some last) :
    ∀ doc ∈ last.passed, doc ∈ processed.passed ∨
      ∃ id ∈ listed store centroidId, loadedFrom serialization store id = some (.ok doc) := by
  have origin {idSet : List Bytes} {processed after : Processed F}
      (read : idSet.Sublist (listed store centroidId))
      (batches : BatchesPass (forgetting serialization store centroidId) idSet (batchStarts idSet)
        processed after) :
      ∀ doc ∈ after.passed, doc ∈ processed.passed ∨
        ∃ id ∈ listed store centroidId, loadedFrom serialization store id = some (.ok doc) := by
    obtain ⟨added, isAdded, adds⟩ := batches.adds
    intro doc member
    rw [isAdded] at member
    rcases List.mem_append.mp member with before | now
    · exact .inl before
    · obtain ⟨id, inPage, loads⟩ := adds.loaded doc now
      exact .inr ⟨id, read.subset inPage, loaded_of_old loads⟩
  induction passes with
  | unfinished idSet processed => cases ended
  | last nextIdSet batches listed short =>
      cases ended
      exact origin read batches
  | next nextIdSet batches listed full later ih =>
      intro doc member
      rcases ih (listed nextIdSet rfl) ended doc member with before | found
      · exact origin read batches doc before
      · exact .inr found

theorem first_page_origin {pages : Nat} {last : Processed F}
    (passes : FirstPagePasses (forgetting serialization store centroidId) centroidId pages
      (some last)) :
    ∀ doc ∈ last.passed, ∃ id ∈ listed store centroidId,
      loadedFrom serialization store id = some (.ok doc) := by
  obtain ⟨idSet, answers, empty | nonempty⟩ := passes
  · cases empty.2
    intro doc member
    cases member
  · intro doc member
    rcases passed_origin nonempty.2 (answers idSet rfl) rfl doc member with before | found
    · cases before
    · exact found

theorem shortest_not_passed (cut : colon ∈ centroidId)
    (complete : MembersStored serialization store centroidId)
    (nonempty : members store centroidId ≠ []) {passed : List (ProcessedDocument F)}
    (origin : ∀ doc ∈ passed, ∃ id ∈ listed store centroidId,
      loadedFrom serialization store id = some (.ok doc)) :
    ¬ EveryMemberPassed serialization store centroidId passed := by
  intro every
  obtain ⟨shortest, isMember, least⟩ : ∃ docId ∈ members store centroidId,
      ∀ other ∈ members store centroidId, docId.length ≤ other.length := by
    obtain ⟨docId, isLeast⟩ := Option.ne_none_iff_exists'.mp
      (mt List.argmin_eq_none.mp nonempty : List.argmin List.length _ ≠ none)
    exact ⟨docId, List.argmin_mem isLeast, fun other member => List.le_of_mem_argmin member isLeast⟩
  obtain ⟨doc, member, loaded⟩ := every shortest isMember
  obtain ⟨id, isListed, alsoLoaded⟩ := origin doc member
  have same : id = shortest :=
    (complete.ownIds id doc alsoLoaded).symm.trans (complete.ownIds shortest doc loaded)
  rw [listed, ids_under_eq_members, List.mem_map] at isListed
  obtain ⟨other, alsoMember, isShown⟩ := isListed
  have longer := listed_id_longer cut other
  have bound := least other alsoMember
  rw [isShown, same] at longer
  omega

theorem passed_once_of_short {pages : Nat} {last : Processed F}
    (ownIds : ∀ id doc, loadedFrom serialization store id = some (.ok doc) → doc.id = id)
    (short : (listed store centroidId).length ≤ 20)
    (passes : FirstPagePasses (forgetting serialization store centroidId) centroidId pages
      (some last)) :
    (last.passed.map ProcessedDocument.id).Sublist (listed store centroidId) := by
  obtain ⟨idSet, answers, empty | nonempty⟩ := passes
  · cases empty.2
    exact List.nil_sublist _
  · have read : idSet.Sublist (listed store centroidId) := answers idSet rfl
    have fits := read.length_le
    cases nonempty.2 with
    | last nextIdSet batches listed short =>
        obtain ⟨added, isAdded, adds⟩ := batches.adds
        have shown := adds.sublist fun id doc loads => ownIds id doc (loaded_of_old loads)
        change (added.map ProcessedDocument.id).Sublist (loadedIds idSet) at shown
        rw [loaded_ids_of_short (by omega)] at shown
        rw [isAdded, List.nil_append]
        exact shown.trans read
    | next nextIdSet batches listed full later =>
        have shown : nextIdSet.Sublist (CentroidUpdater.listed store centroidId) :=
          listed nextIdSet rfl
        have bound := shown.length_le
        rw [idListBatchSize] at full
        omega

end Origin

section Runs

variable {F : Type} [Zero F] [One F] [Add F] [Mul F] [NatCast F] {serialization : Serialization F}
  {store : Store} {centroidId : Bytes} {sqrt : F → F} {startTimestamp pages : Nat}
  {actions : List (PersistenceAction F)} {last : ThreadPool F (RunOutcome F)}
  {passed : List (ProcessedDocument F)} {centroid : Centroid F}

theorem updated_from (alone : ∀ action ∈ actions, Alone action)
    (executed : (persistenceMachine (RunOutcome F) serialization).exec actions
      (.initial store [run sqrt centroidId startTimestamp pages]) = some last)
    (ended : last.clients = [.done (.updated passed centroid)]) :
    centroid = centroidOf sqrt centroidId (passed.foldl DocumentAccumulator.addDocument .new) ∧
      .saveCentroid centroidId centroid ∈ last.requests ∧ ∃ removed,
        FirstPagePasses (forgetting serialization store centroidId) centroidId pages
          (some ⟨passed, removed⟩) := by
  have start : Forgotten store centroidId store := fun _ _ _ _ stored => stored
  rcases delivered forgetting_honoured start
      (delivers_run forgetting_serves sqrt startTimestamp pages) alone executed with
    ⟨request, _, stops⟩ | kept
  · exact False.elim stops
  · obtain ⟨saved, requested, removed, passes, _⟩ := kept.post ended
    exact ⟨saved, requested, removed, passes⟩

omit [Zero F] [One F] [Add F] [Mul F] [NatCast F] in
theorem aligned_of_stored (free : colon ∉ centroidId)
    (complete : MembersStored serialization store centroidId) : Aligned store centroidId := by
  intro idSet read docNum _ i id other atBatch _ missing
  have inPage := mem_of_mem_batch (List.mem_of_getElem? atBatch)
  have isListed := (page_read_sublist read).subset inPage
  rw [listed_eq_members free] at isListed
  obtain ⟨doc, stored⟩ := complete.stored id isListed
  rw [(missing_iff_loaded serialization id).mpr missing] at stored
  cases stored

theorem passed_from_start (free : colon ∉ centroidId)
    (complete : MembersStored serialization store centroidId)
    (present : getCentroidKey centroidId ∈ store) (alone : ∀ action ∈ actions, Alone action)
    (executed : (persistenceMachine (RunOutcome F) serialization).exec actions
      (.initial store [run sqrt centroidId startTimestamp pages]) = some last)
    (ended : last.clients = [.done (.updated passed centroid)]) :
    members store centroidId = [] ∧ passed = [] ∨
      ∃ stop, PassedFrom serialization store centroidId 0 stop passed := by
  rcases run_undisturbed sqrt startTimestamp pages present alone executed with
    ⟨request, _, stray⟩ | kept
  · exact absurd stray (not_stray_of_aligned (aligned_of_stored free complete) request)
  · obtain ⟨_, _, removed, passes, _⟩ := kept.post ended
    exact (first_page_passed free complete present passes).2 _ rfl

omit [One F] in
theorem document_weight (passed : List (ProcessedDocument F)) :
    (centroidOf sqrt centroidId
      (passed.foldl DocumentAccumulator.addDocument .new)).wordVector.documentWeight =
        (passed.length : F) := by
  have counted := DocumentAccumulator.count_added (.new : DocumentAccumulator F) passed
  rw [show (DocumentAccumulator.new : DocumentAccumulator F).documentCount = 0 from rfl,
    Nat.zero_add] at counted
  rw [← counted, ← DocumentAccumulator.count_of_magnitude sqrt]
  rfl

/-- The saved centroid is made of the passed documents, and every member is among them exactly when
the last page that is fetched shows none that has not been passed. -/
theorem every_member_passed_iff_no_page_left (present : getCentroidKey centroidId ∈ store)
    (complete : MembersStored serialization store centroidId)
    (alone : ∀ action ∈ actions, Alone action)
    (executed : (persistenceMachine (RunOutcome F) serialization).exec actions
      (.initial store [run sqrt centroidId startTimestamp pages]) = some last)
    (ended : last.clients = [.done (.updated passed centroid)]) :
    centroid = centroidOf sqrt centroidId (passed.foldl DocumentAccumulator.addDocument .new) ∧
      .saveCentroid centroidId centroid ∈ last.requests ∧
      (EveryMemberPassed serialization store centroidId passed ↔
        (members store centroidId).length = 0 ∨ colon ∉ centroidId ∧
          ((members store centroidId).length < 500 ∨
            (members store centroidId).length % 499 = 1)) := by
  obtain ⟨saved, requested, removed, passes⟩ := updated_from alone executed ended
  refine ⟨saved, requested, ?_⟩
  have ofNone (nothing : members store centroidId = []) :
      EveryMemberPassed serialization store centroidId passed := by
    intro docId member
    rw [nothing] at member
    cases member
  by_cases cut : colon ∈ centroidId
  · rw [List.length_eq_zero_iff]
    constructor
    · intro every
      by_contra some
      rw [not_or] at some
      exact shortest_not_passed cut complete some.1 (first_page_origin passes) every
    · intro condition
      rcases condition with nothing | ⟨free, _⟩
      · exact ofNone nothing
      · exact absurd cut free
  · rcases passed_from_start cut complete present alone executed ended with
      ⟨nothing, _⟩ | ⟨stop, from0⟩
    · apply iff_of_true (ofNone nothing)
      exact .inl (List.length_eq_zero_iff.mpr nothing)
    · rw [every_member_passed_iff cut complete from0]
      constructor
      · exact fun bounds => .inr ⟨cut, bounds⟩
      · intro condition
        rcases condition with nothing | bounds
        · exact .inl (by omega)
        · exact bounds.2

/-- No member's document has been passed twice, and no more documents than members. -/
def CountedOnce (store : Store) (centroidId : Bytes) (passed : List (ProcessedDocument F)) : Prop :=
  (∀ docId ∈ members store centroidId, (passed.map ProcessedDocument.id).count docId ≤ 1) ∧
    passed.length ≤ (members store centroidId).length

omit [Zero F] [One F] [Add F] [Mul F] [NatCast F] in
theorem counted_twice (free : colon ∉ centroidId)
    (many : 20 < (members store centroidId).length) {stop : Nat}
    (from0 : PassedFrom serialization store centroidId 0 stop passed) :
    ∃ docId ∈ members store centroidId, 2 ≤ (passed.map ProcessedDocument.id).count docId := by
  have first := from0.first
  rw [List.drop_zero] at first
  have long : 20 < ((listed store centroidId).take idListBatchSize).length := by
    rw [List.length_take, idListBatchSize, listed_eq_members free]
    omega
  refine ⟨((listed store centroidId).take idListBatchSize)[20], ?_, ?_⟩
  · rw [← listed_eq_members free]
    exact List.mem_of_mem_take (List.getElem_mem long)
  · exact (loaded_twice long).trans (first.sublist.count_le _)

/-- The saved weight is the number of passed documents; none is counted twice as long as one batch
holds them all, and only then. -/
theorem counted_once_iff_one_batch (present : getCentroidKey centroidId ∈ store)
    (complete : MembersStored serialization store centroidId)
    (alone : ∀ action ∈ actions, Alone action)
    (executed : (persistenceMachine (RunOutcome F) serialization).exec actions
      (.initial store [run sqrt centroidId startTimestamp pages]) = some last)
    (ended : last.clients = [.done (.updated passed centroid)]) :
    centroid.wordVector.documentWeight = (passed.length : F) ∧
      ((members store centroidId).length ≤ 20 → CountedOnce store centroidId passed) ∧
      (colon ∉ centroidId →
        (CountedOnce store centroidId passed ↔ (members store centroidId).length ≤ 20)) := by
  obtain ⟨saved, _, removed, passes⟩ := updated_from alone executed ended
  have sufficient : (members store centroidId).length ≤ 20 →
      CountedOnce store centroidId passed := by
    intro few
    have lengths : (listed store centroidId).length = (members store centroidId).length := by
      rw [listed, ids_under_eq_members, List.length_map]
    have once := passed_once_of_short complete.ownIds (by omega) passes
    refine ⟨?_, ?_⟩
    · intro docId _
      exact List.nodup_iff_count_le_one.mp (once.nodup ids_under_nodup) docId
    · have bound := once.length_le
      rw [List.length_map, lengths] at bound
      exact bound
  refine ⟨?_, sufficient, ?_⟩
  · rw [saved, document_weight]
  · intro free
    refine ⟨?_, sufficient⟩
    intro once
    by_contra many
    rcases passed_from_start free complete present alone executed ended with
      ⟨nothing, _⟩ | ⟨stop, from0⟩
    · rw [nothing] at many
      exact many (Nat.zero_le 20)
    · obtain ⟨docId, member, twice⟩ := counted_twice free (not_le.mp many) from0
      have atMostOnce := once.1 docId member
      omega

/-- Some order of the steps brings a run to a successful end when every member can be loaded and
there are pages enough. -/
theorem exists_updated_run (free : colon ∉ centroidId)
    (complete : MembersStored serialization store centroidId)
    (present : getCentroidKey centroidId ∈ store)
    (enough : (members store centroidId).length < 499 * pages) :
    ∃ (actions : List (PersistenceAction F)) (last : ThreadPool F (RunOutcome F))
      (passed : List (ProcessedDocument F)) (centroid : Centroid F),
      (∀ action ∈ actions, Alone action) ∧
      (persistenceMachine (RunOutcome F) serialization).exec actions
        (.initial store [run sqrt centroidId startTimestamp pages]) = some last ∧
      last.clients = [.done (.updated passed centroid)] := by
  obtain ⟨actions, last, outcome, alone, executed, ended, ends⟩ :=
    @exists_undisturbed_run F _ _ serialization store centroidId _ _ _ sqrt startTimestamp pages
      present
      (aligned_of_stored free complete)
  cases outcome with
  | updated passed centroid => exact ⟨actions, last, passed, centroid, alone, executed, ended⟩
  | failed error =>
      rcases ends with notFound | notListed | ⟨idSet, _, notListed⟩
      · exact absurd (answers_found present notFound) (by decide)
      · exact absurd (answers_first_page present notListed).symm (Option.some_ne_none _)
      · exact absurd (answers_page_after present notListed).symm (Option.some_ne_none _)
  | threw =>
      obtain ⟨idSet, read, id, member, thrown⟩ := ends
      have isMember := (page_read_sublist read).subset member
      rw [listed_eq_members free] at isMember
      obtain ⟨doc, stored⟩ := complete.stored id isMember
      exact absurd (stored.symm.trans (answers_loaded thrown).symm) (Option.some_ne_none _)
  | unfinished =>
      have bound := (first_page_passed free complete present ends).1 rfl
      omega

end Runs

section Counts

def unaryIds (n : Nat) : List Bytes := (List.range n).map fun i => List.replicate (i + 1) 97

theorem unary_ids_nodup (n : Nat) : (unaryIds n).Nodup := by
  apply List.nodup_range.map
  intro left right same
  have lengths := congrArg List.length same
  rw [List.length_replicate, List.length_replicate] at lengths
  omega

theorem unary_ids_owned (n : Nat) : ∀ docId ∈ unaryIds n, Unambiguous docId := by
  intro docId member
  obtain ⟨i, _, rfl⟩ := List.mem_map.mp member
  apply unambiguous_of_colon_free
  intro inId
  exact absurd (List.eq_of_mem_replicate inId) (by decide)

def countedStore (n : Nat) : Store := filledStore (ascii "c") (unaryIds n)

theorem counted_present (n : Nat) : getCentroidKey (ascii "c") ∈ countedStore n :=
  centroid_filled (by decide) (unary_ids_owned n)

theorem counted_members (n : Nat) : (members (countedStore n) (ascii "c")).length = n := by
  rw [countedStore, length_members_filled (by decide) (unary_ids_owned n) (unary_ids_nodup n),
    unaryIds, List.length_map, List.length_range]

theorem counted_stored (n : Nat) :
    MembersStored (.idsOnly : Serialization Nat) (countedStore n) (ascii "c") := by
  have free : colon ∉ ascii "c" := by decide
  constructor
  · exact fun id doc loaded => own_ids_filled free (unary_ids_owned n) loaded
  · intro docId member
    have isFilled := (mem_members_filled free (unary_ids_owned n) docId).mp member
    exact stored_filled free (unary_ids_owned n) isFilled

def CountedRun (n : Nat) (actions : List (PersistenceAction Nat))
    (last : ThreadPool Nat (RunOutcome Nat)) (passed : List (ProcessedDocument Nat))
    (centroid : Centroid Nat) : Prop :=
  (∀ action ∈ actions, Alone action) ∧
    (persistenceMachine (RunOutcome Nat) .idsOnly).exec actions
      (.initial (countedStore n) [run id (ascii "c") 0 (n + 1)]) = some last ∧
    last.clients = [.done (.updated passed centroid)]

theorem exists_counted_run (n : Nat) :
    ∃ actions last passed centroid, CountedRun n actions last passed centroid := by
  apply exists_updated_run (by decide) (counted_stored n) (counted_present n)
  rw [counted_members]
  omega

theorem counted_from_start {n : Nat} (some : 0 < n) {actions : List (PersistenceAction Nat)}
    {last : ThreadPool Nat (RunOutcome Nat)} {passed : List (ProcessedDocument Nat)}
    {centroid : Centroid Nat} (counted : CountedRun n actions last passed centroid) :
    ∃ stop, PassedFrom (.idsOnly : Serialization Nat) (countedStore n) (ascii "c") 0 stop
      passed := by
  obtain ⟨alone, executed, ended⟩ := counted
  rcases passed_from_start (by decide) (counted_stored n) (counted_present n)
      alone executed ended with
    ⟨nothing, _⟩ | from0
  · have length := counted_members n
    rw [nothing] at length
    exact absurd some (length ▸ Nat.lt_irrefl 0)
  · exact from0

theorem three_members_all_passed :
    ∃ actions last passed centroid, CountedRun 3 actions last passed centroid ∧
      EveryMemberPassed .idsOnly (countedStore 3) (ascii "c") passed := by
  obtain ⟨actions, last, passed, centroid, counted⟩ := exists_counted_run 3
  refine ⟨actions, last, passed, centroid, counted, ?_⟩
  obtain ⟨alone, executed, ended⟩ := counted
  apply (every_member_passed_iff_no_page_left (counted_present 3) (counted_stored 3) alone executed
    ended).2.2.mpr
  rw [counted_members]
  exact .inr ⟨by decide, .inl (by decide)⟩

/-- With 501 members the second page, which begins at the last id of the first one, has two ids: it
is not processed. -/
theorem last_member_not_passed :
    ∃ actions last passed centroid, CountedRun 501 actions last passed centroid ∧
      getCentroidKey (ascii "c") ∈ countedStore 501 ∧
      MembersStored (.idsOnly : Serialization Nat) (countedStore 501) (ascii "c") ∧
      ¬ EveryMemberPassed .idsOnly (countedStore 501) (ascii "c") passed := by
  obtain ⟨actions, last, passed, centroid, counted⟩ := exists_counted_run 501
  refine ⟨actions, last, passed, centroid, counted, counted_present 501, counted_stored 501, ?_⟩
  obtain ⟨stop, from0⟩ := counted_from_start (by decide) counted
  rw [every_member_passed_iff (by decide) (counted_stored 501) from0, counted_members]
  decide

theorem three_members_counted_once :
    ∃ actions last passed centroid, CountedRun 3 actions last passed centroid ∧
      CountedOnce (countedStore 3) (ascii "c") passed := by
  obtain ⟨actions, last, passed, centroid, counted⟩ := exists_counted_run 3
  refine ⟨actions, last, passed, centroid, counted, ?_⟩
  obtain ⟨alone, executed, ended⟩ := counted
  apply (counted_once_iff_one_batch (counted_present 3) (counted_stored 3) alone executed
    ended).2.1
  rw [counted_members]
  decide

/-- With 21 members the last one ends the first batch and begins the second. -/
theorem last_member_counted_twice :
    ∃ actions last passed centroid, CountedRun 21 actions last passed centroid ∧
      getCentroidKey (ascii "c") ∈ countedStore 21 ∧
      MembersStored (.idsOnly : Serialization Nat) (countedStore 21) (ascii "c") ∧
      ¬ CountedOnce (countedStore 21) (ascii "c") passed := by
  obtain ⟨actions, last, passed, centroid, counted⟩ := exists_counted_run 21
  refine ⟨actions, last, passed, centroid, counted, counted_present 21, counted_stored 21, ?_⟩
  obtain ⟨stop, from0⟩ := counted_from_start (by decide) counted
  intro once
  have many : 20 < (members (countedStore 21) (ascii "c")).length := by
    rw [counted_members]
    decide
  obtain ⟨docId, member, twice⟩ := counted_twice (by decide) many from0
  have atMostOnce := once.1 docId member
  omega

end Counts

end CentroidUpdater

end Relevanced.CentroidUpdate

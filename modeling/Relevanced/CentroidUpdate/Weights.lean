import Relevanced.CentroidUpdate.Recomputation
import Relevanced.Foundation.Windows

/-!
# The weights of members

A run goes through overlapping pages of ids, and through each page in overlapping batches.
Whatever the order in which the pool works off its requests, the ids that are loaded are the
same function of the member list; how often a member comes in it depends on its index.
-/

namespace Relevanced.CentroidUpdate

open Foundation
open Models
open Persistence
open Persistence.SyncPersistence

set_option autoImplicit false

namespace CentroidUpdater

section Ids

def timesLoaded (i : Nat) : Nat := if 20 ∣ i ∧ 0 < i then 2 else 1

def pageCount (n : Nat) : Nat := (n - 500) / 499 + 1

/-- How often the member at an index is passed to `addDocument` by a run over `n` members. -/
def timesPassed (n i : Nat) : Nat := timesIn 499 (pageCount n) timesLoaded i

/-- The ids that a run loads, in the order in which they are passed. -/
def recomputedIds (ids : List Bytes) : List Bytes :=
  (List.range (pageCount ids.length)).flatMap fun page => loadedIds (window 499 ids page)

variable {ids : List Bytes}

theorem batch_eq_window {q : Nat} (within : 20 * q < ids.length) :
    batchAt ids (20 * q) = window 20 ids q := by
  rw [batchAt, window, documentBatchSize]
  rcases Nat.le_total (20 * q + 20) (ids.length - 1) with whole | cut
  · rw [min_eq_right whole]
    congr 1
    omega
  · have fits : (ids.drop (20 * q)).length ≤ 21 := by
      rw [List.length_drop]
      omega
    rw [min_eq_left cut, List.take_of_length_le fits, List.take_of_length_le]
    rw [List.length_drop]
    omega

theorem loaded_ids_eq_windows (ids : List Bytes) :
    loadedIds ids = (List.range ((ids.length + 19) / 20)).flatMap (window 20 ids) := by
  have starts : batchStarts ids = (List.range ((ids.length + 19) / 20)).map (20 * ·) := by
    apply List.ext_getElem
    · simp [batchStarts, documentBatchSize]
    · intro q _ _
      simp [batchStarts, documentBatchSize, List.getElem_range']
  rw [loadedIds, starts, List.flatMap_map]
  apply List.flatMap_congr
  intro q member
  rw [List.mem_range] at member
  exact batch_eq_window (by omega)

theorem count_loaded_ids (nodup : ids.Nodup) {i : Nat} (within : i < ids.length) :
    (loadedIds ids).count ids[i] = timesLoaded i := by
  have counted : ((List.range ((ids.length + 19) / 20)).flatMap (window 20 ids)).count ids[i] =
      timesIn 20 ((ids.length + 19) / 20) (fun _ => 1) i :=
    @count_windows _ ids 20 _ _ (by decide) id (fun _ => 1) i within
      (fun q => count_window nodup q within) _
  have inside : i / 20 < (ids.length + 19) / 20 := by omega
  rw [loaded_ids_eq_windows, counted, timesIn, timesLoaded]
  by_cases ends : 20 ∣ i ∧ 0 < i
  · rw [if_pos inside, if_pos ⟨ends.1, ends.2, inside.le⟩, if_pos ends]
  · rw [if_pos inside, if_neg fun both => ends ⟨both.1, both.2.1⟩, if_neg ends]

theorem count_page (nodup : ids.Nodup) (page : Nat) {i : Nat} (within : i < ids.length) :
    (loadedIds (window 499 ids page)).count ids[i] =
      if InWindow 499 page i then timesLoaded (i - 499 * page) else 0 := by
  have sublist : (window 499 ids page).Sublist ids :=
    (List.take_sublist _ _).trans (List.drop_sublist _ _)
  by_cases inside : InWindow 499 page i
  · obtain ⟨later, before⟩ := inside
    have bound : i - 499 * page < (window 499 ids page).length := by
      rw [window, List.length_take, List.length_drop]
      omega
    have same : (window 499 ids page)[i - 499 * page] = ids[i] := by
      simp only [window, List.getElem_take, List.getElem_drop]
      congr 1
      omega
    rw [if_pos ⟨later, before⟩, ← same]
    exact count_loaded_ids (sublist.nodup nodup) bound
  · rw [if_neg inside, List.count_eq_zero, mem_loaded_ids]
    exact fun member => inside ((mem_slice_iff nodup _ _ within).mp member)

/-- The member at an index comes as often as its index says. -/
theorem count_recomputed_ids (nodup : ids.Nodup) {i : Nat} (within : i < ids.length) :
    (recomputedIds ids).count ids[i] = timesPassed ids.length i :=
  @count_windows _ ids 499 _ _ (by decide) loadedIds timesLoaded i within
    (fun page => count_page nodup page within) _

/-- Of 21 members the last one counts twice; of 501 the last one does not count at all. -/
example : timesPassed 21 20 = 2 ∧ timesPassed 501 499 = 1 ∧ timesPassed 501 500 = 0 := by decide

theorem recomputed_ids_subset (ids : List Bytes) : recomputedIds ids ⊆ ids := by
  intro id member
  obtain ⟨page, _, loaded⟩ := List.mem_flatMap.mp member
  exact List.mem_of_mem_drop (List.mem_of_mem_take ((mem_loaded_ids id).mp loaded))

end Ids

section Passed

theorem page_after_window {store : Store} {centroidId : Bytes} (free : colon ∉ centroidId)
    {page : Nat} (within : 499 * page < (listed store centroidId).length) :
    pageAfter store centroidId (window 499 (listed store centroidId) page) =
      ((listed store centroidId).drop
        (min (499 * page + 499) ((listed store centroidId).length - 1))).take 500 :=
  page_after_eq free within

variable {F : Type} [Zero F] [One F] {serialization : Serialization F} {store : Store}
  {centroidId : Bytes} (free : colon ∉ centroidId)
  (complete : MembersStored serialization store centroidId)
  (present : getCentroidKey centroidId ∈ store)

include free complete present

/-- The pages that are left from one on add the ids of their windows. -/
theorem pages_recomputed {pages : Nat} {idSet : List Bytes} {processed last : Processed F}
    {result : Option (Processed F)}
    (passes : PagesPass (undisturbed serialization store centroidId) centroidId pages idSet
      processed result) (page : Nat)
    (within : 499 * page < (listed store centroidId).length)
    (full : page = 0 ∨ 499 * page + 500 ≤ (listed store centroidId).length)
    (same : idSet = window 499 (listed store centroidId) page) (ended : result = some last) :
    ∃ added, last.passed = processed.passed ++ added ∧
      (∀ doc ∈ added, loadedFrom serialization store doc.id = some (.ok doc)) ∧
      added.map ProcessedDocument.id =
        (List.range' page (pageCount (listed store centroidId).length - page)).flatMap fun page =>
          loadedIds (window 499 (listed store centroidId) page) := by
  induction passes generalizing page with
  | unfinished idSet processed => cases ended
  | last nextIdSet batches answers short =>
      cases ended
      obtain ⟨added, isAdded, loaded, ids⟩ := page_added free complete same batches
      cases answers_page_after present answers
      rw [same, page_after_window free within, List.length_take, List.length_drop,
        idListBatchSize] at short
      have one : pageCount (listed store centroidId).length - page = 1 := by
        rw [pageCount]
        omega
      refine ⟨added, isAdded, loaded, ?_⟩
      rw [one, ids, same]
      simp
  | next nextIdSet batches answers isFull later ih =>
      obtain ⟨added, isAdded, loaded, ids⟩ := page_added free complete same batches
      cases answers_page_after present answers
      have further : min (499 * page + 499) ((listed store centroidId).length - 1) =
          499 * (page + 1) := by
        rw [same, page_after_window free within, List.length_take, List.length_drop,
          idListBatchSize] at isFull
        omega
      rw [same, page_after_window free within, further] at ih isFull
      rw [List.length_take, List.length_drop, idListBatchSize] at isFull
      obtain ⟨more, isLast, moreLoaded, moreIds⟩ := ih (page + 1) (by omega) (by omega) rfl ended
      have one : pageCount (listed store centroidId).length - page =
          pageCount (listed store centroidId).length - (page + 1) + 1 := by
        rw [pageCount]
        omega
      refine ⟨added ++ more, ?_, ?_, ?_⟩
      · rw [isLast, isAdded, List.append_assoc]
      · intro doc member
        rcases List.mem_append.mp member with here | there
        · exact loaded doc here
        · exact moreLoaded doc there
      · rw [List.map_append, ids, moreIds, one, List.range'_succ, List.flatMap_cons, same]

theorem first_page_recomputed {pages : Nat} {last : Processed F}
    (passes : FirstPagePasses (undisturbed serialization store centroidId) centroidId pages
      (some last)) :
    (∀ doc ∈ last.passed, loadedFrom serialization store doc.id = some (.ok doc)) ∧
      last.passed.map ProcessedDocument.id = recomputedIds (members store centroidId) := by
  rw [← listed_eq_members free]
  obtain ⟨idSet, answers, ⟨empty, ended⟩ | ⟨nonempty, passes⟩⟩ := passes
  · cases answers_first_page present answers
    cases ended
    have none : listed store centroidId = [] := by
      rw [firstPage, List.take_eq_nil_iff] at empty
      exact empty.resolve_left (by decide)
    rw [none]
    exact ⟨by simp, rfl⟩
  · cases answers_first_page present answers
    have within : 0 < (listed store centroidId).length := by
      rw [List.length_pos_iff]
      intro nothing
      rw [firstPage, nothing] at nonempty
      exact nonempty rfl
    obtain ⟨added, isLast, loaded, ids⟩ :=
      pages_recomputed free complete present passes 0 within (.inl rfl) rfl rfl
    rw [List.nil_append] at isLast
    rw [isLast]
    refine ⟨loaded, ?_⟩
    rw [ids, Nat.sub_zero, ← List.range_eq_range']
    rfl

end Passed

section Runs

variable {F : Type} [Zero F] [One F] [Add F] [Mul F] [NatCast F] {serialization : Serialization F}
  {store : Store} {centroidId : Bytes} {sqrt : F → F} {startTimestamp pages : Nat}
  {actions : List (PersistenceAction F)} {last : ThreadPool F (RunOutcome F)}
  {passed : List (ProcessedDocument F)} {centroid : Centroid F}

def storedDocument (serialization : Serialization F) (store : Store) (id : Bytes) :
    Option (ProcessedDocument F) := (loadedFrom serialization store id).bind Except.toOption

def recomputed (sqrt : F → F) (serialization : Serialization F) (store : Store)
    (centroidId : Bytes) : Centroid F :=
  centroidOf sqrt centroidId
    (((recomputedIds (members store centroidId)).filterMap
      (storedDocument serialization store)).foldl DocumentAccumulator.addDocument .new)

theorem passed_recomputed (free : colon ∉ centroidId)
    (complete : MembersStored serialization store centroidId)
    (present : getCentroidKey centroidId ∈ store) (alone : ∀ action ∈ actions, Alone action)
    (executed : (persistenceMachine (RunOutcome F) serialization).exec actions
      (.initial store [run sqrt centroidId startTimestamp pages]) = some last)
    (ended : last.clients = [.done (.updated passed centroid)]) :
    passed = (recomputedIds (members store centroidId)).filterMap
      (storedDocument serialization store) := by
  rcases run_undisturbed sqrt startTimestamp pages present alone executed with
    ⟨request, _, stray⟩ | kept
  · exact absurd stray (not_stray_of_aligned (aligned_of_stored free complete) request)
  · obtain ⟨_, _, removed, passes, _⟩ := kept.post ended
    obtain ⟨loaded, ids⟩ := first_page_recomputed free complete present passes
    rw [← ids, List.filterMap_map]
    symm
    apply (List.filterMap_congr _).trans List.filterMap_some
    intro doc member
    rw [Function.comp_apply, storedDocument, loaded doc member]
    rfl

/-- In whatever order the pool answers, a successful run saves the centroid that is a function of
the store. -/
theorem recomputation_is_confluent (free : colon ∉ centroidId)
    (complete : MembersStored serialization store centroidId)
    (present : getCentroidKey centroidId ∈ store) (alone : ∀ action ∈ actions, Alone action)
    (executed : (persistenceMachine (RunOutcome F) serialization).exec actions
      (.initial store [run sqrt centroidId startTimestamp pages]) = some last)
    (ended : last.clients = [.done (.updated passed centroid)]) :
    centroid = recomputed sqrt serialization store centroidId ∧
      .saveCentroid centroidId centroid ∈ last.requests := by
  obtain ⟨saved, requested, _⟩ := updated_from alone executed ended
  rw [passed_recomputed free complete present alone executed ended] at saved
  exact ⟨saved, requested⟩

end Runs

theorem twenty_one_members_confluent :
    ∃ actions last passed centroid, CountedRun 21 actions last passed centroid ∧
      centroid = recomputed id .idsOnly (countedStore 21) (ascii "c") ∧
      .saveCentroid (ascii "c") centroid ∈ last.requests := by
  obtain ⟨actions, last, passed, centroid, counted⟩ := exists_counted_run 21
  refine ⟨actions, last, passed, centroid, counted, ?_⟩
  obtain ⟨alone, executed, ended⟩ := counted
  exact recomputation_is_confluent (by decide) (counted_stored 21) (counted_present 21) alone
    executed ended

end CentroidUpdater

end Relevanced.CentroidUpdate

import Relevanced.Persistence.SyncPersistence

/-!
# Runs of the SyncPersistence operations

For each operation the answer and the store of a run that no other client
interrupts, and which records the resulting store holds.
-/

namespace Relevanced.Persistence

open Foundation
open Models

set_option autoImplicit false

namespace SyncPersistence

section Runs

variable (store : Store)

/-- The ids a complete listing under a label returns. -/
def idsUnder (label : Bytes) : List Bytes := (keysUnder store label).map idOfKey

@[simp] theorem run_list_ids (label : Bytes) :
    (listIds label).run rockHandle store = (idsUnder store label, store) := by
  rw [listIds, Program.run_bind, run_iter_prefix_collecting]
  rfl

@[simp] theorem run_list_ids_from_offset (label : Bytes) (offset limit : Nat) :
    (listIdsFromOffset label offset limit).run rockHandle store =
      (((idsUnder store label).drop offset).take limit, store) := by
  rw [listIdsFromOffset, Program.run_bind, run_iter_prefix_from_offset, idsUnder,
    ← List.map_drop, ← List.map_take]
  rfl

theorem id_of_join {label : Bytes} (free : colon ∉ label) (rest : Bytes) :
    idOfKey (join colon label rest) = rest := after_first_join colon free rest

theorem keys_under_eq_map {label : Bytes} (free : colon ∉ label) :
    keysUnder store label = (idsUnder store label).map (join colon label) := by
  have fixed : ∀ key ∈ keysUnder store label, (join colon label ∘ idOfKey) key = id key := by
    intro key member
    obtain ⟨⟨rest, rfl⟩, _⟩ := (mem_keys_under_iff store label key).mp member
    have shape : label ++ [colon] ++ rest = join colon label rest := by simp [join]
    rw [Function.comp_apply, shape, id_of_join free, id]
  rw [idsUnder, List.map_map, List.map_congr_left fixed, List.map_id]

theorem mem_ids_under_iff {label : Bytes} (free : colon ∉ label) (id : Bytes) :
    id ∈ idsUnder store label ↔ join colon label id ∈ store := by
  have injective : Function.Injective (join colon label) := by
    intro left right same
    exact ((join_eq_join_iff colon free free left right).mp same).2
  rw [← List.mem_map_of_injective injective, ← keys_under_eq_map store free, mem_keys_under_iff]
  simp [join]

theorem ids_under_ascending {label : Bytes} (free : colon ∉ label) :
    (idsUnder store label).Pairwise (· < ·) := by
  have keys := keys_under_ascending store label
  rw [keys_under_eq_map store free, List.pairwise_map] at keys
  refine keys.imp ?_
  intro left right less
  have afterLabel := (append_lt_append_iff label _ _).mp less
  simpa [List.cons_lt_cons_iff] using afterLabel

theorem run_list_ids_from_member {label : Bytes} (free : colon ∉ label) (member : Bytes)
    (limit : Nat) :
    (listIdsFromMember label member limit).run rockHandle store =
      (((idsUnder store label).filter (member ≤ ·)).take limit, store) := by
  have sameOrder (id : Bytes) : label ++ colon :: member ≤ join colon label id ↔ member ≤ id := by
    rw [join, append_le_append_iff, ← not_lt, ← not_lt, List.cons_lt_cons_iff]
    simp
  rw [listIdsFromMember, Program.run_bind, run_iter_prefix_from_member,
    keys_under_eq_map store free, List.filter_map, ← List.map_take, List.map_map]
  simp only [Program.run_pure, Prod.mk.injEq, and_true]
  have decoded : idOfKey ∘ join colon label = id := funext (id_of_join free)
  rw [decoded, List.map_id]
  simp only [Function.comp_def, sameOrder]

@[simp] theorem run_erase_under_prefix (label : Bytes) :
    (eraseUnderPrefix label).run rockHandle store = ((), eraseUnder store label) := by
  rw [eraseUnderPrefix, Program.run_bind, run_iter_prefix_erasing]
  rfl

/-- What both deletes leave of the store: neither the body nor the keys under two labels. -/
theorem getElem?_erased (body first second key : Bytes) :
    (eraseUnder (eraseUnder (store.erase body) first) second)[key]? =
      if key = body ∨ first ++ [colon] <+: key ∨ second ++ [colon] <+: key then none
      else store[key]? := by
  rw [getElem?_erase_under, getElem?_erase_under]
  by_cases isBody : key = body
  · simp [isBody]
  · rw [OrderedMap.getElem?_erase_of_ne isBody]
    by_cases isFirst : first ++ [colon] <+: key
    · simp [isFirst]
    · simp only [isBody, isFirst, false_or, if_false]

theorem mem_erased_iff (body first second key : Bytes) :
    key ∈ eraseUnder (eraseUnder (store.erase body) first) second ↔
      ¬ (key = body ∨ first ++ [colon] <+: key ∨ second ++ [colon] <+: key) ∧ key ∈ store := by
  rw [Std.ExtTreeMap.mem_iff_isSome_getElem?, Std.ExtTreeMap.mem_iff_isSome_getElem?,
    getElem?_erased]
  split
  · rename_i erased
    simp [erased]
  · rename_i kept
    simp [kept]

variable {F : Type} (serialization : Serialization F)

/-- The store after `saveDocument`. -/
def savedDocument (doc : ProcessedDocument F) : Store :=
  (store.insert (getDocumentKey doc.id) (serialization.binarySerializeDocument doc)).insert
    (getDocumentMetadataKey doc.id (ascii "created_time"))
    (ascii (toString doc.created.toInt64.toInt))

theorem run_save_new_document (doc : ProcessedDocument F) :
    (saveNewDocument serialization doc).run rockHandle store =
      if getDocumentKey doc.id ∈ store then (.error .eDocumentAlreadyExists, store)
      else (.ok true, savedDocument store serialization doc) := by
  rw [saveNewDocument, Program.run_bind, doesDocumentExist, run_exists_key]
  simp only [Std.ExtTreeMap.contains_iff_mem]
  split
  · rfl
  · simp [saveDocument, setDocumentCreatedTime, savedDocument]

/-- The store after a successful `deleteDocument`: links held by centroids stay. -/
def deletedDocument (id : Bytes) : Store :=
  eraseUnder (eraseUnder (store.erase (getDocumentKey id)) (getDocumentCentroidsPrefix id))
    (documentMetadataPrefix id)

theorem run_delete_document (id : Bytes) :
    (deleteDocument id).run rockHandle store =
      if getDocumentKey id ∈ store then
        (.ok true, deletedDocument store id)
      else (.error .eDocumentDoesNotExist, store) := by
  rw [deleteDocument, Program.run_bind, run_del]
  simp only [Std.ExtTreeMap.contains_iff_mem]
  split
  · simp [deletedDocument]
  · rename_i absent
    rw [OrderedMap.erase_of_absent absent, Program.run_pure]

theorem run_create_new_centroid [Zero F] [One F] (id : Bytes) :
    (createNewCentroid serialization id).run rockHandle store =
      if getCentroidKey id ∈ store then (.error .eCentroidAlreadyExists, store)
      else (.ok true, store.insert (getCentroidKey id)
        (serialization.binarySerializeCentroid (Centroid.new id))) := by
  rw [createNewCentroid, Program.run_bind, run_exists_key]
  simp only [Std.ExtTreeMap.contains_iff_mem]
  split
  · rfl
  · simp [saveCentroid]

/-- The store after a successful `deleteCentroid`: back-links of documents stay. -/
def deletedCentroid (id : Bytes) : Store :=
  eraseUnder (eraseUnder (store.erase (getCentroidKey id)) (getCentroidDocumentPrefix id))
    (centroidMetadataPrefix id)

theorem run_delete_centroid (id : Bytes) :
    (deleteCentroid id).run rockHandle store =
      if getCentroidKey id ∈ store then
        (.ok true, deletedCentroid store id)
      else (.error .eCentroidDoesNotExist, store) := by
  rw [deleteCentroid, Program.run_bind, run_del]
  simp only [Std.ExtTreeMap.contains_iff_mem]
  split
  · simp [deletedCentroid]
  · rename_i absent
    rw [OrderedMap.erase_of_absent absent, Program.run_pure]

/-- The store after both membership records have been written. -/
def linked (centroidId documentId : Bytes) : Store :=
  (store.insert (getCentroidDocumentKey centroidId documentId) memberValue).insert
    (getDocumentCentroidKey documentId centroidId) memberValue

theorem run_add_document_to_centroid (centroidId documentId : Bytes) :
    (addDocumentToCentroid centroidId documentId).run rockHandle store =
      if getCentroidKey centroidId ∈ store then
        if getDocumentKey documentId ∈ store then
          if getCentroidDocumentKey centroidId documentId ∈ store then
            (.error .eDocumentAlreadyInCentroid, store)
          else (.ok true, linked store centroidId documentId)
        else (.error .eDocumentDoesNotExist, store)
      else (.error .eCentroidDoesNotExist, store) := by
  simp only [addDocumentToCentroid, doesCentroidExist, doesDocumentExist, Program.run_bind,
    run_exists_key, Std.ExtTreeMap.contains_iff_mem]
  split
  · simp only [Program.run_bind, run_exists_key, Std.ExtTreeMap.contains_iff_mem]
    split
    · simp only [Program.run_bind, run_exists_key, Std.ExtTreeMap.contains_iff_mem]
      split
      · rfl
      · rfl
    · rfl
  · rfl

/-- The store after the back-link is deleted, whether or not it was there. -/
def unlinked (centroidId documentId : Bytes) : Store :=
  store.erase (getDocumentCentroidKey documentId centroidId)

theorem run_del_back_link (centroidId documentId : Bytes) :
    (del (getDocumentCentroidKey documentId centroidId)).run rockHandle store =
      (store.contains (getDocumentCentroidKey documentId centroidId),
        unlinked store centroidId documentId) := run_del _ store

theorem run_remove_document_from_centroid (centroidId documentId : Bytes) :
    (removeDocumentFromCentroid centroidId documentId).run rockHandle store =
      if getCentroidKey centroidId ∈ store then
        if getDocumentKey documentId ∈ store then
          if getCentroidDocumentKey centroidId documentId ∈
              unlinked store centroidId documentId then
            (.ok true, (unlinked store centroidId documentId).erase
              (getCentroidDocumentKey centroidId documentId))
          else (.error .eDocumentNotInCentroid, unlinked store centroidId documentId)
        else (.error .eDocumentDoesNotExist, store)
      else (.error .eCentroidDoesNotExist, store) := by
  simp only [removeDocumentFromCentroid, doesCentroidExist, doesDocumentExist, Program.run_bind,
    run_exists_key, Std.ExtTreeMap.contains_iff_mem]
  split
  · simp only [Program.run_bind, run_exists_key, Std.ExtTreeMap.contains_iff_mem]
    split
    · rw [Program.run_bind, run_del_back_link, Program.run_bind, run_del]
      simp only [Std.ExtTreeMap.contains_iff_mem]
      split
      · rfl
      · rename_i absent
        rw [OrderedMap.erase_of_absent absent, Program.run_pure]
    · rfl
  · rfl

theorem run_does_centroid_have_document (centroidId documentId : Bytes) :
    (doesCentroidHaveDocument centroidId documentId).run rockHandle store =
      (if getCentroidDocumentKey centroidId documentId ∈ store then .ok true
        else if getCentroidKey centroidId ∈ store then .ok false
        else .error .eCentroidDoesNotExist, store) := by
  simp only [doesCentroidHaveDocument, doesCentroidExist, Program.run_bind, run_exists_key,
    Std.ExtTreeMap.contains_iff_mem]
  split
  · rfl
  · simp only [Program.run_bind, run_exists_key, Std.ExtTreeMap.contains_iff_mem]
    split
    · rfl
    · rfl

theorem run_unless_missing {centroidId : Bytes} {listing : RockProgram (List Bytes)}
    {ids : List Bytes} (listed : listing.run rockHandle store = (ids, store)) :
    (unlessMissing centroidId listing).run rockHandle store =
      (if ids = [] ∧ getCentroidKey centroidId ∉ store then .error .eCentroidDoesNotExist
        else .ok ids, store) := by
  rw [unlessMissing, Program.run_bind, listed]
  cases ids with
  | nil =>
      simp only [List.isEmpty_nil, if_true, doesCentroidExist, Program.run_bind, run_exists_key,
        Std.ExtTreeMap.contains_iff_mem, true_and, ite_not]
      split
      · rfl
      · rfl
  | cons id ids => simp

theorem run_unless_missing_option {centroidId : Bytes} {listing : RockProgram (List Bytes)}
    {ids : List Bytes} (listed : listing.run rockHandle store = (ids, store)) :
    (unlessMissingOption centroidId listing).run rockHandle store =
      (if ids = [] ∧ getCentroidKey centroidId ∉ store then none else some ids, store) := by
  rw [unlessMissingOption, Program.run_bind, listed]
  cases ids with
  | nil =>
      simp only [List.isEmpty_nil, if_true, doesCentroidExist, Program.run_bind, run_exists_key,
        Std.ExtTreeMap.contains_iff_mem, true_and, ite_not]
      split
      · rfl
      · rfl
  | cons id ids => simp

end Runs

section Records

variable {store : Store} {record : LogicalRecord}

theorem holds_saved_document_iff {F : Type} {serialization : Serialization F}
    {doc : ProcessedDocument F} (owned : record.Owned) (docOwned : Unambiguous doc.id) :
    Holds (savedDocument store serialization doc) record ↔
      record = .documentMetadata doc.id (ascii "created_time") ∨
        record = .documentBody doc.id ∨ Holds store record := by
  have bodyOwned := owned_document doc.id
  have timeOwned : (LogicalRecord.documentMetadata doc.id (ascii "created_time")).Owned := docOwned
  rw [← holds_insert_iff owned bodyOwned (serialization.binarySerializeDocument doc),
    ← holds_insert_iff owned timeOwned (ascii (toString doc.created.toInt64.toInt))]
  rfl

theorem holds_deleted_document_iff {docId : Bytes} (owned : record.Owned)
    (docOwned : Unambiguous docId) :
    Holds (deletedDocument store docId) record ↔
      record.scan ≠ .documentMetadata docId ∧ record.scan ≠ .backLinks docId ∧
        record ≠ .documentBody docId ∧ Holds store record := by
  have bodyOwned := owned_document docId
  rw [← holds_erase_iff owned bodyOwned,
    ← holds_erase_under_iff (.backLinks docId) owned docOwned,
    ← holds_erase_under_iff (.documentMetadata docId) owned docOwned]
  rfl

theorem holds_created_centroid_iff {centroidId value : Bytes} (owned : record.Owned) :
    Holds (store.insert (getCentroidKey centroidId) value) record ↔
      record = .centroidBody centroidId ∨ Holds store record :=
  holds_insert_iff owned (owned_centroid centroidId) value

theorem holds_deleted_centroid_iff {centroidId : Bytes} (owned : record.Owned)
    (centroidOwned : Unambiguous centroidId) :
    Holds (deletedCentroid store centroidId) record ↔
      record.scan ≠ .centroidMetadata centroidId ∧ record.scan ≠ .members centroidId ∧
        record ≠ .centroidBody centroidId ∧ Holds store record := by
  have bodyOwned := owned_centroid centroidId
  rw [← holds_erase_iff owned bodyOwned,
    ← holds_erase_under_iff (.members centroidId) owned centroidOwned,
    ← holds_erase_under_iff (.centroidMetadata centroidId) owned centroidOwned]
  rfl

theorem holds_linked_iff {centroidId docId : Bytes} (owned : record.Owned)
    (centroidOwned : Unambiguous centroidId) (docOwned : Unambiguous docId) :
    Holds (linked store centroidId docId) record ↔
      record = .backLink docId centroidId ∨ record = .member centroidId docId ∨
        Holds store record := by
  have memberOwned : (LogicalRecord.member centroidId docId).Owned := centroidOwned
  have backLinkOwned : (LogicalRecord.backLink docId centroidId).Owned := docOwned
  rw [← holds_insert_iff owned memberOwned memberValue,
    ← holds_insert_iff owned backLinkOwned memberValue]
  rfl

theorem holds_unlinked_iff {centroidId docId : Bytes} (owned : record.Owned)
    (docOwned : Unambiguous docId) :
    Holds (unlinked store centroidId docId) record ↔
      record ≠ .backLink docId centroidId ∧ Holds store record :=
  holds_erase_iff owned (show (LogicalRecord.backLink docId centroidId).Owned from docOwned)

theorem holds_removed_iff {centroidId docId : Bytes} (owned : record.Owned)
    (centroidOwned : Unambiguous centroidId) (docOwned : Unambiguous docId) :
    Holds ((unlinked store centroidId docId).erase (getCentroidDocumentKey centroidId docId))
        record ↔
      record ≠ .member centroidId docId ∧ record ≠ .backLink docId centroidId ∧
        Holds store record := by
  rw [← holds_unlinked_iff owned docOwned]
  exact holds_erase_iff owned
    (show (LogicalRecord.member centroidId docId).Owned from centroidOwned)

end Records

end SyncPersistence

end Relevanced.Persistence

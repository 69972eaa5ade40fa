import Relevanced.Persistence.Listings

/-!
# Key isolation

Which ids keep the records of different documents and centroids apart. Nothing
in the server restricts or escapes ids, and with arbitrary ids two records can
share a key. With owners no beginning of which reads as a label and a colon,
keys are injective, a scan sees one family of one owner, and deletes reach only
their own records; every other owner shares a key with someone. Listings cut keys at
the first colon, so what they return is told of owners without one.
-/

namespace Relevanced.Persistence

open Foundation
open Models
open SyncPersistence

set_option autoImplicit false

def LogicalRecord.OfDocument (record : LogicalRecord) (docId : Bytes) : Prop :=
  record = .documentBody docId ∨ record.scan = .backLinks docId ∨
    record.scan = .documentMetadata docId

def LogicalRecord.OfCentroid (record : LogicalRecord) (centroidId : Bytes) : Prop :=
  record = .centroidBody centroidId ∨ record.scan = .members centroidId ∨
    record.scan = .centroidMetadata centroidId

/-- Some listing of the documents of the centroid returns the ids. -/
inductive DocumentsListed (centroidId : Bytes) (store : Store) : List Bytes → Prop where
  | all (ids : List Bytes)
      (returned : ((listAllDocumentsForCentroid centroidId).run rockHandle store).1 = .ok ids) :
      DocumentsListed centroidId store ids
  | allOption (ids : List Bytes)
      (returned : ((listAllDocumentsForCentroidOption centroidId).run rockHandle store).1 =
        some ids) :
      DocumentsListed centroidId store ids
  | fromOffset (offset limit : Nat) (ids : List Bytes)
      (returned : ((listCentroidDocumentRangeFromOffset centroidId offset limit).run rockHandle
        store).1 = .ok ids) :
      DocumentsListed centroidId store ids
  | fromOffsetOption (offset limit : Nat) (ids : List Bytes)
      (returned : ((listCentroidDocumentRangeFromOffsetOption centroidId offset limit).run
        rockHandle store).1 = some ids) :
      DocumentsListed centroidId store ids
  | fromDocumentId (documentId : Bytes) (limit : Nat) (ids : List Bytes)
      (returned : ((listCentroidDocumentRangeFromDocumentId centroidId documentId limit).run
        rockHandle store).1 = .ok ids) :
      DocumentsListed centroidId store ids
  | fromDocumentIdOption (documentId : Bytes) (limit : Nat) (ids : List Bytes)
      (returned : ((listCentroidDocumentRangeFromDocumentIdOption centroidId documentId limit).run
        rockHandle store).1 = some ids) :
      DocumentsListed centroidId store ids

/-- Isolation of keys for the ids that are allowed as owners of records. -/
structure KeysIsolated (Allowed : Bytes → Prop) : Prop where
  injective : ∀ left right : LogicalRecord, Allowed left.scan.owner →
    Allowed right.scan.owner → left.storeKey = right.storeKey → left = right
  scanExact : ∀ (scan : Scan) (record : LogicalRecord), Allowed scan.owner →
    Allowed record.scan.owner →
    (scan.label ++ ascii ":" ≤ record.storeKey ∧ record.storeKey < scan.label ++ ascii ";" ↔
      record.scan = scan)
  deleteDocument : ∀ (docId : Bytes) (record : LogicalRecord) (store : Store), Allowed docId →
    Allowed record.scan.owner → ¬ record.OfDocument docId →
    ((deleteDocument docId).run rockHandle store).2[record.storeKey]? = store[record.storeKey]?
  deleteCentroid : ∀ (centroidId : Bytes) (record : LogicalRecord) (store : Store),
    Allowed centroidId → Allowed record.scan.owner → ¬ record.OfCentroid centroidId →
    ((deleteCentroid centroidId).run rockHandle store).2[record.storeKey]? =
      store[record.storeKey]?
  documentsListed : ∀ (centroidId : Bytes) (store : Store) (ids : List Bytes),
    Allowed centroidId → colon ∉ centroidId → DocumentsListed centroidId store ids →
    ∀ docId ∈ ids, Holds store (.member centroidId docId)
  allDocumentsListed : ∀ (centroidId : Bytes) (store : Store) (ids : List Bytes),
    Allowed centroidId → colon ∉ centroidId →
    ((listAllDocumentsForCentroid centroidId).run rockHandle store).1 = .ok ids →
    ∀ docId, Holds store (.member centroidId docId) → docId ∈ ids
  centroidsListed : ∀ (docId : Bytes) (store : Store), Allowed docId → colon ∉ docId →
    ∀ centroidId, centroidId ∈ ((listDocumentCentroids docId).run rockHandle store).1 ↔
      Holds store (.backLink docId centroidId)

section Frames

variable {record : LogicalRecord}

theorem getElem?_erased_of_other (store : Store) (owned : record.Owned) (body : LogicalRecord)
    (links metadata : Scan) (bodyOwned : body.Owned) (linksOwned : Unambiguous links.owner)
    (metadataOwned : Unambiguous metadata.owner)
    (other : ¬ (record = body ∨ record.scan = links ∨ record.scan = metadata)) :
    (eraseUnder (eraseUnder (store.erase body.storeKey) links.label)
      metadata.label)[record.storeKey]? = store[record.storeKey]? := by
  rw [getElem?_erased, if_neg]
  rw [store_key_eq_iff owned bodyOwned, store_key_in_range_iff linksOwned owned,
    store_key_in_range_iff metadataOwned owned]
  exact other

theorem getElem?_deleted_document {docId : Bytes} (store : Store) (owned : record.Owned)
    (docOwned : Unambiguous docId) (other : ¬ record.OfDocument docId) :
    (deletedDocument store docId)[record.storeKey]? = store[record.storeKey]? :=
  getElem?_erased_of_other store owned (.documentBody docId) (.backLinks docId)
    (.documentMetadata docId) (owned_document docId) docOwned docOwned other

theorem getElem?_deleted_centroid {centroidId : Bytes} (store : Store) (owned : record.Owned)
    (centroidOwned : Unambiguous centroidId) (other : ¬ record.OfCentroid centroidId) :
    (deletedCentroid store centroidId)[record.storeKey]? = store[record.storeKey]? :=
  getElem?_erased_of_other store owned (.centroidBody centroidId) (.members centroidId)
    (.centroidMetadata centroidId) (owned_centroid centroidId) centroidOwned centroidOwned other

end Frames

section Listings

variable {store : Store} {ids returned : List Bytes} {centroidId : Bytes}
  {listing : RockProgram (List Bytes)}

theorem returned_unless_missing (listed : listing.run rockHandle store = (ids, store))
    (isReturned : ((unlessMissing centroidId listing).run rockHandle store).1 = .ok returned) :
    returned = ids := by
  rw [run_unless_missing store listed] at isReturned
  split at isReturned
  · cases isReturned
  · exact (Except.ok.inj isReturned).symm

theorem returned_unless_missing_option (listed : listing.run rockHandle store = (ids, store))
    (isReturned : ((unlessMissingOption centroidId listing).run rockHandle store).1 =
      some returned) : returned = ids := by
  rw [run_unless_missing_option store listed] at isReturned
  split at isReturned
  · cases isReturned
  · exact (Option.some.inj isReturned).symm

theorem listed_sublist (listed : DocumentsListed centroidId store ids) :
    ids.Sublist (idsUnder store (getCentroidDocumentPrefix centroidId)) := by
  have page (offset limit : Nat) :
      (((idsUnder store (getCentroidDocumentPrefix centroidId)).drop offset).take limit).Sublist
        (idsUnder store (getCentroidDocumentPrefix centroidId)) :=
    (List.take_sublist _ _).trans (List.drop_sublist _ _)
  cases listed with
  | all ids isReturned =>
      rw [returned_unless_missing (run_list_ids store _) isReturned]
  | allOption ids isReturned =>
      rw [returned_unless_missing_option (run_list_ids store _) isReturned]
  | fromOffset offset limit ids isReturned =>
      rw [returned_unless_missing (run_list_ids_from_offset store _ offset limit) isReturned]
      exact page offset limit
  | fromOffsetOption offset limit ids isReturned =>
      rw [returned_unless_missing_option (run_list_ids_from_offset store _ offset limit) isReturned]
      exact page offset limit
  | fromDocumentId documentId limit ids isReturned =>
      rw [returned_unless_missing
        (run_list_ids_from_any_member store _ documentId limit) isReturned]
      exact ids_from_sublist store _ documentId limit
  | fromDocumentIdOption documentId limit ids isReturned =>
      rw [returned_unless_missing_option (run_list_ids_from_any_member store _ documentId limit)
        isReturned]
      exact ids_from_sublist store _ documentId limit

/-- An owner without a colon: the ids read out of the keys are those of its own records. -/
theorem mem_ids_under_scan_iff (scan : Scan) (free : colon ∉ scan.owner) (id : Bytes) :
    id ∈ idsUnder store scan.label ↔ Holds store (.ofScan scan id) := by
  rw [mem_ids_under_iff store (scan.colon_not_in_label free), Holds,
    LogicalRecord.store_key_eq_join, LogicalRecord.scan_of_scan, LogicalRecord.rest_of_scan]

end Listings

/-- Unambiguous owners are isolated from each other. -/
theorem keys_isolated_of_unambiguous_owners : KeysIsolated Unambiguous where
  injective left right leftOwned rightOwned := (store_key_eq_iff leftOwned rightOwned).mp
  scanExact scan record scanned owned := by
    rw [← store_key_in_range_iff scanned owned]
    exact in_prefix_range_iff scan.label record.storeKey
  deleteDocument docId record store docOwned owned other := by
    rw [run_delete_document]
    split
    · exact getElem?_deleted_document store owned docOwned other
    · rfl
  deleteCentroid centroidId record store centroidOwned owned other := by
    rw [run_delete_centroid]
    split
    · exact getElem?_deleted_centroid store owned centroidOwned other
    · rfl
  documentsListed centroidId store ids _ free listed docId member :=
    (mem_ids_under_scan_iff (.members centroidId) free docId).mp
      ((listed_sublist listed).subset member)
  allDocumentsListed centroidId store ids _ free isReturned docId held := by
    rw [returned_unless_missing (run_list_ids store _) isReturned]
    exact (mem_ids_under_scan_iff (.members centroidId) free docId).mpr held
  centroidsListed docId store _ free centroidId := by
    rw [listDocumentCentroids, run_list_ids]
    exact mem_ids_under_scan_iff (.backLinks docId) free centroidId

/-- The document "x__documents:y" of the centroid "a" and the document "y" of the centroid
"a__documents:x" have one member key. -/
theorem keys_not_isolated : ¬ KeysIsolated fun _ => True := by
  intro isolated
  have same := isolated.injective (.member (ascii "a") (ascii "x__documents:y"))
    (.member (ascii "a__documents:x") (ascii "y")) trivial trivial (by decide)
  exact absurd same (by decide)

end Relevanced.Persistence

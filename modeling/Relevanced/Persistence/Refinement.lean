import Relevanced.Persistence.SequentialSpec
import Relevanced.Persistence.SyncRuns

/-!
# SyncPersistence refines its sequential specification

The key-value store represents a catalogue when the bodies and member records it
holds are those of the catalogue. Every complete call on ids without a colon
answers as prescribed and leaves the store representing the prescribed state, so
any sequence of such calls from the empty store has the prescribed transcript.
-/

namespace Relevanced.Persistence

open Foundation
open Models
open SyncPersistence

set_option autoImplicit false

structure Represents (store : Store) (state : Catalogue) : Prop where
  documents : ∀ d, Holds store (.documentBody d) ↔ d ∈ state.docs
  centroids : ∀ c, Holds store (.centroidBody c) ↔ c ∈ state.cents
  members : ∀ c d, colon ∉ c → (Holds store (.member c d) ↔ (c, d) ∈ state.mem)

section Keys

variable {store : Store} {state : Catalogue}

theorem Represents.document_key (related : Represents store state) (d : Bytes) :
    getDocumentKey d ∈ store ↔ d ∈ state.docs := related.documents d

theorem Represents.centroid_key (related : Represents store state) (c : Bytes) :
    getCentroidKey c ∈ store ↔ c ∈ state.cents := related.centroids c

theorem Represents.member_key (related : Represents store state) {c : Bytes} (free : colon ∉ c)
    (d : Bytes) : getCentroidDocumentKey c d ∈ store ↔ (c, d) ∈ state.mem :=
  related.members c d free

end Keys

theorem represents_empty : Represents ∅ .empty := by
  constructor
  · intro d
    simp [Holds, Catalogue.empty]
  · intro c
    simp [Holds, Catalogue.empty]
  · intro c d _
    simp [Holds, Catalogue.empty]

section Listings

variable {store : Store} {state : Catalogue}

theorem listed_eq_sort (scan : Scan) (free : colon ∉ scan.owner) {ids : Finset Bytes}
    (same : ∀ id, Holds store (.ofScan scan id) ↔ id ∈ ids) :
    idsUnder store scan.label = ids.sort := by
  have labelFree := scan.colon_not_in_label free
  apply (ids_under_ascending store labelFree).eq_of_mem_iff ids.sortedLT_sort.pairwise
  intro id
  rw [mem_ids_under_iff store labelFree, Finset.mem_sort, ← same, Holds,
    LogicalRecord.store_key_eq_join, LogicalRecord.scan_of_scan, LogicalRecord.rest_of_scan]

theorem documents_listed (related : Represents store state) :
    idsUnder store getDocumentsPrefix = state.documents :=
  listed_eq_sort .documents (by simp [Scan.owner]) related.documents

theorem centroids_listed (related : Represents store state) :
    idsUnder store getCentroidsPrefix = state.centroids :=
  listed_eq_sort .centroids (by simp [Scan.owner]) related.centroids

theorem row_listed (related : Represents store state) {c : Bytes} (free : colon ∉ c) :
    idsUnder store (getCentroidDocumentPrefix c) = state.row c := by
  apply listed_eq_sort (.members c) free
  intro d
  exact (related.members c d free).trans (by simp)

/-- A row is empty when its centroid is missing, so the test of the listings is exact. -/
theorem run_of_centroid (related : Represents store state) {c : Bytes}
    {listing : RockProgram (List Bytes)} {ids : List Bytes}
    (listed : listing.run rockHandle store = (ids, store)) (within : ids ⊆ state.row c) :
    (unlessMissing c listing).run rockHandle store = (state.ofCentroid c ids, store) ∧
      (unlessMissingOption c listing).run rockHandle store =
        (state.ofCentroidOption c ids, store) := by
  rw [run_unless_missing store listed, run_unless_missing_option store listed]
  simp only [related.centroid_key, Catalogue.ofCentroid, Catalogue.ofCentroidOption]
  by_cases present : c ∈ state.cents
  · simp [present]
  · have emptyRow : ids = [] := by
      apply List.eq_nil_iff_forall_not_mem.mpr
      intro d member
      apply present
      apply state.rowsExist c d
      simpa [Catalogue.row] using within member
    simp [present, emptyRow]

end Listings

section Effects

variable {store : Store} {state : Catalogue}

theorem represents_saved_document {F : Type} {serialization : Serialization F}
    (related : Represents store state) {doc : ProcessedDocument F} (free : colon ∉ doc.id) :
    Represents (savedDocument store serialization doc) (state.addDocument doc.id) := by
  have docOwned := unambiguous_of_colon_free free
  constructor
  · intro d
    rw [holds_saved_document_iff (owned_document d) docOwned, related.documents]
    simp [Catalogue.addDocument]
  · intro c
    rw [holds_saved_document_iff (owned_centroid c) docOwned, related.centroids]
    simp [Catalogue.addDocument]
  · intro c d centroidFree
    rw [holds_saved_document_iff (owned_member centroidFree d) docOwned,
      related.members c d centroidFree]
    simp [Catalogue.addDocument]

theorem represents_deleted_document (related : Represents store state) {d : Bytes}
    (free : colon ∉ d) : Represents (deletedDocument store d) (state.removeDocument d) := by
  have docOwned := unambiguous_of_colon_free free
  constructor
  · intro other
    rw [holds_deleted_document_iff (owned_document other) docOwned, related.documents]
    simp [Catalogue.removeDocument, LogicalRecord.scan]
  · intro c
    rw [holds_deleted_document_iff (owned_centroid c) docOwned, related.centroids]
    simp [Catalogue.removeDocument, LogicalRecord.scan]
  · intro c other centroidFree
    rw [holds_deleted_document_iff (owned_member centroidFree other) docOwned,
      related.members c other centroidFree]
    simp [Catalogue.removeDocument, LogicalRecord.scan]

theorem represents_created_centroid (related : Represents store state) (c value : Bytes) :
    Represents (store.insert (getCentroidKey c) value) (state.addCentroid c) := by
  constructor
  · intro d
    rw [holds_created_centroid_iff (owned_document d), related.documents]
    simp [Catalogue.addCentroid]
  · intro other
    rw [holds_created_centroid_iff (owned_centroid other), related.centroids]
    simp [Catalogue.addCentroid]
  · intro other d centroidFree
    rw [holds_created_centroid_iff (owned_member centroidFree d),
      related.members other d centroidFree]
    simp [Catalogue.addCentroid]

theorem represents_deleted_centroid (related : Represents store state) {c : Bytes}
    (free : colon ∉ c) : Represents (deletedCentroid store c) (state.removeCentroid c) := by
  have centroidOwned := unambiguous_of_colon_free free
  constructor
  · intro d
    rw [holds_deleted_centroid_iff (owned_document d) centroidOwned, related.documents]
    simp [Catalogue.removeCentroid, LogicalRecord.scan]
  · intro other
    rw [holds_deleted_centroid_iff (owned_centroid other) centroidOwned, related.centroids]
    simp [Catalogue.removeCentroid, LogicalRecord.scan]
  · intro other d otherFree
    rw [holds_deleted_centroid_iff (owned_member otherFree d) centroidOwned,
      related.members other d otherFree]
    simp [Catalogue.removeCentroid, LogicalRecord.scan, and_comm]

theorem represents_linked (related : Represents store state) {c d : Bytes} (free : colon ∉ c)
    (docFree : colon ∉ d) (existing : c ∈ state.cents) :
    Represents (linked store c d) (state.link c d existing) := by
  have centroidOwned := unambiguous_of_colon_free free
  have docOwned := unambiguous_of_colon_free docFree
  constructor
  · intro other
    rw [holds_linked_iff (owned_document other) centroidOwned docOwned, related.documents]
    simp [Catalogue.link]
  · intro other
    rw [holds_linked_iff (owned_centroid other) centroidOwned docOwned, related.centroids]
    simp [Catalogue.link]
  · intro other member otherFree
    rw [holds_linked_iff (owned_member otherFree member) centroidOwned docOwned,
      related.members other member otherFree]
    simp [Catalogue.link]

theorem represents_unlinked (related : Represents store state) (c : Bytes) {d : Bytes}
    (docFree : colon ∉ d) : Represents (unlinked store c d) state := by
  have docOwned := unambiguous_of_colon_free docFree
  constructor
  · intro other
    rw [holds_unlinked_iff (owned_document other) docOwned, related.documents]
    simp
  · intro other
    rw [holds_unlinked_iff (owned_centroid other) docOwned, related.centroids]
    simp
  · intro other member otherFree
    rw [holds_unlinked_iff (owned_member otherFree member) docOwned,
      related.members other member otherFree]
    simp

theorem represents_removed (related : Represents store state) {c d : Bytes} (free : colon ∉ c) :
    Represents (store.erase (getCentroidDocumentKey c d)) (state.unlink c d) := by
  have memberOwned := owned_member free d
  have erased (record : LogicalRecord) (owned : record.Owned) :
      Holds (store.erase (getCentroidDocumentKey c d)) record ↔
        record ≠ .member c d ∧ Holds store record := holds_erase_iff owned memberOwned
  constructor
  · intro other
    rw [erased _ (owned_document other), related.documents]
    simp [Catalogue.unlink]
  · intro other
    rw [erased _ (owned_centroid other), related.centroids]
    simp [Catalogue.unlink]
  · intro other member otherFree
    rw [erased _ (owned_member otherFree member), related.members other member otherFree]
    simp [Catalogue.unlink]

end Effects

section Calls

variable {store : Store} {state : Catalogue}

/-- One run of a call answers as prescribed and keeps the representation. -/
def AsPrescribed {Response : Type} (outcome : Response × Store)
    (prescription : Response × Catalogue) : Prop :=
  outcome.1 = prescription.1 ∧ Represents outcome.2 prescription.2

theorem as_prescribed_ite {Response : Type} {tested specified : Prop} [Decidable tested]
    [Decidable specified] (same : tested ↔ specified) {whenTrue whenFalse : Response × Store}
    {thenTrue thenFalse : Response × Catalogue}
    (onTrue : specified → AsPrescribed whenTrue thenTrue)
    (onFalse : ¬ specified → AsPrescribed whenFalse thenFalse) :
    AsPrescribed (if tested then whenTrue else whenFalse)
      (if specified then thenTrue else thenFalse) := by
  by_cases holds : specified
  · rw [if_pos holds, if_pos (same.mpr holds)]
    exact onTrue holds
  · rw [if_neg holds, if_neg (mt same.mp holds)]
    exact onFalse holds

theorem save_new_document_as_prescribed {F : Type} (serialization : Serialization F)
    (related : Represents store state) {doc : ProcessedDocument F} (free : colon ∉ doc.id) :
    AsPrescribed ((saveNewDocument serialization doc).run rockHandle store)
      (Catalogue.prescribed (F := F) (.saveNewDocument doc) state) := by
  rw [run_save_new_document]
  apply as_prescribed_ite (related.document_key doc.id)
  · intro _
    exact ⟨rfl, related⟩
  · intro _
    exact ⟨rfl, represents_saved_document related free⟩

theorem delete_document_as_prescribed (F : Type) (related : Represents store state) {d : Bytes}
    (free : colon ∉ d) :
    AsPrescribed ((deleteDocument d).run rockHandle store)
      (Catalogue.prescribed (F := F) (.deleteDocument d) state) := by
  rw [run_delete_document]
  apply as_prescribed_ite (related.document_key d)
  · intro _
    exact ⟨rfl, represents_deleted_document related free⟩
  · intro _
    exact ⟨rfl, related⟩

theorem create_new_centroid_as_prescribed {F : Type} [Zero F] [One F]
    (serialization : Serialization F) (related : Represents store state) (c : Bytes) :
    AsPrescribed ((createNewCentroid serialization c).run rockHandle store)
      (Catalogue.prescribed (F := F) (.createNewCentroid c) state) := by
  rw [run_create_new_centroid]
  apply as_prescribed_ite (related.centroid_key c)
  · intro _
    exact ⟨rfl, related⟩
  · intro _
    exact ⟨rfl, represents_created_centroid related c _⟩

theorem delete_centroid_as_prescribed (F : Type) (related : Represents store state) {c : Bytes}
    (free : colon ∉ c) :
    AsPrescribed ((deleteCentroid c).run rockHandle store)
      (Catalogue.prescribed (F := F) (.deleteCentroid c) state) := by
  rw [run_delete_centroid]
  apply as_prescribed_ite (related.centroid_key c)
  · intro _
    exact ⟨rfl, represents_deleted_centroid related free⟩
  · intro _
    exact ⟨rfl, related⟩

theorem add_document_as_prescribed (F : Type) (related : Represents store state) {c d : Bytes}
    (free : colon ∉ c) (docFree : colon ∉ d) :
    AsPrescribed ((addDocumentToCentroid c d).run rockHandle store)
      (Catalogue.prescribed (F := F) (.addDocumentToCentroid c d) state) := by
  rw [run_add_document_to_centroid, Catalogue.prescribed]
  by_cases existing : c ∈ state.cents
  · rw [dif_pos existing, if_pos ((related.centroid_key c).mpr existing)]
    apply as_prescribed_ite (related.document_key d)
    · intro _
      apply as_prescribed_ite (related.member_key free d)
      · intro _
        exact ⟨rfl, related⟩
      · intro _
        exact ⟨rfl, represents_linked related free docFree existing⟩
    · intro _
      exact ⟨rfl, related⟩
  · rw [dif_neg existing, if_neg (mt (related.centroid_key c).mp existing)]
    exact ⟨rfl, related⟩

theorem remove_document_as_prescribed (F : Type) (related : Represents store state) {c d : Bytes}
    (free : colon ∉ c) (docFree : colon ∉ d) :
    AsPrescribed ((removeDocumentFromCentroid c d).run rockHandle store)
      (Catalogue.prescribed (F := F) (.removeDocumentFromCentroid c d) state) := by
  have afterUnlink := represents_unlinked related c docFree
  rw [run_remove_document_from_centroid]
  apply as_prescribed_ite (related.centroid_key c)
  · intro _
    apply as_prescribed_ite (related.document_key d)
    · intro _
      apply as_prescribed_ite (afterUnlink.member_key free d)
      · intro _
        exact ⟨rfl, represents_removed afterUnlink free⟩
      · intro _
        exact ⟨rfl, afterUnlink⟩
    · intro _
      exact ⟨rfl, related⟩
  · intro _
    exact ⟨rfl, related⟩

theorem has_document_as_prescribed (F : Type) (related : Represents store state) {c : Bytes}
    (free : colon ∉ c) (d : Bytes) :
    AsPrescribed ((doesCentroidHaveDocument c d).run rockHandle store)
      (Catalogue.prescribed (F := F) (.doesCentroidHaveDocument c d) state) := by
  refine ⟨?_, ?_⟩
  · simp only [run_does_centroid_have_document, related.member_key free, related.centroid_key,
      Catalogue.prescribed]
    by_cases listed : (c, d) ∈ state.mem
    · simp [listed, state.rowsExist c d listed]
    · simp [listed]
  · rw [run_does_centroid_have_document]
    exact related

theorem page_from_offset_subset (ids : List Bytes) (offset limit : Nat) :
    Catalogue.fromOffset ids offset limit ⊆ ids :=
  List.Subset.trans (List.take_subset _ _) (List.drop_subset _ _)

theorem page_from_id_subset (ids : List Bytes) (start : Bytes) (limit : Nat) :
    Catalogue.fromId ids start limit ⊆ ids :=
  List.Subset.trans (List.take_subset _ _) (List.filter_subset_self _)

theorem listing_as_prescribed (scan : Scan) (free : colon ∉ scan.owner) {ids : List Bytes}
    (listed : idsUnder store scan.label = ids) :
    (listIds scan.label).run rockHandle store = (ids, store) ∧
      (∀ offset limit, (listIdsFromOffset scan.label offset limit).run rockHandle store =
        (Catalogue.fromOffset ids offset limit, store)) ∧
      ∀ start limit, (listIdsFromMember scan.label start limit).run rockHandle store =
        (Catalogue.fromId ids start limit, store) := by
  refine ⟨?_, ?_, ?_⟩
  · rw [run_list_ids, listed]
  · intro offset limit
    rw [run_list_ids_from_offset, listed]
    rfl
  · intro start limit
    rw [run_list_ids_from_member store (scan.colon_not_in_label free), listed]
    rfl

theorem run_exists_as_decide (store : Store) {key : Bytes} {known : Prop} [Decidable known]
    (same : key ∈ store ↔ known) :
    (existsKey key).run rockHandle store = (decide known, store) := by
  have contained : store.contains key = decide known := by
    rw [Bool.eq_iff_iff, Std.ExtTreeMap.contains_iff_mem, decide_eq_true_iff, same]
  rw [run_exists_key, contained]

theorem answers_of_run {Response : Type} {outcome : Response × Store} {answer : Response}
    (related : Represents store state) (same : outcome = (answer, store)) :
    AsPrescribed outcome (answer, state) := by
  rw [same]
  exact ⟨rfl, related⟩

theorem call_as_prescribed {F : Type} [Zero F] [One F] (serialization : Serialization F)
    (call : SyncCall F) (free : call.ColonFree) (related : Represents store state) :
    AsPrescribed (syncPersistence serialization call store) (Catalogue.prescribed call state) := by
  obtain ⟨allDocuments, documentsFromOffset, documentsFromId⟩ :=
    listing_as_prescribed .documents (by simp [Scan.owner]) (documents_listed related)
  obtain ⟨allCentroids, centroidsFromOffset, centroidsFromId⟩ :=
    listing_as_prescribed .centroids (by simp [Scan.owner]) (centroids_listed related)
  have rowListings (c : Bytes) (centroidFree : colon ∉ c) :=
    listing_as_prescribed (.members c) centroidFree (row_listed related centroidFree)
  cases call with
  | saveNewDocument doc =>
      exact save_new_document_as_prescribed serialization related (free _ (by simp [SyncCall.ids]))
  | deleteDocument d =>
      exact delete_document_as_prescribed F related (free _ (by simp [SyncCall.ids]))
  | doesDocumentExist d =>
      exact answers_of_run related (run_exists_as_decide store (related.document_key d))
  | listAllDocuments => exact answers_of_run related allDocuments
  | listDocumentRangeFromId start numToGet =>
      exact answers_of_run related (documentsFromId start numToGet)
  | listDocumentRangeFromOffset offset numToGet =>
      exact answers_of_run related (documentsFromOffset offset numToGet)
  | createNewCentroid c => exact create_new_centroid_as_prescribed serialization related c
  | deleteCentroid c =>
      exact delete_centroid_as_prescribed F related (free _ (by simp [SyncCall.ids]))
  | doesCentroidExist c =>
      exact answers_of_run related (run_exists_as_decide store (related.centroid_key c))
  | listAllCentroids => exact answers_of_run related allCentroids
  | listCentroidRangeFromOffset offset limit =>
      exact answers_of_run related (centroidsFromOffset offset limit)
  | listCentroidRangeFromId start limit =>
      exact answers_of_run related (centroidsFromId start limit)
  | addDocumentToCentroid c d =>
      exact add_document_as_prescribed F related (free _ (by simp [SyncCall.ids]))
        (free _ (by simp [SyncCall.ids]))
  | removeDocumentFromCentroid c d =>
      exact remove_document_as_prescribed F related (free _ (by simp [SyncCall.ids]))
        (free _ (by simp [SyncCall.ids]))
  | doesCentroidHaveDocument c d =>
      exact has_document_as_prescribed F related (free _ (by simp [SyncCall.ids])) d
  | listAllDocumentsForCentroid c =>
      obtain ⟨whole, _, _⟩ := rowListings c (free _ (by simp [SyncCall.ids]))
      exact answers_of_run related (run_of_centroid related whole (List.Subset.refl _)).1
  | listAllDocumentsForCentroidOption c =>
      obtain ⟨whole, _, _⟩ := rowListings c (free _ (by simp [SyncCall.ids]))
      exact answers_of_run related (run_of_centroid related whole (List.Subset.refl _)).2
  | listCentroidDocumentRangeFromOffset c offset limit =>
      obtain ⟨_, fromOffset, _⟩ := rowListings c (free _ (by simp [SyncCall.ids]))
      exact answers_of_run related (run_of_centroid related (fromOffset offset limit)
        (page_from_offset_subset _ _ _)).1
  | listCentroidDocumentRangeFromOffsetOption c offset limit =>
      obtain ⟨_, fromOffset, _⟩ := rowListings c (free _ (by simp [SyncCall.ids]))
      exact answers_of_run related (run_of_centroid related (fromOffset offset limit)
        (page_from_offset_subset _ _ _)).2
  | listCentroidDocumentRangeFromDocumentId c d limit =>
      obtain ⟨_, _, fromId⟩ := rowListings c (free _ (by simp [SyncCall.ids]))
      exact answers_of_run related (run_of_centroid related (fromId d limit)
        (page_from_id_subset _ _ _)).1
  | listCentroidDocumentRangeFromDocumentIdOption c d limit =>
      obtain ⟨_, _, fromId⟩ := rowListings c (free _ (by simp [SyncCall.ids]))
      exact answers_of_run related (run_of_centroid related (fromId d limit)
        (page_from_id_subset _ _ _)).2

/-- From the empty store, any sequence of complete calls on ids without a colon gets the
prescribed answers. -/
theorem sync_persistence_refines_catalogue {F : Type} [Zero F] [One F]
    (serialization : Serialization F) (calls : List (SyncCall F))
    (free : ∀ call ∈ calls, call.ColonFree) :
    Program.Handler.transcript (syncPersistence serialization) calls ∅ =
      Program.Handler.transcript Catalogue.prescribed calls .empty := by
  have simulates : ∀ (call : SyncCall F) (store : Store) (state : Catalogue), call.ColonFree →
      Represents store state →
      (syncPersistence serialization call store).1 = (Catalogue.prescribed call state).1 ∧
        Represents (syncPersistence serialization call store).2
          (Catalogue.prescribed call state).2 := by
    intro call store state callFree related
    exact call_as_prescribed serialization call callFree related
  exact Program.transcript_eq_of_simulation (I := SyncPersistenceIf F) simulates calls free
    represents_empty

end Calls

/-- A member whose document is deleted stays listed until its centroid goes. -/
def staleMember : List (SyncCall Int) :=
  [.createNewCentroid (ascii "c"), .saveNewDocument (.bare (ascii "d")),
    .addDocumentToCentroid (ascii "c") (ascii "d"), .deleteDocument (ascii "d"),
    .listAllDocumentsForCentroid (ascii "c"), .deleteCentroid (ascii "c"),
    .listAllDocumentsForCentroid (ascii "c")]

theorem stale_member_refines_catalogue :
    Program.Handler.transcript (syncPersistence .idsOnly) staleMember ∅ =
      Program.Handler.transcript Catalogue.prescribed staleMember .empty :=
  sync_persistence_refines_catalogue .idsOnly staleMember (by decide)

end Relevanced.Persistence

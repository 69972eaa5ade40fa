import Relevanced.Foundation.Associations
import Relevanced.Persistence.Links
import Relevanced.Persistence.UnusedDocuments

/-!
# All calls of SyncPersistence

Every public method, with the store it leaves behind. Of what a call does to a store, only
this matters for memberships: which change it makes to the documents, the centroids and the
records of the two directions.
-/

namespace Relevanced.Persistence

open Foundation
open Models
open SyncPersistence
open LogicalRecord

set_option autoImplicit false

/-- The public methods; `deleteOldUnusedDocuments` reads the clock when it starts. -/
inductive PublicCall (F : Type) where
  | sync (call : SyncCall F)
  | saveDocument (doc : ProcessedDocument F)
  | loadDocument (docId : Bytes)
  | listUnusedDocuments (limit : Nat)
  | deleteOldUnusedDocuments (startTime minAge : Int64) (limit : Nat)
  | saveCentroid (id : Bytes) (centroid : Centroid F)
  | loadCentroid (id : Bytes)
  | loadCentroidUniqueOption (id : Bytes)
  | getCentroidMetadata (centroidId metadataName : Bytes)
  | setCentroidMetadata (centroidId metadataName value : Bytes)
  | debugEraseAllData

namespace PublicCall

variable {F : Type}

/-- Every document or centroid id the call mentions. -/
def ids : PublicCall F → List Bytes
  | sync call => call.ids
  | saveDocument doc => [doc.id]
  | loadDocument docId => [docId]
  | listUnusedDocuments _ => []
  | deleteOldUnusedDocuments _ _ _ => []
  | saveCentroid id _ => [id]
  | loadCentroid id => [id]
  | loadCentroidUniqueOption id => [id]
  | getCentroidMetadata centroidId _ => [centroidId]
  | setCentroidMetadata centroidId _ _ => [centroidId]
  | debugEraseAllData => []

def ColonFree (call : PublicCall F) : Prop := ∀ id ∈ call.ids, colon ∉ id

instance (call : PublicCall F) : Decidable call.ColonFree :=
  inferInstanceAs (Decidable (∀ id ∈ call.ids, colon ∉ id))

variable [Zero F] [One F]

/-- The store after a complete call. `debugEraseAllData` destroys the database and opens it anew. -/
def storeAfter (serialization : Serialization F) (toInt64 : Bytes → Option Int64) (store : Store) :
    PublicCall F → Store
  | sync call => (syncPersistence serialization call store).2
  | saveDocument doc => ((SyncPersistence.saveDocument serialization doc).run rockHandle store).2
  | loadDocument docId =>
      ((SyncPersistence.loadDocument serialization docId).run rockHandle store).2
  | listUnusedDocuments limit =>
      ((SyncPersistence.listUnusedDocuments limit).run rockHandle store).2
  | deleteOldUnusedDocuments startTime minAge limit =>
      ((SyncPersistence.deleteOldUnusedDocuments toInt64 startTime minAge limit).run rockHandle
        store).2
  | saveCentroid id centroid =>
      ((SyncPersistence.saveCentroid serialization id centroid).run rockHandle store).2
  | loadCentroid id => ((SyncPersistence.loadCentroid serialization id).run rockHandle store).2
  | loadCentroidUniqueOption id =>
      ((SyncPersistence.loadCentroidUniqueOption serialization id).run rockHandle store).2
  | getCentroidMetadata centroidId metadataName =>
      ((SyncPersistence.getCentroidMetadata centroidId metadataName).run rockHandle store).2
  | setCentroidMetadata centroidId metadataName value =>
      ((SyncPersistence.setCentroidMetadata centroidId metadataName value).run rockHandle store).2
  | debugEraseAllData => ∅

end PublicCall

/-- Complete, non-overlapping calls of any public method. -/
def publicMachine {F : Type} [Zero F] [One F] (serialization : Serialization F)
    (toInt64 : Bytes → Option Int64) : Machine Store (PublicCall F) where
  step store call := some (call.storeAfter serialization toInt64 store)

section Records

/-- What a store has of documents, centroids and the two directions of membership. -/
def records (store : Store) : Associations Bytes Bytes where
  item d := Holds store (documentBody d)
  group c := Holds store (centroidBody c)
  listed c d := colon ∉ c ∧ Holds store (member c d)
  linked d c := colon ∉ d ∧ Holds store (backLink d c)

theorem records_eq {store : Store} {expected : Associations Bytes Bytes}
    (item : ∀ d, Holds store (documentBody d) ↔ expected.item d)
    (group : ∀ c, Holds store (centroidBody c) ↔ expected.group c)
    (listed : ∀ c d, (colon ∉ c ∧ Holds store (member c d)) ↔ expected.listed c d)
    (linked : ∀ d c, (colon ∉ d ∧ Holds store (backLink d c)) ↔ expected.linked d c) :
    records store = expected := by
  ext d c
  · exact item d
  · exact group d
  · exact listed d c
  · exact linked d c

variable {store : Store}

theorem records_empty : records ∅ = .empty := by
  apply records_eq
  · simp [Holds, Associations.empty]
  · simp [Holds, Associations.empty]
  · simp [Holds, Associations.empty]
  · simp [Holds, Associations.empty]

theorem records_saved_document {F : Type} (serialization : Serialization F)
    {doc : ProcessedDocument F} (free : colon ∉ doc.id) :
    records (savedDocument store serialization doc) = (records store).apply (.addItem doc.id) := by
  have docOwned := unambiguous_of_colon_free free
  apply records_eq
  · intro d
    simp [holds_saved_document_iff (owned_document d) docOwned, records, Associations.apply]
  · intro c
    simp [holds_saved_document_iff (owned_centroid c) docOwned, records, Associations.apply]
  · intro c d
    apply and_congr_right
    intro centroidFree
    simp [holds_saved_document_iff (owned_member centroidFree d) docOwned]
  · intro d c
    apply and_congr_right
    intro docFree
    simp [holds_saved_document_iff (owned_back_link docFree c) docOwned]

theorem records_deleted_document {deleted : Bytes} (free : colon ∉ deleted) :
    records (deletedDocument store deleted) =
      (records store).apply (.removeItems (· = deleted)) := by
  have docOwned := unambiguous_of_colon_free free
  apply records_eq
  · intro d
    simp [holds_deleted_document_iff (owned_document d) docOwned, records, Associations.apply, scan]
  · intro c
    simp [holds_deleted_document_iff (owned_centroid c) docOwned, records, Associations.apply, scan]
  · intro c d
    apply and_congr_right
    intro centroidFree
    simp [holds_deleted_document_iff (owned_member centroidFree d) docOwned, scan]
  · intro d c
    change _ ↔ ¬ d = deleted ∧ colon ∉ d ∧ Holds store (backLink d c)
    rw [and_left_comm]
    apply and_congr_right
    intro docFree
    simp [holds_deleted_document_iff (owned_back_link docFree c) docOwned, scan]

theorem records_deleted_documents (deleted : List Bytes) (free : ∀ id ∈ deleted, colon ∉ id) :
    records (deleted.foldl deletedDocument store) =
      (records store).apply (.removeItems (· ∈ deleted)) := by
  induction deleted generalizing store with
  | nil => simp [Associations.apply]
  | cons id deleted ih =>
      rw [List.foldl_cons, ih fun other member => free other (List.mem_cons_of_mem id member),
        records_deleted_document (free id List.mem_cons_self)]
      ext d c
      · simp [Associations.apply, and_assoc, and_left_comm]
      · rfl
      · rfl
      · simp [Associations.apply, and_assoc, and_left_comm]

theorem records_created_centroid (created value : Bytes) :
    records (store.insert (getCentroidKey created) value) =
      (records store).apply (.addGroup created) := by
  apply records_eq
  · intro d
    simp [holds_created_centroid_iff (owned_document d), records, Associations.apply]
  · intro c
    simp [holds_created_centroid_iff (owned_centroid c), records, Associations.apply]
  · intro c d
    apply and_congr_right
    intro centroidFree
    simp [holds_created_centroid_iff (owned_member centroidFree d)]
  · intro d c
    apply and_congr_right
    intro docFree
    simp [holds_created_centroid_iff (owned_back_link docFree c)]

theorem records_deleted_centroid {deleted : Bytes} (free : colon ∉ deleted) :
    records (deletedCentroid store deleted) = (records store).apply (.removeGroup deleted) := by
  have centroidOwned := unambiguous_of_colon_free free
  apply records_eq
  · intro d
    simp [holds_deleted_centroid_iff (owned_document d) centroidOwned, records, Associations.apply,
      scan]
  · intro c
    simp [holds_deleted_centroid_iff (owned_centroid c) centroidOwned, records, Associations.apply,
      scan]
  · intro c d
    change _ ↔ c ≠ deleted ∧ colon ∉ c ∧ Holds store (member c d)
    rw [and_left_comm]
    apply and_congr_right
    intro centroidFree
    simp [holds_deleted_centroid_iff (owned_member centroidFree d) centroidOwned, scan]
  · intro d c
    apply and_congr_right
    intro docFree
    simp [holds_deleted_centroid_iff (owned_back_link docFree c) centroidOwned, scan]

theorem records_linked {centroid document : Bytes} (free : colon ∉ centroid)
    (docFree : colon ∉ document) :
    records (SyncPersistence.linked store centroid document) =
      (records store).apply (.link centroid document) := by
  have centroidOwned := unambiguous_of_colon_free free
  have docOwned := unambiguous_of_colon_free docFree
  apply records_eq
  · intro d
    simp [holds_linked_iff (owned_document d) centroidOwned docOwned, records, Associations.apply]
  · intro c
    simp [holds_linked_iff (owned_centroid c) centroidOwned docOwned, records, Associations.apply]
  · intro c d
    change _ ↔ (c = centroid ∧ d = document) ∨ colon ∉ c ∧ Holds store (member c d)
    constructor
    · rintro ⟨otherFree, held⟩
      simpa [holds_linked_iff (owned_member otherFree d) centroidOwned docOwned, otherFree] using
        held
    · rintro (⟨rfl, rfl⟩ | ⟨otherFree, held⟩)
      · exact ⟨free, (holds_linked_iff (owned_member free d) centroidOwned docOwned).mpr
          (Or.inr (Or.inl rfl))⟩
      · exact ⟨otherFree, (holds_linked_iff (owned_member otherFree d) centroidOwned docOwned).mpr
          (Or.inr (Or.inr held))⟩
  · intro d c
    change _ ↔ (d = document ∧ c = centroid) ∨ colon ∉ d ∧ Holds store (backLink d c)
    constructor
    · rintro ⟨otherFree, held⟩
      simpa [holds_linked_iff (owned_back_link otherFree c) centroidOwned docOwned, otherFree] using
        held
    · rintro (⟨rfl, rfl⟩ | ⟨otherFree, held⟩)
      · exact ⟨docFree, (holds_linked_iff (owned_back_link docFree c) centroidOwned docOwned).mpr
          (Or.inl rfl)⟩
      · exact ⟨otherFree,
          (holds_linked_iff (owned_back_link otherFree c) centroidOwned docOwned).mpr
          (Or.inr (Or.inr held))⟩

theorem records_after_remove {centroid document : Bytes} (free : colon ∉ centroid)
    (docFree : colon ∉ document) (existing : Holds store (centroidBody centroid))
    (stored : Holds store (documentBody document)) :
    records ((removeDocumentFromCentroid centroid document).run rockHandle store).2 =
      (records store).apply (.unlink centroid document) := by
  have after := @holds_after_remove_iff store centroid document free docFree existing stored
  apply records_eq
  · intro d
    simp [after (owned_document d), records, Associations.apply]
  · intro c
    simp [after (owned_centroid c), records, Associations.apply]
  · intro c d
    change _ ↔ ¬ (c = centroid ∧ d = document) ∧ colon ∉ c ∧ Holds store (member c d)
    rw [and_left_comm]
    apply and_congr_right
    intro otherFree
    simp [after (owned_member otherFree d)]
  · intro d c
    change _ ↔ ¬ (d = document ∧ c = centroid) ∧ colon ∉ d ∧ Holds store (backLink d c)
    rw [and_left_comm]
    apply and_congr_right
    intro otherFree
    simp [after (owned_back_link otherFree c)]

theorem records_set_centroid_metadata {centroid : Bytes} (metadataName value : Bytes)
    (free : colon ∉ centroid) :
    records (store.insert (getCentroidMetadataKey centroid metadataName) value) =
      records store := by
  have metadataOwned : (LogicalRecord.centroidMetadata centroid metadataName).Owned :=
    unambiguous_of_colon_free free
  have kept {record : LogicalRecord} (owned : record.Owned)
      (other : record ≠ .centroidMetadata centroid metadataName) :
      Holds (store.insert (getCentroidMetadataKey centroid metadataName) value) record ↔
        Holds store record := by
    have inserted := @holds_insert_iff store record _ owned metadataOwned value
    exact inserted.trans (or_iff_right other)
  apply records_eq
  · exact fun d => kept (owned_document d) (by simp)
  · exact fun c => kept (owned_centroid c) (by simp)
  · intro c d
    apply and_congr_right
    exact fun otherFree => kept (owned_member otherFree d) (by simp)
  · intro d c
    apply and_congr_right
    exact fun otherFree => kept (owned_back_link otherFree c) (by simp)

end Records

section Changes

variable {F : Type}

/-- The change a call makes to the records. -/
def PublicCall.change (toInt64 : Bytes → Option Int64) (store : Store) :
    PublicCall F → Associations.Change Bytes Bytes
  | sync (.saveNewDocument doc) => .addItem doc.id
  | sync (.deleteDocument d) =>
      if Holds store (documentBody d) then .removeItems (· = d) else .keep
  | sync (.createNewCentroid c) => .addGroup c
  | sync (.deleteCentroid c) => if Holds store (centroidBody c) then .removeGroup c else .keep
  | sync (.addDocumentToCentroid c d) =>
      if Holds store (centroidBody c) ∧ Holds store (documentBody d) ∧
        ¬ Holds store (member c d) then .link c d
      else .keep
  | sync (.removeDocumentFromCentroid c d) =>
      if Holds store (centroidBody c) ∧ Holds store (documentBody d) then .unlink c d else .keep
  | saveDocument doc => .addItem doc.id
  | deleteOldUnusedDocuments startTime minAge limit =>
      .removeItems (· ∈ collected toInt64 startTime minAge limit store)
  | saveCentroid id _ => .addGroup id
  | debugEraseAllData => .clear
  | _ => .keep

variable (toInt64 : Bytes → Option Int64) {store : Store}

theorem records_add_stored {d : Bytes} (stored : Holds store (documentBody d)) :
    (records store).apply (.addItem d) = records store := by
  ext i g
  · exact or_iff_right_of_imp fun same => same ▸ stored
  · rfl
  · rfl
  · rfl

theorem records_add_existing {c : Bytes} (existing : Holds store (centroidBody c)) :
    (records store).apply (.addGroup c) = records store := by
  ext i g
  · rfl
  · exact or_iff_right_of_imp fun same => same ▸ existing
  · rfl
  · rfl

theorem of_change_or_keep {Q : Associations.Change Bytes Bytes → Prop} {made : Prop}
    [Decidable made]
    {change : Associations.Change Bytes Bytes} (unchanged : Q .keep) (changed : made → Q change) :
    Q (if made then change else .keep) := by
  split
  · rename_i isMade
    exact changed isMade
  · exact unchanged

theorem valid_change (call : PublicCall F) : (records store).Valid (call.change toInt64 store) := by
  cases call with
  | sync call =>
      cases call with
      | deleteDocument d => exact of_change_or_keep trivial fun _ => trivial
      | deleteCentroid c => exact of_change_or_keep trivial fun _ => trivial
      | addDocumentToCentroid c d => exact of_change_or_keep trivial fun both => ⟨both.1, both.2.1⟩
      | removeDocumentFromCentroid c d => exact of_change_or_keep trivial fun _ => trivial
      | _ => trivial
  | _ => trivial

theorem brings_colon_free {call : PublicCall F} (free : call.ColonFree) :
    Associations.Brings (colon ∉ ·) (colon ∉ ·) (call.change toInt64 store) := by
  cases call with
  | sync call =>
      cases call with
      | saveNewDocument doc => exact free doc.id List.mem_cons_self
      | createNewCentroid c => exact free c List.mem_cons_self
      | deleteDocument d => exact of_change_or_keep trivial fun _ => trivial
      | deleteCentroid c => exact of_change_or_keep trivial fun _ => trivial
      | addDocumentToCentroid c d => exact of_change_or_keep trivial fun _ => trivial
      | removeDocumentFromCentroid c d => exact of_change_or_keep trivial fun _ => trivial
      | _ => trivial
  | saveDocument doc => exact free doc.id List.mem_cons_self
  | saveCentroid id centroid => exact free id List.mem_cons_self
  | _ => trivial

theorem store_of_reads {α : Type} {program : RockProgram α} (reads : program.Calls RockCall.Reads)
    (store : Store) : (program.run rockHandle store).2 = store := by
  refine @Program.Calls.run_preserves _ _ _ _ rockHandle (· = store) program reads ?_ store rfl
  rintro call now isRead rfl
  exact handler_of_reads isRead now

theorem reads_load_centroid_unique_option (serialization : Serialization F) (id : Bytes) :
    (loadCentroidUniqueOption serialization id).Calls RockCall.Reads := by
  apply Program.calls_bind (reads_get _)
  intro stored
  split
  · exact Program.calls_pure _
  · split
    · exact Program.calls_pure _
    · exact Program.calls_pure _

variable [Zero F] [One F] (serialization : Serialization F)

theorem records_after_sync_call (call : SyncCall F) (free : call.ColonFree) :
    records (syncPersistence serialization call store).2 =
      (records store).apply ((PublicCall.sync call).change toInt64 store) := by
  have unchanged (reads : Writes call = false) :
      records (syncPersistence serialization call store).2 = records store := by
    rw [store_after_read serialization call reads store]
  cases call with
  | saveNewDocument doc =>
      change records ((saveNewDocument serialization doc).run rockHandle store).2 = _
      rw [run_save_new_document]
      split
      · rename_i stored
        exact (records_add_stored stored).symm
      · exact records_saved_document serialization (free _ (by simp [SyncCall.ids]))
  | deleteDocument d =>
      change records ((deleteDocument d).run rockHandle store).2 = _
      rw [run_delete_document, PublicCall.change]
      by_cases stored : Holds store (documentBody d)
      · rw [if_pos stored, if_pos (show getDocumentKey d ∈ store from stored)]
        exact records_deleted_document (free _ (by simp [SyncCall.ids]))
      · rw [if_neg stored, if_neg (show getDocumentKey d ∉ store from stored)]
        rfl
  | createNewCentroid c =>
      change records ((createNewCentroid serialization c).run rockHandle store).2 = _
      rw [run_create_new_centroid]
      split
      · rename_i existing
        exact (records_add_existing existing).symm
      · exact records_created_centroid c _
  | deleteCentroid c =>
      change records ((deleteCentroid c).run rockHandle store).2 = _
      rw [run_delete_centroid, PublicCall.change]
      by_cases existing : Holds store (centroidBody c)
      · rw [if_pos existing, if_pos (show getCentroidKey c ∈ store from existing)]
        exact records_deleted_centroid (free _ (by simp [SyncCall.ids]))
      · rw [if_neg existing, if_neg (show getCentroidKey c ∉ store from existing)]
        rfl
  | addDocumentToCentroid c d =>
      change records ((addDocumentToCentroid c d).run rockHandle store).2 = _
      rw [run_add_document_to_centroid, PublicCall.change]
      split
      · rename_i existing
        split
        · rename_i stored
          split
          · rename_i listed
            rw [if_neg fun both => both.2.2 listed]
            rfl
          · rename_i unlisted
            rw [if_pos ⟨existing, stored, unlisted⟩]
            exact records_linked (free _ (by simp [SyncCall.ids])) (free _ (by simp [SyncCall.ids]))
        · rename_i absent
          rw [if_neg fun both => absent both.2.1]
          rfl
      · rename_i missing
        rw [if_neg fun both => missing both.1]
        rfl
  | removeDocumentFromCentroid c d =>
      change records ((removeDocumentFromCentroid c d).run rockHandle store).2 = _
      rw [PublicCall.change]
      by_cases both : Holds store (centroidBody c) ∧ Holds store (documentBody d)
      · rw [if_pos both]
        exact records_after_remove (free _ (by simp [SyncCall.ids]))
          (free _ (by simp [SyncCall.ids])) both.1 both.2
      · rw [if_neg both, run_remove_of_missing both]
        rfl
  | _ => exact unchanged rfl

/-- The store's records follow the abstract change of each call. -/
theorem records_after_call (call : PublicCall F) (free : call.ColonFree)
    (documentsFree : FreeDocuments store) :
    records (call.storeAfter serialization toInt64 store) =
      (records store).apply (call.change toInt64 store) := by
  cases call with
  | sync call => exact records_after_sync_call toInt64 serialization call free
  | saveDocument doc => exact records_saved_document serialization (free doc.id List.mem_cons_self)
  | loadDocument docId =>
      exact congrArg records (store_of_reads (reads_load_document serialization docId) store)
  | listUnusedDocuments limit =>
      change records ((listUnusedDocuments limit).run rockHandle store).2 = _
      rw [run_list_unused_documents]
      rfl
  | deleteOldUnusedDocuments startTime minAge limit =>
      change records ((deleteOldUnusedDocuments toInt64 startTime minAge limit).run rockHandle
        store).2 = _
      rw [run_delete_old_unused_documents toInt64 startTime minAge limit documentsFree]
      apply records_deleted_documents
      intro id member
      have listed := (collect_sublist _ _ _ _).subset member
      exact documentsFree id ((mem_document_ids_iff store id).mp listed)
  | saveCentroid id centroid => exact records_created_centroid id _
  | loadCentroid id =>
      exact congrArg records (store_of_reads (reads_load_centroid serialization id) store)
  | loadCentroidUniqueOption id =>
      exact congrArg records
        (store_of_reads (reads_load_centroid_unique_option serialization id) store)
  | getCentroidMetadata centroidId metadataName => rfl
  | setCentroidMetadata centroidId metadataName value =>
      exact records_set_centroid_metadata metadataName value (free centroidId List.mem_cons_self)
  | debugEraseAllData => exact records_empty

/-- What holds of the records after every call with ids without colons. -/
structure RecordsKept (store : Store) : Prop where
  anchored : (records store).Anchored
  free : (records store).Within (colon ∉ ·) (colon ∉ ·)

theorem records_kept_empty : RecordsKept ∅ := by
  constructor
  · rw [records_empty]
    exact Associations.anchored_empty
  · rw [records_empty]
    exact Associations.within_empty

theorem RecordsKept.after (kept : RecordsKept store) {call : PublicCall F} (free : call.ColonFree) :
    RecordsKept (call.storeAfter serialization toInt64 store) := by
  have followed := records_after_call toInt64 serialization call free kept.free.item
  constructor
  · rw [followed]
    exact kept.anchored.apply (valid_change toInt64 call)
  · rw [followed]
    exact kept.free.apply (brings_colon_free toInt64 free)

end Changes

end Relevanced.Persistence

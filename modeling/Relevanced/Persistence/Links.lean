import Relevanced.Foundation.Machine
import Relevanced.Persistence.Refinement

/-!
# The two directions of a membership

A membership is stored under the centroid and again under the document, and each
delete operation cleans one direction only. The two directions agree between
existing centroids and documents until one side of a remaining record is created
anew, and from then on they disagree.
-/

namespace Relevanced.Persistence

open Foundation
open Models
open SyncPersistence
open LogicalRecord

set_option autoImplicit false

/-- For every existing centroid and document both membership records are there or neither. -/
def Symmetric (store : Store) : Prop :=
  ∀ c d, colon ∉ c → colon ∉ d → Holds store (centroidBody c) → Holds store (documentBody d) →
    (Holds store (member c d) ↔ Holds store (backLink d c))

/-- Each membership record outlives the side it is stored under no longer than a delete. -/
structure Anchored (store : Store) : Prop where
  members : ∀ c d, colon ∉ c → Holds store (member c d) → Holds store (centroidBody c)
  backLinks : ∀ d c, colon ∉ d → Holds store (backLink d c) → Holds store (documentBody d)

/-- The call does not create anew one side of a record that the other side still has. -/
def CreatesUnlinked {F : Type} (store : Store) : SyncCall F → Prop
  | .saveNewDocument doc =>
      ¬ Holds store (documentBody doc.id) →
        ∀ c, colon ∉ c → Holds store (centroidBody c) → ¬ Holds store (member c doc.id)
  | .createNewCentroid c =>
      ¬ Holds store (centroidBody c) →
        ∀ d, colon ∉ d → Holds store (documentBody d) → ¬ Holds store (backLink d c)
  | _ => True

theorem anchored_empty : Anchored ∅ := by
  constructor
  · intro c d _ held
    simp [Holds] at held
  · intro d c _ held
    simp [Holds] at held

theorem symmetric_empty : Symmetric ∅ := by
  intro c d _ _ held
  simp [Holds] at held

section Steps

variable {store : Store}

section SaveDocument

variable {F : Type} {serialization : Serialization F} {doc : ProcessedDocument F}

theorem anchored_saved_document (anchored : Anchored store) (free : colon ∉ doc.id) :
    Anchored (savedDocument store serialization doc) := by
  have docOwned := unambiguous_of_colon_free free
  constructor
  · intro c d centroidFree
    rw [holds_saved_document_iff (owned_member centroidFree d) docOwned,
      holds_saved_document_iff (owned_centroid c) docOwned]
    simpa using anchored.members c d centroidFree
  · intro d c otherFree
    rw [holds_saved_document_iff (owned_back_link otherFree c) docOwned,
      holds_saved_document_iff (owned_document d) docOwned]
    intro held
    simp only [reduceCtorEq, false_or] at held
    exact Or.inr (Or.inr (anchored.backLinks d c otherFree held))

theorem symmetric_saved_document_iff (serialization : Serialization F) (anchored : Anchored store)
    (symmetric : Symmetric store)
    (free : colon ∉ doc.id) (absent : ¬ Holds store (documentBody doc.id)) :
    Symmetric (savedDocument store serialization doc) ↔
      ∀ c, colon ∉ c → Holds store (centroidBody c) → ¬ Holds store (member c doc.id) := by
  have docOwned := unambiguous_of_colon_free free
  have noBackLink (c : Bytes) : ¬ Holds store (backLink doc.id c) :=
    fun held => absent (anchored.backLinks doc.id c free held)
  have members (c d : Bytes) (centroidFree : colon ∉ c) :
      Holds (savedDocument store serialization doc) (member c d) ↔ Holds store (member c d) := by
    simpa using holds_saved_document_iff (owned_member centroidFree d) docOwned
  have backLinks (d c : Bytes) (otherFree : colon ∉ d) :
      Holds (savedDocument store serialization doc) (backLink d c) ↔
        Holds store (backLink d c) := by
    simpa using holds_saved_document_iff (owned_back_link otherFree c) docOwned
  have centroids (c : Bytes) :
      Holds (savedDocument store serialization doc) (centroidBody c) ↔
        Holds store (centroidBody c) := by
    simpa using holds_saved_document_iff (owned_centroid c) docOwned
  have documents (d : Bytes) :
      Holds (savedDocument store serialization doc) (documentBody d) ↔
        d = doc.id ∨ Holds store (documentBody d) := by
    simpa using holds_saved_document_iff (owned_document d) docOwned
  constructor
  · intro still c centroidFree existing held
    have paired := still c doc.id centroidFree free ((centroids c).mpr existing)
      ((documents doc.id).mpr (Or.inl rfl))
    rw [members c doc.id centroidFree, backLinks doc.id c free] at paired
    exact noBackLink c (paired.mp held)
  · intro unlisted c d centroidFree otherFree existing stored
    rw [members c d centroidFree, backLinks d c otherFree]
    rw [centroids] at existing
    rcases (documents d).mp stored with rfl | before
    · exact iff_of_false (unlisted c centroidFree existing) (noBackLink c)
    · exact symmetric c d centroidFree otherFree existing before

end SaveDocument

section DeleteDocument

variable {deleted : Bytes}

theorem anchored_deleted_document (anchored : Anchored store) (free : colon ∉ deleted) :
    Anchored (deletedDocument store deleted) := by
  have docOwned := unambiguous_of_colon_free free
  constructor
  · intro c d centroidFree
    rw [holds_deleted_document_iff (owned_member centroidFree d) docOwned,
      holds_deleted_document_iff (owned_centroid c) docOwned]
    simpa [scan] using anchored.members c d centroidFree
  · intro d c otherFree
    rw [holds_deleted_document_iff (owned_back_link otherFree c) docOwned,
      holds_deleted_document_iff (owned_document d) docOwned]
    simp only [scan, ne_eq, Scan.backLinks.injEq, documentBody.injEq, reduceCtorEq,
      not_false_eq_true, true_and]
    rintro ⟨other, held⟩
    exact ⟨other, anchored.backLinks d c otherFree held⟩

theorem symmetric_deleted_document (symmetric : Symmetric store) (free : colon ∉ deleted) :
    Symmetric (deletedDocument store deleted) := by
  have docOwned := unambiguous_of_colon_free free
  intro c d centroidFree otherFree
  rw [holds_deleted_document_iff (owned_centroid c) docOwned,
    holds_deleted_document_iff (owned_document d) docOwned,
    holds_deleted_document_iff (owned_member centroidFree d) docOwned,
    holds_deleted_document_iff (owned_back_link otherFree c) docOwned]
  simp only [scan, ne_eq, Scan.backLinks.injEq, documentBody.injEq, reduceCtorEq,
    not_false_eq_true, true_and]
  rintro existing ⟨other, stored⟩
  rw [symmetric c d centroidFree otherFree existing stored]
  simp [other]

end DeleteDocument

section CreateCentroid

variable {created : Bytes}

theorem anchored_created_centroid (value : Bytes) (anchored : Anchored store) :
    Anchored (store.insert (getCentroidKey created) value) := by
  constructor
  · intro c d centroidFree
    rw [holds_created_centroid_iff (owned_member centroidFree d),
      holds_created_centroid_iff (owned_centroid c)]
    intro held
    simp only [reduceCtorEq, false_or] at held
    exact Or.inr (anchored.members c d centroidFree held)
  · intro d c otherFree
    rw [holds_created_centroid_iff (owned_back_link otherFree c),
      holds_created_centroid_iff (owned_document d)]
    simpa using anchored.backLinks d c otherFree

theorem symmetric_created_centroid_iff (value : Bytes) (anchored : Anchored store)
    (symmetric : Symmetric store) (free : colon ∉ created)
    (absent : ¬ Holds store (centroidBody created)) :
    Symmetric (store.insert (getCentroidKey created) value) ↔
      ∀ d, colon ∉ d → Holds store (documentBody d) → ¬ Holds store (backLink d created) := by
  have noMember (d : Bytes) : ¬ Holds store (member created d) :=
    fun held => absent (anchored.members created d free held)
  have members (c d : Bytes) (centroidFree : colon ∉ c) :
      Holds (store.insert (getCentroidKey created) value) (member c d) ↔
        Holds store (member c d) := by
    simpa using holds_created_centroid_iff (owned_member centroidFree d)
  have backLinks (d c : Bytes) (otherFree : colon ∉ d) :
      Holds (store.insert (getCentroidKey created) value) (backLink d c) ↔
        Holds store (backLink d c) := by
    simpa using holds_created_centroid_iff (owned_back_link otherFree c)
  have centroids (c : Bytes) :
      Holds (store.insert (getCentroidKey created) value) (centroidBody c) ↔
        c = created ∨ Holds store (centroidBody c) := by
    simpa using holds_created_centroid_iff (owned_centroid c)
  have documents (d : Bytes) :
      Holds (store.insert (getCentroidKey created) value) (documentBody d) ↔
        Holds store (documentBody d) := by
    simpa using holds_created_centroid_iff (owned_document d)
  constructor
  · intro still d otherFree stored held
    have paired := still created d free otherFree ((centroids created).mpr (Or.inl rfl))
      ((documents d).mpr stored)
    rw [members created d free, backLinks d created otherFree] at paired
    exact noMember d (paired.mpr held)
  · intro unlinked c d centroidFree otherFree existing stored
    rw [members c d centroidFree, backLinks d c otherFree]
    rw [documents] at stored
    rcases (centroids c).mp existing with rfl | before
    · exact iff_of_false (noMember d) (unlinked d otherFree stored)
    · exact symmetric c d centroidFree otherFree before stored

end CreateCentroid

section DeleteCentroid

variable {deleted : Bytes}

theorem anchored_deleted_centroid (anchored : Anchored store) (free : colon ∉ deleted) :
    Anchored (deletedCentroid store deleted) := by
  have centroidOwned := unambiguous_of_colon_free free
  constructor
  · intro c d otherFree
    rw [holds_deleted_centroid_iff (owned_member otherFree d) centroidOwned,
      holds_deleted_centroid_iff (owned_centroid c) centroidOwned]
    simp only [scan, ne_eq, Scan.members.injEq, centroidBody.injEq, reduceCtorEq,
      not_false_eq_true, true_and]
    rintro ⟨other, held⟩
    exact ⟨other, anchored.members c d otherFree held⟩
  · intro d c otherFree
    rw [holds_deleted_centroid_iff (owned_back_link otherFree c) centroidOwned,
      holds_deleted_centroid_iff (owned_document d) centroidOwned]
    simpa [scan] using anchored.backLinks d c otherFree

theorem symmetric_deleted_centroid (symmetric : Symmetric store) (free : colon ∉ deleted) :
    Symmetric (deletedCentroid store deleted) := by
  have centroidOwned := unambiguous_of_colon_free free
  intro c d centroidFree otherFree
  rw [holds_deleted_centroid_iff (owned_centroid c) centroidOwned,
    holds_deleted_centroid_iff (owned_document d) centroidOwned,
    holds_deleted_centroid_iff (owned_member centroidFree d) centroidOwned,
    holds_deleted_centroid_iff (owned_back_link otherFree c) centroidOwned]
  simp only [scan, ne_eq, Scan.members.injEq, centroidBody.injEq, reduceCtorEq,
    not_false_eq_true, true_and]
  rintro ⟨other, existing⟩ stored
  rw [← symmetric c d centroidFree otherFree existing stored]
  simp [other]

end DeleteCentroid

section AddDocument

variable {centroid document : Bytes}

theorem anchored_linked (anchored : Anchored store) (free : colon ∉ centroid)
    (docFree : colon ∉ document) (existing : Holds store (centroidBody centroid))
    (stored : Holds store (documentBody document)) :
    Anchored (linked store centroid document) := by
  have centroidOwned := unambiguous_of_colon_free free
  have docOwned := unambiguous_of_colon_free docFree
  constructor
  · intro c d otherFree
    rw [holds_linked_iff (owned_member otherFree d) centroidOwned docOwned,
      holds_linked_iff (owned_centroid c) centroidOwned docOwned]
    simp only [reduceCtorEq, member.injEq, false_or]
    rintro (⟨rfl, _⟩ | held)
    · exact existing
    · exact anchored.members c d otherFree held
  · intro d c otherFree
    rw [holds_linked_iff (owned_back_link otherFree c) centroidOwned docOwned,
      holds_linked_iff (owned_document d) centroidOwned docOwned]
    simp only [reduceCtorEq, backLink.injEq, false_or]
    rintro (⟨rfl, _⟩ | held)
    · exact stored
    · exact anchored.backLinks d c otherFree held

theorem symmetric_linked (symmetric : Symmetric store) (free : colon ∉ centroid)
    (docFree : colon ∉ document) : Symmetric (linked store centroid document) := by
  have centroidOwned := unambiguous_of_colon_free free
  have docOwned := unambiguous_of_colon_free docFree
  intro c d centroidFree otherFree
  rw [holds_linked_iff (owned_centroid c) centroidOwned docOwned,
    holds_linked_iff (owned_document d) centroidOwned docOwned,
    holds_linked_iff (owned_member centroidFree d) centroidOwned docOwned,
    holds_linked_iff (owned_back_link otherFree c) centroidOwned docOwned]
  simp only [reduceCtorEq, member.injEq, backLink.injEq, false_or]
  intro existing stored
  rw [symmetric c d centroidFree otherFree existing stored, and_comm]

end AddDocument

section RemoveDocument

variable {centroid document : Bytes}

/-- Whether or not the member record was there, both records are gone afterwards. -/
theorem holds_after_remove_iff (free : colon ∉ centroid) (docFree : colon ∉ document)
    (existing : Holds store (centroidBody centroid)) (stored : Holds store (documentBody document))
    {record : LogicalRecord} (owned : record.Owned) :
    Holds ((removeDocumentFromCentroid centroid document).run rockHandle store).2 record ↔
      record ≠ member centroid document ∧ record ≠ backLink document centroid ∧
        Holds store record := by
  have centroidOwned := unambiguous_of_colon_free free
  have docOwned := unambiguous_of_colon_free docFree
  have existingKey : getCentroidKey centroid ∈ store := existing
  have storedKey : getDocumentKey document ∈ store := stored
  rw [run_remove_document_from_centroid, if_pos existingKey, if_pos storedKey]
  split
  · exact holds_removed_iff owned centroidOwned docOwned
  · rename_i absent
    rw [holds_unlinked_iff owned docOwned]
    constructor
    · rintro ⟨other, held⟩
      refine ⟨?_, other, held⟩
      rintro rfl
      exact absent ((holds_unlinked_iff owned docOwned).mpr ⟨other, held⟩)
    · rintro ⟨_, other, held⟩
      exact ⟨other, held⟩

theorem run_remove_of_missing (missing : ¬ (Holds store (centroidBody centroid) ∧
      Holds store (documentBody document))) :
    ((removeDocumentFromCentroid centroid document).run rockHandle store).2 = store := by
  rw [run_remove_document_from_centroid]
  split
  · rename_i existing
    have absent : getDocumentKey document ∉ store := fun stored => missing ⟨existing, stored⟩
    rw [if_neg absent]
  · rfl

theorem anchored_after_remove (anchored : Anchored store) (free : colon ∉ centroid)
    (docFree : colon ∉ document) (existing : Holds store (centroidBody centroid))
    (stored : Holds store (documentBody document)) :
    Anchored ((removeDocumentFromCentroid centroid document).run rockHandle store).2 := by
  have after := @holds_after_remove_iff store centroid document free docFree existing stored
  constructor
  · intro c d otherFree
    rw [after (owned_member otherFree d), after (owned_centroid c)]
    rintro ⟨_, _, held⟩
    simpa using anchored.members c d otherFree held
  · intro d c otherFree
    rw [after (owned_back_link otherFree c), after (owned_document d)]
    rintro ⟨_, _, held⟩
    simpa using anchored.backLinks d c otherFree held

theorem symmetric_after_remove (symmetric : Symmetric store) (free : colon ∉ centroid)
    (docFree : colon ∉ document) (existing : Holds store (centroidBody centroid))
    (stored : Holds store (documentBody document)) :
    Symmetric ((removeDocumentFromCentroid centroid document).run rockHandle store).2 := by
  have after := @holds_after_remove_iff store centroid document free docFree existing stored
  intro c d centroidFree otherFree
  rw [after (owned_centroid c), after (owned_document d), after (owned_member centroidFree d),
    after (owned_back_link otherFree c)]
  simp only [ne_eq, member.injEq, backLink.injEq, reduceCtorEq, not_false_eq_true, true_and]
  intro existingOther storedOther
  rw [symmetric c d centroidFree otherFree existingOther storedOther, and_comm (a := d = document)]

end RemoveDocument

end Steps

section Calls

variable {F : Type}

def Writes : SyncCall F → Bool
  | .saveNewDocument _ => true
  | .deleteDocument _ => true
  | .createNewCentroid _ => true
  | .deleteCentroid _ => true
  | .addDocumentToCentroid _ _ => true
  | .removeDocumentFromCentroid _ _ => true
  | _ => false

variable [Zero F] [One F] (serialization : Serialization F)

theorem run_list_ids_from_member_store (label start : Bytes) (limit : Nat) (store : Store) :
    ((listIdsFromMember label start limit).run rockHandle store).2 = store := by
  rw [listIdsFromMember, Program.run_bind, run_iter_prefix_from_member]
  rfl

theorem run_unless_missing_store (centroidId : Bytes) {listing : RockProgram (List Bytes)}
    {store : Store} (unchanged : (listing.run rockHandle store).2 = store) :
    ((unlessMissing centroidId listing).run rockHandle store).2 = store ∧
      ((unlessMissingOption centroidId listing).run rockHandle store).2 = store := by
  have listed : listing.run rockHandle store = ((listing.run rockHandle store).1, store) :=
    Prod.ext rfl unchanged
  rw [run_unless_missing store listed, run_unless_missing_option store listed]
  exact ⟨rfl, rfl⟩

theorem store_after_read (call : SyncCall F) (reads : Writes call = false) (store : Store) :
    (syncPersistence serialization call store).2 = store := by
  have fromOffset (label : Bytes) (offset limit : Nat) :
      ((listIdsFromOffset label offset limit).run rockHandle store).2 = store := by
    rw [run_list_ids_from_offset]
  have whole (label : Bytes) : ((listIds label).run rockHandle store).2 = store := by
    rw [run_list_ids]
  have fromMember (label start : Bytes) (limit : Nat) :=
    run_list_ids_from_member_store label start limit store
  cases call with
  | saveNewDocument _ => cases reads
  | deleteDocument _ => cases reads
  | createNewCentroid _ => cases reads
  | deleteCentroid _ => cases reads
  | addDocumentToCentroid _ _ => cases reads
  | removeDocumentFromCentroid _ _ => cases reads
  | doesDocumentExist _ => rfl
  | doesCentroidExist _ => rfl
  | doesCentroidHaveDocument c d =>
      exact congrArg Prod.snd (run_does_centroid_have_document store c d)
  | listAllDocuments => exact whole _
  | listAllCentroids => exact whole _
  | listDocumentRangeFromId start _ => exact fromMember _ start _
  | listDocumentRangeFromOffset _ _ => exact fromOffset _ _ _
  | listCentroidRangeFromOffset _ _ => exact fromOffset _ _ _
  | listCentroidRangeFromId start _ => exact fromMember _ start _
  | listAllDocumentsForCentroid c => exact (run_unless_missing_store c (whole _)).1
  | listAllDocumentsForCentroidOption c => exact (run_unless_missing_store c (whole _)).2
  | listCentroidDocumentRangeFromOffset c _ _ =>
      exact (run_unless_missing_store c (fromOffset _ _ _)).1
  | listCentroidDocumentRangeFromOffsetOption c _ _ =>
      exact (run_unless_missing_store c (fromOffset _ _ _)).2
  | listCentroidDocumentRangeFromDocumentId c d _ =>
      exact (run_unless_missing_store c (fromMember _ d _)).1
  | listCentroidDocumentRangeFromDocumentIdOption c d _ =>
      exact (run_unless_missing_store c (fromMember _ d _)).2

variable {store : Store}

theorem anchored_after_call (call : SyncCall F) (free : call.ColonFree)
    (anchored : Anchored store) : Anchored (syncPersistence serialization call store).2 := by
  have unchanged (reads : Writes call = false) :
      Anchored (syncPersistence serialization call store).2 := by
    rw [store_after_read serialization call reads store]
    exact anchored
  cases call with
  | saveNewDocument doc =>
      change Anchored ((saveNewDocument serialization doc).run rockHandle store).2
      rw [run_save_new_document]
      split
      · exact anchored
      · exact anchored_saved_document anchored (free _ (by simp [SyncCall.ids]))
  | deleteDocument d =>
      change Anchored ((deleteDocument d).run rockHandle store).2
      rw [run_delete_document]
      split
      · exact anchored_deleted_document anchored (free _ (by simp [SyncCall.ids]))
      · exact anchored
  | createNewCentroid c =>
      change Anchored ((createNewCentroid serialization c).run rockHandle store).2
      rw [run_create_new_centroid]
      split
      · exact anchored
      · exact anchored_created_centroid _ anchored
  | deleteCentroid c =>
      change Anchored ((deleteCentroid c).run rockHandle store).2
      rw [run_delete_centroid]
      split
      · exact anchored_deleted_centroid anchored (free _ (by simp [SyncCall.ids]))
      · exact anchored
  | addDocumentToCentroid c d =>
      change Anchored ((addDocumentToCentroid c d).run rockHandle store).2
      rw [run_add_document_to_centroid]
      split
      · rename_i existing
        split
        · rename_i stored
          split
          · exact anchored
          · exact anchored_linked anchored (free _ (by simp [SyncCall.ids]))
              (free _ (by simp [SyncCall.ids])) existing stored
        · exact anchored
      · exact anchored
  | removeDocumentFromCentroid c d =>
      change Anchored ((removeDocumentFromCentroid c d).run rockHandle store).2
      by_cases both : Holds store (centroidBody c) ∧ Holds store (documentBody d)
      · exact anchored_after_remove anchored (free _ (by simp [SyncCall.ids]))
          (free _ (by simp [SyncCall.ids])) both.1 both.2
      · rw [run_remove_of_missing both]
        exact anchored
  | _ => exact unchanged rfl

theorem symmetric_after_call_iff (call : SyncCall F) (free : call.ColonFree)
    (anchored : Anchored store) (symmetric : Symmetric store) :
    Symmetric (syncPersistence serialization call store).2 ↔ CreatesUnlinked store call := by
  have unchanged (reads : Writes call = false) :
      Symmetric (syncPersistence serialization call store).2 := by
    rw [store_after_read serialization call reads store]
    exact symmetric
  cases call with
  | saveNewDocument doc =>
      change Symmetric ((saveNewDocument serialization doc).run rockHandle store).2 ↔ _
      rw [run_save_new_document]
      split
      · rename_i stored
        exact iff_of_true symmetric fun absent => absurd stored absent
      · rename_i absent
        have relinked := symmetric_saved_document_iff serialization anchored symmetric
          (free _ (by simp [SyncCall.ids])) absent
        exact relinked.trans ⟨fun unlisted _ => unlisted, fun guarded => guarded absent⟩
  | deleteDocument d =>
      change Symmetric ((deleteDocument d).run rockHandle store).2 ↔ _
      apply iff_of_true _ trivial
      rw [run_delete_document]
      split
      · exact symmetric_deleted_document symmetric (free _ (by simp [SyncCall.ids]))
      · exact symmetric
  | createNewCentroid c =>
      change Symmetric ((createNewCentroid serialization c).run rockHandle store).2 ↔ _
      rw [run_create_new_centroid]
      split
      · rename_i existing
        exact iff_of_true symmetric fun absent => absurd existing absent
      · rename_i absent
        have relinked := symmetric_created_centroid_iff
          (serialization.binarySerializeCentroid (Centroid.new c)) anchored symmetric
          (free _ (by simp [SyncCall.ids])) absent
        exact relinked.trans ⟨fun unlinked _ => unlinked, fun guarded => guarded absent⟩
  | deleteCentroid c =>
      change Symmetric ((deleteCentroid c).run rockHandle store).2 ↔ _
      apply iff_of_true _ trivial
      rw [run_delete_centroid]
      split
      · exact symmetric_deleted_centroid symmetric (free _ (by simp [SyncCall.ids]))
      · exact symmetric
  | addDocumentToCentroid c d =>
      change Symmetric ((addDocumentToCentroid c d).run rockHandle store).2 ↔ _
      apply iff_of_true _ trivial
      rw [run_add_document_to_centroid]
      split
      · split
        · split
          · exact symmetric
          · exact symmetric_linked symmetric (free _ (by simp [SyncCall.ids]))
              (free _ (by simp [SyncCall.ids]))
        · exact symmetric
      · exact symmetric
  | removeDocumentFromCentroid c d =>
      change Symmetric ((removeDocumentFromCentroid c d).run rockHandle store).2 ↔ _
      apply iff_of_true _ trivial
      by_cases both : Holds store (centroidBody c) ∧ Holds store (documentBody d)
      · exact symmetric_after_remove symmetric (free _ (by simp [SyncCall.ids]))
          (free _ (by simp [SyncCall.ids])) both.1 both.2
      · rw [run_remove_of_missing both]
        exact symmetric
  | _ => exact iff_of_true (unchanged rfl) trivial

/-- Complete, non-overlapping calls on the store. -/
def syncMachine : Machine Store (SyncCall F) where
  step store call := some (syncPersistence serialization call store).2

/-- A sequence of complete calls keeps the two directions together in every state exactly
when none of its calls creates anew one side of a remaining record. -/
theorem links_symmetric_iff_nothing_relinked (calls : List (SyncCall F))
    (free : ∀ call ∈ calls, call.ColonFree) :
    (syncMachine serialization).Along Symmetric calls ∅ ↔
      (syncMachine serialization).Guarded CreatesUnlinked calls ∅ := by
  have preserved : ∀ (store : Store) (call : SyncCall F) (next : Store), Anchored store →
      call.ColonFree → (syncMachine serialization).step store call = some next →
      Anchored next := by
    intro store call next anchored callFree stepped
    cases stepped
    exact anchored_after_call serialization call callFree anchored
  have exactly : ∀ (store : Store) (call : SyncCall F), Anchored store → call.ColonFree →
      Symmetric store →
      ((∀ next, (syncMachine serialization).step store call = some next → Symmetric next) ↔
        CreatesUnlinked store call) := by
    intro store call anchored callFree symmetric
    rw [← symmetric_after_call_iff serialization call callFree anchored symmetric]
    simp [syncMachine]
  exact Machine.along_iff_guarded preserved exactly calls free anchored_empty symmetric_empty

end Calls

/-- A document that is deleted and saved again while it is a member. -/
def recreatedMember : List (SyncCall Int) :=
  [.createNewCentroid (ascii "c"), .saveNewDocument (.bare (ascii "d")),
    .addDocumentToCentroid (ascii "c") (ascii "d"), .deleteDocument (ascii "d"),
    .saveNewDocument (.bare (ascii "d"))]

theorem recreated_member_links :
    (syncMachine .idsOnly).Along Symmetric recreatedMember ∅ ↔
      (syncMachine .idsOnly).Guarded CreatesUnlinked recreatedMember ∅ :=
  links_symmetric_iff_nothing_relinked .idsOnly recreatedMember (by decide)

theorem recreated_member_is_half_linked :
    (∀ call ∈ recreatedMember, call.ColonFree) ∧
      ¬ (syncMachine .idsOnly).Along Symmetric recreatedMember ∅ := by
  refine ⟨by decide, ?_⟩
  intro along
  have symmetric := (((((along.2 _ rfl).2 _ rfl).2 _ rfl).2 _ rfl).2 _ rfl : Symmetric _)
  have paired := symmetric (ascii "c") (ascii "d") (by decide) (by decide)
    (by decide +kernel) (by decide +kernel)
  exact absurd (paired.mp (by decide +kernel)) (by decide +kernel)

end Relevanced.Persistence

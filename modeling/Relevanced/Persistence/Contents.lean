import Relevanced.Persistence.Archive
import Relevanced.Persistence.GarbageCollection
import Relevanced.Persistence.Refinement
import Relevanced.Serialization.CentroidSerialization

/-!
# SyncPersistence refines the archive

An archive says what the value of every record is. A store whose records with owners without
a colon have these values answers every public call as the archive does, and has the values
of the archive that results.
-/

namespace Relevanced.Persistence

open Foundation
open Models
open SyncPersistence
open LogicalRecord
open Serialization

set_option autoImplicit false

section Values

variable {store : Store} {record other : LogicalRecord}

def valueOf (store : Store) (record : LogicalRecord) : Option Bytes := store[record.storeKey]?

theorem holds_iff_value : Holds store record ↔ (valueOf store record).isSome :=
  Std.ExtTreeMap.mem_iff_isSome_getElem?

theorem value_of_insert (owned : record.Owned) (otherOwned : other.Owned) (value : Bytes) :
    valueOf (store.insert other.storeKey value) record =
      if record = other then some value else valueOf store record := by
  by_cases same : record = other
  · rw [if_pos same, same]
    exact Std.ExtTreeMap.getElem?_insert_self
  · rw [if_neg same]
    exact OrderedMap.getElem?_insert_of_ne (mt (store_key_eq_iff owned otherOwned).mp same)

theorem value_of_erase (owned : record.Owned) (otherOwned : other.Owned) :
    valueOf (store.erase other.storeKey) record =
      if record = other then none else valueOf store record := by
  by_cases same : record = other
  · rw [if_pos same, same]
    exact Std.ExtTreeMap.getElem?_erase_self
  · rw [if_neg same]
    exact OrderedMap.getElem?_erase_of_ne (mt (store_key_eq_iff owned otherOwned).mp same)

theorem value_of_erase_under (scan : Scan) (owned : record.Owned)
    (scanned : Unambiguous scan.owner) :
    valueOf (eraseUnder store scan.label) record =
      if record.scan = scan then none else valueOf store record := by
  rw [valueOf, getElem?_erase_under]
  exact if_congr (store_key_in_range_iff scanned owned) rfl rfl

theorem value_of_saved_document {F : Type} (serialization : Serialization F)
    {doc : ProcessedDocument F} (owned : record.Owned) (free : colon ∉ doc.id) :
    valueOf (savedDocument store serialization doc) record =
      if record = timeOf doc.id then some (ascii (toString doc.created.toInt64.toInt))
      else if record = .documentBody doc.id then some (serialization.binarySerializeDocument doc)
      else valueOf store record := by
  have timeOwned : (timeOf doc.id).Owned := unambiguous_of_colon_free free
  rw [← value_of_insert owned (owned_document doc.id)]
  exact value_of_insert owned timeOwned _

theorem value_of_deleted_document {d : Bytes} (owned : record.Owned) (free : colon ∉ d) :
    valueOf (deletedDocument store d) record =
      if record.scan = .documentMetadata d then none
      else if record.scan = .backLinks d then none
      else if record = .documentBody d then none
      else valueOf store record := by
  have docOwned := unambiguous_of_colon_free free
  rw [← value_of_erase owned (owned_document d),
    ← value_of_erase_under (.backLinks d) owned docOwned]
  exact value_of_erase_under (.documentMetadata d) owned docOwned

theorem value_of_saved_centroid {c value : Bytes} (owned : record.Owned) :
    valueOf (store.insert (getCentroidKey c) value) record =
      if record = .centroidBody c then some value else valueOf store record :=
  value_of_insert owned (owned_centroid c) value

theorem value_of_deleted_centroid {c : Bytes} (owned : record.Owned) (free : colon ∉ c) :
    valueOf (deletedCentroid store c) record =
      if record.scan = .centroidMetadata c then none
      else if record.scan = .members c then none
      else if record = .centroidBody c then none
      else valueOf store record := by
  have centroidOwned := unambiguous_of_colon_free free
  rw [← value_of_erase owned (owned_centroid c),
    ← value_of_erase_under (.members c) owned centroidOwned]
  exact value_of_erase_under (.centroidMetadata c) owned centroidOwned

theorem value_of_linked {c d : Bytes} (owned : record.Owned) (free : colon ∉ c)
    (docFree : colon ∉ d) :
    valueOf (linked store c d) record =
      if record = .backLink d c then some memberValue
      else if record = .member c d then some memberValue
      else valueOf store record := by
  rw [← value_of_insert owned (owned_member free d)]
  exact value_of_insert owned (owned_back_link docFree c) memberValue

theorem value_of_unlinked {c d : Bytes} (owned : record.Owned) (free : colon ∉ c)
    (docFree : colon ∉ d) :
    valueOf ((unlinked store c d).erase (getCentroidDocumentKey c d)) record =
      if record = .member c d then none
      else if record = .backLink d c then none
      else valueOf store record := by
  rw [← value_of_erase owned (owned_back_link docFree c)]
  exact value_of_erase owned (owned_member free d)

theorem value_of_set_metadata {c metadataName value : Bytes} (owned : record.Owned)
    (free : colon ∉ c) :
    valueOf (store.insert (getCentroidMetadataKey c metadataName) value) record =
      if record = .centroidMetadata c metadataName then some value else valueOf store record :=
  value_of_insert owned
    (show (LogicalRecord.centroidMetadata c metadataName).Owned from unambiguous_of_colon_free free)
    value

end Values

section Archived

variable {F : Type} (serialization : Serialization F)

/-- The value that an archive gives to each record. -/
def Archive.value (archive : Archive F) : LogicalRecord → Option Bytes
  | .documentBody d => (archive.document d).map serialization.binarySerializeDocument
  | .centroidBody c => (archive.centroid c).map serialization.binarySerializeCentroid
  | .member c d => if (c, d) ∈ archive.catalogue.mem then some memberValue else none
  | .backLink d c => if c ∈ archive.links d then some memberValue else none
  | .centroidMetadata c metaName => archive.metadata c metaName
  | .documentMetadata d metaName =>
      if metaName = ascii "created_time" then
        (archive.document d).map fun doc => ascii (toString doc.created.toInt64.toInt)
      else none

structure Archived (store : Store) (archive : Archive F) : Prop where
  value : ∀ record : LogicalRecord, colon ∉ record.scan.owner →
    valueOf store record = archive.value serialization record
  free : ∀ d ∈ archive.catalogue.docs, colon ∉ d

variable {serialization} {store : Store} {archive : Archive F}

theorem archived_empty : Archived serialization ∅ .empty := by
  constructor
  · intro record _
    cases record with
    | documentMetadata d metaName =>
        by_cases isTime : metaName = ascii "created_time"
        · simp [valueOf, Archive.value, Archive.empty, isTime]
        · simp [valueOf, Archive.value, isTime]
    | _ => simp [valueOf, Archive.value, Archive.empty, Catalogue.empty]
  · simp [Archive.empty, Catalogue.empty]

theorem Archived.holds (archived : Archived serialization store archive) (record : LogicalRecord)
    (free : colon ∉ record.scan.owner) :
    Holds store record ↔ (archive.value serialization record).isSome := by
  rw [holds_iff_value, archived.value record free]

theorem Archived.represents (archived : Archived serialization store archive) :
    Represents store archive.catalogue := by
  constructor
  · intro d
    rw [archived.holds (.documentBody d) (by simp [scan, Scan.owner]), Archive.value,
      Option.isSome_map, archive.documents]
  · intro c
    rw [archived.holds (.centroidBody c) (by simp [scan, Scan.owner]), Archive.value,
      Option.isSome_map, archive.centroids]
  · intro c d free
    rw [archived.holds (.member c d) free, Archive.value]
    split <;> simp_all

end Archived

section Effects

variable {F : Type} {serialization : Serialization F} {store : Store} {archive : Archive F}

theorem Archived.saved_document (archived : Archived serialization store archive)
    {doc : ProcessedDocument F} (free : colon ∉ doc.id) :
    Archived serialization (savedDocument store serialization doc) (archive.saveDocument doc) := by
  constructor
  · intro record recordFree
    rw [value_of_saved_document serialization (unambiguous_of_colon_free recordFree) free,
      archived.value record recordFree]
    cases record with
    | documentBody d =>
        by_cases same : d = doc.id
        · simp [Archive.value, Archive.saveDocument, timeOf, same]
        · simp [Archive.value, Archive.saveDocument, timeOf, same]
    | documentMetadata d metaName =>
        by_cases isTime : metaName = ascii "created_time"
        · by_cases same : d = doc.id
          · simp [Archive.value, Archive.saveDocument, timeOf, isTime, same]
          · simp [Archive.value, Archive.saveDocument, timeOf, isTime, same]
        · simp [Archive.value, timeOf, isTime]
    | member c d =>
        simp only [timeOf, reduceCtorEq, if_false]
        rfl
    | backLink d c =>
        simp only [timeOf, reduceCtorEq, if_false]
        rfl
    | _ => simp [Archive.value, Archive.saveDocument, timeOf]
  · intro d listed
    rcases Finset.mem_insert.mp listed with rfl | listed
    · exact free
    · exact archived.free d listed

theorem Archived.deleted_document (archived : Archived serialization store archive) {d : Bytes}
    (free : colon ∉ d) :
    Archived serialization (deletedDocument store d) (archive.removeDocument d) := by
  constructor
  · intro record recordFree
    rw [value_of_deleted_document (unambiguous_of_colon_free recordFree) free,
      archived.value record recordFree]
    cases record with
    | documentBody other =>
        by_cases same : other = d
        · simp [Archive.value, Archive.removeDocument, scan, same]
        · simp [Archive.value, Archive.removeDocument, scan, same]
    | backLink other c =>
        by_cases same : other = d
        · simp [Archive.value, Archive.removeDocument, scan, same]
        · simp [Archive.value, Archive.removeDocument, scan, same]
    | documentMetadata other metaName =>
        by_cases same : other = d
        · simp [Archive.value, Archive.removeDocument, scan, same]
        · simp [Archive.value, Archive.removeDocument, scan, same]
    | member c other =>
        simp only [scan, reduceCtorEq, if_false]
        rfl
    | _ => simp [Archive.value, Archive.removeDocument, scan]
  · intro other listed
    exact archived.free other (Finset.mem_of_mem_erase listed)

theorem Archived.deleted_documents (archived : Archived serialization store archive)
    {deleted : List Bytes} (free : ∀ d ∈ deleted, colon ∉ d) :
    Archived serialization (deleted.foldl deletedDocument store)
      (deleted.foldl Archive.removeDocument archive) := by
  induction deleted generalizing store archive with
  | nil => exact archived
  | cons d deleted ih =>
      exact ih (archived.deleted_document (free d List.mem_cons_self))
        fun other member => free other (List.mem_cons_of_mem d member)

theorem Archived.saved_centroid (archived : Archived serialization store archive) (c : Bytes)
    (centroid : Centroid F) :
    Archived serialization
      (store.insert (getCentroidKey c) (serialization.binarySerializeCentroid centroid))
      (archive.saveCentroid c centroid) := by
  constructor
  · intro record recordFree
    rw [value_of_saved_centroid (unambiguous_of_colon_free recordFree),
      archived.value record recordFree]
    cases record with
    | centroidBody other =>
        by_cases same : other = c
        · simp [Archive.value, Archive.saveCentroid, same]
        · simp [Archive.value, Archive.saveCentroid, same]
    | member other d =>
        simp only [reduceCtorEq, if_false]
        rfl
    | backLink d other =>
        simp only [reduceCtorEq, if_false]
        rfl
    | _ => simp [Archive.value, Archive.saveCentroid]
  · exact archived.free

theorem Archived.deleted_centroid (archived : Archived serialization store archive) {c : Bytes}
    (free : colon ∉ c) :
    Archived serialization (deletedCentroid store c) (archive.removeCentroid c) := by
  constructor
  · intro record recordFree
    rw [value_of_deleted_centroid (unambiguous_of_colon_free recordFree) free,
      archived.value record recordFree]
    cases record with
    | centroidBody other =>
        by_cases same : other = c
        · simp [Archive.value, Archive.removeCentroid, scan, same]
        · simp [Archive.value, Archive.removeCentroid, scan, same]
    | member other d =>
        by_cases same : other = c
        · simp [Archive.value, Archive.removeCentroid, Catalogue.removeCentroid, scan, same]
        · simp [Archive.value, Archive.removeCentroid, Catalogue.removeCentroid, scan, same]
    | centroidMetadata other metaName =>
        by_cases same : other = c
        · simp [Archive.value, Archive.removeCentroid, scan, same]
        · simp [Archive.value, Archive.removeCentroid, scan, same]
    | backLink d other =>
        simp only [scan, reduceCtorEq, if_false]
        rfl
    | _ => simp [Archive.value, Archive.removeCentroid, scan]
  · exact archived.free

theorem Archived.linked (archived : Archived serialization store archive) {c d : Bytes}
    (free : colon ∉ c) (docFree : colon ∉ d) (existing : c ∈ archive.catalogue.cents) :
    Archived serialization (SyncPersistence.linked store c d) (archive.link c d existing) := by
  constructor
  · intro record recordFree
    rw [value_of_linked (unambiguous_of_colon_free recordFree) free docFree,
      archived.value record recordFree]
    cases record with
    | member other member =>
        by_cases same : other = c ∧ member = d
        · simp [Archive.value, Archive.link, Catalogue.link, same]
        · simp [Archive.value, Archive.link, Catalogue.link, same]
    | backLink other owner =>
        by_cases same : other = d
        · by_cases sameOwner : owner = c
          · simp [Archive.value, Archive.link, same, sameOwner]
          · simp [Archive.value, Archive.link, same, sameOwner]
        · simp [Archive.value, Archive.link, same]
    | _ => simp [Archive.value, Archive.link]
  · exact archived.free

theorem Archived.unlinked (archived : Archived serialization store archive) {c d : Bytes}
    (free : colon ∉ c) (docFree : colon ∉ d) :
    Archived serialization
      ((SyncPersistence.unlinked store c d).erase (getCentroidDocumentKey c d))
      (archive.unlink c d) := by
  constructor
  · intro record recordFree
    rw [value_of_unlinked (unambiguous_of_colon_free recordFree) free docFree,
      archived.value record recordFree]
    cases record with
    | member other member =>
        by_cases same : other = c ∧ member = d
        · simp [Archive.value, Archive.unlink, Catalogue.unlink, same]
        · simp [Archive.value, Archive.unlink, Catalogue.unlink, same]
    | backLink other owner =>
        by_cases same : other = d
        · by_cases sameOwner : owner = c
          · simp [Archive.value, Archive.unlink, same, sameOwner]
          · simp [Archive.value, Archive.unlink, same, sameOwner]
        · simp [Archive.value, Archive.unlink, same]
    | _ => simp [Archive.value, Archive.unlink]
  · exact archived.free

theorem Archived.set_metadata (archived : Archived serialization store archive) {c : Bytes}
    (free : colon ∉ c) (metadataName value : Bytes) :
    Archived serialization (store.insert (getCentroidMetadataKey c metadataName) value)
      (archive.setMetadata c metadataName value) := by
  constructor
  · intro record recordFree
    rw [value_of_set_metadata (unambiguous_of_colon_free recordFree) free,
      archived.value record recordFree]
    cases record with
    | centroidMetadata other metaName =>
        by_cases same : other = c
        · by_cases sameName : metaName = metadataName
          · simp [Archive.value, Archive.setMetadata, same, sameName]
          · simp [Archive.value, Archive.setMetadata, same, sameName]
        · simp [Archive.value, Archive.setMetadata, same]
    | member other d =>
        simp only [reduceCtorEq, if_false]
        rfl
    | backLink d other =>
        simp only [reduceCtorEq, if_false]
        rfl
    | _ => simp [Archive.value, Archive.setMetadata]
  · exact archived.free

end Effects

section Scans

variable {F : Type} {serialization : Serialization F} {store : Store} {archive : Archive F}

theorem Archived.document_ids (archived : Archived serialization store archive) :
    documentIds store = archive.catalogue.documents := by
  rw [← documents_listed archived.represents, ← documents_entries, idsUnder, keysUnder,
    List.map_map]
  rfl

theorem Archived.free_documents (archived : Archived serialization store archive) :
    FreeDocuments store :=
  fun d stored => archived.free d ((archived.represents.documents d).mp stored)

theorem Archived.listed_free (archived : Archived serialization store archive) {d : Bytes}
    (listed : d ∈ archive.catalogue.documents) : colon ∉ d :=
  archived.free d ((Finset.mem_sort _).mp listed)

theorem Archived.unlinked_iff (archived : Archived serialization store archive) {d : Bytes}
    (free : colon ∉ d) : Unlinked store d ↔ archive.links d = ∅ := by
  rw [SyncPersistence.unlinked_iff, Finset.eq_empty_iff_forall_notMem]
  apply forall_congr'
  intro c
  rw [archived.holds (.backLink d c) free, Archive.value]
  split <;> simp_all

theorem Archived.unused_ids (archived : Archived serialization store archive) :
    unusedIds store = archive.unused := by
  rw [unusedIds, archived.document_ids, Archive.unused]
  apply List.filter_congr
  intro d listed
  exact decide_eq_decide.mpr (archived.unlinked_iff (archived.listed_free listed))

theorem Archived.created_time (archived : Archived serialization store archive)
    {toInt64 : Bytes → Option Int64} (reads : ReadsTimes toInt64) {d : Bytes} (free : colon ∉ d) :
    createdTime toInt64 store d = some (archive.created d) := by
  have stored : store[getDocumentMetadataKey d (ascii "created_time")]? =
      (archive.document d).map fun doc => ascii (toString doc.created.toInt64.toInt) := by
    have value := archived.value (timeOf d) free
    simp only [timeOf, Archive.value, if_true] at value
    exact value
  rw [createdTime, stored, Archive.created]
  cases archive.document d with
  | none => rfl
  | some doc => exact congrArg (Option.map some) (reads doc.created.toInt64)

theorem Archived.verdict (archived : Archived serialization store archive)
    {toInt64 : Bytes → Option Int64} (reads : ReadsTimes toInt64) (cutoff : Int64) {d : Bytes}
    (free : colon ∉ d) :
    SyncPersistence.verdict toInt64 cutoff store d =
      some (decide (archive.links d = ∅ ∧ (archive.created d).all (· < cutoff))) := by
  rw [SyncPersistence.verdict, archived.created_time reads free]
  by_cases unlinked : archive.links d = ∅
  · simp [(archived.unlinked_iff free).mpr unlinked, unlinked]
  · simp [mt (archived.unlinked_iff free).mp unlinked, unlinked]

theorem Archived.run_collection (archived : Archived serialization store archive)
    {toInt64 : Bytes → Option Int64} (reads : ReadsTimes toInt64) (startTime minAge : Int64)
    (limit : Nat) :
    (deleteOldUnusedDocuments toInt64 startTime minAge limit).run rockHandle store =
      (some (if 0 < limit then (archive.outdated (startTime - minAge) limit).length else 0),
        (archive.outdated (startTime - minAge) limit).foldl deletedDocument store) := by
  have counted := collect_of_readable limit archive.catalogue.documents 0
    (fun d listed => archived.verdict reads (startTime - minAge) (archived.listed_free listed)) id
  rw [run_delete_old_unused_documents toInt64 startTime minAge limit archived.free_documents,
    collected, archived.document_ids, counted, Archive.outdated]
  simp

end Scans

section Loads

variable {F : Type} {serialization : Serialization F} {store : Store} {archive : Archive F}

structure ReadsBack (serialization : Serialization F)
    (readDocument : ProcessedDocument F → ProcessedDocument F) : Prop where
  document : ∀ doc, serialization.binaryDeserializeDocument
    (serialization.binarySerializeDocument doc) = some (readDocument doc)
  centroid : ∀ centroid, serialization.binaryDeserializeCentroid
    (serialization.binarySerializeCentroid centroid) = some centroid

theorem thrift_reads_back {documents : ThriftBinary (ProcessedDocumentPersistenceDTO F)}
    {centroids : ThriftBinary (CentroidDTO F)} (documentsDecode : documents.Decodes)
    (centroidsDecode : centroids.Decodes) :
    ReadsBack (thriftSerialization documents centroids) readBack where
  document := deserialize_serialize documentsDecode
  centroid := deserialize_serialize_centroid centroidsDecode

variable {readDocument : ProcessedDocument F → ProcessedDocument F}

theorem Archived.run_load_document (archived : Archived serialization store archive)
    (readsBack : ReadsBack serialization readDocument) (d : Bytes) :
    (loadDocument serialization d).run rockHandle store =
      (some (match archive.document d with
        | none => .error .eDocumentDoesNotExist
        | some doc => .ok (readDocument doc)), store) := by
  have stored : store[getDocumentKey d]? =
      (archive.document d).map serialization.binarySerializeDocument :=
    archived.value (.documentBody d) (by simp [scan, Scan.owner])
  rw [loadDocument, Program.run_bind, run_get, stored]
  cases archive.document d with
  | none => rfl
  | some doc => simp [readsBack.document]

theorem Archived.run_load_centroid (archived : Archived serialization store archive)
    (readsBack : ReadsBack serialization readDocument) (c : Bytes) :
    (loadCentroid serialization c).run rockHandle store =
        (some (match archive.centroid c with
          | none => .error .eCentroidDoesNotExist
          | some centroid => .ok centroid), store) ∧
      (loadCentroidUniqueOption serialization c).run rockHandle store =
        (some (archive.centroid c), store) := by
  have stored : store[getCentroidKey c]? =
      (archive.centroid c).map serialization.binarySerializeCentroid :=
    archived.value (.centroidBody c) (by simp [scan, Scan.owner])
  rw [loadCentroid, Program.run_bind, run_get, stored, loadCentroidUniqueOption, Program.run_bind,
    run_get, stored]
  cases archive.centroid c with
  | none => exact ⟨rfl, rfl⟩
  | some centroid => simp [readsBack.centroid]

end Loads

section Calls

variable {F : Type} [Zero F] [One F] {serialization : Serialization F} {store : Store}
  {archive : Archive F}

theorem Archived.after_sync (archived : Archived serialization store archive)
    (call : SyncCall F) (free : call.ColonFree) :
    Archived serialization (syncPersistence serialization call store).2
      (archive.afterSync call) := by
  have hasDocument := archived.represents.document_key
  have hasCentroid := archived.represents.centroid_key
  have unchanged (reads : Writes call = false) :
      Archived serialization (syncPersistence serialization call store).2 archive := by
    rw [store_after_read serialization call reads store]
    exact archived
  cases call with
  | saveNewDocument doc =>
      change Archived serialization ((saveNewDocument serialization doc).run rockHandle store).2 _
      rw [run_save_new_document, Archive.afterSync]
      by_cases stored : doc.id ∈ archive.catalogue.docs
      · rw [if_pos stored, if_pos ((hasDocument doc.id).mpr stored)]
        exact archived
      · rw [if_neg stored, if_neg (mt (hasDocument doc.id).mp stored)]
        exact archived.saved_document (free _ (by simp [SyncCall.ids]))
  | deleteDocument d =>
      change Archived serialization ((deleteDocument d).run rockHandle store).2 _
      rw [run_delete_document, Archive.afterSync]
      by_cases stored : d ∈ archive.catalogue.docs
      · rw [if_pos stored, if_pos ((hasDocument d).mpr stored)]
        exact archived.deleted_document (free _ (by simp [SyncCall.ids]))
      · rw [if_neg stored, if_neg (mt (hasDocument d).mp stored)]
        exact archived
  | createNewCentroid c =>
      change Archived serialization ((createNewCentroid serialization c).run rockHandle store).2 _
      rw [run_create_new_centroid, Archive.afterSync]
      by_cases existing : c ∈ archive.catalogue.cents
      · rw [if_pos existing, if_pos ((hasCentroid c).mpr existing)]
        exact archived
      · rw [if_neg existing, if_neg (mt (hasCentroid c).mp existing)]
        exact archived.saved_centroid c (.new c)
  | deleteCentroid c =>
      change Archived serialization ((deleteCentroid c).run rockHandle store).2 _
      rw [run_delete_centroid, Archive.afterSync]
      by_cases existing : c ∈ archive.catalogue.cents
      · rw [if_pos existing, if_pos ((hasCentroid c).mpr existing)]
        exact archived.deleted_centroid (free _ (by simp [SyncCall.ids]))
      · rw [if_neg existing, if_neg (mt (hasCentroid c).mp existing)]
        exact archived
  | addDocumentToCentroid c d =>
      have centroidFree : colon ∉ c := free _ (by simp [SyncCall.ids])
      have docFree : colon ∉ d := free _ (by simp [SyncCall.ids])
      have hasMember := archived.represents.member_key centroidFree d
      change Archived serialization ((addDocumentToCentroid c d).run rockHandle store).2 _
      rw [run_add_document_to_centroid, Archive.afterSync]
      by_cases existing : c ∈ archive.catalogue.cents
      · rw [dif_pos existing, if_pos ((hasCentroid c).mpr existing)]
        by_cases stored : d ∈ archive.catalogue.docs
        · rw [if_pos stored, if_pos ((hasDocument d).mpr stored)]
          by_cases listed : (c, d) ∈ archive.catalogue.mem
          · rw [if_pos listed, if_pos (hasMember.mpr listed)]
            exact archived
          · rw [if_neg listed, if_neg (mt hasMember.mp listed)]
            exact archived.linked centroidFree docFree existing
        · rw [if_neg stored, if_neg (mt (hasDocument d).mp stored)]
          exact archived
      · rw [dif_neg existing, if_neg (mt (hasCentroid c).mp existing)]
        exact archived
  | removeDocumentFromCentroid c d =>
      have removed := archived.unlinked (c := c) (d := d) (free _ (by simp [SyncCall.ids]))
        (free _ (by simp [SyncCall.ids]))
      change Archived serialization ((removeDocumentFromCentroid c d).run rockHandle store).2 _
      rw [run_remove_document_from_centroid, Archive.afterSync]
      by_cases existing : c ∈ archive.catalogue.cents
      · rw [if_pos existing, if_pos ((hasCentroid c).mpr existing)]
        by_cases stored : d ∈ archive.catalogue.docs
        · rw [if_pos stored, if_pos ((hasDocument d).mpr stored)]
          split
          · exact removed
          · -- without a member record the back-link goes all the same
            rename_i absent
            rw [OrderedMap.erase_of_absent absent] at removed
            exact removed
        · rw [if_neg stored, if_neg (mt (hasDocument d).mp stored)]
          exact archived
      · rw [if_neg existing, if_neg (mt (hasCentroid c).mp existing)]
        exact archived
  | _ => exact unchanged rfl

variable {readDocument : ProcessedDocument F → ProcessedDocument F}

/-- A complete public call answers as prescribed and leaves the values of the prescribed archive. -/
theorem call_as_archived (readsBack : ReadsBack serialization readDocument)
    {toInt64 : Bytes → Option Int64} (readsTimes : ReadsTimes toInt64) (call : PublicCall F)
    (free : call.ColonFree) (archived : Archived serialization store archive) :
    (publicPersistence serialization toInt64 call store).1 =
        (Archive.prescribed readDocument call archive).1 ∧
      Archived serialization (publicPersistence serialization toInt64 call store).2
        (Archive.prescribed readDocument call archive).2 := by
  cases call with
  | sync call =>
      exact ⟨(call_as_prescribed serialization call free archived.represents).1,
        archived.after_sync call free⟩
  | saveDocument doc => exact ⟨rfl, archived.saved_document (free doc.id List.mem_cons_self)⟩
  | loadDocument d =>
      have loaded := archived.run_load_document readsBack d
      simp only [publicPersistence, loaded]
      exact ⟨rfl, archived⟩
  | listUnusedDocuments limit =>
      have listed := run_list_unused_documents store limit
      rw [archived.unused_ids] at listed
      simp only [publicPersistence, listed]
      exact ⟨rfl, archived⟩
  | deleteOldUnusedDocuments startTime minAge limit =>
      simp only [publicPersistence, archived.run_collection readsTimes]
      refine ⟨rfl, archived.deleted_documents ?_⟩
      intro d deleted
      have listed := (up_to_sublist limit _).subset deleted
      exact archived.listed_free (List.mem_of_mem_filter listed)
  | saveCentroid c centroid => exact ⟨rfl, archived.saved_centroid c centroid⟩
  | loadCentroid c =>
      have loaded := (archived.run_load_centroid readsBack c).1
      simp only [publicPersistence, loaded]
      exact ⟨rfl, archived⟩
  | loadCentroidUniqueOption c =>
      have loaded := (archived.run_load_centroid readsBack c).2
      simp only [publicPersistence, loaded]
      exact ⟨rfl, archived⟩
  | getCentroidMetadata c metadataName =>
      exact ⟨archived.value (.centroidMetadata c metadataName) (free c List.mem_cons_self),
        archived⟩
  | setCentroidMetadata c metadataName value =>
      exact ⟨rfl, archived.set_metadata (free c List.mem_cons_self) metadataName value⟩
  | debugEraseAllData => exact ⟨rfl, archived_empty⟩

/-- From the empty store, any sequence of public calls on ids without a colon gets the answers of
the archive: what is loaded is what was saved last, up to what the form of documents loses. -/
theorem public_calls_refine_archive (documents : ThriftBinary (ProcessedDocumentPersistenceDTO F))
    (centroids : ThriftBinary (CentroidDTO F)) (toInt64 : Bytes → Option Int64)
    (documentsDecode : documents.Decodes) (centroidsDecode : centroids.Decodes)
    (readsTimes : ReadsTimes toInt64) (calls : List (PublicCall F))
    (free : ∀ call ∈ calls, call.ColonFree) :
    Program.Handler.transcript
        (publicPersistence (thriftSerialization documents centroids) toInt64) calls ∅ =
      Program.Handler.transcript (Archive.prescribed readBack) calls .empty := by
  have simulates : ∀ (call : PublicCall F) (store : Store) (archive : Archive F),
      call.ColonFree → Archived (thriftSerialization documents centroids) store archive →
      (publicPersistence (thriftSerialization documents centroids) toInt64 call store).1 =
          (Archive.prescribed readBack call archive).1 ∧
        Archived (thriftSerialization documents centroids)
          (publicPersistence (thriftSerialization documents centroids) toInt64 call store).2
          (Archive.prescribed readBack call archive).2 := by
    intro call store archive callFree archived
    exact call_as_archived (thrift_reads_back documentsDecode centroidsDecode) readsTimes call
      callFree archived
  exact Program.transcript_eq_of_simulation (I := PublicIf F) simulates calls free archived_empty

end Calls

/-- Documents and a centroid are saved, changed, collected and loaded. -/
def savedAndLoaded : List (PublicCall Nat) :=
  [.saveDocument (oneWord (ascii "electroencephalographic")), .loadDocument (ascii "doc"),
    .sync (.createNewCentroid (ascii "c")),
    .setCentroidMetadata (ascii "c") (ascii "last_calculated") (ascii "5"),
    .saveCentroid (ascii "c") ⟨ascii "c", ⟨OrderedMap.ofEntries [(ascii "fish", 1)], 1, 1⟩⟩,
    .loadCentroid (ascii "c"), .deleteOldUnusedDocuments 10 1 0, .loadDocument (ascii "doc"),
    .sync (.deleteCentroid (ascii "c")),
    .getCentroidMetadata (ascii "c") (ascii "last_calculated"), .loadCentroid (ascii "c")]

theorem saved_and_loaded_refines_archive :
    Program.Handler.transcript
        (publicPersistence (thriftSerialization (.wire (wireDocument WireFormat.number))
          (.wire (wireCentroid WireFormat.number))) readInt64) savedAndLoaded ∅ =
      Program.Handler.transcript (Archive.prescribed readBack) savedAndLoaded .empty :=
  public_calls_refine_archive _ _ readInt64 (wire_decodes _) (wire_decodes _) read_int64_of_printed
    savedAndLoaded (by decide)

end Relevanced.Persistence

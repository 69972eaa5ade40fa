import Relevanced.Foundation.Pool
import Relevanced.Persistence.SyncPersistence

/-!
# Persistence

`Persistence` hands every request to its thread pool, where the method of
`SyncPersistence` of the same name runs as one task; the caller gets a future. Each
`put`, `get`, `exists`, `del` and `NewIterator` is one step of the pool.
-/

namespace Relevanced.Persistence

open Foundation
open Models

set_option autoImplicit false

deriving instance DecidableEq for RockCall

def RockCall.Reads : RockCall → Prop
  | put _ _ => False
  | get _ => True
  | existsKey _ => True
  | del _ => False
  | newIterator => True

/-- The `T` of the `Future<T>` a request returns. -/
inductive FutureType where
  | bool
  | tryBool
  | ids
  | tryIds
  | optionIds
  | document
  | centroid
  | optionString
  deriving DecidableEq

abbrev FutureType.Value (F : Type) : FutureType → Type
  | bool => Bool
  | tryBool => Try Bool
  | ids => List Bytes
  | tryIds => Try (List Bytes)
  | optionIds => Option (List Bytes)
  | document => Option (Try (ProcessedDocument F))
  | centroid => Option (Try (Centroid F))
  | optionString => Option Bytes

inductive PersistenceCall (F : Type) where
  | doesDocumentExist (id : Bytes)
  | saveDocument (doc : ProcessedDocument F)
  | saveNewDocument (doc : ProcessedDocument F)
  | deleteDocument (id : Bytes)
  | listAllDocuments
  | listUnusedDocuments (count : Nat)
  | listDocumentRangeFromId (id : Bytes) (count : Nat)
  | listDocumentRangeFromOffset (offset count : Nat)
  | loadDocument (id : Bytes)
  | doesCentroidExist (id : Bytes)
  | createNewCentroid (id : Bytes)
  | deleteCentroid (id : Bytes)
  | saveCentroid (id : Bytes) (centroid : Centroid F)
  | loadCentroid (id : Bytes)
  | listAllCentroids
  | listCentroidRangeFromOffset (offset count : Nat)
  | listCentroidRangeFromId (id : Bytes) (count : Nat)
  | addDocumentToCentroid (centroidId docId : Bytes)
  | removeDocumentFromCentroid (centroidId docId : Bytes)
  | doesCentroidHaveDocument (centroidId docId : Bytes)
  | listAllDocumentsForCentroid (centroidId : Bytes)
  | listAllDocumentsForCentroidOption (centroidId : Bytes)
  | listCentroidDocumentRangeFromOffset (centroidId : Bytes) (offset count : Nat)
  | listCentroidDocumentRangeFromOffsetOption (centroidId : Bytes) (offset count : Nat)
  | listCentroidDocumentRangeFromDocumentId (centroidId docId : Bytes) (count : Nat)
  | listCentroidDocumentRangeFromDocumentIdOption (centroidId docId : Bytes) (count : Nat)
  | getCentroidMetadata (centroidId metadataName : Bytes)
  | setCentroidMetadata (centroidId metadataName value : Bytes)

namespace PersistenceCall

variable {F : Type}

def futureType : PersistenceCall F → FutureType
  | doesDocumentExist _ => .bool
  | saveDocument _ => .tryBool
  | saveNewDocument _ => .tryBool
  | deleteDocument _ => .tryBool
  | listAllDocuments => .ids
  | listUnusedDocuments _ => .ids
  | listDocumentRangeFromId _ _ => .ids
  | listDocumentRangeFromOffset _ _ => .ids
  | loadDocument _ => .document
  | doesCentroidExist _ => .bool
  | createNewCentroid _ => .tryBool
  | deleteCentroid _ => .tryBool
  | saveCentroid _ _ => .tryBool
  | loadCentroid _ => .centroid
  | listAllCentroids => .ids
  | listCentroidRangeFromOffset _ _ => .ids
  | listCentroidRangeFromId _ _ => .ids
  | addDocumentToCentroid _ _ => .tryBool
  | removeDocumentFromCentroid _ _ => .tryBool
  | doesCentroidHaveDocument _ _ => .tryBool
  | listAllDocumentsForCentroid _ => .tryIds
  | listAllDocumentsForCentroidOption _ => .optionIds
  | listCentroidDocumentRangeFromOffset _ _ _ => .tryIds
  | listCentroidDocumentRangeFromOffsetOption _ _ _ => .optionIds
  | listCentroidDocumentRangeFromDocumentId _ _ _ => .tryIds
  | listCentroidDocumentRangeFromDocumentIdOption _ _ _ => .optionIds
  | getCentroidMetadata _ _ => .optionString
  | setCentroidMetadata _ _ _ => .tryBool

end PersistenceCall

abbrev PersistenceIf (F : Type) : Requests where
  Request := PersistenceCall F
  Kind := FutureType
  kind := PersistenceCall.futureType
  Answer := FutureType.Value F

/-- The method of `SyncPersistence` a task runs. -/
def PersistenceCall.method {F : Type} [Zero F] [One F] (serialization : Serialization F) :
    (call : PersistenceCall F) → RockProgram ((PersistenceIf F).Reply call)
  | doesDocumentExist id => SyncPersistence.doesDocumentExist id
  | saveDocument doc => SyncPersistence.saveDocument serialization doc
  | saveNewDocument doc => SyncPersistence.saveNewDocument serialization doc
  | deleteDocument id => SyncPersistence.deleteDocument id
  | listAllDocuments => SyncPersistence.listAllDocuments
  | listUnusedDocuments count => SyncPersistence.listUnusedDocuments count
  | listDocumentRangeFromId id count => SyncPersistence.listDocumentRangeFromId id count
  | listDocumentRangeFromOffset offset count =>
      SyncPersistence.listDocumentRangeFromOffset offset count
  | loadDocument id => SyncPersistence.loadDocument serialization id
  | doesCentroidExist id => SyncPersistence.doesCentroidExist id
  | createNewCentroid id => SyncPersistence.createNewCentroid serialization id
  | deleteCentroid id => SyncPersistence.deleteCentroid id
  | saveCentroid id centroid => SyncPersistence.saveCentroid serialization id centroid
  | loadCentroid id => SyncPersistence.loadCentroid serialization id
  | listAllCentroids => SyncPersistence.listAllCentroids
  | listCentroidRangeFromOffset offset count =>
      SyncPersistence.listCentroidRangeFromOffset offset count
  | listCentroidRangeFromId id count => SyncPersistence.listCentroidRangeFromId id count
  | addDocumentToCentroid centroidId docId =>
      SyncPersistence.addDocumentToCentroid centroidId docId
  | removeDocumentFromCentroid centroidId docId =>
      SyncPersistence.removeDocumentFromCentroid centroidId docId
  | doesCentroidHaveDocument centroidId docId =>
      SyncPersistence.doesCentroidHaveDocument centroidId docId
  | listAllDocumentsForCentroid centroidId =>
      SyncPersistence.listAllDocumentsForCentroid centroidId
  | listAllDocumentsForCentroidOption centroidId =>
      SyncPersistence.listAllDocumentsForCentroidOption centroidId
  | listCentroidDocumentRangeFromOffset centroidId offset count =>
      SyncPersistence.listCentroidDocumentRangeFromOffset centroidId offset count
  | listCentroidDocumentRangeFromOffsetOption centroidId offset count =>
      SyncPersistence.listCentroidDocumentRangeFromOffsetOption centroidId offset count
  | listCentroidDocumentRangeFromDocumentId centroidId docId count =>
      SyncPersistence.listCentroidDocumentRangeFromDocumentId centroidId docId count
  | listCentroidDocumentRangeFromDocumentIdOption centroidId docId count =>
      SyncPersistence.listCentroidDocumentRangeFromDocumentIdOption centroidId docId count
  | getCentroidMetadata centroidId metadataName =>
      SyncPersistence.getCentroidMetadata centroidId metadataName
  | setCentroidMetadata centroidId metadataName value =>
      SyncPersistence.setCentroidMetadata centroidId metadataName value

def persistence {F : Type} [Zero F] [One F] (serialization : Serialization F) :
    Service Store RockHandleIf (PersistenceIf F) where
  handler := rockHandle
  method := PersistenceCall.method serialization

abbrev PersistenceTask (F : Type) := PoolTask RockHandleIf (PersistenceIf F)

/-- The thread pool over the store, with the programs that use it. -/
abbrev ThreadPool (F α : Type) := Pool Store RockHandleIf (PersistenceIf F) α

abbrev PersistenceAction (F : Type) := PoolAction (PersistenceIf F)

def persistenceMachine {F : Type} [Zero F] [One F] (α : Type) (serialization : Serialization F) :
    Machine (ThreadPool F α) (PersistenceAction F) :=
  poolMachine α (persistence serialization)

/-- The requests that can change the store. -/
def PersistenceCall.Writes {F : Type} : PersistenceCall F → Prop
  | saveDocument _ => True
  | saveNewDocument _ => True
  | deleteDocument _ => True
  | createNewCentroid _ => True
  | deleteCentroid _ => True
  | saveCentroid _ _ => True
  | addDocumentToCentroid _ _ => True
  | removeDocumentFromCentroid _ _ => True
  | setCentroidMetadata _ _ _ => True
  | _ => False

section Reading

open SyncPersistence

theorem reads_exists_key (key : Bytes) : (existsKey key).Calls RockCall.Reads :=
  Program.calls_perform trivial

theorem reads_get (key : Bytes) : (get key).Calls RockCall.Reads := Program.calls_perform trivial

theorem reads_iter_prefix {α : Type} {iterFn : IterFn α}
    (reads : ∀ key value captured, (iterFn key value captured).Calls RockCall.Reads)
    (label : Bytes) (captured : α) :
    (iterPrefix label iterFn captured).Calls RockCall.Reads :=
  calls_iter_range trivial _ _ reads captured

theorem reads_list_ids (label : Bytes) : (listIds label).Calls RockCall.Reads := by
  apply Program.calls_bind
  · exact reads_iter_prefix (calls_collecting idOfKey) label []
  · exact fun _ => Program.calls_pure _

theorem reads_list_ids_from_offset (label : Bytes) (offset limit : Nat) :
    (listIdsFromOffset label offset limit).Calls RockCall.Reads := by
  apply Program.calls_bind
  · apply Program.calls_bind
    · exact calls_iter_range trivial _ _
        (calls_skipping offset limit (calls_collecting idOfKey)) _
    · exact fun _ => Program.calls_pure _
  · exact fun _ => Program.calls_pure _

theorem reads_list_ids_from_member (label member : Bytes) (limit : Nat) :
    (listIdsFromMember label member limit).Calls RockCall.Reads := by
  apply Program.calls_bind
  · apply Program.calls_bind
    · exact calls_iter_range trivial _ _ (calls_limited limit (calls_collecting idOfKey)) _
    · exact fun _ => Program.calls_pure _
  · exact fun _ => Program.calls_pure _

theorem reads_is_document_in_any_centroid (documentId : Bytes) :
    (isDocumentInAnyCentroid documentId).Calls RockCall.Reads := by
  apply Program.calls_bind
  · exact reads_iter_prefix (fun _ _ _ => Program.calls_pure _) _ ()
  · exact fun _ => Program.calls_pure _

theorem reads_list_unused_documents (limit : Nat) :
    (listUnusedDocuments limit).Calls RockCall.Reads := by
  apply Program.calls_bind
  · apply reads_iter_prefix
    intro key _ captured
    apply Program.calls_bind (reads_is_document_in_any_centroid _)
    intro inAny
    split
    · exact Program.calls_pure _
    · split
      · exact Program.calls_pure _
      · exact Program.calls_pure _
  · exact fun _ => Program.calls_pure _

theorem reads_unless_missing (centroidId : Bytes) {listing : RockProgram (List Bytes)}
    (reads : listing.Calls RockCall.Reads) :
    (unlessMissing centroidId listing).Calls RockCall.Reads := by
  apply Program.calls_bind reads
  intro docs
  split
  · apply Program.calls_bind (reads_exists_key _)
    intro present
    split
    · exact Program.calls_pure _
    · exact Program.calls_pure _
  · exact Program.calls_pure _

theorem reads_unless_missing_option (centroidId : Bytes) {listing : RockProgram (List Bytes)}
    (reads : listing.Calls RockCall.Reads) :
    (unlessMissingOption centroidId listing).Calls RockCall.Reads := by
  apply Program.calls_bind reads
  intro docs
  split
  · apply Program.calls_bind (reads_exists_key _)
    intro present
    split
    · exact Program.calls_pure _
    · exact Program.calls_pure _
  · exact Program.calls_pure _

variable {F : Type} (serialization : Serialization F)

theorem reads_load_document (docId : Bytes) :
    (loadDocument serialization docId).Calls RockCall.Reads := by
  apply Program.calls_bind (reads_get _)
  intro stored
  split
  · exact Program.calls_pure _
  · split
    · exact Program.calls_pure _
    · exact Program.calls_pure _

theorem reads_load_centroid (id : Bytes) :
    (loadCentroid serialization id).Calls RockCall.Reads := by
  apply Program.calls_bind (reads_get _)
  intro stored
  split
  · exact Program.calls_pure _
  · split
    · exact Program.calls_pure _
    · exact Program.calls_pure _

theorem reads_does_centroid_have_document (centroidId documentId : Bytes) :
    (doesCentroidHaveDocument centroidId documentId).Calls RockCall.Reads := by
  apply Program.calls_bind (reads_exists_key _)
  intro member
  split
  · exact Program.calls_pure _
  · apply Program.calls_bind (reads_exists_key _)
    intro present
    split
    · exact Program.calls_pure _
    · exact Program.calls_pure _

theorem reads_method [Zero F] [One F] (call : PersistenceCall F) (reading : ¬ call.Writes) :
    (call.method serialization).Calls RockCall.Reads := by
  cases call with
  | doesDocumentExist id => exact reads_exists_key _
  | doesCentroidExist id => exact reads_exists_key _
  | listAllDocuments => exact reads_list_ids _
  | listUnusedDocuments count => exact reads_list_unused_documents count
  | listDocumentRangeFromId id count => exact reads_list_ids_from_member _ id count
  | listDocumentRangeFromOffset offset count => exact reads_list_ids_from_offset _ offset count
  | loadDocument id => exact reads_load_document serialization id
  | loadCentroid id => exact reads_load_centroid serialization id
  | listAllCentroids => exact reads_list_ids _
  | listCentroidRangeFromOffset offset count => exact reads_list_ids_from_offset _ offset count
  | listCentroidRangeFromId id count => exact reads_list_ids_from_member _ id count
  | doesCentroidHaveDocument centroidId docId =>
      exact reads_does_centroid_have_document centroidId docId
  | listAllDocumentsForCentroid centroidId =>
      exact reads_unless_missing centroidId (reads_list_ids _)
  | listAllDocumentsForCentroidOption centroidId =>
      exact reads_unless_missing_option centroidId (reads_list_ids _)
  | listCentroidDocumentRangeFromOffset centroidId offset count =>
      exact reads_unless_missing centroidId (reads_list_ids_from_offset _ offset count)
  | listCentroidDocumentRangeFromOffsetOption centroidId offset count =>
      exact reads_unless_missing_option centroidId (reads_list_ids_from_offset _ offset count)
  | listCentroidDocumentRangeFromDocumentId centroidId docId count =>
      exact reads_unless_missing centroidId (reads_list_ids_from_member _ docId count)
  | listCentroidDocumentRangeFromDocumentIdOption centroidId docId count =>
      exact reads_unless_missing_option centroidId (reads_list_ids_from_member _ docId count)
  | getCentroidMetadata centroidId metadataName => exact reads_get _
  | _ => exact absurd trivial reading

end Reading

end Relevanced.Persistence

import Mathlib.Data.Finset.Sort
import Relevanced.Persistence.SyncPersistence

/-!
# What the store is for

The sequential meaning of the membership operations: a set of documents, a set
of centroids and a relation between them in which only existing centroids have a
row. This is a specification and mentions neither keys nor scans; the operations
of `SyncPersistence` are compared with it in `Refinement`.
-/

namespace Relevanced.Persistence

open Foundation
open Models

set_option autoImplicit false

/-- The calls whose answers depend on documents, centroids and membership only. -/
inductive SyncCall (F : Type) where
  | saveNewDocument (doc : ProcessedDocument F)
  | deleteDocument (id : Bytes)
  | doesDocumentExist (id : Bytes)
  | listAllDocuments
  | listDocumentRangeFromId (startingDocumentId : Bytes) (numToGet : Nat)
  | listDocumentRangeFromOffset (offset numToGet : Nat)
  | createNewCentroid (id : Bytes)
  | deleteCentroid (id : Bytes)
  | doesCentroidExist (id : Bytes)
  | listAllCentroids
  | listCentroidRangeFromOffset (offset limit : Nat)
  | listCentroidRangeFromId (startingCentroidId : Bytes) (limit : Nat)
  | addDocumentToCentroid (centroidId documentId : Bytes)
  | removeDocumentFromCentroid (centroidId documentId : Bytes)
  | doesCentroidHaveDocument (centroidId documentId : Bytes)
  | listAllDocumentsForCentroid (centroidId : Bytes)
  | listAllDocumentsForCentroidOption (centroidId : Bytes)
  | listCentroidDocumentRangeFromOffset (centroidId : Bytes) (offset limit : Nat)
  | listCentroidDocumentRangeFromOffsetOption (centroidId : Bytes) (offset limit : Nat)
  | listCentroidDocumentRangeFromDocumentId (centroidId documentId : Bytes) (limit : Nat)
  | listCentroidDocumentRangeFromDocumentIdOption (centroidId documentId : Bytes) (limit : Nat)

namespace SyncCall

variable {F : Type}

def ids : SyncCall F → List Bytes
  | saveNewDocument doc => [doc.id]
  | deleteDocument id => [id]
  | doesDocumentExist id => [id]
  | listAllDocuments => []
  | listDocumentRangeFromId startingDocumentId _ => [startingDocumentId]
  | listDocumentRangeFromOffset _ _ => []
  | createNewCentroid id => [id]
  | deleteCentroid id => [id]
  | doesCentroidExist id => [id]
  | listAllCentroids => []
  | listCentroidRangeFromOffset _ _ => []
  | listCentroidRangeFromId startingCentroidId _ => [startingCentroidId]
  | addDocumentToCentroid centroidId documentId => [centroidId, documentId]
  | removeDocumentFromCentroid centroidId documentId => [centroidId, documentId]
  | doesCentroidHaveDocument centroidId documentId => [centroidId, documentId]
  | listAllDocumentsForCentroid centroidId => [centroidId]
  | listAllDocumentsForCentroidOption centroidId => [centroidId]
  | listCentroidDocumentRangeFromOffset centroidId _ _ => [centroidId]
  | listCentroidDocumentRangeFromOffsetOption centroidId _ _ => [centroidId]
  | listCentroidDocumentRangeFromDocumentId centroidId documentId _ => [centroidId, documentId]
  | listCentroidDocumentRangeFromDocumentIdOption centroidId documentId _ =>
      [centroidId, documentId]

def ColonFree (call : SyncCall F) : Prop := ∀ id ∈ call.ids, colon ∉ id

instance (call : SyncCall F) : Decidable call.ColonFree :=
  inferInstanceAs (Decidable (∀ id ∈ call.ids, colon ∉ id))

abbrev Answer : SyncCall F → Type
  | saveNewDocument _ => Try Bool
  | deleteDocument _ => Try Bool
  | doesDocumentExist _ => Bool
  | listAllDocuments => List Bytes
  | listDocumentRangeFromId _ _ => List Bytes
  | listDocumentRangeFromOffset _ _ => List Bytes
  | createNewCentroid _ => Try Bool
  | deleteCentroid _ => Try Bool
  | doesCentroidExist _ => Bool
  | listAllCentroids => List Bytes
  | listCentroidRangeFromOffset _ _ => List Bytes
  | listCentroidRangeFromId _ _ => List Bytes
  | addDocumentToCentroid _ _ => Try Bool
  | removeDocumentFromCentroid _ _ => Try Bool
  | doesCentroidHaveDocument _ _ => Try Bool
  | listAllDocumentsForCentroid _ => Try (List Bytes)
  | listAllDocumentsForCentroidOption _ => Option (List Bytes)
  | listCentroidDocumentRangeFromOffset _ _ _ => Try (List Bytes)
  | listCentroidDocumentRangeFromOffsetOption _ _ _ => Option (List Bytes)
  | listCentroidDocumentRangeFromDocumentId _ _ _ => Try (List Bytes)
  | listCentroidDocumentRangeFromDocumentIdOption _ _ _ => Option (List Bytes)

/-- The method of `SyncPersistence` behind each call. -/
def method [Zero F] [One F] (serialization : Serialization F) :
    (call : SyncCall F) → RockProgram call.Answer
  | saveNewDocument doc => SyncPersistence.saveNewDocument serialization doc
  | deleteDocument id => SyncPersistence.deleteDocument id
  | doesDocumentExist id => SyncPersistence.doesDocumentExist id
  | listAllDocuments => SyncPersistence.listAllDocuments
  | listDocumentRangeFromId startingDocumentId numToGet =>
      SyncPersistence.listDocumentRangeFromId startingDocumentId numToGet
  | listDocumentRangeFromOffset offset numToGet =>
      SyncPersistence.listDocumentRangeFromOffset offset numToGet
  | createNewCentroid id => SyncPersistence.createNewCentroid serialization id
  | deleteCentroid id => SyncPersistence.deleteCentroid id
  | doesCentroidExist id => SyncPersistence.doesCentroidExist id
  | listAllCentroids => SyncPersistence.listAllCentroids
  | listCentroidRangeFromOffset offset limit =>
      SyncPersistence.listCentroidRangeFromOffset offset limit
  | listCentroidRangeFromId startingCentroidId limit =>
      SyncPersistence.listCentroidRangeFromId startingCentroidId limit
  | addDocumentToCentroid centroidId documentId =>
      SyncPersistence.addDocumentToCentroid centroidId documentId
  | removeDocumentFromCentroid centroidId documentId =>
      SyncPersistence.removeDocumentFromCentroid centroidId documentId
  | doesCentroidHaveDocument centroidId documentId =>
      SyncPersistence.doesCentroidHaveDocument centroidId documentId
  | listAllDocumentsForCentroid centroidId =>
      SyncPersistence.listAllDocumentsForCentroid centroidId
  | listAllDocumentsForCentroidOption centroidId =>
      SyncPersistence.listAllDocumentsForCentroidOption centroidId
  | listCentroidDocumentRangeFromOffset centroidId offset limit =>
      SyncPersistence.listCentroidDocumentRangeFromOffset centroidId offset limit
  | listCentroidDocumentRangeFromOffsetOption centroidId offset limit =>
      SyncPersistence.listCentroidDocumentRangeFromOffsetOption centroidId offset limit
  | listCentroidDocumentRangeFromDocumentId centroidId documentId limit =>
      SyncPersistence.listCentroidDocumentRangeFromDocumentId centroidId documentId limit
  | listCentroidDocumentRangeFromDocumentIdOption centroidId documentId limit =>
      SyncPersistence.listCentroidDocumentRangeFromDocumentIdOption centroidId documentId limit

end SyncCall

abbrev SyncPersistenceIf (F : Type) : Interface where
  Call := SyncCall F
  Answer := SyncCall.Answer

/-- Complete calls, one after another, on the key-value store. -/
def syncPersistence {F : Type} [Zero F] [One F] (serialization : Serialization F) :
    Program.Handler (SyncPersistenceIf F) Store :=
  fun call store => (call.method serialization).run rockHandle store

/-- Documents, centroids and membership; the rows of missing centroids are empty. -/
structure Catalogue where
  docs : Finset Bytes
  cents : Finset Bytes
  mem : Finset (Bytes × Bytes)
  rowsExist : ∀ c d, (c, d) ∈ mem → c ∈ cents

namespace Catalogue

def empty : Catalogue where
  docs := ∅
  cents := ∅
  mem := ∅
  rowsExist := by simp

def addDocument (state : Catalogue) (d : Bytes) : Catalogue :=
  { state with docs := insert d state.docs }

def removeDocument (state : Catalogue) (d : Bytes) : Catalogue :=
  { state with docs := state.docs.erase d }

def addCentroid (state : Catalogue) (c : Bytes) : Catalogue where
  docs := state.docs
  cents := insert c state.cents
  mem := state.mem
  rowsExist owner d member := Finset.mem_insert_of_mem (state.rowsExist owner d member)

def removeCentroid (state : Catalogue) (c : Bytes) : Catalogue where
  docs := state.docs
  cents := state.cents.erase c
  mem := state.mem.filter fun pair => pair.1 ≠ c
  rowsExist owner d member := by
    obtain ⟨kept, other⟩ := Finset.mem_filter.mp member
    exact Finset.mem_erase.mpr ⟨other, state.rowsExist owner d kept⟩

def link (state : Catalogue) (c d : Bytes) (existing : c ∈ state.cents) : Catalogue where
  docs := state.docs
  cents := state.cents
  mem := insert (c, d) state.mem
  rowsExist owner member inserted := by
    rcases Finset.mem_insert.mp inserted with same | kept
    · cases same
      exact existing
    · exact state.rowsExist owner member kept

def unlink (state : Catalogue) (c d : Bytes) : Catalogue where
  docs := state.docs
  cents := state.cents
  mem := state.mem.erase (c, d)
  rowsExist owner member kept := state.rowsExist owner member (Finset.mem_of_mem_erase kept)

def row (state : Catalogue) (c : Bytes) : List Bytes :=
  ((state.mem.filter fun pair => pair.1 = c).image Prod.snd).sort

def documents (state : Catalogue) : List Bytes := state.docs.sort

def centroids (state : Catalogue) : List Bytes := state.cents.sort

/-- A page of an ascending listing by position. -/
def fromOffset (ids : List Bytes) (offset limit : Nat) : List Bytes := (ids.drop offset).take limit

/-- A page of an ascending listing from an id on, whether or not the id is listed. -/
def fromId (ids : List Bytes) (start : Bytes) (limit : Nat) : List Bytes :=
  (ids.filter (start ≤ ·)).take limit

/-- A listing of a centroid's documents exists when the centroid does. -/
def ofCentroid (state : Catalogue) (c : Bytes) (listing : List Bytes) : Try (List Bytes) :=
  if c ∈ state.cents then .ok listing else .error .eCentroidDoesNotExist

def ofCentroidOption (state : Catalogue) (c : Bytes) (listing : List Bytes) :
    Option (List Bytes) :=
  if c ∈ state.cents then some listing else none

/-- What every call answers and how it changes the catalogue. -/
def prescribed {F : Type} : Program.Handler (SyncPersistenceIf F) Catalogue
  | .saveNewDocument doc, state =>
      if doc.id ∈ state.docs then (.error .eDocumentAlreadyExists, state)
      else (.ok true, state.addDocument doc.id)
  | .deleteDocument d, state =>
      if d ∈ state.docs then (.ok true, state.removeDocument d)
      else (.error .eDocumentDoesNotExist, state)
  | .doesDocumentExist d, state => (decide (d ∈ state.docs), state)
  | .listAllDocuments, state => (state.documents, state)
  | .listDocumentRangeFromId start numToGet, state =>
      (fromId state.documents start numToGet, state)
  | .listDocumentRangeFromOffset offset numToGet, state =>
      (fromOffset state.documents offset numToGet, state)
  | .createNewCentroid c, state =>
      if c ∈ state.cents then (.error .eCentroidAlreadyExists, state)
      else (.ok true, state.addCentroid c)
  | .deleteCentroid c, state =>
      if c ∈ state.cents then (.ok true, state.removeCentroid c)
      else (.error .eCentroidDoesNotExist, state)
  | .doesCentroidExist c, state => (decide (c ∈ state.cents), state)
  | .listAllCentroids, state => (state.centroids, state)
  | .listCentroidRangeFromOffset offset limit, state =>
      (fromOffset state.centroids offset limit, state)
  | .listCentroidRangeFromId start limit, state => (fromId state.centroids start limit, state)
  | .addDocumentToCentroid c d, state =>
      if existing : c ∈ state.cents then
        if d ∈ state.docs then
          if (c, d) ∈ state.mem then (.error .eDocumentAlreadyInCentroid, state)
          else (.ok true, state.link c d existing)
        else (.error .eDocumentDoesNotExist, state)
      else (.error .eCentroidDoesNotExist, state)
  | .removeDocumentFromCentroid c d, state =>
      if c ∈ state.cents then
        if d ∈ state.docs then
          if (c, d) ∈ state.mem then (.ok true, state.unlink c d)
          else (.error .eDocumentNotInCentroid, state)
        else (.error .eDocumentDoesNotExist, state)
      else (.error .eCentroidDoesNotExist, state)
  | .doesCentroidHaveDocument c d, state =>
      (if c ∈ state.cents then .ok (decide ((c, d) ∈ state.mem))
        else .error .eCentroidDoesNotExist, state)
  | .listAllDocumentsForCentroid c, state => (state.ofCentroid c (state.row c), state)
  | .listAllDocumentsForCentroidOption c, state =>
      (state.ofCentroidOption c (state.row c), state)
  | .listCentroidDocumentRangeFromOffset c offset limit, state =>
      (state.ofCentroid c (fromOffset (state.row c) offset limit), state)
  | .listCentroidDocumentRangeFromOffsetOption c offset limit, state =>
      (state.ofCentroidOption c (fromOffset (state.row c) offset limit), state)
  | .listCentroidDocumentRangeFromDocumentId c d limit, state =>
      (state.ofCentroid c (fromId (state.row c) d limit), state)
  | .listCentroidDocumentRangeFromDocumentIdOption c d limit, state =>
      (state.ofCentroidOption c (fromId (state.row c) d limit), state)

end Catalogue

end Relevanced.Persistence

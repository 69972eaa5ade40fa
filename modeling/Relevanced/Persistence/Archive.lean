import Mathlib.Logic.Function.Basic
import Relevanced.Persistence.PublicCalls

/-!
# The archive

What `SyncPersistence` is for, contents included: the documents, centroids and metadata that
were saved last, the membership of the catalogue, and the centroids that each document is
linked to. This is a specification; the public calls are compared with it in `Contents`.
-/

namespace Relevanced.Persistence

open Foundation
open Models

set_option autoImplicit false

/-- A catalogue with the contents of what it lists. -/
structure Archive (F : Type) where
  catalogue : Catalogue
  document : Bytes → Option (ProcessedDocument F)
  centroid : Bytes → Option (Centroid F)
  metadata : Bytes → Bytes → Option Bytes
  links : Bytes → Finset Bytes
  documents : ∀ d, (document d).isSome ↔ d ∈ catalogue.docs
  centroids : ∀ c, (centroid c).isSome ↔ c ∈ catalogue.cents

namespace Archive

variable {F : Type}

def empty : Archive F where
  catalogue := .empty
  document _ := none
  centroid _ := none
  metadata _ _ := none
  links _ := ∅
  documents := by simp [Catalogue.empty]
  centroids := by simp [Catalogue.empty]

def saveDocument (archive : Archive F) (doc : ProcessedDocument F) : Archive F where
  catalogue := archive.catalogue.addDocument doc.id
  document := Function.update archive.document doc.id (some doc)
  centroid := archive.centroid
  metadata := archive.metadata
  links := archive.links
  documents d := by
    by_cases same : d = doc.id
    · simp [same, Catalogue.addDocument]
    · simp [same, Catalogue.addDocument, archive.documents]
  centroids := archive.centroids

/-- The members of centroids stay. -/
def removeDocument (archive : Archive F) (d : Bytes) : Archive F where
  catalogue := archive.catalogue.removeDocument d
  document := Function.update archive.document d none
  centroid := archive.centroid
  metadata := archive.metadata
  links := Function.update archive.links d ∅
  documents other := by
    by_cases same : other = d
    · simp [same, Catalogue.removeDocument]
    · simp [same, Catalogue.removeDocument, archive.documents]
  centroids := archive.centroids

def saveCentroid (archive : Archive F) (c : Bytes) (centroid : Centroid F) : Archive F where
  catalogue := archive.catalogue.addCentroid c
  document := archive.document
  centroid := Function.update archive.centroid c (some centroid)
  metadata := archive.metadata
  links := archive.links
  documents := archive.documents
  centroids other := by
    by_cases same : other = c
    · simp [same, Catalogue.addCentroid]
    · simp [same, Catalogue.addCentroid, archive.centroids]

/-- The links of documents stay. -/
def removeCentroid (archive : Archive F) (c : Bytes) : Archive F where
  catalogue := archive.catalogue.removeCentroid c
  document := archive.document
  centroid := Function.update archive.centroid c none
  metadata := Function.update archive.metadata c fun _ => none
  links := archive.links
  documents := archive.documents
  centroids other := by
    by_cases same : other = c
    · simp [same, Catalogue.removeCentroid]
    · simp [same, Catalogue.removeCentroid, archive.centroids]

def link (archive : Archive F) (c d : Bytes) (existing : c ∈ archive.catalogue.cents) :
    Archive F :=
  { archive with
    catalogue := archive.catalogue.link c d existing
    links := Function.update archive.links d (insert c (archive.links d)) }

def unlink (archive : Archive F) (c d : Bytes) : Archive F :=
  { archive with
    catalogue := archive.catalogue.unlink c d
    links := Function.update archive.links d ((archive.links d).erase c) }

def setMetadata (archive : Archive F) (c metadataName value : Bytes) : Archive F :=
  { archive with
    metadata :=
      Function.update archive.metadata c
        (Function.update (archive.metadata c) metadataName (some value)) }

def unused (archive : Archive F) : List Bytes :=
  archive.catalogue.documents.filter fun d => archive.links d = ∅

/-- The creation time of the saved document as the signed number that is compared. -/
def created (archive : Archive F) (d : Bytes) : Option Int64 :=
  (archive.document d).map fun doc => doc.created.toInt64

/-- The first of the unused documents from before a time, or all of them when the limit is 0. -/
def outdated (archive : Archive F) (cutoff : Int64) (limit : Nat) : List Bytes :=
  SyncPersistence.upTo limit 0
    (archive.catalogue.documents.filter fun d =>
      archive.links d = ∅ ∧ (archive.created d).all (· < cutoff))

/-- What is left by a call whose answer the catalogue prescribes. -/
def afterSync [Zero F] [One F] (archive : Archive F) : SyncCall F → Archive F
  | .saveNewDocument doc =>
      if doc.id ∈ archive.catalogue.docs then archive else archive.saveDocument doc
  | .deleteDocument d => if d ∈ archive.catalogue.docs then archive.removeDocument d else archive
  | .createNewCentroid c =>
      if c ∈ archive.catalogue.cents then archive else archive.saveCentroid c (.new c)
  | .deleteCentroid c => if c ∈ archive.catalogue.cents then archive.removeCentroid c else archive
  | .addDocumentToCentroid c d =>
      if existing : c ∈ archive.catalogue.cents then
        if d ∈ archive.catalogue.docs then
          if (c, d) ∈ archive.catalogue.mem then archive else archive.link c d existing
        else archive
      else archive
  | .removeDocumentFromCentroid c d =>
      if c ∈ archive.catalogue.cents then
        if d ∈ archive.catalogue.docs then archive.unlink c d else archive
      else archive
  | _ => archive

end Archive

namespace PublicCall

variable {F : Type}

/-- The type of answer of each call; `none` stands for an exception out of an answer. -/
abbrev Answer : PublicCall F → Type
  | sync call => call.Answer
  | saveDocument _ => Try Bool
  | loadDocument _ => Option (Try (ProcessedDocument F))
  | listUnusedDocuments _ => List Bytes
  | deleteOldUnusedDocuments _ _ _ => Option Nat
  | saveCentroid _ _ => Try Bool
  | loadCentroid _ => Option (Try (Centroid F))
  | loadCentroidUniqueOption _ => Option (Option (Centroid F))
  | getCentroidMetadata _ _ => Option Bytes
  | setCentroidMetadata _ _ _ => Try Bool
  | debugEraseAllData => Unit

end PublicCall

abbrev PublicIf (F : Type) : Interface where
  Call := PublicCall F
  Answer := PublicCall.Answer

section Handlers

variable {F : Type} [Zero F] [One F]

/-- Complete public calls, one after another, on the key-value store. -/
def publicPersistence (serialization : Serialization F) (toInt64 : Bytes → Option Int64) :
    Program.Handler (PublicIf F) Store
  | .sync call, store => syncPersistence serialization call store
  | .saveDocument doc, store =>
      (SyncPersistence.saveDocument serialization doc).run rockHandle store
  | .loadDocument docId, store =>
      (SyncPersistence.loadDocument serialization docId).run rockHandle store
  | .listUnusedDocuments limit, store =>
      (SyncPersistence.listUnusedDocuments limit).run rockHandle store
  | .deleteOldUnusedDocuments startTime minAge limit, store =>
      (SyncPersistence.deleteOldUnusedDocuments toInt64 startTime minAge limit).run rockHandle store
  | .saveCentroid id centroid, store =>
      (SyncPersistence.saveCentroid serialization id centroid).run rockHandle store
  | .loadCentroid id, store => (SyncPersistence.loadCentroid serialization id).run rockHandle store
  | .loadCentroidUniqueOption id, store =>
      (SyncPersistence.loadCentroidUniqueOption serialization id).run rockHandle store
  | .getCentroidMetadata centroidId metadataName, store =>
      (SyncPersistence.getCentroidMetadata centroidId metadataName).run rockHandle store
  | .setCentroidMetadata centroidId metadataName value, store =>
      (SyncPersistence.setCentroidMetadata centroidId metadataName value).run rockHandle store
  | .debugEraseAllData, _ => ((), ∅)

/-- What every public call answers and how it changes the archive. A saved document comes back as
`readDocument` says, and deletions are counted only towards a limit. -/
def Archive.prescribed (readDocument : ProcessedDocument F → ProcessedDocument F) :
    Program.Handler (PublicIf F) (Archive F)
  | .sync call, archive => ((Catalogue.prescribed call archive.catalogue).1, archive.afterSync call)
  | .saveDocument doc, archive => (.ok true, archive.saveDocument doc)
  | .loadDocument d, archive =>
      (some (match archive.document d with
        | none => .error .eDocumentDoesNotExist
        | some doc => .ok (readDocument doc)), archive)
  | .listUnusedDocuments limit, archive => (SyncPersistence.upTo limit 0 archive.unused, archive)
  | .deleteOldUnusedDocuments startTime minAge limit, archive =>
      let deleted := archive.outdated (startTime - minAge) limit
      (some (if 0 < limit then deleted.length else 0), deleted.foldl Archive.removeDocument archive)
  | .saveCentroid c centroid, archive => (.ok true, archive.saveCentroid c centroid)
  | .loadCentroid c, archive =>
      (some (match archive.centroid c with
        | none => .error .eCentroidDoesNotExist
        | some centroid => .ok centroid), archive)
  | .loadCentroidUniqueOption c, archive => (some (archive.centroid c), archive)
  | .getCentroidMetadata c metadataName, archive => (archive.metadata c metadataName, archive)
  | .setCentroidMetadata c metadataName value, archive =>
      (.ok true, archive.setMetadata c metadataName value)
  | .debugEraseAllData, _ => ((), .empty)

end Handlers

end Relevanced.Persistence

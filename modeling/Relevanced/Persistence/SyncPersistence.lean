import Relevanced.Models
import Relevanced.Persistence.Keys

/-!
# SyncPersistence

The operations of `SyncPersistence` as programs over the key-value store, in the
order of the source file.
-/

namespace Relevanced.Persistence

open Foundation
open Models

set_option autoImplicit false

/-- The exceptions of `RelevancedProtocol.thrift` that `SyncPersistence` returns. -/
inductive ProtocolException where
  | eDocumentAlreadyExists
  | eDocumentDoesNotExist
  | eCentroidAlreadyExists
  | eCentroidDoesNotExist
  | eDocumentAlreadyInCentroid
  | eDocumentNotInCentroid
  deriving DecidableEq

/-- `folly::Try`: a value or a returned exception. -/
abbrev Try (α : Type) := Except ProtocolException α

namespace SyncPersistence

/-- `key.substr(key.find(':') + 1)`. -/
def idOfKey (key : Bytes) : Bytes := afterFirst colon key

/-- The iteration behind every complete listing. -/
def listIds (label : Bytes) : RockProgram (List Bytes) := do
  let (_, ids) ← iterPrefix label (collecting idOfKey) []
  pure ids

def listIdsFromOffset (label : Bytes) (offset limit : Nat) : RockProgram (List Bytes) := do
  let (_, ids) ← iterPrefixFromOffset label offset limit (collecting idOfKey) []
  pure ids

def listIdsFromMember (label member : Bytes) (limit : Nat) : RockProgram (List Bytes) := do
  let (_, ids) ← iterPrefixFromMember label member limit (collecting idOfKey) []
  pure ids

/-- The iteration behind both deletes: every key under the label goes. -/
def eraseUnderPrefix (label : Bytes) : RockProgram Unit := do
  let _ ← iterPrefix label erasing ()
  pure ()

section Documents

variable {F : Type} (serialization : Serialization F)

/-- `folly::to<int64_t>` is the parameter `toInt64`; where it throws, so does this (`none`). -/
def getDocumentCreatedTime (toInt64 : Bytes → Option Int64) (id : Bytes) :
    RockProgram (Option (Option Int64)) := do
  match ← get (getDocumentMetadataKey id (ascii "created_time")) with
  | none => pure (some none)
  | some data => pure ((toInt64 data).map some)

def setDocumentCreatedTime (id : Bytes) (created : Int) : RockProgram Unit := do
  let _ ← put (getDocumentMetadataKey id (ascii "created_time")) (ascii (toString created))
  pure ()

/-- Whether anything is iterated; the callback escapes at once. -/
def isDocumentInAnyCentroid (documentId : Bytes) : RockProgram Bool := do
  let (iterated, _) ← iterPrefix (getDocumentCentroidsPrefix documentId)
    (fun _ _ captured => pure (captured, true)) ()
  pure iterated

def listDocumentCentroids (documentId : Bytes) : RockProgram (List Bytes) :=
  listIds (getDocumentCentroidsPrefix documentId)

def doesDocumentExist (id : Bytes) : RockProgram Bool := existsKey (getDocumentKey id)

/-- The creation time is an unsigned number stored as a signed one. -/
def saveDocument (doc : ProcessedDocument F) : RockProgram (Try Bool) := do
  let _ ← put (getDocumentKey doc.id) (serialization.binarySerializeDocument doc)
  setDocumentCreatedTime doc.id doc.created.toInt64.toInt
  pure (.ok true)

def saveNewDocument (doc : ProcessedDocument F) : RockProgram (Try Bool) := do
  if ← doesDocumentExist doc.id then
    pure (.error .eDocumentAlreadyExists)
  else saveDocument serialization doc

def deleteDocument (id : Bytes) : RockProgram (Try Bool) := do
  if ← del (getDocumentKey id) then
    eraseUnderPrefix (getDocumentCentroidsPrefix id)
    eraseUnderPrefix (documentMetadataPrefix id)
    pure (.ok true)
  else pure (.error .eDocumentDoesNotExist)

/-- The callback looks every document up while the iteration goes on; a limit of 0 is none. -/
def listUnusedDocuments (limit : Nat) : RockProgram (List Bytes) := do
  let (_, docIds, _) ← iterPrefix getDocumentsPrefix
    (fun key _ (docIds, numSeen) => do
      let id := idOfKey key
      if ← isDocumentInAnyCentroid id then pure ((docIds, numSeen), false)
      else if limit > 0 then
        pure ((docIds ++ [id], numSeen + 1), decide (numSeen + 1 ≥ limit))
      else pure ((docIds ++ [id], numSeen), false))
    (([], 0) : List Bytes × Nat)
  pure docIds

/-- The callback deletes from the range that is iterated. Documents are counted only towards a
limit. `none` stands for the exception of an unreadable creation time, which leaves the loop. -/
def deleteOldUnusedDocuments (toInt64 : Bytes → Option Int64) (startTime minAge : Int64)
    (limit : Nat) : RockProgram (Option Nat) := do
  let cutoff := startTime - minAge
  let (_, numSeen, threw) ← iterPrefix getDocumentsPrefix
    (fun key _ (numSeen, threw) => do
      let id := idOfKey key
      if ← isDocumentInAnyCentroid id then pure ((numSeen, threw), false)
      else
        match ← getDocumentCreatedTime toInt64 id with
        | none => pure ((numSeen, true), true)
        | some createdTime =>
            if createdTime.all (· < cutoff) then do
              let _ ← deleteDocument id
              if limit > 0 then pure ((numSeen + 1, threw), decide (numSeen + 1 ≥ limit))
              else pure ((numSeen, threw), false)
            else pure ((numSeen, threw), false))
    ((0, false) : Nat × Bool)
  pure (if threw then none else some numSeen)

def listAllDocuments : RockProgram (List Bytes) := listIds getDocumentsPrefix

def listDocumentRangeFromId (startingDocumentId : Bytes) (numToGet : Nat) :
    RockProgram (List Bytes) :=
  listIdsFromMember getDocumentsPrefix startingDocumentId numToGet

def listDocumentRangeFromOffset (offset numToGet : Nat) : RockProgram (List Bytes) :=
  listIdsFromOffset getDocumentsPrefix offset numToGet

/-- `none` stands for the exception that an undecodable body throws out of the call. -/
def loadDocument (docId : Bytes) : RockProgram (Option (Try (ProcessedDocument F))) := do
  match ← get (getDocumentKey docId) with
  | none => pure (some (.error .eDocumentDoesNotExist))
  | some serialized =>
      match serialization.binaryDeserializeDocument serialized with
      | none => pure none
      | some processed => pure (some (.ok processed))

end Documents

section Centroids

variable {F : Type} (serialization : Serialization F)

def doesCentroidExist (id : Bytes) : RockProgram Bool := existsKey (getCentroidKey id)

def saveCentroid (id : Bytes) (centroid : Centroid F) : RockProgram (Try Bool) := do
  let _ ← put (getCentroidKey id) (serialization.binarySerializeCentroid centroid)
  pure (.ok true)

def createNewCentroid [Zero F] [One F] (id : Bytes) : RockProgram (Try Bool) := do
  if ← existsKey (getCentroidKey id) then
    pure (.error .eCentroidAlreadyExists)
  else
    let _ ← saveCentroid serialization id (Centroid.new id)
    pure (.ok true)

def deleteCentroid (id : Bytes) : RockProgram (Try Bool) := do
  if ← del (getCentroidKey id) then
    eraseUnderPrefix (getCentroidDocumentPrefix id)
    eraseUnderPrefix (centroidMetadataPrefix id)
    pure (.ok true)
  else pure (.error .eCentroidDoesNotExist)

/-- Here too `none` stands for an exception that is thrown. -/
def loadCentroid (id : Bytes) : RockProgram (Option (Try (Centroid F))) := do
  match ← get (getCentroidKey id) with
  | none => pure (some (.error .eCentroidDoesNotExist))
  | some serialized =>
      match serialization.binaryDeserializeCentroid serialized with
      | none => pure none
      | some centroidRes => pure (some (.ok centroidRes))

def loadCentroidUniqueOption (id : Bytes) : RockProgram (Option (Option (Centroid F))) := do
  match ← get (getCentroidKey id) with
  | none => pure (some none)
  | some serialized =>
      match serialization.binaryDeserializeCentroid serialized with
      | none => pure none
      | some centroid => pure (some (some centroid))

def listAllCentroids : RockProgram (List Bytes) := listIds getCentroidsPrefix

def listCentroidRangeFromOffset (offset limit : Nat) : RockProgram (List Bytes) :=
  listIdsFromOffset getCentroidsPrefix offset limit

def listCentroidRangeFromId (startingCentroidId : Bytes) (limit : Nat) :
    RockProgram (List Bytes) :=
  listIdsFromMember getCentroidsPrefix startingCentroidId limit

end Centroids

section Membership

/-- The value of both membership records. -/
def memberValue : Bytes := ascii "1"

def addDocumentToCentroid (centroidId documentId : Bytes) : RockProgram (Try Bool) := do
  if ← doesCentroidExist centroidId then
    if ← doesDocumentExist documentId then
      if ← existsKey (getCentroidDocumentKey centroidId documentId) then
        pure (.error .eDocumentAlreadyInCentroid)
      else
        let _ ← put (getCentroidDocumentKey centroidId documentId) memberValue
        let _ ← put (getDocumentCentroidKey documentId centroidId) memberValue
        pure (.ok true)
    else pure (.error .eDocumentDoesNotExist)
  else pure (.error .eCentroidDoesNotExist)

def removeDocumentFromCentroid (centroidId documentId : Bytes) : RockProgram (Try Bool) := do
  if ← doesCentroidExist centroidId then
    if ← doesDocumentExist documentId then
      let _ ← del (getDocumentCentroidKey documentId centroidId)
      if ← del (getCentroidDocumentKey centroidId documentId) then
        pure (.ok true)
      else pure (.error .eDocumentNotInCentroid)
    else pure (.error .eDocumentDoesNotExist)
  else pure (.error .eCentroidDoesNotExist)

/-- The membership record is looked up before the centroid. -/
def doesCentroidHaveDocument (centroidId documentId : Bytes) : RockProgram (Try Bool) := do
  if ← existsKey (getCentroidDocumentKey centroidId documentId) then pure (.ok true)
  else if ← doesCentroidExist centroidId then pure (.ok false)
  else pure (.error .eCentroidDoesNotExist)

/-- An empty listing is an error exactly when the centroid is missing. -/
def unlessMissing (centroidId : Bytes) (listing : RockProgram (List Bytes)) :
    RockProgram (Try (List Bytes)) := do
  let docs ← listing
  if docs.isEmpty then
    if ← doesCentroidExist centroidId then pure (.ok docs)
    else pure (.error .eCentroidDoesNotExist)
  else pure (.ok docs)

/-- The `Option` variants of the listings make the same test. -/
def unlessMissingOption (centroidId : Bytes) (listing : RockProgram (List Bytes)) :
    RockProgram (Option (List Bytes)) := do
  let docs ← listing
  if docs.isEmpty then
    if ← doesCentroidExist centroidId then pure (some docs)
    else pure none
  else pure (some docs)

def listAllDocumentsForCentroidRaw (centroidId : Bytes) : RockProgram (List Bytes) :=
  listIds (getCentroidDocumentPrefix centroidId)

def listAllDocumentsForCentroid (centroidId : Bytes) : RockProgram (Try (List Bytes)) :=
  unlessMissing centroidId (listAllDocumentsForCentroidRaw centroidId)

def listAllDocumentsForCentroidOption (centroidId : Bytes) :
    RockProgram (Option (List Bytes)) :=
  unlessMissingOption centroidId (listAllDocumentsForCentroidRaw centroidId)

def listCentroidDocumentRangeFromOffsetRaw (centroidId : Bytes) (offset limit : Nat) :
    RockProgram (List Bytes) :=
  listIdsFromOffset (getCentroidDocumentPrefix centroidId) offset limit

def listCentroidDocumentRangeFromOffsetOption (centroidId : Bytes) (offset limit : Nat) :
    RockProgram (Option (List Bytes)) :=
  unlessMissingOption centroidId (listCentroidDocumentRangeFromOffsetRaw centroidId offset limit)

def listCentroidDocumentRangeFromOffset (centroidId : Bytes) (offset limit : Nat) :
    RockProgram (Try (List Bytes)) :=
  unlessMissing centroidId (listCentroidDocumentRangeFromOffsetRaw centroidId offset limit)

def listCentroidDocumentRangeFromDocumentIdRaw (centroidId startingDocumentId : Bytes)
    (limit : Nat) : RockProgram (List Bytes) :=
  listIdsFromMember (getCentroidDocumentPrefix centroidId) startingDocumentId limit

def listCentroidDocumentRangeFromDocumentIdOption (centroidId documentId : Bytes)
    (limit : Nat) : RockProgram (Option (List Bytes)) :=
  unlessMissingOption centroidId
    (listCentroidDocumentRangeFromDocumentIdRaw centroidId documentId limit)

def listCentroidDocumentRangeFromDocumentId (centroidId documentId : Bytes) (limit : Nat) :
    RockProgram (Try (List Bytes)) :=
  unlessMissing centroidId
    (listCentroidDocumentRangeFromDocumentIdRaw centroidId documentId limit)

end Membership

section Metadata

def getCentroidMetadata (centroidId metadataName : Bytes) : RockProgram (Option Bytes) :=
  get (getCentroidMetadataKey centroidId metadataName)

def setCentroidMetadata (centroidId metadataName value : Bytes) : RockProgram (Try Bool) := do
  let _ ← put (getCentroidMetadataKey centroidId metadataName) value
  pure (.ok true)

end Metadata

end SyncPersistence

end Relevanced.Persistence

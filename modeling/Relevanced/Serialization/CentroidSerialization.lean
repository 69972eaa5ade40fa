import Relevanced.Serialization.BinarySerialization

/-!
# The binary form of word vectors and centroids

Both are written as Thrift records field by field, and come back as they were. With the form
of documents this makes up what `SyncPersistence` stores.
-/

namespace Relevanced.Serialization

open Foundation
open Models

set_option autoImplicit false

structure WordVectorDTO (F : Type) where
  magnitude : F
  documentWeight : F
  scores : OrderedMap Bytes F

structure CentroidDTO (F : Type) where
  id : Bytes
  wordVector : WordVectorDTO F

section Records

variable {F : Type}

def WordVectorDTO.ofVector (target : WordVector F) : WordVectorDTO F where
  magnitude := target.magnitude
  documentWeight := target.documentWeight
  scores := target.scores

def WordVectorDTO.vector (vecDto : WordVectorDTO F) : WordVector F where
  scores := vecDto.scores
  magnitude := vecDto.magnitude
  documentWeight := vecDto.documentWeight

def CentroidDTO.ofCentroid (target : Centroid F) : CentroidDTO F where
  id := target.id
  wordVector := .ofVector target.wordVector

/-- What is filled in in a fresh centroid. -/
def CentroidDTO.centroid (docDto : CentroidDTO F) : Centroid F where
  id := docDto.id
  wordVector := docDto.wordVector.vector

@[simp] theorem centroid_of_centroid (target : Centroid F) :
    (CentroidDTO.ofCentroid target).centroid = target := rfl

def binarySerializeCentroid (thrift : ThriftBinary (CentroidDTO F)) (target : Centroid F) : Bytes :=
  thrift.serialize (.ofCentroid target)

def binaryDeserializeCentroid (thrift : ThriftBinary (CentroidDTO F)) (data : Bytes) :
    Option (Centroid F) := (thrift.deserialize data).map CentroidDTO.centroid

theorem deserialize_serialize_centroid {thrift : ThriftBinary (CentroidDTO F)}
    (decodes : thrift.Decodes) (target : Centroid F) :
    binaryDeserializeCentroid thrift (binarySerializeCentroid thrift target) = some target := by
  rw [binaryDeserializeCentroid, binarySerializeCentroid, decodes, Option.map_some,
    centroid_of_centroid]

end Records

section Both

variable {F : Type}

/-- The document that is read where the given one has been written. -/
def readBack (doc : ProcessedDocument F) : ProcessedDocument F :=
  (ProcessedDocumentPersistenceDTO.ofDocument doc).document

@[simp] theorem read_back_id (doc : ProcessedDocument F) : (readBack doc).id = doc.id := rfl

@[simp] theorem read_back_magnitude (doc : ProcessedDocument F) :
    (readBack doc).magnitude = doc.magnitude := rfl

@[simp] theorem read_back_created (doc : ProcessedDocument F) :
    (readBack doc).created = doc.created := UInt64.toUInt64_toInt64 doc.created

@[simp] theorem read_back_updated (doc : ProcessedDocument F) :
    (readBack doc).updated = doc.updated := UInt64.toUInt64_toInt64 doc.updated

/-- What `SyncPersistence` uses of the serializers. -/
def thriftSerialization (documents : ThriftBinary (ProcessedDocumentPersistenceDTO F))
    (centroids : ThriftBinary (CentroidDTO F)) : Models.Serialization F where
  binarySerializeDocument := binarySerialize documents
  binaryDeserializeDocument := binaryDeserialize documents
  binarySerializeCentroid := binarySerializeCentroid centroids
  binaryDeserializeCentroid := binaryDeserializeCentroid centroids

end Both

section Wire

variable {F : Type} (score : WireFormat F)

def wireScoreMap : WireFormat (OrderedMap Bytes F) :=
  (WireFormat.bytes.pair score).list.as (fun scores => scores.toList) OrderedMap.ofEntries
    OrderedMap.ofEntries_toList

def wireWordVector : WireFormat (WordVectorDTO F) :=
  (score.pair (score.pair (wireScoreMap score))).as
    (fun dto => (dto.magnitude, dto.documentWeight, dto.scores))
    (fun fields => ⟨fields.1, fields.2.1, fields.2.2⟩) fun _ => rfl

def wireCentroid : WireFormat (CentroidDTO F) :=
  (WireFormat.bytes.pair (wireWordVector score)).as (fun dto => (dto.id, dto.wordVector))
    (fun fields => ⟨fields.1, fields.2⟩) fun _ => rfl

end Wire

end Relevanced.Serialization

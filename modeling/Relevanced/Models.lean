import Relevanced.Foundation.ByteString
import Relevanced.Foundation.OrderedMap

/-!
# Documents, word vectors and centroids

The records of `src/models` and `src/text_util`, over a type `F` of scores in
place of `double`. The encoding of records as byte strings is Thrift's binary
protocol, which is outside the repository: it is the parameter `Serialization`,
and nothing is assumed about it here.
-/

namespace Relevanced.Models

open Foundation

set_option autoImplicit false

/-- `thrift_protocol::Language`. A value that the enumeration does not list can be received. -/
inductive Language where
  | de
  | en
  | es
  | fr
  | it
  | ru
  | other
  | unlisted (value : Int)
  deriving DecidableEq

structure Document where
  id : Bytes
  text : Bytes
  language : Language

structure ScoredWord (F : Type) where
  word : Vector Byte 24
  score : F

structure ProcessedDocument (F : Type) where
  id : Bytes
  sha1Hash : Option Bytes
  scoredWords : List (ScoredWord F)
  magnitude : F
  created : UInt64
  updated : UInt64

structure WordVector (F : Type) where
  scores : OrderedMap Bytes F
  magnitude : F
  documentWeight : F

structure Centroid (F : Type) where
  id : Bytes
  wordVector : WordVector F

/-- The vector of a default-constructed `WordVector`: no scores, magnitude 0, weight 1. -/
def WordVector.empty {F : Type} [Zero F] [One F] : WordVector F where
  scores := ∅
  magnitude := 0
  documentWeight := 1

/-- `Centroid(id)`: the centroid of no documents. -/
def Centroid.new {F : Type} [Zero F] [One F] (id : Bytes) : Centroid F where
  id := id
  wordVector := WordVector.empty

/-- `serialization::binarySerialize` and `binaryDeserialize`; a failed decoding is `none`. -/
structure Serialization (F : Type) where
  binarySerializeDocument : ProcessedDocument F → Bytes
  binaryDeserializeDocument : Bytes → Option (ProcessedDocument F)
  binarySerializeCentroid : Centroid F → Bytes
  binaryDeserializeCentroid : Bytes → Option (Centroid F)

def ProcessedDocument.bare {F : Type} [Zero F] (id : Bytes) : ProcessedDocument F where
  id := id
  sha1Hash := none
  scoredWords := []
  magnitude := 0
  created := 0
  updated := 0

/-- An encoding that keeps the id only: bare documents and new centroids survive it. -/
def Serialization.idsOnly {F : Type} [Zero F] [One F] : Serialization F where
  binarySerializeDocument doc := doc.id
  binaryDeserializeDocument data := some (.bare data)
  binarySerializeCentroid centroid := centroid.id
  binaryDeserializeCentroid data := some (.new data)

end Relevanced.Models

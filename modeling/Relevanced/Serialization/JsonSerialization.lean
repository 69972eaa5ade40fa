import Mathlib.Data.List.Perm.Basic
import Relevanced.Serialization.BinarySerialization

/-!
# The JSON form of centroids, word vectors and documents

Each record has a constructor that makes a `folly::dynamic` of it, and a converter that
reads one. The library itself is a parameter: objects and the conversions of strings,
numbers and maps, and the text of a dynamic value.
-/

namespace Relevanced.Serialization

open Foundation
open Models
open TextUtil

set_option autoImplicit false

/-- What is used of folly. Nothing is where it throws. -/
structure Folly (F : Type) where
  Dynamic : Type
  object : List (Bytes × Dynamic) → Dynamic
  field : Dynamic → Bytes → Option Dynamic
  ofString : Bytes → Dynamic
  asString : Dynamic → Option Bytes
  ofDouble : F → Dynamic
  asDouble : Dynamic → Option F
  ofUInt64 : UInt64 → Dynamic
  asUInt64 : Dynamic → Option UInt64
  ofScores : OrderedMap Bytes F → Dynamic
  asScores : Dynamic → Option (OrderedMap Bytes F)
  toJson : Dynamic → Bytes
  parseJson : Bytes → Option Dynamic

/-- The conversions are inverse to each other, and an object has the fields that it is made of. -/
structure Folly.Inverse {F : Type} (folly : Folly F) : Prop where
  field : ∀ fields key value, (fields.map Prod.fst).Nodup → (key, value) ∈ fields →
    folly.field (folly.object fields) key = some value
  absent : ∀ fields key, key ∉ fields.map Prod.fst → folly.field (folly.object fields) key = none
  string : ∀ value, folly.asString (folly.ofString value) = some value
  double : ∀ value, folly.asDouble (folly.ofDouble value) = some value
  uint64 : ∀ value, folly.asUInt64 (folly.ofUInt64 value) = some value
  scores : ∀ value, folly.asScores (folly.ofScores value) = some value
  json : ∀ value, folly.parseJson (folly.toJson value) = some value

section Converters

variable {F : Type} (folly : Folly F)

/-- `DynamicConstructor<WordVector>`. -/
def constructWordVector (wordVec : WordVector F) : folly.Dynamic :=
  folly.object [
    (ascii "magnitude", folly.ofDouble wordVec.magnitude),
    (ascii "scores", folly.ofScores wordVec.scores),
    (ascii "documentWeight", folly.ofDouble wordVec.documentWeight)]

/-- `DynamicConverter<WordVector>`. -/
def convertWordVector (dyn : folly.Dynamic) : Option (WordVector F) := do
  let scores ← (folly.field dyn (ascii "scores")).bind folly.asScores
  let magnitude ← (folly.field dyn (ascii "magnitude")).bind folly.asDouble
  let weight ← (folly.field dyn (ascii "documentWeight")).bind folly.asDouble
  some { scores := scores, magnitude := magnitude, documentWeight := weight }

/-- `DynamicConstructor<Centroid>`: the word vector is converted, and left out. -/
def constructCentroid (doc : Centroid F) : folly.Dynamic :=
  folly.object [(ascii "id", folly.ofString doc.id)]

/-- `DynamicConverter<Centroid>`. -/
def convertCentroid (dyn : folly.Dynamic) : Option (Centroid F) := do
  let wordVec ← (folly.field dyn (ascii "wordVector")).bind (convertWordVector folly)
  let id ← (folly.field dyn (ascii "id")).bind folly.asString
  some { id := id, wordVector := wordVec }

/-- The first word of several under one string is kept. -/
def insertScore (scores : OrderedMap Bytes F) (elem : ScoredWord F) : OrderedMap Bytes F :=
  match scores[elem.key]? with
  | none => scores.insert elem.key elem.score
  | some _ => scores

/-- `DynamicConstructor<ProcessedDocument>`. -/
def constructDocument [One F] (doc : ProcessedDocument F) : folly.Dynamic :=
  folly.object [
    (ascii "id", folly.ofString doc.id),
    (ascii "wordVector", constructWordVector folly {
      scores := doc.scoredWords.foldl insertScore ∅
      magnitude := doc.magnitude
      documentWeight := 1 }),
    (ascii "created", folly.ofUInt64 doc.created),
    (ascii "updated", folly.ofUInt64 doc.updated),
    (ascii "sha1Hash", folly.ofString (writeHash doc.sha1Hash))]

/-- `DynamicConverter<ProcessedDocument>`: the magnitude of the new document is not initialised, and
is whatever the memory holds. -/
def convertDocument (uninitialised : F) (dyn : folly.Dynamic) : Option (ProcessedDocument F) := do
  let id ← (folly.field dyn (ascii "id")).bind folly.asString
  let updated ← (folly.field dyn (ascii "updated")).bind folly.asUInt64
  let created ← (folly.field dyn (ascii "created")).bind folly.asUInt64
  let hash ← (folly.field dyn (ascii "sha1Hash")).bind folly.asString
  some {
    id := id
    sha1Hash := readHash hash
    scoredWords := []
    magnitude := uninitialised
    created := created
    updated := updated }

def jsonSerializeWordVector (wordVector : WordVector F) : Bytes :=
  folly.toJson (constructWordVector folly wordVector)

def jsonDeserializeWordVector (js : Bytes) : Option (WordVector F) :=
  (folly.parseJson js).bind (convertWordVector folly)

def jsonSerializeCentroid (document : Centroid F) : Bytes :=
  folly.toJson (constructCentroid folly document)

def jsonDeserializeCentroid (js : Bytes) : Option (Centroid F) :=
  (folly.parseJson js).bind (convertCentroid folly)

def jsonSerializeDocument [One F] (document : ProcessedDocument F) : Bytes :=
  folly.toJson (constructDocument folly document)

def jsonDeserializeDocument (uninitialised : F) (js : Bytes) : Option (ProcessedDocument F) :=
  (folly.parseJson js).bind (convertDocument folly uninitialised)

end Converters

section RoundTrip

variable {F : Type} {folly : Folly F}

structure SameContents (left right : ProcessedDocument F) : Prop where
  id : left.id = right.id
  sha1Hash : left.sha1Hash = right.sha1Hash
  scoredWords : (left.scoredWords.map fun elem => (elem.key, elem.score)).Perm
    (right.scoredWords.map fun elem => (elem.key, elem.score))
  magnitude : left.magnitude = right.magnitude
  created : left.created = right.created
  updated : left.updated = right.updated

theorem word_vector_converted (inverse : folly.Inverse) (wordVec : WordVector F) :
    convertWordVector folly (constructWordVector folly wordVec) = some wordVec := by
  have distinct : [ascii "magnitude", ascii "scores", ascii "documentWeight"].Nodup := by
    decide
  have stored := fun key value => inverse.field [
    (ascii "magnitude", folly.ofDouble wordVec.magnitude),
    (ascii "scores", folly.ofScores wordVec.scores),
    (ascii "documentWeight", folly.ofDouble wordVec.documentWeight)] key value distinct
  rw [convertWordVector, constructWordVector,
    stored (ascii "scores") (folly.ofScores wordVec.scores) (by simp),
    stored (ascii "magnitude") (folly.ofDouble wordVec.magnitude) (by simp),
    stored (ascii "documentWeight") (folly.ofDouble wordVec.documentWeight) (by simp)]
  simp [inverse.scores, inverse.double]

theorem word_vector_round_trip (inverse : folly.Inverse) (wordVector : WordVector F) :
    jsonDeserializeWordVector folly (jsonSerializeWordVector folly wordVector) =
      some wordVector := by
  rw [jsonDeserializeWordVector, jsonSerializeWordVector, inverse.json, Option.bind_some,
    word_vector_converted inverse]

theorem centroid_fails (inverse : folly.Inverse) (document : Centroid F) :
    jsonDeserializeCentroid folly (jsonSerializeCentroid folly document) = none := by
  have absent : folly.field (constructCentroid folly document) (ascii "wordVector") = none := by
    apply inverse.absent
    change ascii "wordVector" ∉ [ascii "id"]
    decide
  rw [jsonDeserializeCentroid, jsonSerializeCentroid, inverse.json, Option.bind_some,
    convertCentroid, absent]
  rfl

/-- What comes back of a document: no words, and a magnitude that is not its own. -/
theorem document_decoded [One F] (inverse : folly.Inverse) (uninitialised : F)
    (document : ProcessedDocument F) :
    jsonDeserializeDocument folly uninitialised (jsonSerializeDocument folly document) =
      some { document with
        sha1Hash := if document.sha1Hash = some [] then none else document.sha1Hash
        scoredWords := []
        magnitude := uninitialised } := by
  have distinct : [ascii "id", ascii "wordVector", ascii "created", ascii "updated",
      ascii "sha1Hash"].Nodup := by
    decide
  have stored := fun key value => inverse.field [
    (ascii "id", folly.ofString document.id),
    (ascii "wordVector", constructWordVector folly {
      scores := document.scoredWords.foldl insertScore ∅
      magnitude := document.magnitude
      documentWeight := 1 }),
    (ascii "created", folly.ofUInt64 document.created),
    (ascii "updated", folly.ofUInt64 document.updated),
    (ascii "sha1Hash", folly.ofString (writeHash document.sha1Hash))] key value distinct
  rw [jsonDeserializeDocument, jsonSerializeDocument, inverse.json, Option.bind_some,
    convertDocument, constructDocument, stored (ascii "id") (folly.ofString document.id) (by simp),
    stored (ascii "updated") (folly.ofUInt64 document.updated) (by simp),
    stored (ascii "created") (folly.ofUInt64 document.created) (by simp),
    stored (ascii "sha1Hash") (folly.ofString (writeHash document.sha1Hash)) (by simp)]
  simp only [Option.bind_some, inverse.string, inverse.uint64, Option.bind_eq_bind]
  rw [read_written_hash]

inductive Jsonable (F : Type) where
  | centroid (centroid : Centroid F)
  | wordVector (wordVector : WordVector F)
  | document (document : ProcessedDocument F)

def RoundTrips [One F] (folly : Folly F) (uninitialised : F) : Jsonable F → Prop
  | .centroid centroid =>
      jsonDeserializeCentroid folly (jsonSerializeCentroid folly centroid) = some centroid
  | .wordVector wordVector =>
      jsonDeserializeWordVector folly (jsonSerializeWordVector folly wordVector) = some wordVector
  | .document document =>
      ∃ result, jsonDeserializeDocument folly uninitialised (jsonSerializeDocument folly document) =
        some result ∧ SameContents result document

def NothingLost (uninitialised : F) : Jsonable F → Prop
  | .centroid _ => False
  | .wordVector _ => True
  | .document document => document.scoredWords = [] ∧ document.magnitude = uninitialised ∧
      document.sha1Hash ≠ some []

def DistinctWords : Jsonable F → Prop
  | .document document => (document.scoredWords.map ScoredWord.key).Nodup
  | _ => True

theorem json_round_trip_iff [One F] (inverse : folly.Inverse) (uninitialised : F)
    (record : Jsonable F)
    (distinct : DistinctWords record) :
    RoundTrips folly uninitialised record ↔ NothingLost uninitialised record := by
  cases record with
  | centroid centroid => simp [RoundTrips, NothingLost, centroid_fails inverse]
  | wordVector wordVector => simp [RoundTrips, NothingLost, word_vector_round_trip inverse]
  | document document =>
      rw [RoundTrips, NothingLost, document_decoded inverse]
      constructor
      · rintro ⟨result, decoded, same⟩
        cases decoded
        refine ⟨?_, same.magnitude.symm, ?_⟩
        · simpa using same.scoredWords
        · intro empty
          have hash := same.sha1Hash
          simp [empty] at hash
      · rintro ⟨noWords, magnitude, notEmpty⟩
        refine ⟨_, rfl, ?_⟩
        constructor
        · rfl
        · simp [notEmpty]
        · simp [noWords]
        · exact magnitude.symm
        · rfl
        · rfl

end RoundTrip

section Texts

/-- The text of an object whose values are texts. -/
def wireObject : WireFormat (List (Bytes × Bytes)) := (WireFormat.bytes.pair WireFormat.bytes).list

def wireScores : WireFormat (List (Bytes × Nat)) := (WireFormat.bytes.pair WireFormat.number).list

def Folly.texts : Folly Nat where
  Dynamic := Bytes
  object := wireObject.write
  field dyn key := (wireObject.readWhole dyn).bind fun fields => fields.lookup key
  ofString := id
  asString := some
  ofDouble := WireFormat.number.write
  asDouble := WireFormat.number.readWhole
  ofUInt64 value := WireFormat.number.write value.toNat
  asUInt64 dyn := (WireFormat.number.readWhole dyn).map UInt64.ofNat
  ofScores scores := wireScores.write scores.toList
  asScores dyn := (wireScores.readWhole dyn).map OrderedMap.ofEntries
  toJson := id
  parseJson := some

theorem lookup_of_mem {κ ν : Type} [BEq κ] [LawfulBEq κ] {entries : List (κ × ν)} {key : κ}
    {value : ν}
    (distinct : (entries.map Prod.fst).Nodup) (member : (key, value) ∈ entries) :
    entries.lookup key = some value := by
  induction entries with
  | nil => simp at member
  | cons entry entries ih =>
      rw [List.map_cons, List.nodup_cons] at distinct
      rcases List.mem_cons.mp member with rfl | later
      · simp
      · have different : key ≠ entry.1 := by
          intro same
          apply distinct.1
          rw [← same]
          exact List.mem_map_of_mem later
        rw [List.lookup_cons, beq_false_of_ne different]
        exact ih distinct.2 later

theorem lookup_of_absent {κ ν : Type} [BEq κ] [LawfulBEq κ] {entries : List (κ × ν)} {key : κ}
    (absent : key ∉ entries.map Prod.fst) : entries.lookup key = none := by
  rw [List.lookup_eq_none_iff]
  intro entry member
  have different : key ≠ entry.1 := by
    intro same
    rw [same] at absent
    exact absent (List.mem_map_of_mem member)
  simpa using different

theorem texts_field (fields : List (Bytes × Bytes)) (key : Bytes) :
    Folly.texts.field (Folly.texts.object fields) key = fields.lookup key := by
  change (wireObject.readWhole (wireObject.write fields)).bind (fun fields => fields.lookup key) = _
  rw [wireObject.read_whole_write, Option.bind_some]

theorem texts_inverse : Folly.texts.Inverse where
  field fields key value distinct member :=
    (texts_field fields key).trans (lookup_of_mem distinct member)
  absent fields key missing := (texts_field fields key).trans (lookup_of_absent missing)
  string _ := rfl
  double := WireFormat.number.read_whole_write
  uint64 value := by
    change (WireFormat.number.readWhole (WireFormat.number.write value.toNat)).map _ = _
    rw [WireFormat.number.read_whole_write, Option.map_some, UInt64.ofNat_toNat]
  scores value := by
    change (wireScores.readWhole (wireScores.write value.toList)).map _ = _
    rw [wireScores.read_whole_write, Option.map_some, OrderedMap.ofEntries_toList]
  json _ := rfl

def fishVector : WordVector Nat where
  scores := OrderedMap.ofEntries [(ascii "fish", 1)]
  magnitude := 1
  documentWeight := 1

theorem fish_vector_round_trip : RoundTrips Folly.texts 0 (.wordVector fishVector) :=
  (json_round_trip_iff texts_inverse 0 (.wordVector fishVector) trivial).mpr trivial

/-- A new centroid cannot be read back. -/
theorem centroid_not_read_back :
    ¬ ∀ (folly : Folly Nat), folly.Inverse → ∀ (uninitialised : Nat) (record : Jsonable Nat),
      DistinctWords record → RoundTrips folly uninitialised record := by
  intro claim
  have readBack := claim Folly.texts texts_inverse 0 (.centroid (.new (ascii "centroid"))) trivial
  rw [RoundTrips, centroid_fails texts_inverse] at readBack
  cases readBack

end Texts

end Relevanced.Serialization

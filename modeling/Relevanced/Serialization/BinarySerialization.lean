import Mathlib.Data.List.Basic
import Relevanced.Foundation.WireFormat
import Relevanced.TextUtil.ScoredWord

/-!
# The binary form of documents

A document is written as a Thrift record, in which a word is the C string of its buffer
and an absent hash an empty string. Thrift's binary protocol is a parameter.
-/

namespace Relevanced.Serialization

open Foundation
open Models
open TextUtil

set_option autoImplicit false

structure ScoredWordDTO (F : Type) where
  wordBuff : Bytes
  score : F

structure ProcessedDocumentMetadataDTO where
  id : Bytes
  sha1Hash : Bytes
  created : Int64
  updated : Int64

structure ProcessedDocumentPersistenceDTO (F : Type) where
  metadata : ProcessedDocumentMetadataDTO
  scoredWords : List (ScoredWordDTO F)
  magnitude : F

/-- `thriftBinarySerialize` and `thriftBinaryDeserialize`, which throws where there is nothing. -/
structure ThriftBinary (T : Type) where
  serialize : T → Bytes
  deserialize : Bytes → Option T

/-- What has been encoded is decoded. -/
def ThriftBinary.Decodes {T : Type} (thrift : ThriftBinary T) : Prop :=
  ∀ dto, thrift.deserialize (thrift.serialize dto) = some dto

/-- An absent hash is written as an empty string. -/
def writeHash (sha1Hash : Option Bytes) : Bytes := sha1Hash.getD []

def readHash (hash : Bytes) : Option Bytes := if hash.length > 0 then some hash else none

theorem read_written_hash (sha1Hash : Option Bytes) :
    readHash (writeHash sha1Hash) = if sha1Hash = some [] then none else sha1Hash := by
  cases sha1Hash with
  | none => simp [readHash, writeHash]
  | some value =>
      cases value with
      | nil => simp [readHash, writeHash]
      | cons byte rest => simp [readHash, writeHash]

theorem read_written_hash_iff (sha1Hash : Option Bytes) :
    readHash (writeHash sha1Hash) = sha1Hash ↔ sha1Hash ≠ some [] := by
  rw [read_written_hash]
  by_cases empty : sha1Hash = some []
  · simp [empty]
  · simp [empty]

section Document

variable {F : Type}

def ScoredWordDTO.ofWord (elem : ScoredWord F) : ScoredWordDTO F where
  wordBuff := elem.key
  score := elem.score

def ProcessedDocumentPersistenceDTO.ofDocument (target : ProcessedDocument F) :
    ProcessedDocumentPersistenceDTO F where
  metadata :=
    { id := target.id
      sha1Hash := writeHash target.sha1Hash
      created := target.created.toInt64
      updated := target.updated.toInt64 }
  scoredWords := target.scoredWords.map .ofWord
  magnitude := target.magnitude

def ScoredWordDTO.word (elem : ScoredWordDTO F) : ScoredWord F :=
  let buffSize : Byte := Fin.ofNat 256 elem.wordBuff.length
  .scored elem.wordBuff buffSize elem.score

/-- What is filled in in a fresh document. -/
def ProcessedDocumentPersistenceDTO.document (docDto : ProcessedDocumentPersistenceDTO F) :
    ProcessedDocument F where
  id := docDto.metadata.id
  sha1Hash := readHash docDto.metadata.sha1Hash
  scoredWords := docDto.scoredWords.map ScoredWordDTO.word
  magnitude := docDto.magnitude
  created := docDto.metadata.created.toUInt64
  updated := docDto.metadata.updated.toUInt64

variable (thrift : ThriftBinary (ProcessedDocumentPersistenceDTO F))

def binarySerialize (target : ProcessedDocument F) : Bytes := thrift.serialize (.ofDocument target)

def binaryDeserialize (data : Bytes) : Option (ProcessedDocument F) :=
  (thrift.deserialize data).map ProcessedDocumentPersistenceDTO.document

/-- A word as the constructor makes it of letters: the source has at least as many as it is told. -/
def BuiltFromLetters (elem : ScoredWord F) : Prop :=
  ∃ (wordSource : Bytes) (length : Byte) (score : F), 0 ∉ wordSource ∧
    length.val ≤ wordSource.length ∧ elem = .scored wordSource length score

def visible (elem : ScoredWord F) : Bytes × Nat × F := (elem.key, elem.getSize, elem.score)

structure SameDocument (left right : ProcessedDocument F) : Prop where
  id : left.id = right.id
  sha1Hash : left.sha1Hash = right.sha1Hash
  scoredWords : left.scoredWords.map visible = right.scoredWords.map visible
  magnitude : left.magnitude = right.magnitude
  created : left.created = right.created
  updated : left.updated = right.updated

variable {thrift} {elem : ScoredWord F}

theorem length_key_of_built (built : BuiltFromLetters elem) :
    elem.key.length = min elem.getSize 22 ∧ elem.getSize ≤ 23 := by
  obtain ⟨wordSource, length, score, free, within, rfl⟩ := built
  rw [key_scored, get_size_scored, c_string_of_free free, List.length_take]
  omega

theorem key_free (elem : ScoredWord F) : 0 ∉ elem.key := c_string_free elem.word.toList

theorem visible_decoded (built : BuiltFromLetters elem) :
    visible (ScoredWordDTO.ofWord elem).word = (elem.key, elem.key.length, elem.score) := by
  have short : elem.key.length ≤ 22 := by
    rw [(length_key_of_built built).1]
    exact min_le_right _ _
  have size : (Fin.ofNat 256 elem.key.length).val = elem.key.length := by
    rw [Fin.val_ofNat]
    omega
  have key : (ScoredWordDTO.ofWord elem).word.key = elem.key := by
    rw [ScoredWordDTO.word, key_scored]
    simp only [ScoredWordDTO.ofWord, size, c_string_of_free (key_free elem)]
    exact List.take_of_length_le (by omega)
  have sizeBack : (ScoredWordDTO.ofWord elem).word.getSize = elem.key.length := by
    rw [ScoredWordDTO.word, get_size_scored]
    simp only [ScoredWordDTO.ofWord, size]
    omega
  rw [visible, key, sizeBack]
  rfl

theorem visible_decoded_iff (built : BuiltFromLetters elem) :
    visible (ScoredWordDTO.ofWord elem).word = visible elem ↔ elem.getSize ≠ 23 := by
  obtain ⟨length, atMost⟩ := length_key_of_built built
  rw [visible_decoded built, visible]
  simp only [Prod.mk.injEq, true_and, and_true]
  omega

theorem deserialize_serialize (decodes : thrift.Decodes) (doc : ProcessedDocument F) :
    binaryDeserialize thrift (binarySerialize thrift doc) =
      some (ProcessedDocumentPersistenceDTO.ofDocument doc).document := by
  rw [binaryDeserialize, binarySerialize, decodes]
  rfl

/-- A document comes back as it was exactly when no word has been cut and the hash is not empty. -/
theorem binary_round_trip_iff (decodes : thrift.Decodes) (doc : ProcessedDocument F)
    (built : ∀ elem ∈ doc.scoredWords, BuiltFromLetters elem) :
    (∃ result, binaryDeserialize thrift (binarySerialize thrift doc) = some result ∧
      SameDocument result doc) ↔
      (∀ elem ∈ doc.scoredWords, elem.getSize ≠ 23) ∧ doc.sha1Hash ≠ some [] := by
  have decoded := deserialize_serialize decodes doc
  have words : (ProcessedDocumentPersistenceDTO.ofDocument doc).document.scoredWords.map visible =
      doc.scoredWords.map visible ↔ ∀ elem ∈ doc.scoredWords, elem.getSize ≠ 23 := by
    have shape : (ProcessedDocumentPersistenceDTO.ofDocument doc).document.scoredWords.map visible =
        doc.scoredWords.map fun elem => visible (ScoredWordDTO.ofWord elem).word := by
      simp [ProcessedDocumentPersistenceDTO.ofDocument, ProcessedDocumentPersistenceDTO.document,
        Function.comp_def]
    rw [shape, List.map_inj_left]
    apply forall₂_congr
    intro elem member
    exact visible_decoded_iff (built elem member)
  constructor
  · rintro ⟨result, isResult, same⟩
    rw [decoded] at isResult
    cases isResult
    exact ⟨words.mp same.scoredWords, (read_written_hash_iff doc.sha1Hash).mp same.sha1Hash⟩
  · rintro ⟨uncut, notEmpty⟩
    refine ⟨_, decoded, ?_⟩
    constructor
    · rfl
    · exact (read_written_hash_iff doc.sha1Hash).mpr notEmpty
    · exact words.mpr uncut
    · rfl
    · exact UInt64.toUInt64_toInt64 doc.created
    · exact UInt64.toUInt64_toInt64 doc.updated

end Document

section Wire

variable {F : Type} (score : WireFormat F)

def wireInt64 : WireFormat Int64 :=
  WireFormat.number.as (fun value => value.toUInt64.toNat)
    (fun value => (UInt64.ofNat value).toInt64)
    (by simp)

def wireScoredWord : WireFormat (ScoredWordDTO F) :=
  (WireFormat.bytes.pair score).as (fun dto => (dto.wordBuff, dto.score))
    (fun fields => ⟨fields.1, fields.2⟩) fun _ => rfl

def wireMetadata : WireFormat ProcessedDocumentMetadataDTO :=
  (WireFormat.bytes.pair (WireFormat.bytes.pair (wireInt64.pair wireInt64))).as
    (fun dto => (dto.id, dto.sha1Hash, dto.created, dto.updated))
    (fun fields => ⟨fields.1, fields.2.1, fields.2.2.1, fields.2.2.2⟩) fun _ => rfl

def wireDocument : WireFormat (ProcessedDocumentPersistenceDTO F) :=
  (wireMetadata.pair ((wireScoredWord score).list.pair score)).as
    (fun dto => (dto.metadata, dto.scoredWords, dto.magnitude))
    (fun fields => ⟨fields.1, fields.2.1, fields.2.2⟩) fun _ => rfl

/-- An encoding of the record that decodes what it has encoded. -/
def ThriftBinary.wire {T : Type} (format : WireFormat T) : ThriftBinary T where
  serialize := format.write
  deserialize := format.readWhole

theorem wire_decodes {T : Type} (format : WireFormat T) : (ThriftBinary.wire format).Decodes :=
  format.read_whole_write

end Wire

def oneWord (wordSource : Bytes) : ProcessedDocument Nat where
  id := ascii "doc"
  sha1Hash := none
  scoredWords := [.new wordSource (Fin.ofNat 256 wordSource.length)]
  magnitude := 1
  created := 7
  updated := 7

theorem built_one_word {wordSource : Bytes} (free : 0 ∉ wordSource) :
    ∀ elem ∈ (oneWord wordSource).scoredWords, BuiltFromLetters elem := by
  intro elem member
  rw [List.mem_singleton.mp member]
  refine ⟨wordSource, Fin.ofNat 256 wordSource.length, 1, free, ?_, rfl⟩
  rw [Fin.val_ofNat]
  exact Nat.mod_le _ _

theorem fish_round_trip :
    ∃ result, binaryDeserialize (.wire (wireDocument WireFormat.number))
        (binarySerialize (.wire (wireDocument WireFormat.number)) (oneWord (ascii "fish"))) =
          some result ∧
      SameDocument result (oneWord (ascii "fish")) :=
  (binary_round_trip_iff (wire_decodes _) (oneWord (ascii "fish"))
    (built_one_word (by decide))).mpr (by decide +kernel)

/-- Of a word of 23 letters 22 come back, and the size says so. -/
theorem last_letter_not_written :
    ¬ ∀ (thrift : ThriftBinary (ProcessedDocumentPersistenceDTO Nat)), thrift.Decodes →
      ∀ doc : ProcessedDocument Nat, (∀ elem ∈ doc.scoredWords, BuiltFromLetters elem) →
        ∃ result, binaryDeserialize thrift (binarySerialize thrift doc) = some result ∧
          SameDocument result doc := by
  intro claim
  obtain ⟨result, decoded, same⟩ := claim (.wire (wireDocument WireFormat.number)) (wire_decodes _)
    (oneWord (ascii "electroencephalographic")) (built_one_word (by decide))
  rw [deserialize_serialize (wire_decodes _)] at decoded
  cases decoded
  exact absurd same.scoredWords (by decide +kernel)

end Relevanced.Serialization

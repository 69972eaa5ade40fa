import Relevanced.CentroidUpdate.CentroidUpdater
import Relevanced.DocumentProcessing.ProcessedVectors
import Relevanced.Models.CosineSimilarity

/-!
# Similarity of documents and centroids

The product that is taken word by word is bounded by the magnitudes for every centroid as
long as the words of the document are stored under different strings. Otherwise the
centroid of the document alone exceeds the bound.
-/

namespace Relevanced.DocumentProcessing

open CentroidUpdate
open Foundation
open Models
open TextUtil
open Tokenizer

set_option autoImplicit false

def centroidVector {F : Type} [Zero F] [One F] [Add F] [Mul F] [NatCast F] (sqrt : F → F)
    (centroidId : Bytes) (documents : List (ProcessedDocument F)) : WordVector F :=
  (CentroidUpdater.centroidOf sqrt centroidId
    (documents.foldl DocumentAccumulator.addDocument .new)).wordVector

/-- A processed document of a text no two different words of which have one hash. -/
def OfText (processor : DocumentProcessor ℝ) (hash : Bytes → UInt64)
    (document : ProcessedDocument ℝ) : Prop :=
  ∃ submitted text, processor.process_ submitted = some (document, text) ∧
    DistinctHashes hash (processor.views submitted text)

/-- The product is not negative, and its square at most the product of the squared magnitudes. -/
def Bounded (document : ProcessedDocument ℝ) (vector : WordVector ℝ) : Prop :=
  0 ≤ vector.dotProductDocument document ∧
    vector.dotProductDocument document ^ 2 ≤ document.magnitude ^ 2 * vector.magnitude ^ 2

theorem dot_product_document_eq (vector : WordVector ℝ) (document : ProcessedDocument ℝ) :
    vector.dotProductDocument document =
      pairing (DocumentAccumulator.entries document) (weight vector.scores) := by
  have visited : vector.dotProductDocument document =
      vector.dotProductVisiting (DocumentAccumulator.entries document) := by
    rw [WordVector.dotProductVisiting, DocumentAccumulator.entries, List.foldl_map]
    rfl
  rw [visited, WordVector.dot_product_visiting_eq]

section Centroid

variable (centroidId : Bytes) (documents : List (ProcessedDocument ℝ))

theorem scores_of_centroid : (centroidVector Real.sqrt centroidId documents).scores =
    addEach ∅ (documents.flatMap DocumentAccumulator.entries) := by
  have consistent := DocumentAccumulator.consistent_of_documents documents
  exact (DocumentAccumulator.consistent_get_magnitude consistent).scores

theorem magnitude_of_centroid : (centroidVector Real.sqrt centroidId documents).magnitude ^ 2 =
    squares (centroidVector Real.sqrt centroidId documents).scores.toList := by
  have consistent := DocumentAccumulator.consistent_of_documents documents
  have magnitude : (centroidVector Real.sqrt centroidId documents).magnitude =
      Real.sqrt (DocumentAccumulator.sumOfSquares
        (documents.foldl DocumentAccumulator.addDocument .new).scores) :=
    DocumentAccumulator.magnitude_returned consistent
  rw [magnitude, Real.sq_sqrt (DocumentAccumulator.sum_of_squares_nonneg _), scores_of_centroid,
    ← consistent.scores]
  rfl

end Centroid

section Bounds

variable {processor : DocumentProcessor ℝ} {hash : Bytes → UInt64} (exact : Exact processor hash)

include exact

theorem bounded_of_distinct {document : ProcessedDocument ℝ}
    (isOfText : OfText processor hash document)
    (distinct : ((DocumentAccumulator.entries document).map Prod.fst).Nodup) (centroidId : Bytes)
    {documents : List (ProcessedDocument ℝ)}
    (areOfTexts : ∀ other ∈ documents, OfText processor hash other) :
    Bounded document (centroidVector Real.sqrt centroidId documents) := by
  obtain ⟨submitted, text, processed, _⟩ := isOfText
  obtain ⟨positive, magnitude⟩ := vector_of_process exact processed
  have allPositive : ∀ entry ∈ documents.flatMap DocumentAccumulator.entries, 0 < entry.2 := by
    intro entry member
    obtain ⟨other, isOther, isEntry⟩ := List.mem_flatMap.mp member
    obtain ⟨otherSubmitted, otherText, otherProcessed, _⟩ := areOfTexts other isOther
    exact (vector_of_process exact otherProcessed).1 entry isEntry
  rw [Bounded, dot_product_document_eq, magnitude_of_centroid, magnitude]
  constructor
  · apply pairing_nonneg positive
    intro key
    rw [scores_of_centroid, weight_addEach]
    exact amount_nonneg allPositive key
  · exact pairing_sq_le _ distinct

theorem exceeds_of_repeated {document : ProcessedDocument ℝ}
    (isOfText : OfText processor hash document)
    (repeated : ¬ ((DocumentAccumulator.entries document).map Prod.fst).Nodup)
    (centroidId : Bytes) :
    document.magnitude ≠ 0 ∧ (centroidVector Real.sqrt centroidId [document]).magnitude ≠ 0 ∧
      ¬ Bounded document (centroidVector Real.sqrt centroidId [document]) := by
  obtain ⟨submitted, text, processed, _⟩ := isOfText
  obtain ⟨positive, magnitude⟩ := vector_of_process exact processed
  have own : [document].flatMap DocumentAccumulator.entries =
      DocumentAccumulator.entries document := by
    simp
  have product : (centroidVector Real.sqrt centroidId [document]).dotProductDocument document =
      pairing (DocumentAccumulator.entries document)
        (amount (DocumentAccumulator.entries document)) := by
    rw [dot_product_document_eq, scores_of_centroid, own]
    apply congrArg
    funext key
    exact weight_addEach _ key
  have centroidMagnitude : (centroidVector Real.sqrt centroidId [document]).magnitude ^ 2 =
      pairing (DocumentAccumulator.entries document)
        (amount (DocumentAccumulator.entries document)) := by
    rw [magnitude_of_centroid, scores_of_centroid, own, squares_addEach]
  have smaller := squares_lt_pairing positive repeated
  have someSquare : 0 < squares (DocumentAccumulator.entries document) := by
    apply squares_pos positive
    intro none
    rw [none] at repeated
    exact repeated List.nodup_nil
  refine ⟨?_, ?_, ?_⟩
  · intro zero
    rw [zero] at magnitude
    linarith
  · intro zero
    rw [zero] at centroidMagnitude
    linarith
  · rintro ⟨_, bound⟩
    rw [product, magnitude, centroidMagnitude] at bound
    nlinarith only [bound, smaller, someSquare]

end Bounds

/-- The bound holds for every centroid exactly when no two different words of the text are stored
under one string. -/
theorem similarity_bounded_iff {processor : DocumentProcessor ℝ} {hash : Bytes → UInt64}
    (exact : Exact processor hash) {submitted : Document} {document : ProcessedDocument ℝ}
    {text : Bytes} (processed : processor.process_ submitted = some (document, text))
    (hashes : DistinctHashes hash (processor.views submitted text)) (centroidId : Bytes) :
    (∀ documents : List (ProcessedDocument ℝ), documents ≠ [] →
      (∀ other ∈ documents, OfText processor hash other) → document.magnitude ≠ 0 →
        (centroidVector Real.sqrt centroidId documents).magnitude ≠ 0 →
          Bounded document (centroidVector Real.sqrt centroidId documents)) ↔
      ∀ view ∈ processor.views submitted text, ∀ other ∈ processor.views submitted text,
        view.stored = other.stored → view.word = other.word := by
  have isOfText : OfText processor hash document := ⟨submitted, text, processed, hashes⟩
  rw [← keys_of_process exact processed hashes]
  constructor
  · intro bounded
    by_contra repeated
    obtain ⟨magnitude, centroidMagnitude, exceeds⟩ :=
      exceeds_of_repeated exact isOfText repeated centroidId
    apply exceeds
    apply bounded [document] (List.cons_ne_nil _ _) _ magnitude centroidMagnitude
    intro other member
    rw [List.mem_singleton.mp member]
    exact isOfText
  · intro distinct documents _ areOfTexts _ _
    exact bounded_of_distinct exact isOfText distinct centroidId areOfTexts

noncomputable def wholeTokens : DocumentProcessor ℝ where
  utf8 := Utf8.library
  search := .hashed fnv64
  getStemmer _ token := token.length
  sqrt := Real.sqrt
  getEpochTime := 0

theorem whole_tokens_exact : Exact wholeTokens fnv64 where
  standard := Utf8.library_standard
  bounded _ _ := Nat.le_refl _
  search := rfl
  sqrt := rfl

theorem process_whole_tokens {submitted : Document}
    (tokenized : (DestructiveTokenIterator.tokenize Utf8.library submitted.text).map (·.2.text) =
      some submitted.text) :
    ∃ document, wholeTokens.process_ submitted = some (document, submitted.text) := by
  obtain ⟨⟨yielded, it⟩, isIt, text⟩ := Option.map_eq_some_iff.mp tokenized
  exact text_of_process.mpr ⟨yielded, it, isIt, text⟩

def catsAndDogs : Document := ⟨ascii "doc", ascii "cats chase dogs, dogs chase cats", .en⟩

theorem cats_and_dogs_bounded :
    ∃ document, wholeTokens.process_ catsAndDogs = some (document, catsAndDogs.text) ∧
      ∀ documents : List (ProcessedDocument ℝ), documents ≠ [] →
        (∀ other ∈ documents, OfText wholeTokens fnv64 other) → document.magnitude ≠ 0 →
          (centroidVector Real.sqrt (ascii "pets") documents).magnitude ≠ 0 →
            Bounded document (centroidVector Real.sqrt (ascii "pets") documents) := by
  obtain ⟨document, processed⟩ := @process_whole_tokens catsAndDogs (by decide +kernel)
  refine ⟨document, processed, ?_⟩
  apply (similarity_bounded_iff whole_tokens_exact processed (by decide +kernel) (ascii "pets")).mpr
  decide +kernel

/-- Two words of 23 letters that differ in the last one, with no ending that English rules remove;
against the centroid of their text. -/
def lastLettersText : Document :=
  ⟨ascii "doc", ascii "gattacagattacagattacaga, gattacagattacagattacagt", .en⟩

theorem last_letters_exceed :
    ¬ ∀ (processor : DocumentProcessor ℝ) (hash : Bytes → UInt64), Exact processor hash →
      ∀ document : ProcessedDocument ℝ, OfText processor hash document →
        ∀ (centroidId : Bytes) (documents : List (ProcessedDocument ℝ)), documents ≠ [] →
          (∀ other ∈ documents, OfText processor hash other) → document.magnitude ≠ 0 →
            (centroidVector Real.sqrt centroidId documents).magnitude ≠ 0 →
              Bounded document (centroidVector Real.sqrt centroidId documents) := by
  intro claim
  obtain ⟨document, processed⟩ := @process_whole_tokens lastLettersText (by decide +kernel)
  have hashes : DistinctHashes fnv64 (wholeTokens.views lastLettersText lastLettersText.text) := by
    decide +kernel
  have repeated : ¬ ((DocumentAccumulator.entries document).map Prod.fst).Nodup := by
    rw [keys_of_process whole_tokens_exact processed hashes]
    decide +kernel
  have isOfText : OfText wholeTokens fnv64 document := ⟨lastLettersText, _, processed, hashes⟩
  obtain ⟨magnitude, centroidMagnitude, exceeds⟩ :=
    exceeds_of_repeated whole_tokens_exact isOfText repeated (ascii "words")
  apply exceeds
  apply claim wholeTokens fnv64 whole_tokens_exact document isOfText (ascii "words") [document]
    (List.cons_ne_nil _ _) _ magnitude centroidMagnitude
  intro other member
  rw [List.mem_singleton.mp member]
  exact isOfText

end Relevanced.DocumentProcessing

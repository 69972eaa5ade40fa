import Relevanced.DocumentProcessing.Similarity

/-!
# Magnitudes that are 0

The scores of documents and centroids are positive, and their magnitudes are those of their
scores. So a magnitude is 0 exactly for a document no word of which is left, and for the
centroid of such documents.
-/

namespace Relevanced.DocumentProcessing

open CentroidUpdate
open Foundation
open Models
open TextUtil

set_option autoImplicit false

def MeasuredDocument (document : ProcessedDocument ℝ) : Prop :=
  Measured (DocumentAccumulator.entries document) document.magnitude

def MeasuredVector (vector : WordVector ℝ) : Prop := Measured vector.scores.toList vector.magnitude

theorem measured_empty_vector : MeasuredVector WordVector.empty := measured_empty

theorem measured_centroid_vector (centroidId : Bytes) {documents : List (ProcessedDocument ℝ)}
    (measured : ∀ document ∈ documents, MeasuredDocument document) :
    MeasuredVector (centroidVector Real.sqrt centroidId documents) where
  positive := by
    rw [scores_of_centroid]
    apply positive_addEach
    intro entry member
    obtain ⟨document, isDocument, isEntry⟩ := List.mem_flatMap.mp member
    exact (measured document isDocument).positive entry isEntry
  magnitude := magnitude_of_centroid centroidId documents

section Processed

variable {processor : DocumentProcessor ℝ} {hash : Bytes → UInt64} (exact : Exact processor hash)
  {doc : Document} {document : ProcessedDocument ℝ} {text : Bytes}
  (processed : processor.process_ doc = some (document, text))

include exact processed

theorem measured_of_process : MeasuredDocument document where
  positive := (vector_of_process exact processed).1
  magnitude := (vector_of_process exact processed).2

theorem words_of_process : document.scoredWords ≠ [] ↔ processor.views doc text ≠ [] := by
  obtain ⟨accumulator, addedAll, words, _⟩ := built_of_process processed
  obtain ⟨counted, total⟩ := WordAccumulator.counted_add_all WordAccumulator.counted_new addedAll
  have sameWords : document.scoredWords = [] ↔ accumulator.scoredWords = [] := by
    rw [words, exact.sqrt, ← List.map_eq_nil_iff (f := ScoredWord.key),
      ← List.map_eq_nil_iff (l := accumulator.scoredWords) (f := ScoredWord.key),
      WordAccumulator.keys_built]
  rw [ne_eq, ne_eq, sameWords, not_iff_not]
  constructor
  · intro none
    have sum := counted.total
    rw [none, total] at sum
    have count : ((WordAccumulator.new : WordAccumulator ℝ).totalWords +
        ((processor.views doc text).map fun view => (processor.search, view)).length : ℝ) = 0 := by
      rw [← Nat.cast_add]
      exact sum.symm
    have noViews : (processor.views doc text).length = 0 := by
      rw [List.length_map] at count
      change ((0 : Nat) : ℝ) + _ = 0 at count
      exact_mod_cast (by simpa using count : ((processor.views doc text).length : ℝ) = 0)
    exact List.eq_nil_of_length_eq_zero noViews
  · intro none
    rw [none] at addedAll
    cases addedAll
    rfl

end Processed

end Relevanced.DocumentProcessing

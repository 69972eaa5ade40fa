import Mathlib.Analysis.Real.Sqrt
import Relevanced.CentroidUpdate.DocumentAccumulator
import Relevanced.Foundation.KeyedSums

/-!
# Accumulation

Any calls of `addDocument` and `getMagnitude` leave the sums of the scores of the
documents added, and the magnitude that is returned is always that of the sums at the
time.
-/

namespace Relevanced.CentroidUpdate

open Foundation
open Models

set_option autoImplicit false

namespace DocumentAccumulator

section Calls

variable {F : Type}

/-- The words of a document, each under the string it is known by. -/
def entries (document : ProcessedDocument F) : List (Bytes × F) :=
  document.scoredWords.map fun elem => (elem.key, elem.score)

inductive Call (F : Type) where
  | addDocument (document : ProcessedDocument F)
  | getMagnitude

def added (calls : List (Call F)) : List (ProcessedDocument F) :=
  calls.filterMap fun
    | .addDocument document => some document
    | .getMagnitude => none

def Call.run [Zero F] [Add F] [Mul F] (sqrt : F → F) (accumulator : DocumentAccumulator F) :
    Call F → DocumentAccumulator F
  | .addDocument document => accumulator.addDocument document
  | .getMagnitude => (accumulator.getMagnitude sqrt).2

def after [Zero F] [Add F] [Mul F] (sqrt : F → F) (calls : List (Call F)) :
    DocumentAccumulator F :=
  calls.foldl (Call.run sqrt) new

def sumOfSquares [Zero F] [Add F] [Mul F] (scores : OrderedMap Bytes F) : F :=
  (scores.toList.map fun elem => elem.2 * elem.2).sum

end Calls

theorem add_document_scores {F : Type} [Add F] (accumulator : DocumentAccumulator F)
    (document : ProcessedDocument F) :
    (accumulator.addDocument document).scores = addEach accumulator.scores (entries document) := by
  rw [addEach, entries, List.foldl_map]
  rfl

/-- A cached magnitude is the one that would be computed. -/
structure Consistent (documents : List (ProcessedDocument ℝ))
    (accumulator : DocumentAccumulator ℝ) : Prop where
  count : accumulator.documentCount = documents.length
  scores : accumulator.scores = addEach ∅ (documents.flatMap entries)
  fresh : accumulator.staleMagnitude = false →
    accumulator.magnitude = Real.sqrt (sumOfSquares accumulator.scores)

theorem consistent_new : Consistent [] new where
  count := by simp [new]
  scores := by simp [new, addEach]
  fresh := by simp [new]

theorem consistent_add_document {documents : List (ProcessedDocument ℝ)}
    {accumulator : DocumentAccumulator ℝ} (consistent : Consistent documents accumulator)
    (document : ProcessedDocument ℝ) :
    Consistent (documents ++ [document]) (accumulator.addDocument document) where
  count := by simp [addDocument, consistent.count]
  scores := by
    rw [add_document_scores, consistent.scores]
    simp [addEach]
  fresh := by simp [addDocument]

theorem sum_of_squares_eq (scores : OrderedMap Bytes ℝ) :
    scores.toList.foldl (fun sum elem => sum + elem.2 * elem.2) 0 = sumOfSquares scores := by
  have general : ∀ (elems : List (Bytes × ℝ)) (start : ℝ),
      elems.foldl (fun sum elem => sum + elem.2 * elem.2) start =
        start + (elems.map fun elem => elem.2 * elem.2).sum := by
    intro elems
    induction elems with
    | nil => simp
    | cons elem elems ih =>
        intro start
        simp only [List.foldl_cons, List.map_cons, List.sum_cons, ih]
        ring
  rw [general, zero_add, sumOfSquares]

theorem magnitude_returned {documents : List (ProcessedDocument ℝ)}
    {accumulator : DocumentAccumulator ℝ} (consistent : Consistent documents accumulator) :
    (accumulator.getMagnitude Real.sqrt).1 = Real.sqrt (sumOfSquares accumulator.scores) := by
  rw [getMagnitude]
  split
  · rw [sum_of_squares_eq]
  · rename_i cached
    exact consistent.fresh (Bool.eq_false_of_not_eq_true cached)

theorem consistent_get_magnitude {documents : List (ProcessedDocument ℝ)}
    {accumulator : DocumentAccumulator ℝ} (consistent : Consistent documents accumulator) :
    Consistent documents (accumulator.getMagnitude Real.sqrt).2 := by
  rw [getMagnitude]
  split
  · constructor
    · exact consistent.count
    · exact consistent.scores
    · intro _
      simp only [sum_of_squares_eq]
  · exact consistent

theorem consistent_of_documents (documents : List (ProcessedDocument ℝ)) :
    Consistent documents (documents.foldl addDocument new) := by
  induction documents using List.reverseRecOn with
  | nil => exact consistent_new
  | append_singleton documents document ih =>
      rw [List.foldl_append]
      exact consistent_add_document ih document

theorem consistent_after (calls : List (Call ℝ)) :
    Consistent (added calls) (after Real.sqrt calls) := by
  induction calls using List.reverseRecOn with
  | nil => exact consistent_new
  | append_singleton calls call ih =>
      rw [after, added, List.foldl_append, List.filterMap_append]
      cases call with
      | addDocument document => exact consistent_add_document ih document
      | getMagnitude =>
          simp only [List.filterMap_cons, List.filterMap_nil, List.append_nil]
          exact consistent_get_magnitude ih

theorem sum_of_squares_nonneg (scores : OrderedMap Bytes ℝ) : 0 ≤ sumOfSquares scores := by
  apply List.sum_nonneg
  intro square member
  obtain ⟨elem, _, rfl⟩ := List.mem_map.mp member
  exact mul_self_nonneg elem.2

/-- The sums, the count and the magnitude after any calls; they depend on which documents have been
added, and not on their order or on when the magnitude was asked for. -/
theorem accumulation_is_a_sum (calls : List (Call ℝ)) :
    (∀ key, key ∈ (after Real.sqrt calls).scores ↔
      key ∈ ((added calls).flatMap entries).map Prod.fst) ∧
    (∀ key score, (after Real.sqrt calls).scores[key]? = some score →
      score = amount ((added calls).flatMap entries) key) ∧
    (after Real.sqrt calls).getCount = (added calls).length ∧
    ((after Real.sqrt calls).getMagnitude Real.sqrt).1 ^ 2 =
      sumOfSquares (after Real.sqrt calls).scores ∧
    ∀ others : List (Call ℝ), (added others).Perm (added calls) →
      (after Real.sqrt others).scores = (after Real.sqrt calls).scores ∧
      (after Real.sqrt others).getCount = (after Real.sqrt calls).getCount ∧
      ((after Real.sqrt others).getMagnitude Real.sqrt).1 =
        ((after Real.sqrt calls).getMagnitude Real.sqrt).1 := by
  have consistent := consistent_after calls
  refine ⟨?_, ?_, consistent.count, ?_, ?_⟩
  · intro key
    rw [consistent.scores, mem_addEach_iff]
    simp
  · intro key score stored
    have sum := getD_addEach ∅ ((added calls).flatMap entries) key
    rw [← consistent.scores, stored] at sum
    simpa using sum
  · rw [magnitude_returned consistent]
    exact Real.sq_sqrt (sum_of_squares_nonneg _)
  · intro others perm
    have otherConsistent := consistent_after others
    have scores : (after Real.sqrt others).scores = (after Real.sqrt calls).scores := by
      rw [consistent.scores, otherConsistent.scores]
      exact addEach_perm (perm.flatMap_right entries) ∅
    refine ⟨scores, ?_, ?_⟩
    · change (after Real.sqrt others).documentCount = (after Real.sqrt calls).documentCount
      rw [consistent.count, otherConsistent.count, perm.length_eq]
    · rw [magnitude_returned consistent, magnitude_returned otherConsistent, scores]

end DocumentAccumulator

end Relevanced.CentroidUpdate

import Mathlib.Algebra.BigOperators.Fin
import Relevanced.CentroidUpdate.Weights
import Relevanced.DocumentProcessing.Similarity

/-!
# Scores of a recomputed centroid

The vector that a recomputation saves is the weighted sum of the vectors of the members, and
so is the product of a document with it.
-/

namespace Relevanced.CentroidUpdate

open DocumentProcessing
open Foundation
open Models
open Persistence
open Persistence.SyncPersistence

set_option autoImplicit false

namespace CentroidUpdater

theorem sum_recomputed {ids : List Bytes} (nodup : ids.Nodup) (value : Bytes → ℝ) :
    ((recomputedIds ids).map value).sum =
      ∑ i : Fin ids.length, (timesPassed ids.length i : ℝ) * value ids[i] := by
  have counted (i : Fin ids.length) :
      (timesPassed ids.length i : ℝ) * value ids[i] =
        (recomputedIds ids).count ids[i] • value ids[i] := by
    rw [← count_recomputed_ids nodup i.isLt, nsmul_eq_mul]
    rfl
  have within : (recomputedIds ids).toFinset ⊆ ids.toFinset := by
    intro id member
    exact List.mem_toFinset.mpr (recomputed_ids_subset ids (List.mem_toFinset.mp member))
  simp only [counted]
  have byMember : ∑ i : Fin ids.length, (recomputedIds ids).count ids[i] • value ids[i] =
      (ids.map fun id => (recomputedIds ids).count id • value id).sum :=
    Fin.sum_univ_fun_getElem ids fun id => (recomputedIds ids).count id • value id
  rw [byMember, ← List.sum_toFinset _ nodup, Finset.sum_list_map_count]
  have sameCount (id : Bytes) : @List.count Bytes instBEqOfDecidableEq id (recomputedIds ids) =
      (recomputedIds ids).count id := by
    congr 1
    exact lawful_beq_subsingleton _ _
  simp only [sameCount]
  apply Finset.sum_subset within
  intro id _ absent
  rw [List.mem_toFinset] at absent
  rw [List.count_eq_zero.mpr absent, zero_smul]

section Amounts

variable {ids : List Bytes} {document : Bytes → ProcessedDocument ℝ}

theorem amount_of_documents (ids : List Bytes) (document : Bytes → ProcessedDocument ℝ)
    (word : Bytes) :
    amount ((ids.map document).flatMap DocumentAccumulator.entries) word =
      (ids.map fun id => amount (DocumentAccumulator.entries (document id)) word).sum := by
  induction ids with
  | nil => rfl
  | cons id ids ih => simp [ih]

theorem pairing_sum (entries : List (Bytes × ℝ)) (ids : List Bytes)
    (weights : Bytes → Bytes → ℝ) :
    pairing entries (fun word => (ids.map fun id => weights id word).sum) =
      (ids.map fun id => pairing entries (weights id)).sum := by
  induction ids with
  | nil => simp [pairing]
  | cons id ids ih =>
      rw [List.map_cons, List.sum_cons, ← ih]
      simp only [pairing, List.map_cons, List.sum_cons, mul_add]
      exact List.sum_map_add

end Amounts

section Runs

variable {serialization : Serialization ℝ} {store : Store} {centroidId : Bytes}
  {startTimestamp pages : Nat} {actions : List (PersistenceAction ℝ)}
  {last : ThreadPool ℝ (RunOutcome ℝ)} {passed : List (ProcessedDocument ℝ)}
  {centroid : Centroid ℝ}

/-- Every member enters the saved vector as often as its index in the listing says, in the scores,
in the weight, and in the product with any document. -/
theorem members_enter_by_index (document : Bytes → ProcessedDocument ℝ)
    (free : colon ∉ centroidId)
    (ownIds : ∀ id doc, loadedFrom serialization store id = some (.ok doc) → doc.id = id)
    (stored : ∀ docId ∈ members store centroidId,
      loadedFrom serialization store docId = some (.ok (document docId)))
    (present : getCentroidKey centroidId ∈ store) (alone : ∀ action ∈ actions, Alone action)
    (executed : (persistenceMachine (RunOutcome ℝ) serialization).exec actions
      (.initial store [run Real.sqrt centroidId startTimestamp pages]) = some last)
    (ended : last.clients = [.done (.updated passed centroid)]) :
    let ids := members store centroidId
    (∀ word, weight centroid.wordVector.scores word =
      ∑ i : Fin ids.length, (timesPassed ids.length i : ℝ) *
        amount (DocumentAccumulator.entries (document ids[i])) word) ∧
    centroid.wordVector.documentWeight =
      ∑ i : Fin ids.length, (timesPassed ids.length i : ℝ) ∧
    centroid.wordVector.magnitude ^ 2 = squares centroid.wordVector.scores.toList ∧
    ∀ other, centroid.wordVector.dotProductDocument other =
      ∑ i : Fin ids.length, (timesPassed ids.length i : ℝ) *
        pairing (DocumentAccumulator.entries other)
          (amount (DocumentAccumulator.entries (document ids[i]))) := by
  intro ids
  have complete : MembersStored serialization store centroidId :=
    ⟨ownIds, fun docId member => ⟨document docId, stored docId member⟩⟩
  have nodup : (members store centroidId).Nodup := by
    rw [← listed_eq_members free]
    exact ids_under_nodup
  have arePassed : passed = (recomputedIds ids).map document := by
    rw [passed_recomputed free complete present alone executed ended]
    apply List.filterMap_eq_map_iff_forall_eq_some.mpr
    intro id member
    rw [storedDocument, stored id (recomputed_ids_subset _ member)]
    rfl
  have saved := (updated_from alone executed ended).1
  have vector : centroid.wordVector = centroidVector Real.sqrt centroidId passed := by
    rw [saved]
    rfl
  have scores (word : Bytes) : weight centroid.wordVector.scores word =
      ((recomputedIds ids).map fun id =>
        amount (DocumentAccumulator.entries (document id)) word).sum := by
    rw [vector, scores_of_centroid, weight_addEach, arePassed, amount_of_documents]
  refine ⟨?_, ?_, ?_, ?_⟩
  · intro word
    rw [scores word, sum_recomputed nodup]
  · have counted := sum_recomputed nodup fun _ => 1
    simp only [mul_one, List.map_const', List.sum_replicate, nsmul_eq_mul] at counted
    rw [← counted, saved, document_weight, arePassed, List.length_map]
  · rw [vector]
    exact magnitude_of_centroid centroidId passed
  · intro other
    rw [dot_product_document_eq, funext scores, pairing_sum, sum_recomputed nodup]

end Runs

section Counts

theorem counted_body {n : Nat} {id serialized : Bytes}
    (stored : (countedStore n)[getDocumentKey id]? = some serialized) : serialized = id := by
  have loaded : loadedFrom (.idsOnly : Serialization Nat) (countedStore n) id =
      some (.ok (.bare serialized)) := by
    rw [loaded_from_eq, stored]
    rfl
  exact own_ids_filled (show colon ∉ ascii "c" by decide) (unary_ids_owned n) loaded

theorem loaded_from_counted {n : Nat} {id : Bytes} {doc : ProcessedDocument ℝ}
    (loaded : loadedFrom .idsOnly (countedStore n) id = some (.ok doc)) : doc = .bare id := by
  rw [loaded_from_eq] at loaded
  cases stored : (countedStore n)[getDocumentKey id]? with
  | none =>
      rw [stored] at loaded
      cases loaded
  | some serialized =>
      rw [stored] at loaded
      cases loaded
      rw [counted_body stored]

theorem counted_loads {n : Nat} {id : Bytes} (member : id ∈ members (countedStore n) (ascii "c")) :
    loadedFrom .idsOnly (countedStore n) id =
      some (.ok (.bare id : ProcessedDocument ℝ)) := by
  obtain ⟨doc, loaded⟩ := (counted_stored n).stored id member
  rw [loaded_from_eq] at loaded
  cases stored : (countedStore n)[getDocumentKey id]? with
  | none =>
      rw [stored] at loaded
      cases loaded
  | some serialized =>
      rw [loaded_from_eq, stored, counted_body stored]
      rfl

/-- Of 21 members the last of the first batch begins the second: 22 documents are counted. -/
theorem twenty_one_members_weigh_twenty_two :
    ∃ (actions : List (PersistenceAction ℝ)) (last : ThreadPool ℝ (RunOutcome ℝ))
      (passed : List (ProcessedDocument ℝ)) (centroid : Centroid ℝ),
      (∀ action ∈ actions, Alone action) ∧
      (persistenceMachine (RunOutcome ℝ) .idsOnly).exec actions
        (.initial (countedStore 21) [run Real.sqrt (ascii "c") 0 22]) = some last ∧
      last.clients = [.done (.updated passed centroid)] ∧
      centroid.wordVector.documentWeight = 22 := by
  have ownIds : ∀ id (doc : ProcessedDocument ℝ),
      loadedFrom .idsOnly (countedStore 21) id = some (.ok doc) → doc.id = id := by
    intro id doc loaded
    rw [loaded_from_counted loaded]
    rfl
  have complete : MembersStored (.idsOnly : Serialization ℝ) (countedStore 21) (ascii "c") :=
    ⟨ownIds, fun docId member => ⟨_, counted_loads member⟩⟩
  have enough : (members (countedStore 21) (ascii "c")).length < 499 * 22 := by
    rw [counted_members]
    decide
  obtain ⟨actions, last, passed, centroid, alone, executed, ended⟩ :=
    @exists_updated_run ℝ _ _ _ _ _ .idsOnly (countedStore 21) (ascii "c") Real.sqrt 0 22
      (by decide) complete (counted_present 21) enough
  refine ⟨actions, last, passed, centroid, alone, executed, ended, ?_⟩
  have weighed := (members_enter_by_index .bare (by decide) ownIds (fun _ => counted_loads)
    (counted_present 21) alone executed ended).2.1
  rw [Fin.sum_univ_eq_sum_range fun i => (timesPassed _ i : ℝ), counted_members] at weighed
  rw [weighed]
  exact_mod_cast (by decide : ∑ i ∈ Finset.range 21, timesPassed 21 i = 22)

end Counts

end CentroidUpdater

end Relevanced.CentroidUpdate

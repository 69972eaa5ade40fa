import Relevanced.Foundation.Decimal
import Relevanced.Persistence.PublicCalls
import Relevanced.Persistence.WriteFailures

/-!
# Rejected requests

Which requests that answer with an exception leave the store as it was. The removal of a
document from a centroid deletes the back-link before it looks for the member record.
-/

namespace Relevanced.Persistence

open Foundation
open Models
open SyncPersistence

set_option autoImplicit false

section Rejections

variable {F : Type} [Zero F] [One F] (serialization : Serialization F)

def RejectionKeeps (store : Store) (request : WriteRequest F) : Prop :=
  ∀ error, ((request.method serialization).run rockHandle store).1 = .error error →
    ∀ key : Bytes,
      ((request.method serialization).run rockHandle store).2[key]? = store[key]?

/-- The request removes a document that has only the back-link to the centroid. -/
def RemovesHalfLinked (store : Store) : WriteRequest F → Prop
  | .removeDocumentFromCentroid centroidId documentId =>
      getCentroidKey centroidId ∈ store ∧ getDocumentKey documentId ∈ store ∧
        getCentroidDocumentKey centroidId documentId ∉ store ∧
          getDocumentCentroidKey documentId centroidId ∈ store
  | _ => False

variable {serialization} {store : Store}

theorem rejection_keeps_of_outcome {request : WriteRequest F}
    (outcome : ((request.method serialization).run rockHandle store).2 = store ∨
      ((request.method serialization).run rockHandle store).1 = .ok true) :
    RejectionKeeps serialization store request := by
  intro error rejected key
  rcases outcome with same | done
  · rw [same]
  · rw [done] at rejected
    cases rejected

theorem removal_keeps_iff (centroidId documentId : Bytes) :
    RejectionKeeps serialization store (.removeDocumentFromCentroid centroidId documentId) ↔
      ¬ RemovesHalfLinked store
        (.removeDocumentFromCentroid centroidId documentId : WriteRequest F) := by
  have ran := run_remove_document_from_centroid store centroidId documentId
  have untouched :
      getCentroidDocumentKey centroidId documentId ∈ unlinked store centroidId documentId ↔
        getCentroidDocumentKey centroidId documentId ∈ store := by
    rw [unlinked, OrderedMap.mem_erase_iff]
    exact and_iff_right (member_key_ne_back_link_key centroidId documentId)
  constructor
  · rintro keeps ⟨existing, stored, unlisted, linked⟩
    rw [if_pos existing, if_pos stored, if_neg fun held => unlisted (untouched.mp held)] at ran
    have kept := keeps .eDocumentNotInCentroid (congrArg Prod.fst ran)
      (getDocumentCentroidKey documentId centroidId)
    have after : ((removeDocumentFromCentroid centroidId documentId).run rockHandle store).2 =
        unlinked store centroidId documentId := congrArg Prod.snd ran
    have erased : (unlinked store centroidId documentId)[getDocumentCentroidKey documentId
        centroidId]? = none := Std.ExtTreeMap.getElem?_erase_self
    change ((removeDocumentFromCentroid centroidId documentId).run rockHandle store).2[_]? = _
      at kept
    rw [after, erased] at kept
    rw [Std.ExtTreeMap.mem_iff_isSome_getElem?, ← kept] at linked
    cases linked
  · intro whole
    apply rejection_keeps_of_outcome
    rw [WriteRequest.method, ran]
    by_cases existing : getCentroidKey centroidId ∈ store
    · by_cases stored : getDocumentKey documentId ∈ store
      · rw [if_pos existing, if_pos stored]
        by_cases listed : getCentroidDocumentKey centroidId documentId ∈ store
        · rw [if_pos (untouched.mpr listed)]
          exact Or.inr rfl
        · rw [if_neg fun held => listed (untouched.mp held)]
          exact Or.inl (OrderedMap.erase_of_absent fun linked =>
            whole ⟨existing, stored, listed, linked⟩)
      · rw [if_pos existing, if_neg stored]
        exact Or.inl rfl
    · rw [if_neg existing]
      exact Or.inl rfl

/-- Every other request looks before it writes. -/
theorem rejection_keeps_iff (request : WriteRequest F) :
    RejectionKeeps serialization store request ↔ ¬ RemovesHalfLinked store request := by
  cases request with
  | removeDocumentFromCentroid centroidId documentId =>
      exact removal_keeps_iff centroidId documentId
  | saveDocument doc => exact iff_of_true (rejection_keeps_of_outcome (Or.inr rfl)) not_false
  | saveNewDocument doc =>
      refine iff_of_true (rejection_keeps_of_outcome ?_) not_false
      rw [WriteRequest.method, run_save_new_document]
      split
      · exact Or.inl rfl
      · exact Or.inr rfl
  | createNewCentroid centroidId =>
      refine iff_of_true (rejection_keeps_of_outcome ?_) not_false
      rw [WriteRequest.method, run_create_new_centroid]
      split
      · exact Or.inl rfl
      · exact Or.inr rfl
  | saveCentroid centroidId centroid =>
      exact iff_of_true (rejection_keeps_of_outcome (Or.inr rfl)) not_false
  | addDocumentToCentroid centroidId documentId =>
      refine iff_of_true (rejection_keeps_of_outcome ?_) not_false
      rw [WriteRequest.method, run_add_document_to_centroid]
      split
      · split
        · split
          · exact Or.inl rfl
          · exact Or.inr rfl
        · exact Or.inl rfl
      · exact Or.inl rfl
  | deleteDocument docId =>
      refine iff_of_true (rejection_keeps_of_outcome ?_) not_false
      rw [WriteRequest.method, run_delete_document]
      split
      · exact Or.inr rfl
      · exact Or.inl rfl
  | deleteCentroid centroidId =>
      refine iff_of_true (rejection_keeps_of_outcome ?_) not_false
      rw [WriteRequest.method, run_delete_centroid]
      split
      · exact Or.inr rfl
      · exact Or.inl rfl
  | setCentroidMetadata centroidId metadataName value =>
      exact iff_of_true (rejection_keeps_of_outcome (Or.inr rfl)) not_false

end Rejections

section Runs

variable {F : Type} [Zero F] [One F] (serialization : Serialization F)
  (toInt64 : Bytes → Option Int64)

/-- In every state of every run a rejected request changes nothing exactly when it is not the
removal of a half-linked document. -/
theorem rejections_keep_iff_not_half_linked (calls : List (PublicCall F)) :
    (publicMachine serialization toInt64).Along
      (fun store => ∀ request : WriteRequest F,
        RejectionKeeps serialization store request ↔ ¬ RemovesHalfLinked store request) calls ∅ :=
  Machine.along_of_always (fun _ => rejection_keeps_iff) calls ∅

end Runs

/-- A centroid is deleted and created again while a document keeps its back-link. -/
def createdAgain : List (PublicCall Int) :=
  [.sync (.createNewCentroid (ascii "c")), .sync (.saveNewDocument (.bare (ascii "d"))),
    .sync (.addDocumentToCentroid (ascii "c") (ascii "d")), .sync (.deleteCentroid (ascii "c")),
    .sync (.createNewCentroid (ascii "c"))]

theorem rejected_removal_unlinks :
    ¬ ∀ (calls : List (PublicCall Int)) (store : Store),
      (publicMachine .idsOnly readInt64).exec calls ∅ = some store →
        ∀ request : WriteRequest Int, RejectionKeeps .idsOnly store request := by
  intro claim
  have keeps := claim createdAgain _ rfl (.removeDocumentFromCentroid (ascii "c") (ascii "d"))
  have kept := keeps .eDocumentNotInCentroid (by decide +kernel)
    (getDocumentCentroidKey (ascii "d") (ascii "c"))
  exact absurd kept (by decide +kernel)

end Relevanced.Persistence

import Relevanced.Persistence.KeyIsolation
import Relevanced.Persistence.ListedIds

/-!
# Unused documents

The two scans over all documents that look every document's links up on the way: the list
of the documents without links, and the collection of the old ones among them, which deletes
from the range it runs over.
-/

namespace Relevanced.Persistence

open Foundation
open Models
open LogicalRecord

set_option autoImplicit false

namespace SyncPersistence

section Unused

variable (store : Store)

def Unlinked (documentId : Bytes) : Prop :=
  keysUnder store (getDocumentCentroidsPrefix documentId) = []

instance (documentId : Bytes) : Decidable (Unlinked store documentId) :=
  inferInstanceAs (Decidable (keysUnder store (getDocumentCentroidsPrefix documentId) = []))

theorem run_is_document_in_any_centroid (documentId : Bytes) :
    (isDocumentInAnyCentroid documentId).run rockHandle store =
      (!decide (Unlinked store documentId), store) := by
  have escapes : ∀ entries : List (Bytes × Bytes),
      (walk (fun _ _ captured => pure (captured, true)) entries false ()).run rockHandle store =
        ((!entries.isEmpty, ()), store) := by
    intro entries
    cases entries with
    | nil => rfl
    | cons entry rest => rfl
  have none : decide (Unlinked store documentId) =
      (entriesUnder store (getDocumentCentroidsPrefix documentId)).isEmpty := by
    rw [Bool.eq_iff_iff, decide_eq_true_iff, List.isEmpty_iff]
    exact List.map_eq_nil_iff
  rw [isDocumentInAnyCentroid, Program.run_bind, iterPrefix, run_iter_range, escapes, none]
  rfl

theorem unlinked_iff (documentId : Bytes) :
    Unlinked store documentId ↔ ∀ centroidId, ¬ Holds store (backLink documentId centroidId) := by
  have stored := mem_stored_ids_iff store (getDocumentCentroidsPrefix documentId)
  rw [Unlinked, keys_under_eq_stored_ids, List.map_eq_nil_iff, List.eq_nil_iff_forall_not_mem]
  apply forall_congr'
  intro centroidId
  rw [stored, ← back_link_key_eq_join]
  rfl

def documentIds : List Bytes := storedIds store getDocumentsPrefix

theorem colon_not_in_documents : colon ∉ getDocumentsPrefix := Family.colon_not_in_ending .documents

theorem mem_document_ids_iff (documentId : Bytes) :
    documentId ∈ documentIds store ↔ Holds store (documentBody documentId) := by
  rw [documentIds, mem_stored_ids_iff]
  rfl

def unusedIds : List Bytes := (documentIds store).filter fun id => Unlinked store id

theorem documents_entries :
    (entriesUnder store getDocumentsPrefix).map (fun entry => idOfKey entry.1) =
    documentIds store := by
  have listed := ids_under_eq_decoded store getDocumentsPrefix
  rw [(decoded_ids_iff _).mpr (Or.inl colon_not_in_documents), idsUnder, keysUnder, List.map_map]
    at listed
  exact listed

/-- What is taken of a list by a loop that counts up to a limit and has counted some already; a
limit of 0 is none. -/
def upTo (limit seen : Nat) (ids : List Bytes) : List Bytes :=
  if limit = 0 then ids else ids.take (limit - seen)

theorem up_to_full {limit seen : Nat} (reached : 0 < limit) (full : limit ≤ seen)
    (ids : List Bytes) :
    upTo limit seen ids = [] := by
  rw [upTo, if_neg (Nat.ne_of_gt reached), Nat.sub_eq_zero_of_le full, List.take_zero]

theorem up_to_cons {limit seen : Nat} (below : 0 < limit → seen < limit) (id : Bytes)
    (ids : List Bytes) :
    upTo limit seen (id :: ids) = id :: upTo limit (if 0 < limit then seen + 1 else seen) ids := by
  rw [upTo, upTo]
  by_cases unlimited : limit = 0
  · rw [if_pos unlimited, if_pos unlimited]
  · have limited : 0 < limit := Nat.pos_of_ne_zero unlimited
    have left : limit - seen = limit - (seen + 1) + 1 := by
      have room := below limited
      omega
    rw [if_neg unlimited, if_neg unlimited, if_pos limited, left, List.take_succ_cons]

theorem up_to_sublist (limit : Nat) (ids : List Bytes) : (upTo limit 0 ids).Sublist ids := by
  rw [upTo]
  split
  · exact List.Sublist.refl ids
  · exact List.take_sublist _ _

theorem up_to_zero (ids : List Bytes) : upTo 0 0 ids = ids := rfl

/-- The callback of `listUnusedDocuments`. -/
def collectUnused (limit : Nat) : IterFn (List Bytes × Nat) := fun key _ (docIds, numSeen) => do
  let id := idOfKey key
  if ← isDocumentInAnyCentroid id then pure ((docIds, numSeen), false)
  else if limit > 0 then
    pure ((docIds ++ [id], numSeen + 1), decide (numSeen + 1 ≥ limit))
  else pure ((docIds ++ [id], numSeen), false)

theorem run_collect_unused (limit : Nat) (key value : Bytes) (docIds : List Bytes) (numSeen : Nat) :
    (collectUnused limit key value (docIds, numSeen)).run rockHandle store =
      (if Unlinked store (idOfKey key) then
        ((docIds ++ [idOfKey key], if 0 < limit then numSeen + 1 else numSeen),
          decide (0 < limit ∧ limit ≤ numSeen + 1))
      else ((docIds, numSeen), false), store) := by
  rw [collectUnused, Program.run_bind, run_is_document_in_any_centroid]
  by_cases unlinked : Unlinked store (idOfKey key)
  · by_cases limited : 0 < limit
    · simp [unlinked, limited]
    · simp [unlinked, limited]
  · simp [unlinked]

theorem run_walk_collect_unused (limit : Nat) (entries : List (Bytes × Bytes)) (foundAny : Bool)
    (docIds : List Bytes) (numSeen : Nat) (below : 0 < limit → numSeen < limit) :
    ∃ answer, (walk (collectUnused limit) entries foundAny (docIds, numSeen)).run rockHandle store =
        (answer, store) ∧
      answer.2.1 = docIds ++ upTo limit numSeen
        ((entries.map fun entry => idOfKey entry.1).filter fun id => Unlinked store id) := by
  induction entries generalizing foundAny docIds numSeen with
  | nil =>
      refine ⟨_, rfl, ?_⟩
      simp [upTo]
  | cons entry entries ih =>
      rw [walk, Program.run_bind, run_collect_unused, List.map_cons]
      by_cases unlinked : Unlinked store (idOfKey entry.1)
      · have kept : (idOfKey entry.1 :: entries.map fun entry => idOfKey entry.1).filter
              (fun id => decide (Unlinked store id)) =
            idOfKey entry.1 :: (entries.map fun entry => idOfKey entry.1).filter
              (fun id => decide (Unlinked store id)) :=
          List.filter_cons_of_pos (p := fun id => decide (Unlinked store id))
            (decide_eq_true unlinked)
        rw [kept, up_to_cons below]
        simp only [if_pos unlinked]
        by_cases full : 0 < limit ∧ limit ≤ numSeen + 1
        · rw [if_pos (decide_eq_true full)]
          refine ⟨_, rfl, ?_⟩
          rw [if_pos full.1, up_to_full full.1 full.2]
        · rw [if_neg fun isFull => full (of_decide_eq_true isFull)]
          obtain ⟨answer, ran, collected⟩ :=
            ih true (docIds ++ [idOfKey entry.1]) (if 0 < limit then numSeen + 1 else numSeen) (by
              intro limited
              rw [if_pos limited]
              omega)
          refine ⟨answer, ran, ?_⟩
          rw [collected, List.append_assoc, List.singleton_append]
      · have dropped : (idOfKey entry.1 :: entries.map fun entry => idOfKey entry.1).filter
              (fun id => decide (Unlinked store id)) =
            (entries.map fun entry => idOfKey entry.1).filter
              (fun id => decide (Unlinked store id)) :=
          List.filter_cons_of_neg (p := fun id => decide (Unlinked store id))
            fun isUnlinked => unlinked (of_decide_eq_true isUnlinked)
        rw [dropped]
        simp only [if_neg unlinked]
        exact ih true docIds numSeen below

theorem run_list_unused_documents (limit : Nat) :
    (listUnusedDocuments limit).run rockHandle store = (upTo limit 0 (unusedIds store), store) := by
  obtain ⟨answer, ran, collected⟩ := run_walk_collect_unused store limit
    (entriesUnder store getDocumentsPrefix) false [] 0 id
  have iterated :
    (iterPrefix getDocumentsPrefix (collectUnused limit) ([], 0)).run rockHandle store =
      (answer, store) := by
    rw [iterPrefix, run_iter_range]
    exact ran
  change ((iterPrefix getDocumentsPrefix (collectUnused limit) ([], 0)) >>=
    fun result => pure result.2.1).run rockHandle store = _
  rw [Program.run_bind, iterated, Program.run_pure, collected, documents_entries, List.nil_append]
  rfl

end Unused

section Collection

variable (toInt64 : Bytes → Option Int64)

/-- The answer of `getDocumentCreatedTime`. -/
def createdTime (store : Store) (id : Bytes) : Option (Option Int64) :=
  match store[getDocumentMetadataKey id (ascii "created_time")]? with
  | none => some none
  | some data => (toInt64 data).map some

theorem run_get_document_created_time (store : Store) (id : Bytes) :
    (getDocumentCreatedTime toInt64 id).run rockHandle store =
      (createdTime toInt64 store id, store) := by
  rw [getDocumentCreatedTime, Program.run_bind, run_get, createdTime]
  cases store[getDocumentMetadataKey id (ascii "created_time")]? with
  | none => rfl
  | some data => rfl

/-- Whether the collection is to delete a document; no answer when its creation time is
unreadable. -/
def verdict (cutoff : Int64) (store : Store) (id : Bytes) : Option Bool :=
  if Unlinked store id then
    (createdTime toInt64 store id).map fun created => created.all (· < cutoff)
  else some false

/-- The documents a collection deletes, what it has counted in the end, and whether it threw. -/
def collect (verdict : Bytes → Option Bool) (limit : Nat) :
    List Bytes → Nat → List Bytes × Nat × Bool
  | [], numSeen => ([], numSeen, false)
  | id :: ids, numSeen =>
      match verdict id with
      | none => ([], numSeen, true)
      | some false => collect verdict limit ids numSeen
      | some true =>
          if 0 < limit ∧ limit ≤ numSeen + 1 then ([id], numSeen + 1, false)
          else
            let rest := collect verdict limit ids (if 0 < limit then numSeen + 1 else numSeen)
            (id :: rest.1, rest.2)

theorem collect_congr {first second : Bytes → Option Bool} (limit : Nat) (ids : List Bytes)
    (numSeen : Nat) (same : ∀ id ∈ ids, first id = second id) :
    collect first limit ids numSeen = collect second limit ids numSeen := by
  induction ids generalizing numSeen with
  | nil => rfl
  | cons id ids ih =>
      have tail (counted : Nat) :=
        ih counted fun other member => same other (List.mem_cons_of_mem id member)
      rw [collect, collect, same id List.mem_cons_self]
      simp only [tail]

theorem collect_sublist (verdict : Bytes → Option Bool) (limit : Nat) (ids : List Bytes)
    (numSeen : Nat) : (collect verdict limit ids numSeen).1.Sublist ids := by
  induction ids generalizing numSeen with
  | nil => exact List.Sublist.refl []
  | cons id ids ih =>
      rw [collect]
      cases verdict id with
      | none => exact List.nil_sublist _
      | some old =>
          cases old with
          | false => exact (ih numSeen).cons id
          | true =>
              dsimp only
              split
              · exact List.singleton_sublist.mpr List.mem_cons_self
              · exact (ih _).cons_cons id

/-- Where every creation time can be read, the loop deletes and counts up to the limit. -/
theorem collect_of_readable {verdict : Bytes → Option Bool} {old : Bytes → Bool} (limit : Nat)
    (ids : List Bytes) (numSeen : Nat) (readable : ∀ id ∈ ids, verdict id = some (old id))
    (below : 0 < limit → numSeen < limit) :
    collect verdict limit ids numSeen =
      (upTo limit numSeen (ids.filter old),
        if 0 < limit then numSeen + (upTo limit numSeen (ids.filter old)).length else numSeen,
        false) := by
  induction ids generalizing numSeen with
  | nil => simp [collect, upTo]
  | cons id ids ih =>
      have tail (counted : Nat) :=
        ih counted fun other member => readable other (List.mem_cons_of_mem id member)
      rw [collect, readable id List.mem_cons_self]
      cases isOld : old id with
      | false =>
          rw [List.filter_cons_of_neg (by simp [isOld])]
          exact tail numSeen below
      | true =>
          rw [List.filter_cons_of_pos isOld, up_to_cons below]
          by_cases full : 0 < limit ∧ limit ≤ numSeen + 1
          · simp [full, up_to_full full.1 full.2]
          · have room : 0 < limit → (if 0 < limit then numSeen + 1 else numSeen) < limit := by
              intro limited
              rw [if_pos limited]
              omega
            simp only [if_neg full]
            rw [tail _ room]
            by_cases limited : 0 < limit
            · simp [limited]
              omega
            · simp [limited]

section Deletion

variable {store : Store} {deleted id : Bytes}

theorem unlinked_deleted_document_iff (deletedFree : colon ∉ deleted) (free : colon ∉ id)
    (other : id ≠ deleted) : Unlinked (deletedDocument store deleted) id ↔ Unlinked store id := by
  rw [unlinked_iff, unlinked_iff]
  apply forall_congr'
  intro centroidId
  rw [holds_deleted_document_iff (owned_back_link free centroidId)
    (unambiguous_of_colon_free deletedFree)]
  simp [scan, other]

theorem verdict_deleted_document (cutoff : Int64) (deletedFree : colon ∉ deleted)
    (free : colon ∉ id) (other : id ≠ deleted) :
    verdict toInt64 cutoff (deletedDocument store deleted) id =
      verdict toInt64 cutoff store id := by
  have timeOwned : (documentMetadata id (ascii "created_time")).Owned :=
    unambiguous_of_colon_free free
  have apart : ¬ (documentMetadata id (ascii "created_time")).OfDocument deleted := by
    simp [LogicalRecord.OfDocument, scan, other]
  have time :=
    getElem?_deleted_document store timeOwned (unambiguous_of_colon_free deletedFree) apart
  have created : createdTime toInt64 (deletedDocument store deleted) id =
      createdTime toInt64 store id := by
    have read : (deletedDocument store deleted)[getDocumentMetadataKey id (ascii "created_time")]? =
        store[getDocumentMetadataKey id (ascii "created_time")]? := time
    rw [createdTime, createdTime, read]
  rw [verdict, verdict, created]
  exact if_congr (unlinked_deleted_document_iff deletedFree free other) rfl rfl

end Deletion

/-- The callback of `deleteOldUnusedDocuments`. -/
def collectOld (cutoff : Int64) (limit : Nat) : IterFn (Nat × Bool) :=
  fun key _ (numSeen, threw) => do
  let id := idOfKey key
  if ← isDocumentInAnyCentroid id then pure ((numSeen, threw), false)
  else
    match ← getDocumentCreatedTime toInt64 id with
    | none => pure ((numSeen, true), true)
    | some createdTime =>
        if createdTime.all (· < cutoff) then do
          let _ ← deleteDocument id
          if limit > 0 then pure ((numSeen + 1, threw), decide (numSeen + 1 ≥ limit))
          else pure ((numSeen, threw), false)
        else pure ((numSeen, threw), false)

theorem run_collect_old (cutoff : Int64) (limit numSeen : Nat) (key value : Bytes) (store : Store)
    (stored : Holds store (documentBody (idOfKey key))) :
    (collectOld toInt64 cutoff limit key value (numSeen, false)).run rockHandle store =
      match verdict toInt64 cutoff store (idOfKey key) with
      | none => (((numSeen, true), true), store)
      | some false => (((numSeen, false), false), store)
      | some true =>
          (((if 0 < limit then numSeen + 1 else numSeen, false),
            decide (0 < limit ∧ limit ≤ numSeen + 1)), deletedDocument store (idOfKey key)) := by
  have storedKey : getDocumentKey (idOfKey key) ∈ store := stored
  rw [collectOld, Program.run_bind, run_is_document_in_any_centroid, verdict]
  by_cases unlinked : Unlinked store (idOfKey key)
  · simp only [unlinked, decide_true, Bool.not_true, if_true, Bool.false_eq_true, if_false]
    rw [Program.run_bind, run_get_document_created_time]
    cases createdTime toInt64 store (idOfKey key) with
    | none => rfl
    | some created =>
        dsimp only [Option.map_some]
        cases created.all (· < cutoff) with
        | false => rfl
        | true =>
            simp only [if_true]
            rw [Program.run_bind, run_delete_document, if_pos storedKey]
            by_cases limited : 0 < limit
            · simp [limited]
            · simp [limited]
  · simp [unlinked]

theorem run_walk_collect_old (cutoff : Int64) (limit : Nat) (entries : List (Bytes × Bytes))
    (foundAny : Bool) (numSeen : Nat) (store : Store)
    (distinct : (entries.map fun entry => idOfKey entry.1).Nodup)
    (free : ∀ id ∈ entries.map fun entry => idOfKey entry.1, colon ∉ id)
    (stored : ∀ id ∈ entries.map fun entry => idOfKey entry.1, Holds store (documentBody id)) :
    ∃ iterated, (walk (collectOld toInt64 cutoff limit) entries foundAny (numSeen, false)).run
        rockHandle store =
      ((iterated, (collect (verdict toInt64 cutoff store) limit
          (entries.map fun entry => idOfKey entry.1) numSeen).2),
        (collect (verdict toInt64 cutoff store) limit
          (entries.map fun entry => idOfKey entry.1) numSeen).1.foldl deletedDocument store) := by
  induction entries generalizing foundAny numSeen store with
  | nil => exact ⟨foundAny, rfl⟩
  | cons entry entries ih =>
      rw [List.map_cons] at distinct free stored
      obtain ⟨fresh, distinct⟩ := List.nodup_cons.mp distinct
      obtain ⟨headFree, free⟩ := List.forall_mem_cons.mp free
      obtain ⟨headStored, stored⟩ := List.forall_mem_cons.mp stored
      rw [walk, Program.run_bind, run_collect_old toInt64 cutoff limit numSeen entry.1 entry.2 store
        headStored, List.map_cons, collect]
      cases verdict toInt64 cutoff store (idOfKey entry.1) with
      | none => exact ⟨true, rfl⟩
      | some old =>
          cases old with
          | false => exact ih true numSeen store distinct free stored
          | true =>
              dsimp only
              by_cases full : 0 < limit ∧ limit ≤ numSeen + 1
              · rw [if_pos (decide_eq_true full), if_pos full, if_pos full.1]
                exact ⟨true, rfl⟩
              · rw [if_neg fun isFull => full (of_decide_eq_true isFull), if_neg full]
                have others : ∀ id ∈ entries.map fun entry => idOfKey entry.1,
                    id ≠ idOfKey entry.1 := by
                  rintro id member rfl
                  exact fresh member
                have agrees := collect_congr limit (entries.map fun entry => idOfKey entry.1)
                  (if 0 < limit then numSeen + 1 else numSeen) fun id member =>
                    @verdict_deleted_document toInt64 store _ id cutoff headFree (free id member)
                      (others id member)
                have remaining := ih true (if 0 < limit then numSeen + 1 else numSeen)
                  (deletedDocument store (idOfKey entry.1)) distinct free (by
                    intro id member
                    rw [holds_deleted_document_iff (owned_document id)
                      (unambiguous_of_colon_free headFree)]
                    simpa [scan, others id member] using stored id member)
                rw [agrees] at remaining
                exact remaining

/-- Every document that is stored has an id without a colon. -/
def FreeDocuments (store : Store) : Prop := ∀ id, Holds store (documentBody id) → colon ∉ id

def collected (startTime minAge : Int64) (limit : Nat) (store : Store) : List Bytes :=
  (collect (verdict toInt64 (startTime - minAge) store) limit (documentIds store) 0).1

theorem run_delete_old_unused_documents (startTime minAge : Int64) (limit : Nat) {store : Store}
    (free : FreeDocuments store) :
    (deleteOldUnusedDocuments toInt64 startTime minAge limit).run rockHandle store =
      (let counted :=
          (collect (verdict toInt64 (startTime - minAge) store) limit (documentIds store) 0).2
        if counted.2 then none else some counted.1,
        (collected toInt64 startTime minAge limit store).foldl deletedDocument store) := by
  have isStored (id : Bytes) (member : id ∈ documentIds store) :=
    (mem_document_ids_iff store id).mp member
  obtain ⟨iterated, walked⟩ := run_walk_collect_old toInt64 (startTime - minAge) limit
    (entriesUnder store getDocumentsPrefix) false 0 store
    (by
      rw [documents_entries]
      exact (stored_ids_ascending store getDocumentsPrefix).imp fun less => ne_of_lt less)
    (by
      rw [documents_entries]
      exact fun id member => free id (isStored id member))
    (by
      rw [documents_entries]
      exact isStored)
  rw [documents_entries] at walked
  have ran : (iterPrefix getDocumentsPrefix (collectOld toInt64 (startTime - minAge) limit)
      (0, false)).run rockHandle store =
        ((iterated, (collect (verdict toInt64 (startTime - minAge) store) limit (documentIds store)
          0).2), (collected toInt64 startTime minAge limit store).foldl deletedDocument store) := by
    rw [iterPrefix, run_iter_range]
    exact walked
  change ((iterPrefix getDocumentsPrefix (collectOld toInt64 (startTime - minAge) limit)
    (0, false)) >>=
    fun result => pure (if result.2.2 then none else some result.2.1)).run rockHandle store = _
  rw [Program.run_bind, ran]
  rfl

end Collection

end SyncPersistence

end Relevanced.Persistence

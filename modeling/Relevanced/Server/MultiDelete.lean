import Relevanced.Persistence.GarbageCollection

/-!
# Multi-deletes

`multiDeleteDocuments` and `multiDeleteCentroids` through `RelevanceServer` and
`ThriftRelevanceServer`, with the deletes of one request executed in list order. The
handlers collect the ids that have been deleted, and then answer with the ids of the
request.
-/

namespace Relevanced.Server

open Foundation
open Persistence

set_option autoImplicit false

/-- `MultiDeleteDocumentsRequest` and `MultiDeleteCentroidsRequest`. -/
structure MultiDeleteRequest where
  ids : List Bytes
  ignoreMissing : Bool
  deriving DecidableEq

/-- `MultiDeleteDocumentsResponse` and `MultiDeleteCentroidsResponse`. -/
structure MultiDeleteResponse where
  ids : List Bytes
  deriving DecidableEq

namespace RelevanceServer

/-- The continuation of a delete. -/
def unlessIgnored (missing : ProtocolException) (ignoreMissing : Bool) (result : Try Bool) :
    Try Bool :=
  if result = .error missing ∧ ignoreMissing then .ok false else result

def deleteDocument (ignoreMissing : Bool) (id : Bytes) : RockProgram (Try Bool) := do
  let result ← SyncPersistence.deleteDocument id
  pure (unlessIgnored .eDocumentDoesNotExist ignoreMissing result)

def deleteCentroid (ignoreMissing : Bool) (id : Bytes) : RockProgram (Try Bool) := do
  let result ← SyncPersistence.deleteCentroid id
  pure (unlessIgnored .eCentroidDoesNotExist ignoreMissing result)

def multiDeleteDocuments (ids : List Bytes) (ignoreMissing : Bool) :
    RockProgram (List (Try Bool)) := ids.mapM (deleteDocument ignoreMissing)

def multiDeleteCentroids (ids : List Bytes) (ignoreMissing : Bool) :
    RockProgram (List (Try Bool)) := ids.mapM (deleteCentroid ignoreMissing)

end RelevanceServer

namespace ThriftRelevanceServer

def throwUnlessIgnored (missing : ProtocolException) (ignoreMissing : Bool) : Try Bool → Try Unit
  | .ok _ => .ok ()
  | .error exception =>
      if !ignoreMissing || exception ≠ missing then .error exception else .ok ()

/-- One turn of the loop over the results; `elem.value()` throws what has been let pass. -/
def pushDeleted (missing : ProtocolException) (ignoreMissing : Bool) (deleted : List Bytes)
    (entry : Try Bool × Bytes) : Try (List Bytes) := do
  let (elem, id) := entry
  throwUnlessIgnored missing ignoreMissing elem
  if ← elem then pure (deleted ++ [id]) else pure deleted

def deletedIds (missing : ProtocolException) (request : MultiDeleteRequest)
    (result : List (Try Bool)) : Try (List Bytes) :=
  (result.zip request.ids).foldlM (pushDeleted missing request.ignoreMissing) []

/-- The response takes the ids of the request, not `deleted`. -/
def respond (missing : ProtocolException) (request : MultiDeleteRequest)
    (result : List (Try Bool)) : Try MultiDeleteResponse := do
  let _deleted ← deletedIds missing request result
  pure { ids := request.ids }

def futureMultiDeleteDocuments (request : MultiDeleteRequest) :
    RockProgram (Try MultiDeleteResponse) := do
  let result ← RelevanceServer.multiDeleteDocuments request.ids request.ignoreMissing
  pure (respond .eDocumentDoesNotExist request result)

def futureMultiDeleteCentroids (request : MultiDeleteRequest) :
    RockProgram (Try MultiDeleteResponse) := do
  let result ← RelevanceServer.multiDeleteCentroids request.ids request.ignoreMissing
  pure (respond .eCentroidDoesNotExist request result)

end ThriftRelevanceServer

open RelevanceServer
open ThriftRelevanceServer

/-- The ids whose own delete removes something from the store it finds. -/
def removedIds (delete : Bytes → RockProgram (Try Bool)) : List Bytes → Store → List Bytes
  | [], _ => []
  | id :: ids, store =>
      let after := ((delete id).run rockHandle store).2
      if OrderedMap.losesKey store after then id :: removedIds delete ids after
      else removedIds delete ids after

/-- A successful response to a request that ignores missing ids lists the ids that were deleted. -/
def ListsRemoved (handler : MultiDeleteRequest → RockProgram (Try MultiDeleteResponse))
    (delete : Bytes → RockProgram (Try Bool)) (ids : List Bytes) (store : Store) : Prop :=
  ∀ response after, (handler ⟨ids, true⟩).run rockHandle store = (.ok response, after) →
    response.ids = removedIds delete ids store

/-- All bodies are stored, and none is under a key that goes with an id earlier in the list. -/
structure StoredApart (bodyKey : Bytes → Bytes) (KeyOf : Bytes → Bytes → Prop) (ids : List Bytes)
    (store : Store) : Prop where
  stored : ∀ id ∈ ids, bodyKey id ∈ store
  apart : ids.Pairwise fun earlier later => ¬ KeyOf earlier (bodyKey later)

/-- The keys of a centroid: its body, its members and its metadata. -/
def KeyOfCentroid (centroidId key : Bytes) : Prop :=
  key = getCentroidKey centroidId ∨ getCentroidDocumentPrefix centroidId ++ [colon] <+: key ∨
    centroidMetadataPrefix centroidId ++ [colon] <+: key

/-- A delete erases the keys of an id whose body is stored, and refuses any other. -/
structure DeletesKeys (delete : Bytes → RockProgram (Try Bool)) (missing : ProtocolException)
    (bodyKey : Bytes → Bytes) (KeyOf : Bytes → Bytes → Prop) : Prop where
  refuses : ∀ (id : Bytes) (store : Store), bodyKey id ∉ store →
    (delete id).run rockHandle store = (.error missing, store)
  deletes : ∀ (id : Bytes) (store : Store), bodyKey id ∈ store →
    ((delete id).run rockHandle store).1 = .ok true
  keeps : ∀ (id key : Bytes) (store : Store), bodyKey id ∈ store →
    (key ∈ ((delete id).run rockHandle store).2 ↔ ¬ KeyOf id key ∧ key ∈ store)
  own : ∀ id : Bytes, KeyOf id (bodyKey id)

theorem deletes_document :
    DeletesKeys SyncPersistence.deleteDocument .eDocumentDoesNotExist getDocumentKey
      KeyOfDocument where
  refuses id store absent := by
    rw [SyncPersistence.run_delete_document, if_neg absent]
  deletes id store stored := by
    rw [SyncPersistence.run_delete_document, if_pos stored]
  keeps id key store stored := by
    rw [SyncPersistence.run_delete_document, if_pos stored]
    exact SyncPersistence.mem_erased_iff store _ _ _ key
  own id := Or.inl rfl

theorem deletes_centroid :
    DeletesKeys SyncPersistence.deleteCentroid .eCentroidDoesNotExist getCentroidKey
      KeyOfCentroid where
  refuses id store absent := by
    rw [SyncPersistence.run_delete_centroid, if_neg absent]
  deletes id store stored := by
    rw [SyncPersistence.run_delete_centroid, if_pos stored]
  keeps id key store stored := by
    rw [SyncPersistence.run_delete_centroid, if_pos stored]
    exact SyncPersistence.mem_erased_iff store _ _ _ key
  own id := Or.inl rfl

section Deletes

variable {delete : Bytes → RockProgram (Try Bool)} {missing : ProtocolException}
  {bodyKey : Bytes → Bytes} {KeyOf : Bytes → Bytes → Prop}

theorem DeletesKeys.loses_iff (spec : DeletesKeys delete missing bodyKey KeyOf) (id : Bytes)
    (store : Store) :
    OrderedMap.losesKey store ((delete id).run rockHandle store).2 = true ↔ bodyKey id ∈ store := by
  rw [OrderedMap.loses_key_iff]
  constructor
  · rintro ⟨key, before, gone⟩
    by_contra absent
    rw [spec.refuses id store absent] at gone
    exact gone before
  · intro stored
    refine ⟨bodyKey id, stored, ?_⟩
    rw [spec.keeps id _ store stored]
    exact fun kept => kept.1 (spec.own id)

theorem removed_ids_sublist (ids : List Bytes) (store : Store) :
    (removedIds delete ids store).Sublist ids := by
  induction ids generalizing store with
  | nil => exact List.Sublist.refl []
  | cons id ids ih =>
      rw [removedIds]
      split
      · exact (ih _).cons_cons id
      · exact (ih _).cons id

theorem DeletesKeys.removed_ids_eq_iff (spec : DeletesKeys delete missing bodyKey KeyOf)
    (ids : List Bytes) (store : Store) :
    removedIds delete ids store = ids ↔ StoredApart bodyKey KeyOf ids store := by
  induction ids generalizing store with
  | nil => exact ⟨fun _ => ⟨by simp, List.Pairwise.nil⟩, fun _ => rfl⟩
  | cons id ids ih =>
      simp only [removedIds, spec.loses_iff]
      by_cases stored : bodyKey id ∈ store
      · rw [if_pos stored, List.cons_inj_right, ih]
        have later (other : Bytes) :
            bodyKey other ∈ ((delete id).run rockHandle store).2 ↔
              ¬ KeyOf id (bodyKey other) ∧ bodyKey other ∈ store :=
          spec.keeps id _ store stored
        constructor
        · rintro ⟨kept, apart⟩
          refine ⟨List.forall_mem_cons.mpr ⟨stored, ?_⟩, List.pairwise_cons.mpr ⟨?_, apart⟩⟩
          · exact fun other member => ((later other).mp (kept other member)).2
          · exact fun other member => ((later other).mp (kept other member)).1
        · rintro ⟨all, apart⟩
          obtain ⟨headApart, tailApart⟩ := List.pairwise_cons.mp apart
          refine ⟨?_, tailApart⟩
          intro other member
          exact (later other).mpr
            ⟨headApart other member, all other (List.mem_cons_of_mem id member)⟩
      · rw [if_neg stored]
        constructor
        · intro same
          have shorter := (@removed_ids_sublist delete ids
            ((delete id).run rockHandle store).2).length_le
          rw [same, List.length_cons] at shorter
          omega
        · rintro ⟨all, _⟩
          exact absurd (all id List.mem_cons_self) stored

theorem DeletesKeys.pushed (spec : DeletesKeys delete missing bodyKey KeyOf)
    (ids deleted : List Bytes) (store : Store) :
    ((((ids.mapM fun id => do
        pure (unlessIgnored missing true (← delete id))).run rockHandle store).1.zip ids).foldlM
          (pushDeleted missing true) deleted) =
      (.ok (deleted ++ removedIds delete ids store) : Try (List Bytes)) := by
  induction ids generalizing store deleted with
  | nil => simp [removedIds, pure, Except.pure]
  | cons id ids ih =>
      rw [Program.run_mapM_cons]
      simp only [Program.run_bind, Program.run_pure, List.zip_cons_cons, List.foldlM_cons]
      by_cases stored : bodyKey id ∈ store
      · have loses := (spec.loses_iff id store).mpr stored
        rw [removedIds, if_pos loses, spec.deletes id store stored]
        have pushes : pushDeleted missing true deleted (unlessIgnored missing true (.ok true), id) =
            .ok (deleted ++ [id]) := rfl
        rw [pushes]
        refine (ih _ _).trans ?_
        rw [List.append_assoc, List.singleton_append]
      · have kept : ¬ OrderedMap.losesKey store ((delete id).run rockHandle store).2 = true :=
          mt (spec.loses_iff id store).mp stored
        rw [removedIds, if_neg kept, spec.refuses id store stored]
        have skips : pushDeleted missing true deleted
            (unlessIgnored missing true (.error missing), id) = .ok deleted := by
          rw [unlessIgnored, if_pos ⟨rfl, rfl⟩]
          rfl
        rw [skips]
        exact ih _ _

theorem DeletesKeys.responds (spec : DeletesKeys delete missing bodyKey KeyOf)
    (ids : List Bytes) (store : Store) :
    respond missing ⟨ids, true⟩ ((ids.mapM fun id => do
        pure (unlessIgnored missing true (← delete id))).run rockHandle store).1 =
      .ok ⟨ids⟩ := by
  rw [respond, deletedIds, spec.pushed]
  rfl

theorem DeletesKeys.lists_removed_iff (spec : DeletesKeys delete missing bodyKey KeyOf)
    {handler : MultiDeleteRequest → RockProgram (Try MultiDeleteResponse)}
    (ids : List Bytes) (store : Store)
    (handled : handler ⟨ids, true⟩ = do
      let result ← ids.mapM fun id => do pure (unlessIgnored missing true (← delete id))
      pure (respond missing ⟨ids, true⟩ result)) :
    ListsRemoved handler delete ids store ↔ StoredApart bodyKey KeyOf ids store := by
  rw [← spec.removed_ids_eq_iff]
  have ran := handled ▸ Program.run_bind rockHandle _ _ store
  rw [Program.run_pure, spec.responds] at ran
  constructor
  · intro lists
    exact (lists _ _ ran).symm
  · intro allRemoved response after succeeded
    rw [ran] at succeeded
    cases succeeded
    exact allRemoved.symm

end Deletes

/-- A response lists what was deleted exactly when every id of the request was there to be
deleted. -/
theorem response_lists_removed_iff (ids : List Bytes) (store : Store) :
    (ListsRemoved futureMultiDeleteDocuments SyncPersistence.deleteDocument ids store ↔
      StoredApart getDocumentKey KeyOfDocument ids store) ∧
    (ListsRemoved futureMultiDeleteCentroids SyncPersistence.deleteCentroid ids store ↔
      StoredApart getCentroidKey KeyOfCentroid ids store) :=
  ⟨deletes_document.lists_removed_iff ids store rfl,
    deletes_centroid.lists_removed_iff ids store rfl⟩

/-- The empty store has nothing to delete, and the responses list the id that is missing. -/
theorem missing_id_listed :
    ¬ ListsRemoved futureMultiDeleteDocuments SyncPersistence.deleteDocument [ascii "a"] ∅ ∧
    ¬ ListsRemoved futureMultiDeleteCentroids SyncPersistence.deleteCentroid [ascii "a"] ∅ := by
  constructor
  · intro lists
    exact absurd (lists ⟨[ascii "a"]⟩ ∅ rfl) (by decide)
  · intro lists
    exact absurd (lists ⟨[ascii "a"]⟩ ∅ rfl) (by decide)

end Relevanced.Server

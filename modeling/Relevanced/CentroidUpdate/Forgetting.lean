import Relevanced.CentroidUpdate.Undisturbed

/-!
# Runs of CentroidUpdater that may remove members

With no assumption on the ids, a run may ask for the removal of documents that are
there. Whatever it removes, it adds no record but the body of the centroid and its
timestamp: it sees members and documents of the start only.
-/

namespace Relevanced.CentroidUpdate

open Foundation
open Models
open Persistence
open Persistence.SyncPersistence

set_option autoImplicit false

namespace CentroidUpdater

/-- Every record was there at the start, but for the body of the centroid and its timestamp. -/
def Forgotten (store : Store) (centroidId : Bytes) (now : Store) : Prop :=
  ∀ key value, key ≠ getCentroidKey centroidId →
    key ≠ getCentroidMetadataKey centroidId (ascii "lastCalculated") →
    now[key]? = some value → store[key]? = some value

section Forgotten

variable {store now : Store} {centroidId : Bytes}

theorem Forgotten.erase (forgotten : Forgotten store centroidId now) (key : Bytes) :
    Forgotten store centroidId (now.erase key) := by
  intro other value notCentroid notStamp stored
  apply forgotten other value notCentroid notStamp
  rw [Std.ExtTreeMap.getElem?_erase] at stored
  split at stored
  · cases stored
  · exact stored

theorem Forgotten.put_centroid (forgotten : Forgotten store centroidId now) (value : Bytes) :
    Forgotten store centroidId (now.insert (getCentroidKey centroidId) value) := by
  intro key found notCentroid notStamp stored
  rw [OrderedMap.getElem?_insert_of_ne notCentroid] at stored
  exact forgotten key found notCentroid notStamp stored

theorem Forgotten.put_stamp (forgotten : Forgotten store centroidId now) (value : Bytes) :
    Forgotten store centroidId
      (now.insert (getCentroidMetadataKey centroidId (ascii "lastCalculated")) value) := by
  intro key found notCentroid notStamp stored
  rw [OrderedMap.getElem?_insert_of_ne notStamp] at stored
  exact forgotten key found notCentroid notStamp stored

theorem Forgotten.document (forgotten : Forgotten store centroidId now) {id serialized : Bytes}
    (member : id ∈ listed store centroidId) (stored : now[getDocumentKey id]? = some serialized) :
    store[getDocumentKey id]? = some serialized := by
  rw [listed, ids_under_eq_members, List.mem_map] at member
  obtain ⟨docId, _, rfl⟩ := member
  exact forgotten _ _ (document_key_ne_centroid_key _ _) (document_key_ne_metadata_key _ _) stored

theorem Forgotten.listed_sublist (forgotten : Forgotten store centroidId now) :
    (listed now centroidId).Sublist (listed store centroidId) := by
  apply ids_under_sublist
  intro key value under stored
  apply forgotten key value _ _ stored
  · rintro rfl
    exact centroid_key_not_listed under
  · rintro rfl
    exact metadata_key_not_listed _ under

end Forgotten

variable {F : Type}

/-- The requests a run can make. -/
def Requested (store : Store) (centroidId : Bytes) : PersistenceCall F → Prop
  | .doesCentroidExist _ => True
  | .listCentroidDocumentRangeFromOffsetOption id _ _ => id = centroidId
  | .listCentroidDocumentRangeFromDocumentIdOption id _ _ => id = centroidId
  | .loadDocument id => id ∈ listed store centroidId
  | .removeDocumentFromCentroid _ _ => True
  | .saveCentroid id _ => id = centroidId
  | .setCentroidMetadata id metadataName _ =>
      id = centroidId ∧ metadataName = ascii "lastCalculated"
  | _ => False

/-- Listings and loads show what was there at the start. -/
def ShowsOld (serialization : Serialization F) (store : Store) (centroidId : Bytes) :
    (request : PersistenceCall F) → (PersistenceIf F).Reply request → Prop
  | .listCentroidDocumentRangeFromOffsetOption _ _ _, answer =>
      ∀ ids, answer = some ids → List.Sublist ids (listed store centroidId)
  | .listCentroidDocumentRangeFromDocumentIdOption _ _ _, answer =>
      ∀ ids, answer = some ids → List.Sublist ids (listed store centroidId)
  | .loadDocument id, answer =>
      ∀ doc, answer = some (.ok doc) → loadedFrom serialization store id = some (.ok doc)
  | _, _ => True

def forgetting (serialization : Serialization F) (store : Store) (centroidId : Bytes) :
    Contract Store (PersistenceIf F) where
  Inv := Forgotten store centroidId
  Good := Requested store centroidId
  Answers := ShowsOld serialization store centroidId

variable {serialization : Serialization F} {store : Store} {centroidId : Bytes}

theorem guaranteed_load {id : Bytes} (member : id ∈ listed store centroidId) :
    (loadDocument serialization id).Guaranteed rockHandle (Forgotten store centroidId)
      fun loaded => ∀ doc, loaded = some (.ok doc) →
        loadedFrom serialization store id = some (.ok doc) := by
  intro now forgotten
  refine ⟨forgotten, ?_⟩
  dsimp only [rockHandle]
  cases stored : now[getDocumentKey id]? with
  | none =>
      intro doc same
      cases same
  | some serialized =>
      have atStart := forgotten.document member stored
      dsimp only [Program.bind]
      cases decoded : serialization.binaryDeserializeDocument serialized with
      | none =>
          intro doc same
          cases same
      | some processed =>
          intro doc same
          cases same
          rw [loaded_from_eq, atStart]
          simp [decoded]

theorem guaranteed_remove (id docId : Bytes) :
    (removeDocumentFromCentroid id docId).Guaranteed rockHandle (Forgotten store centroidId)
      fun _ => True := by
  have calls : (removeDocumentFromCentroid id docId).Calls fun call : RockCall =>
      call.Reads ∨ ∃ key, call = .del key := by
    apply Program.calls_bind (Program.calls_perform (.inl trivial))
    intro centroidFound
    split
    · apply Program.calls_bind (Program.calls_perform (.inl trivial))
      intro documentFound
      split
      · apply Program.calls_bind (Program.calls_perform (.inr ⟨_, rfl⟩))
        intro _
        apply Program.calls_bind (Program.calls_perform (.inr ⟨_, rfl⟩))
        intro removed
        split
        · trivial
        · trivial
      · trivial
    · trivial
  apply Program.guaranteed_of_calls _ calls
  intro call now allowed forgotten
  rcases allowed with reads | ⟨key, rfl⟩
  · rw [handler_of_reads reads]
    exact forgotten
  · rw [store_after_del]
    exact forgotten.erase key

variable [Zero F] [One F]

theorem forgetting_honoured :
    (forgetting serialization store centroidId).Honoured (persistence serialization) := by
  have shows : ∀ now, Forgotten store centroidId now → ∀ ids : List Bytes,
      ids.Sublist (idsUnder now (getCentroidDocumentPrefix centroidId)) →
      ids.Sublist (listed store centroidId) :=
    fun now forgotten ids shown => shown.trans forgotten.listed_sublist
  intro request requested
  cases request with
  | doesCentroidExist id => exact guaranteed_of_reads (reads_exists_key _)
  | listCentroidDocumentRangeFromOffsetOption id offset count =>
      cases requested
      exact guaranteed_unless_missing_option (guaranteed_list_ids_from_offset shows offset count)
  | listCentroidDocumentRangeFromDocumentIdOption id member count =>
      cases requested
      exact guaranteed_unless_missing_option (guaranteed_list_ids_from_member shows member count)
  | loadDocument id => exact guaranteed_load requested
  | removeDocumentFromCentroid id docId => exact guaranteed_remove id docId
  | saveCentroid id centroid =>
      cases requested
      intro now forgotten
      exact ⟨forgotten.put_centroid _, trivial⟩
  | setCentroidMetadata id metadataName value =>
      obtain ⟨rfl, rfl⟩ := requested
      intro now forgotten
      exact ⟨forgotten.put_stamp _, trivial⟩
  | _ => exact absurd requested id

omit [Zero F] [One F] in
theorem forgetting_serves :
    Serves (forgetting serialization store centroidId) (fun _ => False) centroidId
      fun idSet => idSet.Sublist (listed store centroidId) where
  finds := trivial
  lists := rfl
  first := fun idSet answers _ => answers idSet rfl
  continues := fun _ _ => rfl
  next := fun _ nextIdSet _ answers _ => answers nextIdSet rfl
  loads := fun _ read _ member => read.subset member
  removes := fun _ _ _ _ _ _ _ _ => .inr trivial
  saves := fun _ => rfl
  stamps := fun _ => ⟨rfl, rfl⟩

end CentroidUpdater

end Relevanced.CentroidUpdate

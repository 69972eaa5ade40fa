import Relevanced.Foundation.Pages
import Relevanced.Persistence.Links
import Relevanced.Persistence.Listings

/-!
# The ids that are read out of keys

A key is its label, a colon and an id. A listing takes for the id what stands behind the
first colon of the key, which is the id that was stored exactly when the label has no colon.
-/

namespace Relevanced.Persistence

open Foundation
open Models

set_option autoImplicit false

namespace SyncPersistence

section Labels

variable (store : Store) (label : Bytes)

/-- The ids under a label: what follows the label and its colon. -/
def storedIds : List Bytes := (keysUnder store label).map (·.drop (label.length + 1))

/-- What a listing makes of the key of an id. -/
def decodedId (id : Bytes) : Bytes := idOfKey (join colon label id)

theorem drop_label (id : Bytes) : (join colon label id).drop (label.length + 1) = id := by
  simp [join]

theorem keys_under_eq_stored_ids :
    keysUnder store label = (storedIds store label).map (join colon label) := by
  rw [storedIds, List.map_map]
  have fixed : ∀ key ∈ keysUnder store label,
      (join colon label ∘ (·.drop (label.length + 1))) key = id key := by
    intro key member
    obtain ⟨rest, rfl⟩ := ((mem_keys_under_iff store label key).mp member).1
    have shape : label ++ [colon] ++ rest = join colon label rest := by simp [join]
    rw [Function.comp_apply, shape, drop_label, id]
  rw [List.map_congr_left fixed, List.map_id]

theorem join_injective : Function.Injective (join colon label) := by
  intro left right same
  simpa [join] using same

theorem mem_stored_ids_iff (id : Bytes) :
    id ∈ storedIds store label ↔ join colon label id ∈ store := by
  rw [← List.mem_map_of_injective (join_injective label), ← keys_under_eq_stored_ids,
    mem_keys_under_iff]
  simp [join]

theorem join_lt_join_iff (left right : Bytes) :
    join colon label left < join colon label right ↔ left < right := by
  rw [join, join, append_lt_append_iff]
  simp

theorem stored_ids_ascending : (storedIds store label).Pairwise (· < ·) := by
  have keys := keys_under_ascending store label
  rw [keys_under_eq_stored_ids, List.pairwise_map] at keys
  exact keys.imp fun less => (join_lt_join_iff label _ _).mp less

theorem ids_under_eq_decoded :
    idsUnder store label = (storedIds store label).map (decodedId label) := by
  rw [idsUnder, keys_under_eq_stored_ids, List.map_map]
  rfl

theorem ids_from_eq_decoded (start : Bytes) (limit : Nat) :
    idsFrom store label start limit =
      (pageFrom (storedIds store label) start limit).map (decodedId label) := by
  have keys :
      (OrderedMap.range store (label ++ colon :: start) (label ++ [semicolon])).map Prod.fst =
        ((storedIds store label).filter (start ≤ ·)).map (join colon label) := by
    rw [OrderedMap.range_of_le (colon_le_member label start)]
    change ((entriesUnder store label).filter fun entry =>
      join colon label start ≤ entry.1).map Prod.fst = _
    have filtered : ((entriesUnder store label).filter fun entry =>
        join colon label start ≤ entry.1).map Prod.fst =
          (keysUnder store label).filter fun key => join colon label start ≤ key := by
      rw [keysUnder, List.filter_map]
      rfl
    rw [filtered, keys_under_eq_stored_ids, List.filter_map]
    apply congrArg (List.map (join colon label))
    apply List.filter_congr
    intro id _
    rw [Function.comp_apply, decide_eq_decide, ← not_lt, ← not_lt, join_lt_join_iff]
  have decoded : idsFrom store label start limit =
      (((OrderedMap.range store (label ++ colon :: start) (label ++ [semicolon])).map Prod.fst).take
        limit).map idOfKey := by
    rw [idsFrom, List.map_take, List.map_take, List.map_map]
    rfl
  rw [decoded, keys, pageFrom, ← List.map_take, List.map_map]
  rfl

variable {label}

theorem decoded_id_of_free (free : colon ∉ label) (id : Bytes) : decodedId label id = id :=
  id_of_join free id

theorem decoded_id_longer (cut : colon ∈ label) (id : Bytes) :
    id.length < (decodedId label id).length := by
  obtain ⟨front, back, free, rfl⟩ := exists_cut cut
  have shape : join colon (front ++ colon :: back) id = join colon front (join colon back id) := by
    simp [join]
  rw [decodedId, shape, id_of_join free, join, List.length_append, List.length_cons]
  omega

theorem decoded_id_iff (id : Bytes) : decodedId label id = id ↔ colon ∉ label := by
  constructor
  · intro same cut
    have longer := decoded_id_longer cut id
    rw [same] at longer
    exact absurd longer (lt_irrefl _)
  · intro free
    exact decoded_id_of_free free id

/-- A listing under a label returns the stored ids exactly when the label has no colon, or when
there are none. -/
theorem decoded_ids_iff (ids : List Bytes) :
    ids.map (decodedId label) = ids ↔ colon ∉ label ∨ ids = [] := by
  cases ids with
  | nil => simp
  | cons id ids =>
      constructor
      · intro same
        exact Or.inl ((decoded_id_iff id).mp (List.cons.inj same).1)
      · rintro (free | absurdly)
        · rw [funext (decoded_id_of_free free), List.map_id']
        · cases absurdly

end Labels

theorem colon_in_scan_label_iff (scan : Scan) : colon ∈ scan.label ↔ colon ∈ scan.owner := by
  rw [Scan.label_eq, List.mem_append]
  exact or_iff_left scan.family.colon_not_in_ending

section Decoding

variable (store : Store)

/-- The listings of a centroid's documents, and the ids read out of the keys, are exact. -/
structure DecodesDocuments (centroidId : Bytes) : Prop where
  roundTrip : ∀ documentId, idOfKey (getCentroidDocumentKey centroidId documentId) = documentId
  all : getCentroidKey centroidId ∈ store →
    (listAllDocumentsForCentroid centroidId).run rockHandle store =
      (.ok (storedIds store (getCentroidDocumentPrefix centroidId)), store)
  fromOffset : getCentroidKey centroidId ∈ store → ∀ offset limit,
    (listCentroidDocumentRangeFromOffset centroidId offset limit).run rockHandle store =
      (.ok (pageAt (storedIds store (getCentroidDocumentPrefix centroidId)) offset limit), store)
  fromDocumentId : getCentroidKey centroidId ∈ store → ∀ documentId limit,
    (listCentroidDocumentRangeFromDocumentId centroidId documentId limit).run rockHandle store =
      (.ok (pageFrom (storedIds store (getCentroidDocumentPrefix centroidId)) documentId limit),
        store)

/-- So is the listing of the centroids of a document. -/
structure DecodesCentroids (documentId : Bytes) : Prop where
  roundTrip : ∀ centroidId, idOfKey (getDocumentCentroidKey documentId centroidId) = centroidId
  all : (listDocumentCentroids documentId).run rockHandle store =
    (storedIds store (getDocumentCentroidsPrefix documentId), store)

theorem run_unless_missing_of_existing {centroidId : Bytes} {listing : RockProgram (List Bytes)}
    {ids : List Bytes} (existing : getCentroidKey centroidId ∈ store)
    (listed : listing.run rockHandle store = (ids, store)) :
    (unlessMissing centroidId listing).run rockHandle store = (.ok ids, store) := by
  rw [run_unless_missing store listed, if_neg]
  exact fun missing => missing.2 existing

theorem back_link_key_eq_join (documentId centroidId : Bytes) :
    getDocumentCentroidKey documentId centroidId =
      join colon (getDocumentCentroidsPrefix documentId) centroidId :=
  (LogicalRecord.backLink documentId centroidId).store_key_eq_join

theorem decodes_documents_iff (centroidId : Bytes) :
    DecodesDocuments store centroidId ↔ colon ∉ centroidId := by
  have inLabel := colon_in_scan_label_iff (.members centroidId)
  constructor
  · intro decodes inOwner
    have roundTrip := decodes.roundTrip []
    rw [member_key_eq_join] at roundTrip
    exact (decoded_id_iff []).mp roundTrip (inLabel.mpr inOwner)
  · intro free
    have labelFree : colon ∉ getCentroidDocumentPrefix centroidId :=
      fun held => free (inLabel.mp held)
    have whole := @decoded_ids_iff (getCentroidDocumentPrefix centroidId)
    constructor
    · intro documentId
      rw [member_key_eq_join]
      exact decoded_id_of_free labelFree documentId
    · intro existing
      apply run_unless_missing_of_existing store existing
      rw [listAllDocumentsForCentroidRaw, run_list_ids, ids_under_eq_decoded,
        (whole _).mpr (Or.inl labelFree)]
    · intro existing offset limit
      apply run_unless_missing_of_existing store existing
      rw [listCentroidDocumentRangeFromOffsetRaw, run_list_ids_from_offset, ids_under_eq_decoded,
        (whole _).mpr (Or.inl labelFree), pageAt]
    · intro existing documentId limit
      apply run_unless_missing_of_existing store existing
      rw [listCentroidDocumentRangeFromDocumentIdRaw, run_list_ids_from_any_member,
        ids_from_eq_decoded, (whole _).mpr (Or.inl labelFree)]

theorem decodes_centroids_iff (documentId : Bytes) :
    DecodesCentroids store documentId ↔ colon ∉ documentId := by
  have inLabel := colon_in_scan_label_iff (.backLinks documentId)
  constructor
  · intro decodes inOwner
    have roundTrip := decodes.roundTrip []
    rw [back_link_key_eq_join] at roundTrip
    exact (decoded_id_iff []).mp roundTrip (inLabel.mpr inOwner)
  · intro free
    have labelFree : colon ∉ getDocumentCentroidsPrefix documentId :=
      fun held => free (inLabel.mp held)
    constructor
    · intro centroidId
      rw [back_link_key_eq_join]
      exact decoded_id_of_free labelFree centroidId
    · rw [listDocumentCentroids, run_list_ids, ids_under_eq_decoded,
        (decoded_ids_iff _).mpr (Or.inl labelFree)]

end Decoding

/-- Ids are read back exactly when the id that owns the keys has no colon. -/
theorem stored_ids_decoded_iff (store : Store) (centroidId documentId : Bytes) :
    (DecodesDocuments store centroidId ↔ colon ∉ centroidId) ∧
      (DecodesCentroids store documentId ↔ colon ∉ documentId) :=
  ⟨decodes_documents_iff store centroidId, decodes_centroids_iff store documentId⟩

/-- A document in a centroid whose id has a colon. -/
def memberOfCutId : List (SyncCall Int) :=
  [.createNewCentroid (ascii "a:b"), .saveNewDocument (.bare (ascii "d")),
    .addDocumentToCentroid (ascii "a:b") (ascii "d")]

theorem member_of_cut_id_misread :
    ¬ ∀ (calls : List (SyncCall Int)) (store : Store),
      (syncMachine .idsOnly).exec calls ∅ = some store →
        ∀ centroidId, getCentroidKey centroidId ∈ store → DecodesDocuments store centroidId := by
  intro claim
  obtain ⟨store, executed⟩ : ∃ store, (syncMachine .idsOnly).exec memberOfCutId ∅ = some store :=
    ⟨_, rfl⟩
  cases executed
  have decodes := claim memberOfCutId _ rfl (ascii "a:b") (by decide +kernel)
  have listed := congrArg Prod.fst (decodes.all (by decide +kernel))
  exact absurd listed (by decide +kernel)

end SyncPersistence

end Relevanced.Persistence

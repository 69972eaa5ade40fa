import Relevanced.Persistence.ListedIds

/-!
# Listings in pages

The two forms of ranged listing, by position and from an id on, against the ascending list
of the ids that are stored. A client that asks for page after page gets the whole list, and
one that walks on from the last id it has received gets it and comes to an end.
-/

namespace Relevanced.Persistence

open Foundation
open Models

set_option autoImplicit false

namespace SyncPersistence

inductive Listing where
  | documents
  | centroids
  | members (centroidId : Bytes)

namespace Listing

def scan : Listing → Scan
  | documents => .documents
  | centroids => .centroids
  | members centroidId => .members centroidId

def fromOffset : Listing → Nat → Nat → RockProgram (List Bytes)
  | documents, offset, count => listDocumentRangeFromOffset offset count
  | centroids, offset, count => listCentroidRangeFromOffset offset count
  | members centroidId, offset, count =>
      listCentroidDocumentRangeFromOffsetRaw centroidId offset count

def fromId : Listing → Bytes → Nat → RockProgram (List Bytes)
  | documents, start, count => listDocumentRangeFromId start count
  | centroids, start, count => listCentroidRangeFromId start count
  | members centroidId, start, count =>
      listCentroidDocumentRangeFromDocumentIdRaw centroidId start count

def ids (listing : Listing) (store : Store) : List Bytes := storedIds store listing.scan.label

variable (listing : Listing) (store : Store)

theorem run_from_offset (offset count : Nat) :
    (listing.fromOffset offset count).run rockHandle store =
      ((pageAt (listing.ids store) offset count).map (decodedId listing.scan.label), store) := by
  have listed := run_list_ids_from_offset store listing.scan.label offset count
  rw [ids_under_eq_decoded, ← List.map_drop, ← List.map_take] at listed
  cases listing with
  | documents => exact listed
  | centroids => exact listed
  | members centroidId => exact listed

theorem run_from_id (start : Bytes) (count : Nat) :
    (listing.fromId start count).run rockHandle store =
      ((pageFrom (listing.ids store) start count).map (decodedId listing.scan.label), store) := by
  have listed := run_list_ids_from_any_member store listing.scan.label start count
  rw [ids_from_eq_decoded] at listed
  cases listing with
  | documents => exact listed
  | centroids => exact listed
  | members centroidId => exact listed

/-- What a client gets for a page by position, and for one from an id on. -/
def offsetPage (offset count : Nat) : List Bytes :=
  ((listing.fromOffset offset count).run rockHandle store).1

def idPage (start : Bytes) (count : Nat) : List Bytes :=
  ((listing.fromId start count).run rockHandle store).1

/-- Pages drop and take, and the two walks of a client enumerate the ids. -/
structure Paged : Prop where
  fromOffset : ∀ offset count,
    (listing.fromOffset offset count).run rockHandle store =
      (((listing.ids store).drop offset).take count, store)
  fromId : ∀ start count,
    (listing.fromId start count).run rockHandle store =
      (((listing.ids store).filter (start ≤ ·)).take count, store)
  joined : ∀ count pages, 1 ≤ count → (listing.ids store).length ≤ pages * count →
    joinedPages (listing.offsetPage store · count) count pages = listing.ids store
  walked : ∀ count fuel, 2 ≤ count → (listing.ids store).length < fuel →
    walkFrom (listing.idPage store · count) fuel [] = some (listing.ids store)

structure Answered (centroidId : Bytes) : Prop where
  fromOffset : ∀ offset count,
    (listCentroidDocumentRangeFromOffset centroidId offset count).run rockHandle store =
      (.ok ((members centroidId).offsetPage store offset count), store)
  fromOffsetOption : ∀ offset count,
    (listCentroidDocumentRangeFromOffsetOption centroidId offset count).run rockHandle store =
      (some ((members centroidId).offsetPage store offset count), store)
  fromDocumentId : ∀ start count,
    (listCentroidDocumentRangeFromDocumentId centroidId start count).run rockHandle store =
      (.ok ((members centroidId).idPage store start count), store)
  fromDocumentIdOption : ∀ start count,
    (listCentroidDocumentRangeFromDocumentIdOption centroidId start count).run rockHandle store =
      (some ((members centroidId).idPage store start count), store)

theorem paged_of_decoded
    (decoded : ∀ id, decodedId listing.scan.label id = id) : listing.Paged store := by
  have byOffset (offset count : Nat) := listing.run_from_offset store offset count
  have byId (start : Bytes) (count : Nat) := listing.run_from_id store start count
  simp only [funext decoded, List.map_id'] at byOffset byId
  constructor
  · exact byOffset
  · exact byId
  · intro count pages _ enough
    have pages_eq : (listing.offsetPage store · count) = (pageAt (listing.ids store) · count) := by
      funext offset
      exact congrArg Prod.fst (byOffset offset count)
    rw [pages_eq]
    exact joined_pages_eq _ enough
  · intro count fuel atLeastTwo enough
    apply walk_from_eq atLeastTwo _ (stored_ids_ascending store _) _ enough
    · intro start
      exact congrArg Prod.fst (byId start count)
    · intro id _
      exact le_of_prefix List.nil_prefix

theorem paged_of_no_ids (none : listing.ids store = []) : listing.Paged store := by
  have byOffset (offset count : Nat) := listing.run_from_offset store offset count
  have byId (start : Bytes) (count : Nat) := listing.run_from_id store start count
  simp only [none, pageAt, pageFrom, List.drop_nil, List.filter_nil, List.take_nil, List.map_nil]
    at byOffset byId
  constructor
  · intro offset count
    simpa [none] using byOffset offset count
  · intro start count
    simpa [none] using byId start count
  · intro count pages _ _
    rw [none, joinedPages, List.flatMap_eq_nil_iff]
    intro index _
    exact congrArg Prod.fst (byOffset (index * count) count)
  · intro count fuel _ _
    have nothing : listing.idPage store [] count = [] := congrArg Prod.fst (byId [] count)
    rw [walkFrom, nothing, none]
    rfl

theorem paged_iff : listing.Paged store ↔ colon ∉ listing.scan.owner ∨ listing.ids store = [] := by
  constructor
  · intro paged
    have whole := paged.fromOffset 0 (listing.ids store).length
    rw [run_from_offset, pageAt, List.drop_zero, List.take_length, Prod.mk.injEq, decoded_ids_iff,
      colon_in_scan_label_iff] at whole
    exact whole.1
  · rintro (free | none)
    · apply paged_of_decoded
      intro id
      exact decoded_id_of_free (fun held => free ((colon_in_scan_label_iff _).mp held)) id
    · exact paged_of_no_ids listing store none

theorem run_unless_missing_option_of_existing {centroidId : Bytes}
    {listing : RockProgram (List Bytes)} {ids : List Bytes}
    (existing : getCentroidKey centroidId ∈ store)
    (listed : listing.run rockHandle store = (ids, store)) :
    (unlessMissingOption centroidId listing).run rockHandle store = (some ids, store) := by
  rw [run_unless_missing_option store listed, if_neg]
  exact fun missing => missing.2 existing

theorem answered_of_existing {centroidId : Bytes} (existing : getCentroidKey centroidId ∈ store) :
    Answered store centroidId := by
  have byOffset (offset count : Nat) :
      (listCentroidDocumentRangeFromOffsetRaw centroidId offset count).run rockHandle store =
        ((members centroidId).offsetPage store offset count, store) := by
    have unchanged := congrArg Prod.snd ((members centroidId).run_from_offset store offset count)
    exact Prod.ext rfl unchanged
  have byId (start : Bytes) (count : Nat) :
      (listCentroidDocumentRangeFromDocumentIdRaw centroidId start count).run rockHandle store =
        ((members centroidId).idPage store start count, store) := by
    have unchanged := congrArg Prod.snd ((members centroidId).run_from_id store start count)
    exact Prod.ext rfl unchanged
  constructor
  · intro offset count
    exact run_unless_missing_of_existing store existing (byOffset offset count)
  · intro offset count
    exact run_unless_missing_option_of_existing store existing (byOffset offset count)
  · intro start count
    exact run_unless_missing_of_existing store existing (byId start count)
  · intro start count
    exact run_unless_missing_option_of_existing store existing (byId start count)

end Listing

/-- Every listing drops and takes among the ascending ids that are stored, except that of the
members of a centroid whose id has a colon. -/
theorem pages_drop_and_take_iff (store : Store) (listing : Listing) :
    (listing.ids store).Pairwise (· < ·) ∧
      (∀ id, id ∈ listing.ids store ↔ join colon listing.scan.label id ∈ store) ∧
      (∀ centroidId, getCentroidKey centroidId ∈ store → Listing.Answered store centroidId) ∧
      (listing.Paged store ↔ colon ∉ listing.scan.owner ∨ listing.ids store = []) := by
  refine ⟨?_, ?_, ?_, ?_⟩
  · exact stored_ids_ascending store _
  · exact mem_stored_ids_iff store _
  · intro centroidId existing
    exact Listing.answered_of_existing store existing
  · exact listing.paged_iff store

/-- The page of a centroid whose id has a colon holds no id that is stored. -/
theorem page_of_cut_id_misread :
    ¬ ∀ (calls : List (SyncCall Int)) (store : Store),
      (syncMachine .idsOnly).exec calls ∅ = some store →
        ∀ listing : Listing, listing.Paged store := by
  intro claim
  have paged := claim memberOfCutId _ rfl (.members (ascii "a:b"))
  have page := congrArg Prod.fst (paged.fromId (ascii "c") 2)
  exact absurd page (by decide +kernel)

end SyncPersistence

end Relevanced.Persistence

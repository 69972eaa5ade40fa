import Relevanced.Foundation.Decimal
import Relevanced.Persistence.PublicCalls

/-!
# Garbage collection

What `deleteOldUnusedDocuments` deletes in a store that complete calls have built, what it
leaves, and what it returns. It counts deletions only on the way to a limit.
-/

namespace Relevanced.Persistence

open Foundation
open Models
open SyncPersistence
open LogicalRecord

set_option autoImplicit false

/-- `folly::to<int64_t>` of the decimal text of a number is that number. -/
def ReadsTimes (toInt64 : Bytes → Option Int64) : Prop :=
  ∀ created : Int64, toInt64 (ascii (toString created.toInt)) = some created

section Times

def timeOf (docId : Bytes) : LogicalRecord := .documentMetadata docId (ascii "created_time")

def PrintedTimes (store : Store) : Prop :=
  ∀ docId, colon ∉ docId → ∀ data, store[(timeOf docId).storeKey]? = some data →
    ∃ created : Int64, data = ascii (toString created.toInt)

/-- The later store has no key with another value than before. -/
def Erased (store after : Store) : Prop :=
  ∀ key : Bytes, after[key]? = none ∨ after[key]? = store[key]?

variable {store after : Store}

theorem erased_refl (store : Store) : Erased store store := fun _ => Or.inr rfl

theorem Erased.trans {last : Store} (first : Erased store after) (second : Erased after last) :
    Erased store last := by
  intro key
  rcases second key with gone | kept
  · exact Or.inl gone
  · rw [kept]
    exact first key

theorem erased_erase (store : Store) (key : Bytes) : Erased store (store.erase key) := by
  intro other
  by_cases same : other = key
  · left
    rw [same]
    exact Std.ExtTreeMap.getElem?_erase_self
  · exact Or.inr (OrderedMap.getElem?_erase_of_ne same)

theorem erased_erase_under (store : Store) (label : Bytes) :
    Erased store (eraseUnder store label) := by
  intro key
  rw [getElem?_erase_under]
  split
  · exact Or.inl rfl
  · exact Or.inr rfl

theorem erased_deleted_document (store : Store) (docId : Bytes) :
    Erased store (deletedDocument store docId) :=
  ((erased_erase store _).trans (erased_erase_under _ _)).trans (erased_erase_under _ _)

theorem erased_deleted_centroid (store : Store) (centroidId : Bytes) :
    Erased store (deletedCentroid store centroidId) :=
  ((erased_erase store _).trans (erased_erase_under _ _)).trans (erased_erase_under _ _)

theorem erased_deleted_documents (docIds : List Bytes) (store : Store) :
    Erased store (docIds.foldl deletedDocument store) := by
  induction docIds generalizing store with
  | nil => exact erased_refl store
  | cons docId docIds ih => exact (erased_deleted_document store docId).trans (ih _)

theorem PrintedTimes.erased (printed : PrintedTimes store) (erased : Erased store after) :
    PrintedTimes after := by
  intro docId free data stored
  rcases erased (timeOf docId).storeKey with gone | kept
  · rw [gone] at stored
    cases stored
  · rw [kept] at stored
    exact printed docId free data stored

theorem PrintedTimes.insert (printed : PrintedTimes store) {record : LogicalRecord}
    (owned : record.Owned) (other : ∀ docId, record ≠ timeOf docId) (value : Bytes) :
    PrintedTimes (store.insert record.storeKey value) := by
  intro docId free data stored
  have timeOwned : (timeOf docId).Owned := unambiguous_of_colon_free free
  have apart : (timeOf docId).storeKey ≠ record.storeKey := by
    rw [ne_eq, store_key_eq_iff timeOwned owned]
    exact (other docId).symm
  rw [OrderedMap.getElem?_insert_of_ne apart] at stored
  exact printed docId free data stored

theorem PrintedTimes.insert_time (printed : PrintedTimes store) (saved : Bytes)
    (created : Int64) :
    PrintedTimes (store.insert (timeOf saved).storeKey (ascii (toString created.toInt))) := by
  intro docId free data stored
  by_cases same : (timeOf docId).storeKey = (timeOf saved).storeKey
  · rw [same, Std.ExtTreeMap.getElem?_insert_self] at stored
    exact ⟨created, (Option.some.inj stored).symm⟩
  · rw [OrderedMap.getElem?_insert_of_ne same] at stored
    exact printed docId free data stored

theorem printed_times_empty : PrintedTimes ∅ := by
  intro docId _ data stored
  simp at stored

end Times

section Calls

variable {F : Type} [Zero F] [One F] (serialization : Serialization F)
  (toInt64 : Bytes → Option Int64) {store : Store}

omit [Zero F] [One F] in
theorem printed_times_saved_document (printed : PrintedTimes store) (doc : ProcessedDocument F) :
    PrintedTimes (savedDocument store serialization doc) :=
  (printed.insert (owned_document doc.id) (by simp [timeOf]) _).insert_time doc.id
    doc.created.toInt64

theorem printed_times_after_sync_call (printed : PrintedTimes store) (call : SyncCall F)
    (free : call.ColonFree) : PrintedTimes (syncPersistence serialization call store).2 := by
  have unchanged (reads : Writes call = false) :
      PrintedTimes (syncPersistence serialization call store).2 := by
    rw [store_after_read serialization call reads store]
    exact printed
  cases call with
  | saveNewDocument doc =>
      change PrintedTimes ((saveNewDocument serialization doc).run rockHandle store).2
      rw [run_save_new_document]
      split
      · exact printed
      · exact printed_times_saved_document serialization printed doc
  | deleteDocument d =>
      change PrintedTimes ((deleteDocument d).run rockHandle store).2
      rw [run_delete_document]
      split
      · exact printed.erased (erased_deleted_document store d)
      · exact printed
  | createNewCentroid c =>
      change PrintedTimes ((createNewCentroid serialization c).run rockHandle store).2
      rw [run_create_new_centroid]
      split
      · exact printed
      · exact printed.insert (owned_centroid c) (by simp [timeOf]) _
  | deleteCentroid c =>
      change PrintedTimes ((deleteCentroid c).run rockHandle store).2
      rw [run_delete_centroid]
      split
      · exact printed.erased (erased_deleted_centroid store c)
      · exact printed
  | addDocumentToCentroid c d =>
      have centroidFree : colon ∉ c := free _ (by simp [SyncCall.ids])
      have docFree : colon ∉ d := free _ (by simp [SyncCall.ids])
      change PrintedTimes ((addDocumentToCentroid c d).run rockHandle store).2
      rw [run_add_document_to_centroid]
      split
      · split
        · split
          · exact printed
          · exact (printed.insert (owned_member centroidFree d) (by simp [timeOf]) _).insert
              (owned_back_link docFree c) (by simp [timeOf]) _
        · exact printed
      · exact printed
  | removeDocumentFromCentroid c d =>
      have erased := erased_erase store (getDocumentCentroidKey d c)
      change PrintedTimes ((removeDocumentFromCentroid c d).run rockHandle store).2
      rw [run_remove_document_from_centroid]
      split
      · split
        · split
          · exact printed.erased (erased.trans (erased_erase _ _))
          · exact printed.erased erased
        · exact printed
      · exact printed
  | _ => exact unchanged rfl

theorem printed_times_after_call (printed : PrintedTimes store)
    (documentsFree : FreeDocuments store)
    (call : PublicCall F) (free : call.ColonFree) :
    PrintedTimes (call.storeAfter serialization toInt64 store) := by
  cases call with
  | sync call => exact printed_times_after_sync_call serialization printed call free
  | saveDocument doc =>
      exact printed_times_saved_document serialization printed doc
  | loadDocument docId =>
      rw [PublicCall.storeAfter, store_of_reads (reads_load_document serialization docId)]
      exact printed
  | listUnusedDocuments limit =>
      rw [PublicCall.storeAfter, run_list_unused_documents]
      exact printed
  | deleteOldUnusedDocuments startTime minAge limit =>
      rw [PublicCall.storeAfter, run_delete_old_unused_documents _ _ _ _ documentsFree]
      exact printed.erased (erased_deleted_documents _ store)
  | saveCentroid id centroid => exact printed.insert (owned_centroid id) (by simp [timeOf]) _
  | loadCentroid id =>
      rw [PublicCall.storeAfter, store_of_reads (reads_load_centroid serialization id)]
      exact printed
  | loadCentroidUniqueOption id =>
      rw [PublicCall.storeAfter,
        store_of_reads (reads_load_centroid_unique_option serialization id)]
      exact printed
  | getCentroidMetadata centroidId metadataName => exact printed
  | setCentroidMetadata centroidId metadataName value =>
      have owned : (LogicalRecord.centroidMetadata centroidId metadataName).Owned :=
        unambiguous_of_colon_free (free centroidId List.mem_cons_self)
      exact printed.insert owned (by simp [timeOf]) value
  | debugEraseAllData => exact printed_times_empty

/-- What complete calls with ids without colons can build. -/
theorem kept_of_reached {calls : List (PublicCall F)} (free : ∀ call ∈ calls, call.ColonFree)
    (reached : (publicMachine serialization toInt64).exec calls ∅ = some store) :
    FreeDocuments store ∧ PrintedTimes store := by
  have preserved : ∀ (store : Store) (call : PublicCall F) (next : Store),
      RecordsKept store ∧ PrintedTimes store → call.ColonFree →
      (publicMachine serialization toInt64).step store call = some next →
      RecordsKept next ∧ PrintedTimes next := by
    rintro store call next ⟨kept, printed⟩ callFree stepped
    cases stepped
    exact ⟨kept.after toInt64 serialization callFree,
      printed_times_after_call serialization toInt64 printed kept.free.item call callFree⟩
  obtain ⟨kept, printed⟩ := Machine.invariant_of_allowed preserved calls free
    ⟨records_kept_empty, printed_times_empty⟩ reached
  exact ⟨kept.free.item, printed⟩

end Calls

section Collection

variable (toInt64 : Bytes → Option Int64) (startTime minAge : Int64) (limit : Nat) (store : Store)

def storedTime (docId : Bytes) : Option Int64 :=
  store[getDocumentMetadataKey docId (ascii "created_time")]?.bind toInt64

/-- The document has no link, and its creation time is absent or before the cutoff. -/
def Garbage (docId : Bytes) : Prop :=
  Unlinked store docId ∧
    ∀ created ∈ storedTime toInt64 store docId, created.toInt < startTime.toInt - minAge.toInt

instance decidableGarbage (docId : Bytes) :
    Decidable (Garbage toInt64 startTime minAge store docId) :=
  @instDecidableAnd _ _ inferInstance
    -- the search for an instance may find the one that goes through all numbers
    (Option.decidableForallMem (storedTime toInt64 store docId))

/-- The documents to delete: the first of them in key order, or all when the limit is 0. -/
def garbage : List Bytes :=
  upTo limit 0
    ((documentIds store).filter fun docId => Garbage toInt64 startTime minAge store docId)

/-- The documents before the cutoff that the difference of two 64-bit numbers yields. -/
def wrappedGarbage : List Bytes :=
  upTo limit 0 ((documentIds store).filter fun docId => Unlinked store docId ∧
    (storedTime toInt64 store docId).all (· < startTime - minAge))

/-- The keys of a document: its body, its links and its metadata. -/
def KeyOfDocument (docId key : Bytes) : Prop :=
  key = getDocumentKey docId ∨ getDocumentCentroidsPrefix docId ++ [colon] <+: key ∨
    documentMetadataPrefix docId ++ [colon] <+: key

instance decidableKeyOfDocument (docId key : Bytes) : Decidable (KeyOfDocument docId key) :=
  inferInstanceAs (Decidable (_ ∨ _ ∨ _))

/-- A collection deletes the garbage and nothing else, and returns how many documents it was. -/
structure CollectsGarbage : Prop where
  returned : ((deleteOldUnusedDocuments toInt64 startTime minAge limit).run rockHandle store).1 =
    some (garbage toInt64 startTime minAge limit store).length
  effect : ∀ key : Bytes,
    ((deleteOldUnusedDocuments toInt64 startTime minAge limit).run rockHandle store).2[key]? =
      if ∃ docId ∈ garbage toInt64 startTime minAge limit store, KeyOfDocument docId key then none
      else store[key]?

theorem getElem?_deleted_documents (docIds : List Bytes) (key : Bytes) :
    (docIds.foldl deletedDocument store)[key]? =
      if ∃ docId ∈ docIds, KeyOfDocument docId key then none else store[key]? := by
  induction docIds generalizing store with
  | nil => simp
  | cons docId docIds ih =>
      have one : (deletedDocument store docId)[key]? =
          if KeyOfDocument docId key then none else store[key]? := getElem?_erased store _ _ _ key
      rw [List.foldl_cons, ih, one]
      by_cases later : ∃ other ∈ docIds, KeyOfDocument other key
      · simp [later]
      · by_cases here : KeyOfDocument docId key
        · simp [here]
        · simp [here, later]

variable {store} {docId other : Bytes}

theorem key_of_document_key_iff (free : colon ∉ docId) :
    KeyOfDocument docId (getDocumentKey other) ↔ other = docId := by
  have docOwned := unambiguous_of_colon_free free
  have body := store_key_eq_iff (owned_document other) (owned_document docId)
  have links := @store_key_in_range_iff (.backLinks docId) (.documentBody other) docOwned
    (owned_document other)
  have metadata := @store_key_in_range_iff (.documentMetadata docId) (.documentBody other) docOwned
    (owned_document other)
  constructor
  · rintro (isBody | isLink | isMetadata)
    · exact LogicalRecord.documentBody.inj (body.mp isBody)
    · exact absurd (links.mp isLink) (by simp [scan])
    · exact absurd (metadata.mp isMetadata) (by simp [scan])
  · rintro rfl
    exact Or.inl rfl

theorem verdict_of_printed (reads : ReadsTimes toInt64) (printed : PrintedTimes store)
    (cutoff : Int64) (free : colon ∉ docId) :
    verdict toInt64 cutoff store docId =
      some (decide (Unlinked store docId ∧ (storedTime toInt64 store docId).all (· < cutoff))) := by
  have readable : createdTime toInt64 store docId = some (storedTime toInt64 store docId) := by
    rw [createdTime, storedTime]
    cases stored : store[getDocumentMetadataKey docId (ascii "created_time")]? with
    | none => rfl
    | some data =>
        obtain ⟨created, rfl⟩ := printed docId free data stored
        change (toInt64 _).map some = some (toInt64 _)
        rw [reads created]
        rfl
  rw [verdict, readable]
  by_cases unlinked : Unlinked store docId
  · simp [unlinked]
  · simp [unlinked]

theorem run_collection (reads : ReadsTimes toInt64) (printed : PrintedTimes store)
    (free : FreeDocuments store) :
    (deleteOldUnusedDocuments toInt64 startTime minAge limit).run rockHandle store =
      (some (if 0 < limit then (wrappedGarbage toInt64 startTime minAge limit store).length else 0),
        (wrappedGarbage toInt64 startTime minAge limit store).foldl deletedDocument store) := by
  have counted := collect_of_readable limit (documentIds store) 0
    (fun docId member => verdict_of_printed toInt64 reads printed (startTime - minAge)
      (free docId ((mem_document_ids_iff store docId).mp member))) id
  rw [run_delete_old_unused_documents toInt64 startTime minAge limit free, collected, counted,
    wrappedGarbage]
  simp

theorem ascending_up_to (keep : Bytes → Bool) :
    (upTo limit 0 ((documentIds store).filter keep)).Pairwise (· < ·) := by
  have ascending := (stored_ids_ascending store getDocumentsPrefix).filter keep
  exact ascending.sublist (up_to_sublist limit _)

theorem same_of_same_keys {first second : List Bytes} (free : FreeDocuments store)
    (firstStored : ∀ id ∈ first, id ∈ documentIds store)
    (secondStored : ∀ id ∈ second, id ∈ documentIds store)
    (firstAscending : first.Pairwise (· < ·)) (secondAscending : second.Pairwise (· < ·))
    (same : ∀ key : Bytes,
      (if ∃ docId ∈ first, KeyOfDocument docId key then none else store[key]?) =
        if ∃ docId ∈ second, KeyOfDocument docId key then none else store[key]?) :
    first = second := by
  have isFree (id : Bytes) (member : id ∈ documentIds store) : colon ∉ id :=
    free id ((mem_document_ids_iff store id).mp member)
  have deleted {ids : List Bytes} (stored : ∀ id ∈ ids, id ∈ documentIds store) (other : Bytes) :
      (∃ docId ∈ ids, KeyOfDocument docId (getDocumentKey other)) ↔ other ∈ ids := by
    constructor
    · rintro ⟨docId, member, isKey⟩
      rw [(key_of_document_key_iff (isFree docId (stored docId member))).mp isKey]
      exact member
    · intro member
      exact ⟨other, member, Or.inl rfl⟩
  apply firstAscending.eq_of_mem_iff secondAscending
  intro other
  by_cases held : other ∈ documentIds store
  · have isStored : store[getDocumentKey other]? ≠ none := by
      have present : getDocumentKey other ∈ store := (mem_document_ids_iff store other).mp held
      rw [Std.ExtTreeMap.mem_iff_isSome_getElem?, Option.isSome_iff_ne_none] at present
      exact present
    have atKey := same (getDocumentKey other)
    simp only [deleted firstStored, deleted secondStored] at atKey
    by_cases inFirst : other ∈ first
    · by_cases inSecond : other ∈ second
      · exact iff_of_true inFirst inSecond
      · rw [if_pos inFirst, if_neg inSecond] at atKey
        exact absurd atKey.symm isStored
    · by_cases inSecond : other ∈ second
      · rw [if_neg inFirst, if_pos inSecond] at atKey
        exact absurd atKey isStored
      · exact iff_of_false inFirst inSecond
  · exact iff_of_false (fun member => held (firstStored other member))
      fun member => held (secondStored other member)

theorem collects_garbage_iff (reads : ReadsTimes toInt64) (printed : PrintedTimes store)
    (free : FreeDocuments store) :
    CollectsGarbage toInt64 startTime minAge limit store ↔
      (limit = 0 → garbage toInt64 startTime minAge limit store = []) ∧
        wrappedGarbage toInt64 startTime minAge limit store =
          garbage toInt64 startTime minAge limit store := by
  have ran := run_collection toInt64 startTime minAge limit reads printed free
  have effect (key : Bytes) := getElem?_deleted_documents store
    (wrappedGarbage toInt64 startTime minAge limit store) key
  constructor
  · intro collects
    have same : wrappedGarbage toInt64 startTime minAge limit store =
        garbage toInt64 startTime minAge limit store := by
      apply same_of_same_keys free
      · exact fun id member => List.mem_of_mem_filter ((up_to_sublist limit _).subset member)
      · exact fun id member => List.mem_of_mem_filter ((up_to_sublist limit _).subset member)
      · exact ascending_up_to limit _
      · exact ascending_up_to limit _
      · intro key
        rw [← effect key, ← collects.effect key, ran]
    refine ⟨?_, same⟩
    intro unlimited
    have returned := collects.returned
    rw [ran, if_neg (by omega)] at returned
    exact List.eq_nil_of_length_eq_zero (Option.some.inj returned).symm
  · rintro ⟨unlimited, same⟩
    constructor
    · rw [ran, same]
      by_cases limited : 0 < limit
      · rw [if_pos limited]
      · rw [if_neg limited, unlimited (by omega)]
        rfl
    · intro key
      rw [ran, same]
      exact getElem?_deleted_documents store _ key

/-- The 64-bit cutoff is the exact one unless the difference overflows. -/
theorem wrapped_garbage_of_fits
    (fits : Int64.minValue.toInt ≤ startTime.toInt - minAge.toInt ∧
      startTime.toInt - minAge.toInt ≤ Int64.maxValue.toInt) :
    wrappedGarbage toInt64 startTime minAge limit store =
      garbage toInt64 startTime minAge limit store := by
  have exactly : (startTime - minAge).toInt = startTime.toInt - minAge.toInt := by
    rw [Int64.toInt_minValue, Int64.toInt_maxValue] at fits
    rw [Int64.toInt_sub]
    apply Int.bmod_eq_of_le_mul_two
    · omega
    · omega
  rw [wrappedGarbage, garbage]
  congr 1
  apply List.filter_congr
  intro docId _
  rw [decide_eq_decide, Garbage]
  apply and_congr_right
  intro _
  cases storedTime toInt64 store docId with
  | none => simp
  | some created => simp [Int64.lt_iff_toInt_lt, exactly]

end Collection

/-- In every store that complete calls build, a collection is exact when it either has a limit or
finds nothing, and the 64-bit cutoff selects what the exact one selects; and only then. -/
theorem reached_collects_garbage_iff {F : Type} [Zero F] [One F] (serialization : Serialization F)
    {toInt64 : Bytes → Option Int64} (reads : ReadsTimes toInt64) {calls : List (PublicCall F)}
    (free : ∀ call ∈ calls, call.ColonFree) {store : Store}
    (reached : (publicMachine serialization toInt64).exec calls ∅ = some store)
    (startTime minAge : Int64) (limit : Nat) :
    CollectsGarbage toInt64 startTime minAge limit store ↔
      (limit = 0 → garbage toInt64 startTime minAge limit store = []) ∧
        wrappedGarbage toInt64 startTime minAge limit store =
          garbage toInt64 startTime minAge limit store := by
  obtain ⟨documentsFree, printed⟩ := kept_of_reached serialization toInt64 free reached
  exact collects_garbage_iff toInt64 startTime minAge limit reads printed documentsFree

def savedOnly : List (PublicCall Int) := [.sync (.saveNewDocument (.bare (ascii "d")))]

theorem saved_only_collected :
    ∃ store, (publicMachine .idsOnly readInt64).exec savedOnly ∅ = some store ∧
      (CollectsGarbage readInt64 7200 3600 1 store ↔
        (1 = 0 → garbage readInt64 7200 3600 1 store = []) ∧
          wrappedGarbage readInt64 7200 3600 1 store = garbage readInt64 7200 3600 1 store) :=
  ⟨_, rfl, reached_collects_garbage_iff .idsOnly read_int64_of_printed
    (show ∀ call ∈ savedOnly, call.ColonFree by decide) rfl 7200 3600 1⟩

theorem unlimited_collection_counts_nothing :
    ¬ ∀ (calls : List (PublicCall Int)) (store : Store), (∀ call ∈ calls, call.ColonFree) →
      (publicMachine .idsOnly readInt64).exec calls ∅ = some store →
        ∀ (startTime minAge : Int64) (limit : Nat),
          CollectsGarbage readInt64 startTime minAge limit store := by
  intro claim
  have collects := claim savedOnly _ (by decide) rfl 7200 3600 0
  exact absurd collects.returned (by decide +kernel)

end Relevanced.Persistence

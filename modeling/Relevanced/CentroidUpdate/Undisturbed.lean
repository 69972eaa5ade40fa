import Relevanced.CentroidUpdate.UpdaterRuns
import Relevanced.Persistence.Listings

/-!
# Undisturbed runs of CentroidUpdater

A run that nothing else writes beside changes the body of the centroid and its timestamp
only, as long as it asks for the removal of missing documents only. Until then every
listing and every load answers what it would have answered at the start.
-/

namespace Relevanced.CentroidUpdate

open Foundation
open Models
open Persistence
open Persistence.SyncPersistence

set_option autoImplicit false

namespace CentroidUpdater

/-- The ids a complete listing of the centroid returns. -/
def listed (store : Store) (centroidId : Bytes) : List Bytes :=
  idsUnder store (getCentroidDocumentPrefix centroidId)

/-- The store is still what it was, but for the body of the centroid and its timestamp. -/
structure Undisturbed (store : Store) (centroidId : Bytes) (now : Store) : Prop where
  present : getCentroidKey centroidId ∈ now
  others : ∀ key, key ≠ getCentroidKey centroidId →
    key ≠ getCentroidMetadataKey centroidId (ascii "lastCalculated") → now[key]? = store[key]?

section Undisturbed

variable {store now : Store} {centroidId : Bytes}

theorem undisturbed_start (present : getCentroidKey centroidId ∈ store) :
    Undisturbed store centroidId store := ⟨present, fun _ _ _ => rfl⟩

theorem Undisturbed.document (undisturbed : Undisturbed store centroidId now) {id : Bytes}
    (member : id ∈ listed store centroidId) :
    now[getDocumentKey id]? = store[getDocumentKey id]? := by
  rw [listed, ids_under_eq_members, List.mem_map] at member
  obtain ⟨docId, _, rfl⟩ := member
  exact undisturbed.others _ (document_key_ne_centroid_key _ _) (document_key_ne_metadata_key _ _)

theorem Undisturbed.member_keys (undisturbed : Undisturbed store centroidId now) (key : Bytes)
    (under : getCentroidDocumentPrefix centroidId ++ [colon] <+: key) :
    now[key]? = store[key]? := by
  apply undisturbed.others
  · rintro rfl
    exact centroid_key_not_listed under
  · rintro rfl
    exact metadata_key_not_listed _ under

theorem Undisturbed.listed_eq (undisturbed : Undisturbed store centroidId now) :
    listed now centroidId = listed store centroidId :=
  ids_under_congr undisturbed.member_keys

theorem Undisturbed.put_centroid (undisturbed : Undisturbed store centroidId now) (value : Bytes) :
    Undisturbed store centroidId (now.insert (getCentroidKey centroidId) value) := by
  constructor
  · exact OrderedMap.mem_insert_iff.mpr (.inl rfl)
  · intro key notCentroid notStamp
    rw [OrderedMap.getElem?_insert_of_ne notCentroid]
    exact undisturbed.others key notCentroid notStamp

theorem Undisturbed.put_stamp (undisturbed : Undisturbed store centroidId now) (value : Bytes) :
    Undisturbed store centroidId
      (now.insert (getCentroidMetadataKey centroidId (ascii "lastCalculated")) value) := by
  constructor
  · exact OrderedMap.mem_insert_iff.mpr (.inr undisturbed.present)
  · intro key notCentroid notStamp
    rw [OrderedMap.getElem?_insert_of_ne notStamp]
    exact undisturbed.others key notCentroid notStamp

end Undisturbed

variable {F : Type}

/-- The requests that leave the store undisturbed. -/
def Harmless (store : Store) (centroidId : Bytes) : PersistenceCall F → Prop
  | .doesCentroidExist id => id = centroidId
  | .listCentroidDocumentRangeFromOffsetOption id _ _ => id = centroidId
  | .listCentroidDocumentRangeFromDocumentIdOption id _ _ => id = centroidId
  | .loadDocument id => id ∈ listed store centroidId
  | .removeDocumentFromCentroid id docId =>
      id = centroidId ∧ docId ∈ listed store centroidId ∧ getDocumentKey docId ∉ store
  | .saveCentroid id _ => id = centroidId
  | .setCentroidMetadata id metadataName _ =>
      id = centroidId ∧ metadataName = ascii "lastCalculated"
  | _ => False

variable [Zero F] [One F] (serialization : Serialization F) (store : Store) (centroidId : Bytes)

/-- Harmless requests are answered as they would have been at the start. -/
def undisturbed : Contract Store (PersistenceIf F) where
  Inv := Undisturbed store centroidId
  Good := Harmless store centroidId
  Answers request answer :=
    request.Writes ∨ answer = ((request.method serialization).run rockHandle store).1

variable {store centroidId}

theorem guaranteed_remove_missing {docId : Bytes} (member : docId ∈ listed store centroidId)
    (missing : getDocumentKey docId ∉ store) :
    (removeDocumentFromCentroid centroidId docId).Guaranteed rockHandle
      (Undisturbed store centroidId) fun _ => True := by
  have finds : (existsKey (getCentroidKey centroidId)).Guaranteed rockHandle
      (Undisturbed store centroidId) (· = true) := by
    apply guaranteed_exists_key
    intro now undisturbed
    exact Std.ExtTreeMap.contains_iff_mem.mpr undisturbed.present
  have misses : (existsKey (getDocumentKey docId)).Guaranteed rockHandle
      (Undisturbed store centroidId) (· = false) := by
    apply guaranteed_exists_key
    intro now undisturbed
    rw [Std.ExtTreeMap.contains_eq_isSome_getElem?, undisturbed.document member,
      Std.ExtTreeMap.getElem?_eq_none missing]
    rfl
  apply Program.guaranteed_bind finds
  rintro _ rfl
  apply Program.guaranteed_bind misses
  rintro _ rfl
  trivial

theorem undisturbed_honoured (present : getCentroidKey centroidId ∈ store) :
    (undisturbed serialization store centroidId).Honoured (persistence serialization) := by
  have start := undisturbed_start present
  have finds : ∀ now, Undisturbed store centroidId now →
      (getCentroidKey centroidId ∈ now ↔ getCentroidKey centroidId ∈ store) :=
    fun now undisturbed => iff_of_true undisturbed.present present
  have keys : ∀ now, Undisturbed store centroidId now → ∀ key,
      getCentroidDocumentPrefix centroidId ++ [colon] <+: key → now[key]? = store[key]? :=
    fun now undisturbed => undisturbed.member_keys
  have answered {request : PersistenceCall F}
      (steady : (request.method serialization).Steady rockHandle (Undisturbed store centroidId)
        store) :
      (request.method serialization).Guaranteed rockHandle (Undisturbed store centroidId)
        ((undisturbed serialization store centroidId).Answers request) :=
    (Program.guaranteed_of_steady start steady).mono fun _ same => .inr same
  intro request harmless
  cases request with
  | doesCentroidExist id =>
      cases harmless
      exact answered (steady_exists_key finds)
  | listCentroidDocumentRangeFromOffsetOption id offset count =>
      cases harmless
      exact answered (steady_unless_missing_option
        (steady_list_ids_from_offset keys offset count) finds)
  | listCentroidDocumentRangeFromDocumentIdOption id docId count =>
      cases harmless
      exact answered (steady_unless_missing_option
        (steady_list_ids_from_member keys docId count) finds)
  | loadDocument id =>
      apply answered
      exact steady_load_document fun now undisturbed => undisturbed.document harmless
  | removeDocumentFromCentroid id docId =>
      obtain ⟨rfl, member, missing⟩ := harmless
      exact (guaranteed_remove_missing member missing).mono fun _ _ => .inl trivial
  | saveCentroid id centroid =>
      cases harmless
      intro now undisturbed
      exact ⟨undisturbed.put_centroid _, .inl trivial⟩
  | setCentroidMetadata id metadataName value =>
      obtain ⟨rfl, rfl⟩ := harmless
      intro now undisturbed
      exact ⟨undisturbed.put_stamp _, .inl trivial⟩
  | _ => exact absurd harmless id

section Answers

/-- What a load answers. -/
def loadedFrom (store : Store) (id : Bytes) : Option (Try (ProcessedDocument F)) :=
  ((loadDocument serialization id).run rockHandle store).1

omit [Zero F] [One F] in
theorem loaded_from_eq (id : Bytes) :
    loadedFrom serialization store id = match store[getDocumentKey id]? with
      | none => some (.error .eDocumentDoesNotExist)
      | some serialized => (serialization.binaryDeserializeDocument serialized).map .ok := by
  rw [loadedFrom, loadDocument, Program.run_bind, run_get]
  cases store[getDocumentKey id]? with
  | none => rfl
  | some serialized =>
      dsimp only
      cases serialization.binaryDeserializeDocument serialized with
      | none => rfl
      | some processed => rfl

omit [Zero F] [One F] in
theorem missing_iff_loaded (id : Bytes) :
    loadedFrom serialization store id = some (.error .eDocumentDoesNotExist) ↔
      getDocumentKey id ∉ store := by
  rw [loaded_from_eq]
  constructor
  · intro same present
    rw [Std.ExtTreeMap.mem_iff_isSome_getElem?, Option.isSome_iff_exists] at present
    obtain ⟨serialized, stored⟩ := present
    rw [stored] at same
    simp at same
  · intro missing
    rw [Std.ExtTreeMap.getElem?_eq_none missing]

variable (store centroidId)

def firstPage : List Bytes := (listed store centroidId).take idListBatchSize

/-- The page that is listed from the last id of the given one. -/
def pageAfter (idSet : List Bytes) : List Bytes :=
  idsFrom store (getCentroidDocumentPrefix centroidId) (idSet.getLastD []) idListBatchSize

/-- The pages an undisturbed run goes through. -/
inductive PageRead : List Bytes → Prop where
  | first (listed : firstPage store centroidId ≠ []) : PageRead (firstPage store centroidId)
  | next {idSet : List Bytes} (read : PageRead idSet)
      (full : idListBatchSize ≤ (pageAfter store centroidId idSet).length) :
      PageRead (pageAfter store centroidId idSet)

variable {store centroidId} {serialization}

theorem page_read_sublist {idSet : List Bytes} (read : PageRead store centroidId idSet) :
    idSet.Sublist (listed store centroidId) := by
  cases read with
  | first listed => exact List.take_sublist _ _
  | next read full => exact ids_from_sublist _ _ _ _

variable (present : getCentroidKey centroidId ∈ store)

include present

theorem answers_found {found : Bool}
    (answers : (undisturbed serialization store centroidId).Answers (.doesCentroidExist centroidId)
      found) : found = true := by
  rcases answers with writes | same
  · exact False.elim writes
  · rw [same]
    exact Std.ExtTreeMap.contains_iff_mem.mpr present

theorem answers_first_page {answer : Option (List Bytes)}
    (answers : (undisturbed serialization store centroidId).Answers
      (.listCentroidDocumentRangeFromOffsetOption centroidId 0 idListBatchSize) answer) :
    answer = some (firstPage store centroidId) := by
  rcases answers with writes | same
  · exact False.elim writes
  · have ran := @run_unless_missing_option store centroidId _ _
      (run_list_ids_from_offset store (getCentroidDocumentPrefix centroidId) 0 idListBatchSize)
    rw [if_neg fun missing => missing.2 present] at ran
    exact same.trans (congrArg Prod.fst ran)

theorem answers_page_after {idSet : List Bytes} {answer : Option (List Bytes)}
    (answers : (undisturbed serialization store centroidId).Answers
      (.listCentroidDocumentRangeFromDocumentIdOption centroidId (idSet.getLastD [])
        idListBatchSize) answer) :
    answer = some (pageAfter store centroidId idSet) := by
  rcases answers with writes | same
  · exact False.elim writes
  · have ran := @run_unless_missing_option store centroidId _ _
      (run_list_ids_from_any_member store (getCentroidDocumentPrefix centroidId)
        (idSet.getLastD []) idListBatchSize)
    rw [if_neg fun missing => missing.2 present] at ran
    exact same.trans (congrArg Prod.fst ran)

omit present

theorem answers_loaded {id : Bytes} {loaded : Option (Try (ProcessedDocument F))}
    (answers : (undisturbed serialization store centroidId).Answers (.loadDocument id) loaded) :
    loaded = loadedFrom serialization store id := by
  rcases answers with writes | same
  · exact False.elim writes
  · exact same

theorem loads_cases {id : Bytes} {document : Option (ProcessedDocument F)}
    (loads : Loads (undisturbed serialization store centroidId) id document) :
    ∃ loaded, loadedFrom serialization store id = some loaded ∧ document = loaded.toOption := by
  obtain ⟨loaded, answers, same⟩ := loads
  exact ⟨loaded, (answers_loaded answers).symm, same⟩

theorem missing_of_loads {id : Bytes}
    (loads : Loads (undisturbed serialization store centroidId) id none) :
    getDocumentKey id ∉ store := by
  obtain ⟨loaded, same, nothing⟩ := loads_cases loads
  rw [← missing_iff_loaded serialization, same]
  cases loaded with
  | ok document => cases nothing
  | error exception =>
      rw [loaded_from_eq] at same
      cases stored : store[getDocumentKey id]? with
      | none =>
          rw [stored] at same
          exact same.symm
      | some serialized =>
          rw [stored] at same
          simp at same

end Answers

section Alignment

/-- What is missing at a position of a batch is missing at that position of the page. -/
def PageAligned (store : Store) (idSet : List Bytes) : Prop :=
  ∀ docNum ∈ batchStarts idSet, ∀ (i : Nat) (id other : Bytes),
    (batchAt idSet docNum)[i]? = some id → idSet[i]? = some other →
    getDocumentKey id ∉ store → getDocumentKey other ∉ store

def Aligned (store : Store) (centroidId : Bytes) : Prop :=
  ∀ idSet, PageRead store centroidId idSet → PageAligned store idSet

/-- The removal of a document that is there. -/
def Stray (store : Store) (centroidId : Bytes) : PersistenceCall F → Prop
  | .removeDocumentFromCentroid _ docId => getDocumentKey docId ∈ store ∧ ¬ Aligned store centroidId
  | _ => False

omit [Zero F] [One F] in
theorem mem_removed_iff {idSet : List Bytes}
    {loadedDocuments : List (Option (ProcessedDocument F))} {id : Bytes} :
    id ∈ removedIds idSet loadedDocuments ↔
      ∃ i : Nat, idSet[i]? = some id ∧ loadedDocuments[i]? = some none := by
  constructor
  · intro member
    obtain ⟨entry, shown, rfl⟩ := List.mem_map.mp member
    obtain ⟨inZip, nothing⟩ := List.mem_filter.mp shown
    obtain ⟨i, found⟩ := List.mem_iff_getElem?.mp inZip
    obtain ⟨there, loaded⟩ := List.getElem?_zip_eq_some.mp found
    rw [Option.isNone_iff_eq_none.mp nothing] at loaded
    exact ⟨i, there, loaded⟩
  · intro shown
    obtain ⟨i, there, loaded⟩ := shown
    have found : (idSet.zip loadedDocuments)[i]? = some (id, none) :=
      List.getElem?_zip_eq_some.mpr ⟨there, loaded⟩
    exact List.mem_map.mpr
      ⟨(id, none), List.mem_filter.mpr ⟨List.mem_of_getElem? found, rfl⟩, rfl⟩

variable {serialization}

theorem undisturbed_serves (present : getCentroidKey centroidId ∈ store) :
    Serves (undisturbed serialization store centroidId) (Stray store centroidId) centroidId
      (PageRead store centroidId) where
  finds := rfl
  lists := rfl
  first := by
    intro idSet answers nonempty
    cases answers_first_page present answers
    exact .first nonempty
  continues := fun _ _ => rfl
  next := by
    intro idSet nextIdSet read answers full
    cases answers_page_after present answers
    exact .next read full
  loads := fun idSet read id member => (page_read_sublist read).subset member
  removes := by
    intro idSet read docNum start loadedDocuments loaded id member
    obtain ⟨i, found, notLoaded⟩ := mem_removed_iff.mp member
    have inPage : id ∈ idSet := List.mem_of_getElem? found
    by_cases stored : getDocumentKey id ∈ store
    · left
      refine ⟨stored, ?_⟩
      intro aligned
      obtain ⟨missing, atBatch, notThere⟩ : ∃ missing, (batchAt idSet docNum)[i]? = some missing ∧
          getDocumentKey missing ∉ store := by
        have within : i < (batchAt idSet docNum).length := by
          rw [loaded.length_eq]
          exact (List.getElem?_eq_some_iff.mp notLoaded).1
        have loads := List.forall₂_iff_get.mp loaded |>.2 i within (loaded.length_eq ▸ within)
        have nothing : loadedDocuments.get ⟨i, loaded.length_eq ▸ within⟩ = none :=
          (List.getElem?_eq_some_iff.mp notLoaded).2
        rw [nothing] at loads
        exact ⟨_, List.getElem?_eq_getElem within, missing_of_loads loads⟩
      exact aligned idSet read docNum start i missing id atBatch found notThere stored
    · right
      exact ⟨rfl, (page_read_sublist read).subset inPage, stored⟩
  saves := fun _ => rfl
  stamps := fun _ => ⟨rfl, rfl⟩

end Alignment

section Filled

/-- A centroid and its members, all of them stored; only their ids are kept. -/
def filledStore (centroidId : Bytes) (docIds : List Bytes) : Store :=
  docIds.foldl (fun store docId =>
      linked (savedDocument store (.idsOnly : Serialization Nat) (.bare docId)) centroidId docId)
    ((∅ : Store).insert (getCentroidKey centroidId) centroidId)

variable {docIds : List Bytes} (free : colon ∉ centroidId)
  (owned : ∀ docId ∈ docIds, Unambiguous docId)

include free owned

theorem holds_filled_iff (start : Store) {record : LogicalRecord} (recordOwned : record.Owned)
    (notBackLink : ∀ docId, record ≠ .backLink docId centroidId)
    (notTime : ∀ docId, record ≠ .documentMetadata docId (ascii "created_time")) :
    Holds (docIds.foldl (fun store docId => linked (savedDocument store
        (.idsOnly : Serialization Nat) (.bare docId)) centroidId docId) start) record ↔
      (∃ docId ∈ docIds, record = .member centroidId docId ∨ record = .documentBody docId) ∨
        Holds start record := by
  induction docIds generalizing start with
  | nil => simp
  | cons docId docIds ih =>
      have here : Unambiguous docId := owned docId List.mem_cons_self
      have bareOwned : Unambiguous (ProcessedDocument.bare docId : ProcessedDocument Nat).id := here
      rw [List.foldl_cons, ih fun other member => owned other (List.mem_cons_of_mem docId member),
        holds_linked_iff recordOwned (unambiguous_of_colon_free free) here,
        holds_saved_document_iff recordOwned bareOwned]
      simp only [ProcessedDocument.bare, notBackLink, notTime, false_or, List.mem_cons,
        exists_eq_or_imp]
      grind

theorem mem_members_filled (docId : Bytes) :
    docId ∈ members (filledStore centroidId docIds) centroidId ↔ docId ∈ docIds := by
  have filled := holds_filled_iff free owned
    ((∅ : Store).insert (getCentroidKey centroidId) centroidId)
    (owned_member free docId) (fun _ same => by cases same) (fun _ same => by cases same)
  have onlyBody : ¬ Holds ((∅ : Store).insert (getCentroidKey centroidId) centroidId)
      (.member centroidId docId) := by
    intro held
    have same := (holds_insert_iff (owned_member free docId) (owned_centroid centroidId) _).mp held
    simp [Holds] at same
  rw [mem_members_iff]
  apply filled.trans
  simp [onlyBody]

theorem length_members_filled (nodup : docIds.Nodup) :
    (members (filledStore centroidId docIds) centroidId).length = docIds.length := by
  apply List.Perm.length_eq
  rw [List.perm_ext_iff_of_nodup members_nodup nodup]
  exact mem_members_filled free owned

theorem centroid_filled : getCentroidKey centroidId ∈ filledStore centroidId docIds := by
  have filled := holds_filled_iff free owned
    ((∅ : Store).insert (getCentroidKey centroidId) centroidId)
    (owned_centroid centroidId) (fun _ same => by cases same) (fun _ same => by cases same)
  apply filled.mpr
  exact .inr (OrderedMap.mem_insert_iff.mpr (.inl rfl))

theorem body_filled (start : Store)
    (startBodies : ∀ id serialized, start[getDocumentKey id]? = some serialized → serialized = id) :
    ∀ id serialized, (docIds.foldl (fun store docId => linked (savedDocument store
      (.idsOnly : Serialization Nat) (.bare docId)) centroidId docId) start)[getDocumentKey id]? =
        some serialized → serialized = id := by
  induction docIds generalizing start with
  | nil => exact startBodies
  | cons docId docIds ih =>
      have here : Unambiguous docId := owned docId List.mem_cons_self
      apply ih fun other member => owned other (List.mem_cons_of_mem docId member)
      intro id serialized stored
      have notBackLink : getDocumentKey id ≠ getDocumentCentroidKey docId centroidId := by
        intro same
        cases (store_key_eq_iff (owned_document id)
          (show (LogicalRecord.backLink docId centroidId).Owned from here)).mp same
      have notMember : getDocumentKey id ≠ getCentroidDocumentKey centroidId docId := by
        intro same
        cases (store_key_eq_iff (owned_document id) (owned_member free docId)).mp same
      have notTime : getDocumentKey id ≠ getDocumentMetadataKey docId (ascii "created_time") := by
        intro same
        cases (store_key_eq_iff (owned_document id)
          (show (LogicalRecord.documentMetadata docId (ascii "created_time")).Owned
            from here)).mp same
      dsimp only [linked, savedDocument, ProcessedDocument.bare, Serialization.idsOnly] at stored
      rw [OrderedMap.getElem?_insert_of_ne notBackLink,
        OrderedMap.getElem?_insert_of_ne notMember, OrderedMap.getElem?_insert_of_ne notTime]
        at stored
      by_cases same : id = docId
      · subst same
        rw [Std.ExtTreeMap.getElem?_insert, if_pos (compare_eq_iff_eq.mpr rfl)] at stored
        exact (Option.some.inj stored).symm
      · have different : getDocumentKey id ≠ getDocumentKey docId :=
          fun keys => same (List.append_cancel_left keys)
        rw [OrderedMap.getElem?_insert_of_ne different] at stored
        exact startBodies id serialized stored

theorem own_ids_filled {id : Bytes} {doc : ProcessedDocument Nat}
    (loaded : loadedFrom .idsOnly (filledStore centroidId docIds) id = some (.ok doc)) :
    doc.id = id := by
  have bodies := body_filled free owned ((∅ : Store).insert (getCentroidKey centroidId) centroidId)
    (by
      intro id serialized stored
      rw [OrderedMap.getElem?_insert_of_ne (document_key_ne_centroid_key id centroidId)] at stored
      simp at stored)
  rw [loaded_from_eq] at loaded
  cases stored : (filledStore centroidId docIds)[getDocumentKey id]? with
  | none =>
      rw [stored] at loaded
      simp at loaded
  | some serialized =>
      rw [stored] at loaded
      cases loaded
      exact bodies id serialized stored

theorem stored_filled {docId : Bytes} (member : docId ∈ docIds) :
    ∃ doc, loadedFrom (.idsOnly : Serialization Nat) (filledStore centroidId docIds) docId =
      some (.ok doc) := by
  have held := (holds_filled_iff free owned
    ((∅ : Store).insert (getCentroidKey centroidId) centroidId) (owned_document docId)
    (fun _ same => by cases same) (fun _ same => by cases same)).mpr
      (.inl ⟨docId, member, .inr rfl⟩)
  have present : getDocumentKey docId ∈ filledStore centroidId docIds := held
  rw [Std.ExtTreeMap.mem_iff_isSome_getElem?, Option.isSome_iff_exists] at present
  obtain ⟨serialized, stored⟩ := present
  rw [loaded_from_eq, stored]
  exact ⟨_, rfl⟩

end Filled

section Runs

variable {serialization} [Add F] [Mul F] [NatCast F] (sqrt : F → F) (startTimestamp pages : Nat)

theorem run_undisturbed (present : getCentroidKey centroidId ∈ store)
    {actions : List (PersistenceAction F)} (alone : ∀ action ∈ actions, Alone action)
    {last : ThreadPool F (RunOutcome F)}
    (executed : (persistenceMachine (RunOutcome F) serialization).exec actions
      (.initial store [run sqrt centroidId startTimestamp pages]) = some last) :
    (∃ request ∈ last.requests, Stray store centroidId request) ∨
      (undisturbed serialization store centroidId).Kept (persistence serialization)
        (Stray store centroidId) (fun outcome later => RunEnds
          (undisturbed serialization store centroidId) sqrt centroidId (PageRead store centroidId)
          pages later outcome) last :=
  delivered (undisturbed_honoured serialization present) (undisturbed_start present)
    (delivers_run (undisturbed_serves present) sqrt startTimestamp pages) alone executed

omit [Zero F] [One F] [Add F] [Mul F] [NatCast F] in
theorem not_stray_of_aligned (aligned : Aligned store centroidId) (request : PersistenceCall F) :
    ¬ Stray store centroidId request := by
  intro stray
  cases request with
  | removeDocumentFromCentroid id docId => exact stray.2 aligned
  | _ => exact stray

theorem exists_undisturbed_run (present : getCentroidKey centroidId ∈ store)
    (aligned : Aligned store centroidId) :
    ∃ (actions : List (PersistenceAction F)) (last : ThreadPool F (RunOutcome F))
      (outcome : RunOutcome F), (∀ action ∈ actions, Alone action) ∧
      (persistenceMachine (RunOutcome F) serialization).exec actions
        (.initial store [run sqrt centroidId startTimestamp pages]) = some last ∧
      last.clients = [.done outcome] ∧
      RunEnds (undisturbed serialization store centroidId) sqrt centroidId
        (PageRead store centroidId) pages last.requests outcome := by
  have delivers : Delivers (undisturbed serialization store centroidId) (fun _ => False)
      (fun outcome later => RunEnds (undisturbed serialization store centroidId) sqrt centroidId
        (PageRead store centroidId) pages later outcome)
      (run sqrt centroidId startTimestamp pages) [] :=
    (delivers_run (undisturbed_serves present) sqrt startTimestamp pages).stop_mono
      (not_stray_of_aligned aligned)
  exact exists_delivered (undisturbed_honoured serialization present) (undisturbed_start present)
    delivers

end Runs

end CentroidUpdater

end Relevanced.CentroidUpdate

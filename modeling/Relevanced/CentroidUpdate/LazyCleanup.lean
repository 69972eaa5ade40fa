import Relevanced.CentroidUpdate.Undisturbed

/-!
# Lazy cleanup

`run` asks `removeDocumentFromCentroid` for the members whose documents it does not find.
Which ids it asks for depends on the position of the missing ones in their batches; and
none of the requests takes a missing member away.
-/

namespace Relevanced.CentroidUpdate

open Foundation
open Models
open Persistence
open Persistence.SyncPersistence

set_option autoImplicit false

namespace CentroidUpdater

variable {F : Type} [Zero F] [One F] {serialization : Serialization F} {store : Store}
  {centroidId : Bytes}

/-- Every removal that has been requested is of a document that is not there. -/
def OnlyMissingRemoved (store : Store) (requests : List (PersistenceCall F)) : Prop :=
  ∀ id docId, .removeDocumentFromCentroid id docId ∈ requests → getDocumentKey docId ∉ store

theorem passes_of_page_read (present : getCentroidKey centroidId ∈ store) {pages : Nat}
    {last : Processed F} {idSet : List Bytes}
    (passes : FirstPagePasses (undisturbed serialization store centroidId) centroidId pages
      (some last))
    (read : PageRead store centroidId idSet) :
    ∃ (later : Nat) (processed : Processed F),
      PagesPass (undisturbed serialization store centroidId) centroidId later idSet processed
        (some last) := by
  induction read with
  | first listed =>
      obtain ⟨idSet, answers, empty | nonempty⟩ := passes
      · cases answers_first_page present answers
        exact absurd empty.1 listed
      · cases answers_first_page present answers
        exact ⟨pages, _, nonempty.2⟩
  | next read full ih =>
      obtain ⟨later, processed, here⟩ := ih
      cases here with
      | last nextIdSet batches answers short =>
          cases answers_page_after present answers
          exact absurd full (not_le.mpr short)
      | next nextIdSet batches answers full further =>
          cases answers_page_after present answers
          exact ⟨_, _, further⟩

theorem aligned_of_only_missing (present : getCentroidKey centroidId ∈ store) {pages : Nat}
    {last : Processed F}
    (passes : FirstPagePasses (undisturbed serialization store centroidId) centroidId pages
      (some last))
    (onlyMissing : ∀ id ∈ last.removed, getDocumentKey id ∉ store) : Aligned store centroidId := by
  intro idSet read docNum start i id other atBatch atPage missing
  obtain ⟨later, processed, here⟩ := passes_of_page_read present passes read
  obtain ⟨after, batches, kept⟩ := here.page
  obtain ⟨loadedDocuments, loaded, removed⟩ := batches.covers docNum start
  apply onlyMissing
  apply kept
  apply removed
  apply mem_removed_iff.mpr
  refine ⟨i, atPage, ?_⟩
  obtain ⟨within, isId⟩ := List.getElem?_eq_some_iff.mp atBatch
  have alsoWithin : i < loadedDocuments.length := loaded.length_eq ▸ within
  have loads := (List.forall₂_iff_get.mp loaded).2 i within alsoWithin
  obtain ⟨answer, same, document⟩ := loads_cases loads
  rw [List.get_eq_getElem, isId, (missing_iff_loaded serialization id).mpr missing] at same
  cases same
  rw [List.getElem?_eq_getElem alsoWithin]
  exact congrArg some document

variable [Add F] [Mul F] [NatCast F] {sqrt : F → F} {startTimestamp pages : Nat}

/-- On aligned pages no document that is there is removed, in no state of a run; and a run that
removes none and succeeds has had aligned pages. -/
theorem only_missing_removed_iff_aligned (present : getCentroidKey centroidId ∈ store)
    {actions : List (PersistenceAction F)} (alone : ∀ action ∈ actions, Alone action)
    {last : ThreadPool F (RunOutcome F)}
    (executed : (persistenceMachine (RunOutcome F) serialization).exec actions
      (.initial store [run sqrt centroidId startTimestamp pages]) = some last) :
    (Aligned store centroidId → OnlyMissingRemoved store last.requests) ∧
      ∀ passed centroid, last.clients = [.done (.updated passed centroid)] →
        (OnlyMissingRemoved store last.requests ↔ Aligned store centroidId) := by
  have ended := run_undisturbed sqrt startTimestamp pages present alone executed
  have sufficient : Aligned store centroidId → OnlyMissingRemoved store last.requests := by
    intro aligned id docId requested
    rcases ended with ⟨request, _, stray⟩ | kept
    · exact absurd stray (not_stray_of_aligned aligned request)
    · exact (kept.good _ requested).2.2
  refine ⟨sufficient, ?_⟩
  intro passed centroid isDone
  refine ⟨?_, sufficient⟩
  intro onlyMissing
  rcases ended with ⟨request, requested, stray⟩ | kept
  · cases request with
    | removeDocumentFromCentroid id docId => exact absurd stray.1 (onlyMissing id docId requested)
    | _ => exact False.elim stray
  · obtain ⟨_, _, removed, passes, asked⟩ := kept.post isDone
    apply aligned_of_only_missing present passes
    intro id member
    exact onlyMissing centroidId id (asked id member)

section Removals

/-- A centroid with one member, whose document has been deleted. -/
def strandedStore : Store :=
  ((do
    let _ ← createNewCentroid (.idsOnly : Serialization Nat) (ascii "c")
    let _ ← saveNewDocument (.idsOnly : Serialization Nat) (.bare (ascii "d"))
    let _ ← addDocumentToCentroid (ascii "c") (ascii "d")
    deleteDocument (ascii "d")).run rockHandle ∅).2

def strandedActions : List (PersistenceAction Nat) :=
  [.client 0, .task 0, .client 0, .client 0, .task 1, .client 0, .client 0, .client 0, .task 3,
    .client 0, .client 0, .task 2, .client 0, .client 0, .task 5, .client 0, .client 0, .task 6,
    .client 0, .client 0, .task 4, .task 4, .task 7]

theorem stranded_document_asked_for :
    ∃ (last : ThreadPool Nat (RunOutcome Nat)) (passed : List (ProcessedDocument Nat))
      (centroid : Centroid Nat),
      (persistenceMachine (RunOutcome Nat) .idsOnly).exec strandedActions
        (.initial strandedStore [run id (ascii "c") 0 1]) = some last ∧
      last.clients = [.done (.updated passed centroid)] ∧
      (OnlyMissingRemoved strandedStore last.requests ↔ Aligned strandedStore (ascii "c")) := by
  have summary : ((persistenceMachine (RunOutcome Nat) .idsOnly).exec strandedActions
      (.initial strandedStore [run id (ascii "c") 0 1])).map passedIds = some (some []) := by
    decide +kernel
  obtain ⟨last, executed, ended⟩ := Option.map_eq_some_iff.mp summary
  obtain ⟨passed, centroid, isDone, _⟩ := updated_of_passed_ids ended
  refine ⟨last, passed, centroid, executed, isDone, ?_⟩
  exact (only_missing_removed_iff_aligned (by decide +kernel) (by decide +kernel) executed).2 passed
    centroid isDone

/-- 21 members, of which the last has no document. -/
def tornStore : Store :=
  deletedDocument (filledStore (ascii "c") ((List.range 21).map fun i => [Fin.ofNat 256 (97 + i)]))
    (ascii "u")

/-- The first batch is loaded, then the second, which has the last member only. -/
def tornActions : List (PersistenceAction Nat) :=
  [.client 0, .task 0, .client 0, .client 0, .task 1, .client 0] ++
    List.replicate 22 (.client 0) ++
    (List.range 21).flatMap (fun i => [.task (3 + i), .client 0]) ++
    [.client 0, .client 0, .task 25, .client 0, .client 0]

def removalOf : PersistenceCall Nat → Option Bytes
  | .removeDocumentFromCentroid _ docId => some docId
  | _ => none

/-- The document at position 0 of the page is asked to be removed for the one at position 0 of the
second batch. -/
theorem stored_document_is_removed :
    ∃ last : ThreadPool Nat (RunOutcome Nat), (∀ action ∈ tornActions, Alone action) ∧
      getCentroidKey (ascii "c") ∈ tornStore ∧
      (persistenceMachine (RunOutcome Nat) .idsOnly).exec tornActions
        (.initial tornStore [run id (ascii "c") 0 1]) = some last ∧
      ¬ OnlyMissingRemoved tornStore last.requests := by
  have summary : ((persistenceMachine (RunOutcome Nat) .idsOnly).exec tornActions
      (.initial tornStore [run id (ascii "c") 0 1])).map
        (fun last => last.requests.filterMap removalOf) = some [ascii "u", ascii "a"] := by
    decide +kernel
  have stored : getCentroidKey (ascii "c") ∈ tornStore ∧
      getDocumentKey (ascii "a") ∈ tornStore := by
    decide +kernel
  obtain ⟨last, executed, removals⟩ := Option.map_eq_some_iff.mp summary
  refine ⟨last, by decide +kernel, stored.1, executed, ?_⟩
  intro onlyMissing
  have requested : ascii "a" ∈ last.requests.filterMap removalOf := by
    rw [removals]
    decide
  obtain ⟨request, member, isRemoval⟩ := List.mem_filterMap.mp requested
  cases request with
  | removeDocumentFromCentroid id docId =>
      cases isRemoval
      exact onlyMissing id (ascii "a") member stored.2
  | _ => cases isRemoval

end Removals

/-- `listAllDocumentsForCentroid` returns no id without a stored document. -/
def ListsStoredOnly (store : Store) (centroidId : Bytes) : Prop :=
  ∀ ids, ((listAllDocumentsForCentroid centroidId).run rockHandle store).1 = .ok ids →
    ∀ id ∈ ids, getDocumentKey id ∈ store

theorem lists_stored_only_iff :
    ListsStoredOnly store centroidId ↔
      ∀ id ∈ listed store centroidId, getDocumentKey id ∈ store := by
  have ran := congrArg Prod.fst (@run_unless_missing store centroidId _ _
    (run_list_ids store (getCentroidDocumentPrefix centroidId)))
  change ((listAllDocumentsForCentroid centroidId).run rockHandle store).1 =
    if listed store centroidId = [] ∧ getCentroidKey centroidId ∉ store then _
    else .ok (listed store centroidId) at ran
  rw [ListsStoredOnly, ran]
  split
  · rename_i nothing
    rw [nothing.1]
    simp
  · constructor
    · intro all
      exact all _ rfl
    · intro all ids same
      cases same
      exact all

section Uncleaned

/-- A member without a document, and no member id that could be taken for a label. -/
structure Uncleaned (centroidId docId : Bytes) (now : Store) : Prop where
  member : getCentroidDocumentKey centroidId docId ∈ now
  missing : getDocumentKey docId ∉ now
  owned : ∀ id ∈ members now centroidId, Unambiguous id

variable {docId key : Bytes} {now : Store}

theorem Uncleaned.erase (uncleaned : Uncleaned centroidId docId now)
    (other : getCentroidDocumentKey centroidId docId ≠ key) :
    Uncleaned centroidId docId (now.erase key) := by
  constructor
  · exact OrderedMap.mem_erase_iff.mpr ⟨other, uncleaned.member⟩
  · intro present
    exact uncleaned.missing (OrderedMap.mem_erase_iff.mp present).2
  · intro id member
    rw [mem_members_iff, OrderedMap.mem_erase_iff] at member
    exact uncleaned.owned id ((mem_members_iff id).mpr member.2)

theorem Uncleaned.insert (uncleaned : Uncleaned centroidId docId now) (value : Bytes)
    (other : getDocumentKey docId ≠ key)
    (unlisted : ∀ id, getCentroidDocumentKey centroidId id ≠ key) :
    Uncleaned centroidId docId (now.insert key value) := by
  constructor
  · exact OrderedMap.mem_insert_iff.mpr (.inr uncleaned.member)
  · intro present
    exact (OrderedMap.mem_insert_iff.mp present).elim other uncleaned.missing
  · intro id member
    rw [mem_members_iff, OrderedMap.mem_insert_iff] at member
    exact uncleaned.owned id ((mem_members_iff id).mpr (member.resolve_left (unlisted id)))

/-- The requests a run can make, removals of unambiguous ids among them. -/
def Cleaning (centroidId : Bytes) : PersistenceCall F → Prop
  | .doesCentroidExist _ => True
  | .listCentroidDocumentRangeFromOffsetOption id _ _ => id = centroidId
  | .listCentroidDocumentRangeFromDocumentIdOption id _ _ => id = centroidId
  | .loadDocument _ => True
  | .removeDocumentFromCentroid id docId => id = centroidId ∧ Unambiguous docId
  | .saveCentroid _ _ => True
  | .setCentroidMetadata id _ _ => id = centroidId
  | _ => False

/-- A listing shows unambiguous ids only. -/
def ListsUnambiguous :
    (request : PersistenceCall F) → (PersistenceIf F).Reply request → Prop
  | .listCentroidDocumentRangeFromOffsetOption _ _ _, answer =>
      ∀ ids, answer = some ids → ∀ id ∈ ids, Unambiguous id
  | .listCentroidDocumentRangeFromDocumentIdOption _ _ _, answer =>
      ∀ ids, answer = some ids → ∀ id ∈ ids, Unambiguous id
  | _, _ => True

def uncleaned (centroidId docId : Bytes) : Contract Store (PersistenceIf F) where
  Inv := Uncleaned centroidId docId
  Good := Cleaning centroidId
  Answers := ListsUnambiguous

variable (free : colon ∉ centroidId)

include free

/-- A removal does not touch the member record of a document that is missing. -/
theorem guaranteed_remove_uncleaned {id : Bytes} (owned : Unambiguous id) :
    (removeDocumentFromCentroid centroidId id).Guaranteed rockHandle (Uncleaned centroidId docId)
      fun _ => True := by
  have memberOwned : (LogicalRecord.member centroidId docId).Owned := owned_member free docId
  have delKeeps {key : Bytes} (other : getCentroidDocumentKey centroidId docId ≠ key) :
      (del key).Guaranteed rockHandle (Uncleaned centroidId docId) fun _ => True := by
    intro now uncleaned
    rw [store_after_del]
    exact ⟨uncleaned.erase other, trivial⟩
  have present : (existsKey (getDocumentKey id)).Guaranteed rockHandle (Uncleaned centroidId docId)
      fun found => found = true → docId ≠ id := by
    intro now uncleaned
    refine ⟨uncleaned, ?_⟩
    rintro found rfl
    exact uncleaned.missing (Std.ExtTreeMap.contains_iff_mem.mp found)
  apply Program.guaranteed_bind (guaranteed_of_reads (reads_exists_key _))
  intro centroidFound _
  split
  · apply Program.guaranteed_bind present
    intro documentFound different
    split
    · rename_i found
      have linkOwned : (LogicalRecord.backLink id centroidId).Owned := owned
      apply Program.guaranteed_bind (delKeeps fun same => by
        cases (store_key_eq_iff memberOwned linkOwned).mp same)
      intro _ _
      apply Program.guaranteed_bind (delKeeps fun same =>
        different found (member_key_injective same))
      intro removed _
      split
      · trivial
      · trivial
    · trivial
  · trivial

omit [Add F] [Mul F] [NatCast F] in
theorem uncleaned_honoured :
    (uncleaned centroidId docId).Honoured (persistence serialization) := by
  have memberOwned (id : Bytes) : (LogicalRecord.member centroidId id).Owned := owned_member free id
  have stampOwned (metaName : Bytes) : (LogicalRecord.centroidMetadata centroidId metaName).Owned :=
    unambiguous_of_colon_free free
  have shows : ∀ now, Uncleaned centroidId docId now → ∀ ids : List Bytes,
      ids.Sublist (idsUnder now (getCentroidDocumentPrefix centroidId)) →
      ∀ id ∈ ids, Unambiguous id := by
    intro now uncleaned ids shown id member
    have isMember := shown.subset member
    rw [ids_under_eq_members, List.mem_map] at isMember
    obtain ⟨docId, isMember, rfl⟩ := isMember
    rw [listed_id_of_free free]
    exact uncleaned.owned docId isMember
  intro request cleaning
  cases request with
  | doesCentroidExist id => exact guaranteed_of_reads (reads_exists_key _)
  | loadDocument id => exact guaranteed_of_reads (reads_load_document serialization id)
  | listCentroidDocumentRangeFromOffsetOption id offset count =>
      cases cleaning
      exact guaranteed_unless_missing_option (guaranteed_list_ids_from_offset shows offset count)
  | listCentroidDocumentRangeFromDocumentIdOption id member count =>
      cases cleaning
      exact guaranteed_unless_missing_option (guaranteed_list_ids_from_member shows member count)
  | removeDocumentFromCentroid id member =>
      obtain ⟨rfl, owned⟩ := cleaning
      exact guaranteed_remove_uncleaned free owned
  | saveCentroid id centroid =>
      intro now uncleaned
      refine ⟨uncleaned.insert _ (document_key_ne_centroid_key docId id) ?_, trivial⟩
      intro other same
      cases (store_key_eq_iff (memberOwned other) (owned_centroid id)).mp same
  | setCentroidMetadata id metadataName value =>
      cases cleaning
      intro now uncleaned
      refine ⟨uncleaned.insert _ ?_ ?_, trivial⟩
      · intro same
        cases (store_key_eq_iff (owned_document docId) (stampOwned metadataName)).mp same
      · intro other same
        cases (store_key_eq_iff (memberOwned other) (stampOwned metadataName)).mp same
  | _ => exact absurd cleaning id

omit free [Zero F] [One F] [Add F] [Mul F] [NatCast F] in
theorem uncleaned_serves :
    Serves (uncleaned centroidId docId : Contract Store (PersistenceIf F)) (fun _ => False)
      centroidId fun idSet => ∀ id ∈ idSet, Unambiguous id where
  finds := trivial
  lists := rfl
  first := fun idSet answers _ => answers idSet rfl
  continues := fun _ _ => rfl
  next := fun _ nextIdSet _ answers _ => answers nextIdSet rfl
  loads := fun _ _ _ _ => trivial
  removes := by
    intro idSet read docNum _ loadedDocuments _ id member
    obtain ⟨i, found, _⟩ := mem_removed_iff.mp member
    exact .inr ⟨rfl, read id (List.mem_of_getElem? found)⟩
  saves := fun _ => trivial
  stamps := fun _ => rfl

end Uncleaned

/-- A run leaves a listing without missing documents as it is, and takes no missing one away. -/
theorem cleaned_up_iff_nothing_missing (present : getCentroidKey centroidId ∈ store)
    {actions : List (PersistenceAction F)} (alone : ∀ action ∈ actions, Alone action)
    {last : ThreadPool F (RunOutcome F)}
    (executed : (persistenceMachine (RunOutcome F) serialization).exec actions
      (.initial store [run sqrt centroidId startTimestamp pages]) = some last) :
    (ListsStoredOnly store centroidId → ListsStoredOnly last.store centroidId) ∧
      (colon ∉ centroidId → (∀ docId ∈ members store centroidId, Unambiguous docId) →
        (ListsStoredOnly last.store centroidId ↔ ListsStoredOnly store centroidId)) := by
  have sufficient : ListsStoredOnly store centroidId → ListsStoredOnly last.store centroidId := by
    rw [lists_stored_only_iff, lists_stored_only_iff]
    intro stored
    have aligned : Aligned store centroidId := by
      intro idSet read docNum _ i id other atBatch _ missing
      have inPage := mem_of_mem_batch (List.mem_of_getElem? atBatch)
      exact absurd (stored id ((page_read_sublist read).subset inPage)) missing
    rcases run_undisturbed sqrt startTimestamp pages present alone executed with
      ⟨request, _, stray⟩ | kept
    · exact absurd stray (not_stray_of_aligned aligned request)
    · intro id member
      have undisturbed : Undisturbed store centroidId last.store := kept.store
      rw [undisturbed.listed_eq] at member
      rw [Std.ExtTreeMap.mem_iff_isSome_getElem?, undisturbed.document member,
        ← Std.ExtTreeMap.mem_iff_isSome_getElem?]
      exact stored id member
  refine ⟨sufficient, ?_⟩
  intro free owned
  refine ⟨?_, sufficient⟩
  rw [lists_stored_only_iff, lists_stored_only_iff]
  intro cleaned id member
  by_contra missing
  rw [listed, ids_under_eq_members, List.mem_map] at member
  obtain ⟨docId, isMember, rfl⟩ := member
  rw [listed_id_of_free free] at missing
  have start : Uncleaned centroidId docId store :=
    ⟨(mem_members_iff docId).mp isMember, missing, owned⟩
  rcases delivered (uncleaned_honoured free) start
      (delivers_run uncleaned_serves sqrt startTimestamp pages) alone executed with
    ⟨request, _, stops⟩ | kept
  · exact stops
  · have uncleaned : Uncleaned centroidId docId last.store := kept.store
    apply uncleaned.missing
    apply cleaned
    rw [listed, ids_under_eq_members, List.mem_map]
    exact ⟨docId, (mem_members_iff docId).mpr uncleaned.member, listed_id_of_free free docId⟩

/-- What is left when a run over the stranded member has ended and all its requests are done. -/
def strandedSummary (last : ThreadPool Nat (RunOutcome Nat)) :
    Option (List Bytes) × Bool × Option (List Bytes) × Bool :=
  (passedIds last, last.tasks.all fun task => task.program.result.isSome,
    ((listAllDocumentsForCentroid (ascii "c")).run rockHandle last.store).1.toOption,
    last.store.contains (getDocumentKey (ascii "d")))

theorem stranded_summary :
    ((persistenceMachine (RunOutcome Nat) .idsOnly).exec strandedActions
      (.initial strandedStore [run id (ascii "c") 0 1])).map strandedSummary =
        some (some [], true, some [ascii "d"], false) := by
  decide +kernel

theorem stranded_member_stays :
    ∃ last : ThreadPool Nat (RunOutcome Nat),
      (persistenceMachine (RunOutcome Nat) .idsOnly).exec strandedActions
        (.initial strandedStore [run id (ascii "c") 0 1]) = some last ∧
      (ListsStoredOnly last.store (ascii "c") ↔ ListsStoredOnly strandedStore (ascii "c")) := by
  obtain ⟨last, executed, _⟩ := Option.map_eq_some_iff.mp stranded_summary
  refine ⟨last, executed, ?_⟩
  have onlyMember : members strandedStore (ascii "c") = [ascii "d"] := by decide +kernel
  apply (cleaned_up_iff_nothing_missing (by decide +kernel) (by decide +kernel) executed).2
    (by decide)
  intro docId member
  rw [onlyMember, List.mem_singleton] at member
  rw [member]
  exact unambiguous_of_colon_free (by decide)

/-- The run succeeds, everything it has asked for is done, and the member is still listed. -/
theorem stranded_member_is_listed :
    ∃ (last : ThreadPool Nat (RunOutcome Nat)) (passed : List (ProcessedDocument Nat))
      (centroid : Centroid Nat), (∀ action ∈ strandedActions, Alone action) ∧
      getCentroidKey (ascii "c") ∈ strandedStore ∧
      (persistenceMachine (RunOutcome Nat) .idsOnly).exec strandedActions
        (.initial strandedStore [run id (ascii "c") 0 1]) = some last ∧
      last.clients = [.done (.updated passed centroid)] ∧
      (∀ task ∈ last.tasks, task.program.result.isSome = true) ∧
      ¬ ListsStoredOnly last.store (ascii "c") := by
  obtain ⟨last, executed, summary⟩ := Option.map_eq_some_iff.mp stranded_summary
  simp only [strandedSummary, Prod.mk.injEq, List.all_eq_true] at summary
  obtain ⟨ended, finished, answered, missing⟩ := summary
  obtain ⟨passed, centroid, isDone, _⟩ := updated_of_passed_ids ended
  refine ⟨last, passed, centroid, by decide +kernel, by decide +kernel, executed, isDone, finished,
    ?_⟩
  intro onlyStored
  cases listing : ((listAllDocumentsForCentroid (ascii "c")).run rockHandle last.store).1 with
  | error exception =>
      rw [listing] at answered
      cases answered
  | ok ids =>
      rw [listing] at answered
      have shown := onlyStored ids listing (ascii "d") (by
        rw [Option.some.inj answered]
        exact List.mem_singleton_self _)
      rw [Std.ExtTreeMap.contains_iff_mem.mpr shown] at missing
      cases missing

end CentroidUpdater

end Relevanced.CentroidUpdate

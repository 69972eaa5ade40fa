import Relevanced.CentroidUpdate.Turning
import Relevanced.CentroidUpdate.Undisturbed
import Relevanced.Persistence.ListedIds
import Mathlib.Tactic.ByContra

/-!
# Termination of CentroidUpdater

Every page begins where the page before ended. With what a listing returns for a member
in place of the member, it begins further on exactly when the listed id of the last
member lies behind the first member; a centroid id without a colon leaves no other
case. The pages then move on while no member is added, whatever else goes on in the
store; where one page does not move on, no bound on the pages is enough.
-/

namespace Relevanced.CentroidUpdate

open Foundation
open Models
open Persistence
open Persistence.SyncPersistence

set_option autoImplicit false

namespace CentroidUpdater

/-- In every full page of members, the last one is listed as an id behind the first one. -/
def PagesMoveOn (store : Store) (centroidId : Bytes) : Prop :=
  ∀ (i : Nat) (first last : Bytes), (members store centroidId)[i]? = some first →
    (members store centroidId)[i + (idListBatchSize - 1)]? = some last →
    first < listedId centroidId last

def NoMemberAdded (store : Store) (centroidId : Bytes) (now : Store) : Prop :=
  (members now centroidId).Sublist (members store centroidId)

variable {F : Type}

/-- No test of a run fails; and so many pages are enough for every run during which no member is
added, in any order of the steps and with any requests of others: it is not cut short, and the
steps of the pool can always take it to its end. -/
structure EndsInBounds [Zero F] [One F] [Add F] [Mul F] [NatCast F]
    (serialization : Serialization F) (sqrt : F → F) (store : Store) (centroidId : Bytes)
    (startTimestamp : Nat) : Prop where
  bounds : ∀ pages, testedRun sqrt centroidId startTimestamp pages =
    Except.ok <$> run sqrt centroidId startTimestamp pages
  ends : ∃ pages, ∀ (actions : List (PersistenceAction F)) (last : ThreadPool F (RunOutcome F)),
    (persistenceMachine (RunOutcome F) serialization).Along
      (fun pool => NoMemberAdded store centroidId pool.store) actions
      (.initial store [run sqrt centroidId startTimestamp pages]) →
    (persistenceMachine (RunOutcome F) serialization).exec actions
      (.initial store [run sqrt centroidId startTimestamp pages]) = some last →
    last.clients ≠ [.done .unfinished] ∧
      ∃ (rest : List (PersistenceAction F)) (after : ThreadPool F (RunOutcome F))
        (outcome : RunOutcome F), (∀ action ∈ rest, Alone action) ∧
        (persistenceMachine (RunOutcome F) serialization).Along
          (fun pool => NoMemberAdded store centroidId pool.store) rest last ∧
        (persistenceMachine (RunOutcome F) serialization).exec rest last = some after ∧
        after.clients = [.done outcome] ∧ outcome ≠ .unfinished

section Listed

variable {store now : Store} {centroidId : Bytes}

theorem members_ascending : (members store centroidId).Pairwise (· < ·) :=
  stored_ids_ascending store (getCentroidDocumentPrefix centroidId)

theorem ids_from_eq_listed (start : Bytes) (limit : Nat) :
    idsFrom store (getCentroidDocumentPrefix centroidId) start limit =
      (pageFrom (members store centroidId) start limit).map (listedId centroidId) := by
  rw [ids_from_eq_decoded]
  apply List.map_congr_left
  intro docId _
  rw [decodedId, listedId, member_key_eq_join]

theorem listed_id_le_iff (left right : Bytes) :
    listedId centroidId left ≤ listedId centroidId right ↔ left ≤ right := by
  by_cases cut : colon ∈ centroidId
  · obtain ⟨front, back, free, rfl⟩ := exists_cut cut
    rw [listed_id_of_cut free, listed_id_of_cut free, getCentroidDocumentKey,
      getCentroidDocumentKey, append_le_append_iff]
  · rw [listed_id_of_free cut, listed_id_of_free cut]

theorem last_listed_eq {ids : List Bytes} {docId : Bytes} (last : ids.getLast? = some docId) :
    (ids.map (listedId centroidId)).getLastD [] = listedId centroidId docId := by
  rw [List.getLastD_eq_getLast?, List.getLast?_map, last]
  rfl

theorem le_last_listed {items picked : List Bytes} (ascending : items.Pairwise (· < ·))
    (sublist : picked.Sublist items) {index : Nat} {docId : Bytes}
    (found : items[index]? = some docId) (enough : index < picked.length) :
    listedId centroidId docId ≤ (picked.map (listedId centroidId)).getLastD [] := by
  obtain ⟨last, isLast⟩ : ∃ last, picked.getLast? = some last :=
    ⟨_, List.getLast?_eq_some_getLast (List.ne_nil_of_length_pos (by omega))⟩
  have atLast := isLast
  rw [List.getLast?_eq_getElem?] at atLast
  obtain ⟨earlier, isThere, atMost⟩ := le_of_sublist ascending sublist atLast
  rw [last_listed_eq isLast, listed_id_le_iff]
  exact (le_of_index_le ascending found isThere (by omega)).trans atMost

end Listed

section Enough

def Awaited (centroidId : Bytes) : PersistenceCall F → Prop
  | .doesCentroidExist _ => True
  | .listCentroidDocumentRangeFromOffsetOption _ _ _ => True
  | .listCentroidDocumentRangeFromDocumentIdOption id _ _ => id = centroidId
  | .loadDocument _ => True
  | .saveCentroid id _ => id = centroidId
  | _ => False

/-- A listing from an id stands for members of the start from that id on. -/
def ListsOld (store : Store) (centroidId : Bytes) :
    (request : PersistenceCall F) → (PersistenceIf F).Reply request → Prop
  | .listCentroidDocumentRangeFromDocumentIdOption _ start _, answer =>
      ∀ ids, answer = some ids → ∃ picked, List.Sublist picked (members store centroidId) ∧
        (∀ docId ∈ picked, start ≤ docId) ∧ ids = picked.map (listedId centroidId)
  | _, _ => True

def unextended (store : Store) (centroidId : Bytes) : Contract Store (PersistenceIf F) where
  Inv := NoMemberAdded store centroidId
  Good := Awaited centroidId
  Answers := ListsOld store centroidId

variable {serialization : Serialization F} {store now : Store} {centroidId : Bytes}

theorem members_put_centroid (value : Bytes) :
    members (now.insert (getCentroidKey centroidId) value) centroidId = members now centroidId := by
  rw [members, members, keysUnder, keysUnder, entries_under_congr]
  intro key under
  apply OrderedMap.getElem?_insert_of_ne
  rintro rfl
  exact centroid_key_not_listed under

theorem unextended_honoured [Zero F] [One F] :
    (unextended store centroidId).Honoured (persistence serialization) := by
  intro request awaited
  cases request with
  | doesCentroidExist id => exact guaranteed_of_reads (reads_exists_key _)
  | listCentroidDocumentRangeFromOffsetOption id offset count =>
      exact guaranteed_of_reads
        (reads_unless_missing_option _ (reads_list_ids_from_offset _ offset count))
  | listCentroidDocumentRangeFromDocumentIdOption id start count =>
      cases awaited
      apply guaranteed_unless_missing_option
      apply guaranteed_list_ids_from_any_member
      intro now held
      refine ⟨pageFrom (members now centroidId) start count, ?_, ?_, ids_from_eq_listed start count⟩
      · exact ((List.take_sublist _ _).trans List.filter_sublist).trans held
      · intro docId member
        exact of_decide_eq_true (List.mem_filter.mp (List.mem_of_mem_take member)).2
  | loadDocument id => exact guaranteed_of_reads (reads_load_document serialization id)
  | saveCentroid id centroid =>
      cases awaited
      intro now held
      refine ⟨?_, trivial⟩
      change (members (now.insert (getCentroidKey centroidId) _) centroidId).Sublist _
      rw [members_put_centroid]
      exact held
  | _ => exact absurd awaited id

theorem unextended_covers :
    Covers (unextended store centroidId : Contract Store (PersistenceIf F)) centroidId
      fun _ => True where
  finds := trivial
  lists := trivial
  continues := fun _ => rfl
  first := fun _ _ => trivial
  next := fun _ _ _ => trivial
  loads := fun _ _ _ _ => trivial
  saves := fun _ => rfl

/-- A full page of members of the start, none of them among the first so many. -/
def MovedOn (store : Store) (centroidId : Bytes) (count : Nat) (idSet : List Bytes) : Prop :=
  ∃ picked, List.Sublist picked ((members store centroidId).drop count) ∧
    idSet = picked.map (listedId centroidId) ∧ idListBatchSize ≤ idSet.length

theorem MovedOn.bound {count : Nat} {idSet : List Bytes}
    (moved : MovedOn store centroidId count idSet) :
    count + idListBatchSize ≤ (members store centroidId).length := by
  obtain ⟨picked, sublist, rfl, full⟩ := moved
  have fits := sublist.length_le
  rw [List.length_drop] at fits
  rw [List.length_map, idListBatchSize] at full
  rw [idListBatchSize]
  omega

theorem MovedOn.next (moveOn : PagesMoveOn store centroidId) {count : Nat}
    {idSet nextIdSet : List Bytes} (moved : MovedOn store centroidId count idSet)
    (answers : (unextended store centroidId : Contract Store (PersistenceIf F)).Answers
      (.listCentroidDocumentRangeFromDocumentIdOption centroidId (idSet.getLastD [])
        idListBatchSize) (some nextIdSet))
    (full : idListBatchSize ≤ nextIdSet.length) :
    MovedOn store centroidId (count + 1) nextIdSet := by
  have bound := moved.bound
  obtain ⟨picked, sublist, rfl, size⟩ := moved
  obtain ⟨nextPicked, nextSublist, above, rfl⟩ := answers nextIdSet rfl
  refine ⟨nextPicked, ?_, rfl, full⟩
  rw [idListBatchSize] at bound
  have isFirst : (members store centroidId)[count]? =
      some (members store centroidId)[count] := List.getElem?_eq_getElem (by omega)
  have inPage : count + (idListBatchSize - 1) < (members store centroidId).length := by
    rw [idListBatchSize]
    omega
  have isLast : (members store centroidId)[count + (idListBatchSize - 1)]? =
      some (members store centroidId)[count + (idListBatchSize - 1)] :=
    List.getElem?_eq_getElem inPage
  have behind := moveOn count _ _ isFirst isLast
  apply sublist_behind members_ascending nextSublist isFirst
  intro docId member
  have inRest : ((members store centroidId).drop count)[idListBatchSize - 1]? = some _ :=
    List.getElem?_drop.trans isLast
  rw [List.length_map] at size
  have within : idListBatchSize - 1 < picked.length := by
    rw [idListBatchSize] at size ⊢
    omega
  have atLeast := @le_last_listed centroidId _ _ members_ascending.drop sublist _ _ inRest within
  exact (behind.trans_le atLeast).trans_le (above docId member)

theorem full_pages_bound (moveOn : PagesMoveOn store centroidId) {pages count : Nat}
    {idSet last : List Bytes}
    (turned : FullPages (unextended store centroidId : Contract Store (PersistenceIf F)) centroidId
      pages idSet last) (moved : MovedOn store centroidId count idSet) :
    pages + count ≤ (members store centroidId).length := by
  induction turned generalizing count with
  | none idSet =>
      have bound := moved.bound
      omega
  | next listed full later ih =>
      have bound := ih (moved.next moveOn listed full)
      omega

theorem not_unfinished_of_move_on (moveOn : PagesMoveOn store centroidId) {outcome : RunOutcome F}
    (turned : Turned (unextended store centroidId) centroidId
      ((members store centroidId).length + 2) outcome) : outcome ≠ .unfinished := by
  cases turned with
  | stopped other stops => exact other
  | unfinished answers pages =>
      exfalso
      cases pages with
      | next listed full later =>
          -- of the first page nothing is known, but the second one lists members
          obtain ⟨picked, sublist, _, same⟩ := listed _ rfl
          rw [← List.drop_zero (l := members store centroidId)] at sublist
          have bound := full_pages_bound moveOn later ⟨picked, sublist, same, full⟩
          omega

variable [Zero F] [One F] [Add F] [Mul F] [NatCast F]

/-- Pages that move on run out, with any requests of others that add no member. -/
theorem ends_of_move_on (sqrt : F → F) (startTimestamp : Nat)
    (moveOn : PagesMoveOn store centroidId) :
    EndsInBounds serialization sqrt store centroidId startTimestamp where
  bounds := tested_run_eq sqrt centroidId startTimestamp
  ends := by
    refine ⟨(members store centroidId).length + 2, ?_⟩
    intro actions last along executed
    have start : NoMemberAdded store centroidId store := List.Sublist.refl _
    have kept := (kept_among_initial start
      (delivers_among_run unextended_covers sqrt startTimestamp _)).exec unextended_honoured along
        executed
    refine ⟨fun ended => not_unfinished_of_move_on moveOn (kept.post ended) rfl, ?_⟩
    obtain ⟨program, isClient, _⟩ := kept.client
    obtain ⟨after, outcome, ⟨rest, alone, stillAlong, finished⟩, ended, post⟩ :=
      kept.client_ends unextended_honoured isClient
    exact ⟨rest, after, outcome, alone, stillAlong, finished, ended,
      not_unfinished_of_move_on moveOn post⟩

end Enough

section TurningBack

/-- A full page of members, the last of which is listed no later than where the page begins. -/
structure TurnsBack (store : Store) (centroidId : Bytes) (i : Nat) (first last : Bytes) : Prop where
  begins : (members store centroidId)[i]? = some first
  ends : (members store centroidId)[i + (idListBatchSize - 1)]? = some last
  back : listedId centroidId last ≤ first

/-- A page after which the listing begins no later than at the member. -/
structure Stuck (store : Store) (centroidId first : Bytes) (idSet : List Bytes) : Prop where
  full : idListBatchSize ≤ idSet.length
  noLater : idSet.getLastD [] ≤ first
  known : ∀ id ∈ idSet, id ∈ listed store centroidId

variable {serialization : Serialization F} {store : Store} {centroidId first last : Bytes} {i : Nat}

theorem turns_back_of_not_move_on (stays : ¬ PagesMoveOn store centroidId) :
    ∃ i first last, TurnsBack store centroidId i first last := by
  rw [PagesMoveOn] at stays
  push Not at stays
  obtain ⟨i, first, last, begins, ends, back⟩ := stays
  exact ⟨i, first, last, begins, ends, back⟩

theorem TurnsBack.page_stuck (turnsBack : TurnsBack store centroidId i first last)
    {items : List Bytes} (known : items.Sublist (members store centroidId))
    (rest : ((members store centroidId).drop i).Sublist items) :
    Stuck store centroidId first ((items.take idListBatchSize).map (listedId centroidId)) := by
  have inRest : ((members store centroidId).drop i)[idListBatchSize - 1]? = some last :=
    List.getElem?_drop.trans turnsBack.ends
  have ascending : items.Pairwise (· < ·) := members_ascending.sublist known
  obtain ⟨earlier, isThere, atMost⟩ := le_of_sublist ascending rest inRest
  obtain ⟨enough, _⟩ := List.getElem?_eq_some_iff.mp isThere
  have size : (items.take idListBatchSize).length = idListBatchSize := by
    rw [List.length_take, min_eq_left]
    rw [idListBatchSize] at enough ⊢
    omega
  have isLast : (items.take idListBatchSize).getLast? = some earlier := by
    rw [List.getLast?_eq_getElem?, size, List.getElem?_take_of_lt (by decide)]
    exact isThere
  constructor
  · rw [List.length_map, size]
  · rw [last_listed_eq isLast]
    exact ((listed_id_le_iff earlier last).mpr atMost).trans turnsBack.back
  · intro id member
    obtain ⟨docId, inPage, rfl⟩ := List.mem_map.mp member
    rw [listed, ids_under_eq_members]
    exact List.mem_map_of_mem (known.subset (List.mem_of_mem_take inPage))

theorem TurnsBack.first_page_stuck (turnsBack : TurnsBack store centroidId i first last) :
    Stuck store centroidId first (firstPage store centroidId) := by
  rw [firstPage, listed, ids_under_eq_members, ← List.map_take]
  exact turnsBack.page_stuck (List.Sublist.refl _) (List.drop_sublist i _)

theorem TurnsBack.page_after_stuck (turnsBack : TurnsBack store centroidId i first last)
    {idSet : List Bytes} (stuck : Stuck store centroidId first idSet) :
    Stuck store centroidId first (pageAfter store centroidId idSet) := by
  rw [pageAfter, ids_from_eq_listed, pageFrom]
  apply turnsBack.page_stuck List.filter_sublist
  have noneBefore : ((members store centroidId).drop i).filter (idSet.getLastD [] ≤ ·) =
      (members store centroidId).drop i := by
    rw [List.filter_eq_self]
    intro docId member
    obtain ⟨j, found⟩ := List.mem_iff_getElem?.mp member
    rw [List.getElem?_drop] at found
    have above := le_of_index_le members_ascending turnsBack.begins found (Nat.le_add_right i j)
    exact decide_eq_true (stuck.noLater.trans above)
  rw [← noneBefore]
  exact (List.drop_sublist i _).filter _

theorem undisturbed_adds_no_member {now : Store} (undisturbed : Undisturbed store centroidId now) :
    NoMemberAdded store centroidId now := by
  rw [NoMemberAdded, members, members, keysUnder, keysUnder,
    entries_under_congr undisturbed.member_keys]

section Alone

variable [Zero F] [One F] (present : getCentroidKey centroidId ∈ store)

include present

theorem undisturbed_covers :
    Covers (undisturbed serialization store centroidId) centroidId
      fun idSet => ∀ id ∈ idSet, id ∈ listed store centroidId where
  finds := rfl
  lists := rfl
  continues := fun _ => rfl
  first := by
    intro idSet answers id member
    cases answers_first_page present answers
    exact List.mem_of_mem_take member
  next := by
    intro start nextIdSet answers id member
    have same := @answers_page_after _ _ _ serialization _ _ present [start] _ answers
    cases same
    exact (ids_from_sublist _ _ _ _).subset member
  loads := fun _ known id member => known id member
  saves := fun _ => rfl

theorem TurnsBack.turned_stuck (turnsBack : TurnsBack store centroidId i first last) {turned : Nat}
    {idSet reached : List Bytes}
    (pages : FullPages (undisturbed serialization store centroidId) centroidId turned idSet reached)
    (stuck : Stuck store centroidId first idSet) : Stuck store centroidId first reached := by
  induction pages with
  | none idSet => exact stuck
  | next answers full later ih =>
      cases answers_page_after present answers
      exact ih (turnsBack.page_after_stuck stuck)

theorem TurnsBack.unfinished (turnsBack : TurnsBack store centroidId i first last)
    (decodable : ∀ id ∈ listed store centroidId, loadedFrom serialization store id ≠ none)
    {pages : Nat} {outcome : RunOutcome F}
    (turned : Turned (undisturbed serialization store centroidId) centroidId pages outcome) :
    outcome = .unfinished := by
  cases turned with
  | unfinished answers turned => rfl
  | stopped other stops =>
      exfalso
      cases stops with
      | missing answers => cases answers_found present answers
      | unlisted answers => cases answers_first_page present answers
      | empty answers =>
          have full := turnsBack.first_page_stuck.full
          rw [← Option.some.inj (answers_first_page present answers)] at full
          exact absurd full (by decide)
      | page answers reached stops =>
          cases answers_first_page present answers
          have stuck := turnsBack.turned_stuck present reached turnsBack.first_page_stuck
          rcases stops with ⟨answer, answers, short⟩ | ⟨id, member, answers⟩
          · have full := (turnsBack.page_after_stuck stuck).full
            exact absurd full (not_le.mpr (short _ (answers_page_after present answers)))
          · exact decodable id (stuck.known id member) (answers_loaded answers).symm

variable [Add F] [Mul F] [NatCast F]

/-- However many pages it may turn, a run that is alone in the store turns them all. -/
theorem TurnsBack.run_unfinished (turnsBack : TurnsBack store centroidId i first last)
    (decodable : ∀ id ∈ listed store centroidId, loadedFrom serialization store id ≠ none)
    (sqrt : F → F) (startTimestamp pages : Nat) :
    ∃ (actions : List (PersistenceAction F)) (final : ThreadPool F (RunOutcome F)),
      (persistenceMachine (RunOutcome F) serialization).Along
        (fun pool => Undisturbed store centroidId pool.store) actions
        (.initial store [run sqrt centroidId startTimestamp pages]) ∧
      (persistenceMachine (RunOutcome F) serialization).exec actions
        (.initial store [run sqrt centroidId startTimestamp pages]) = some final ∧
      final.clients = [.done .unfinished] := by
  have start := undisturbed_start present
  have kept : (undisturbed serialization store centroidId).KeptAmong (persistence serialization)
      (fun outcome _ =>
        Turned (undisturbed serialization store centroidId) centroidId pages outcome)
      (.initial store [run sqrt centroidId startTimestamp pages]) :=
    kept_among_initial start
      (delivers_among_run (undisturbed_covers present) sqrt startTimestamp pages)
  obtain ⟨final, outcome, ⟨actions, _, along, executed⟩, ended, turned⟩ :=
    kept.client_ends (undisturbed_honoured serialization present) rfl
  cases turnsBack.unfinished present decodable turned
  exact ⟨actions, final, along, executed, ended⟩

theorem move_on_of_ends
    (decodable : ∀ id ∈ listed store centroidId, loadedFrom serialization store id ≠ none)
    (sqrt : F → F) (startTimestamp : Nat)
    (ends : EndsInBounds serialization sqrt store centroidId startTimestamp) :
    PagesMoveOn store centroidId := by
  by_contra stays
  obtain ⟨i, first, last, turnsBack⟩ := turns_back_of_not_move_on stays
  obtain ⟨pages, bounded⟩ := ends.ends
  obtain ⟨actions, final, along, executed, unfinished⟩ :=
    turnsBack.run_unfinished present decodable sqrt startTimestamp pages
  have noneAdded := along.mono fun pool held => undisturbed_adds_no_member held
  exact (bounded actions final noneAdded executed).1 unfinished

end Alone

end TurningBack

section Condition

variable {store : Store} {centroidId : Bytes}

theorem pages_move_on_of_free (free : colon ∉ centroidId) : PagesMoveOn store centroidId := by
  intro i first last begins ends
  obtain ⟨_, rfl⟩ := List.getElem?_eq_some_iff.mp begins
  obtain ⟨within, rfl⟩ := List.getElem?_eq_some_iff.mp ends
  rw [listed_id_of_free free]
  have further : i < i + (idListBatchSize - 1) := by
    rw [idListBatchSize]
    omega
  exact List.pairwise_iff_getElem.mp members_ascending i _ _ within further

theorem pages_move_on_of_few (few : (members store centroidId).length < idListBatchSize) :
    PagesMoveOn store centroidId := by
  intro i first last _ ends
  obtain ⟨within, _⟩ := List.getElem?_eq_some_iff.mp ends
  rw [idListBatchSize] at few within
  omega

variable {F : Type} [Zero F] [One F] [Add F] [Mul F] [NatCast F]

/-- Runs end and stay in bounds when the pages move on, and for a centroid that exists and whose
listed documents are missing or can be read, only then. -/
theorem ends_in_bounds_iff (serialization : Serialization F) (sqrt : F → F) (store : Store)
    (centroidId : Bytes) (startTimestamp : Nat) :
    (PagesMoveOn store centroidId →
      EndsInBounds serialization sqrt store centroidId startTimestamp) ∧
    (getCentroidKey centroidId ∈ store →
      (∀ id ∈ listed store centroidId, loadedFrom serialization store id ≠ none) →
      EndsInBounds serialization sqrt store centroidId startTimestamp →
      PagesMoveOn store centroidId) :=
  ⟨ends_of_move_on sqrt startTimestamp,
    fun present decodable => move_on_of_ends present decodable sqrt startTimestamp⟩

end Condition

section Crowded

/-- The ids c, cc, ccc and so on. -/
def crowdedId (n : Nat) : Bytes := List.replicate (n + 1) 99

/-- The centroid a:b and a page of members whose documents have been deleted. -/
def crowded : Store :=
  OrderedMap.ofEntries ((getCentroidKey (ascii "a:b"), []) ::
    (List.range idListBatchSize).map fun n =>
      (getCentroidDocumentKey (ascii "a:b") (crowdedId n), []))

theorem mem_crowded_iff (docId : Bytes) :
    docId ∈ members crowded (ascii "a:b") ↔ ∃ n < idListBatchSize, crowdedId n = docId := by
  rw [mem_members_iff, crowded, OrderedMap.mem_ofEntries_iff, List.map_cons, List.mem_cons,
    List.map_map, List.mem_map]
  constructor
  · rintro (same | ⟨n, within, same⟩)
    · exact absurd (List.cons.inj same).1 (by decide)
    · exact ⟨n, List.mem_range.mp within, member_key_injective same⟩
  · rintro ⟨n, within, rfl⟩
    exact .inr ⟨n, List.mem_range.mpr within, rfl⟩

theorem crowded_page : idListBatchSize ≤ (members crowded (ascii "a:b")).length := by
  have distinct : ((List.range idListBatchSize).map crowdedId).Nodup := by
    apply List.nodup_range.map
    intro left right same
    simpa [crowdedId] using congrArg List.length same
  have known : (List.range idListBatchSize).map crowdedId ⊆ members crowded (ascii "a:b") := by
    intro docId member
    obtain ⟨n, within, same⟩ := List.mem_map.mp member
    exact (mem_crowded_iff docId).mpr ⟨n, List.mem_range.mp within, same⟩
  have fits := (List.subperm_of_subset distinct known).length_le
  rw [List.length_map, List.length_range] at fits
  exact fits

theorem listed_in_crowded (docId : Bytes) :
    listedId (ascii "a:b") docId = 98 :: (ascii "__documents:" ++ docId) :=
  @listed_id_of_cut [97] [98] (by decide) docId

theorem crowded_not_move_on : ¬ PagesMoveOn crowded (ascii "a:b") := by
  intro moveOn
  have full := crowded_page
  rw [idListBatchSize] at full
  have begins : (members crowded (ascii "a:b"))[0]? = some _ := List.getElem?_eq_getElem (by omega)
  have ends : (members crowded (ascii "a:b"))[0 + (idListBatchSize - 1)]? = some _ :=
    List.getElem?_eq_getElem (by rw [idListBatchSize]; omega)
  have behind := moveOn 0 _ _ begins ends
  obtain ⟨n, _, first⟩ := (mem_crowded_iff _).mp (List.mem_of_getElem? begins)
  rw [← first, listed_in_crowded, crowdedId, List.replicate_succ, List.cons_lt_cons_iff] at behind
  rcases behind with less | same
  · exact absurd less (by decide)
  · exact absurd same.1 (by decide)

/-- The pages of the centroid a:b begin at b__documents:c, before all of its members. -/
theorem crowded_run_goes_on : ¬ EndsInBounds (.idsOnly : Serialization Nat) id crowded
    (ascii "a:b") 0 := by
  intro ends
  apply crowded_not_move_on
  apply move_on_of_ends _ _ id 0 ends
  · exact OrderedMap.mem_ofEntries_iff.mpr List.mem_cons_self
  · intro id _
    rw [loaded_from_eq]
    cases crowded[getDocumentKey id]? with
    | none => simp
    | some serialized => simp [Serialization.idsOnly]

end Crowded

end CentroidUpdater

end Relevanced.CentroidUpdate

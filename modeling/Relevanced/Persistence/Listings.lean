import Relevanced.Foundation.Clients
import Relevanced.Persistence.Persistence
import Relevanced.Persistence.SyncRuns

/-!
# Listings of the members of a centroid

A listing makes one iterator and keeps what lies in its range, so its answer is settled
by the store the iterator is made in. What the ids it returns have to do with the
members that are stored depends on whether the id of the centroid has a colon.
-/

namespace Relevanced.Persistence

open Foundation
open Models

set_option autoImplicit false

section Iterations

variable {α β : Type}

def visited (start stop : Bytes) (entries : List (Bytes × Bytes)) : List (Bytes × Bytes) :=
  (entries.dropWhile fun entry => entry.1 < start).takeWhile fun entry => entry.1 < stop

theorem visited_to_list (start stop : Bytes) (store : Store) :
    visited start stop store.toList = OrderedMap.range store start stop :=
  OrderedMap.seek_then_walk store start stop

theorem iter_range_eq (start stop : Bytes) (iterFn : IterFn α) (captured : α) :
    iterRange start stop iterFn captured =
      newIterator >>= fun entries => walk iterFn (visited start stop entries) false captured := by
  rw [iterRange]
  apply congrArg (newIterator >>= ·)
  funext entries
  exact iter_loop_eq_walk stop iterFn _ false captured

variable (decode : Bytes → β) (label : Bytes)

theorem iter_prefix_from_offset_eq (offset limitCount : Nat) :
    iterPrefixFromOffset label offset limitCount (collecting decode) [] =
      newIterator >>= fun entries => pure
        (!((visited (label ++ [colon]) (label ++ [semicolon]) entries).drop offset).isEmpty,
          (((visited (label ++ [colon]) (label ++ [semicolon]) entries).drop offset).take
            limitCount).map fun entry => decode entry.1) := by
  rw [iterPrefixFromOffset, iter_range_eq, bind_assoc]
  apply congrArg (newIterator >>= ·)
  funext entries
  have counted := walk_skipping decode offset limitCount
    (visited (label ++ [colon]) (label ++ [semicolon]) entries) false (Progress.initial [])
  rw [map_eq_pure_bind] at counted
  simpa [Progress.initial] using counted

theorem iter_prefix_from_member_eq (member : Bytes) (limitCount : Nat) :
    iterPrefixFromMember label member limitCount (collecting decode) [] =
      newIterator >>= fun entries => pure
        (!(visited (label ++ colon :: member) (label ++ [semicolon]) entries).isEmpty,
          ((visited (label ++ colon :: member) (label ++ [semicolon]) entries).take
            limitCount).map fun entry => decode entry.1) := by
  rw [iterPrefixFromMember, iter_range_eq, bind_assoc]
  apply congrArg (newIterator >>= ·)
  funext entries
  have counted := walk_limited decode limitCount
    (visited (label ++ colon :: member) (label ++ [semicolon]) entries) false (Progress.initial [])
  rw [map_eq_pure_bind] at counted
  simpa [Progress.initial] using counted

end Iterations

namespace SyncPersistence

theorem list_ids_from_offset_eq (label : Bytes) (offset limit : Nat) :
    listIdsFromOffset label offset limit = newIterator >>= fun entries => pure
      ((((visited (label ++ [colon]) (label ++ [semicolon]) entries).drop offset).take limit).map
        fun entry => idOfKey entry.1) := by
  rw [listIdsFromOffset, iter_prefix_from_offset_eq, bind_assoc]
  rfl

theorem list_ids_from_member_eq (label member : Bytes) (limit : Nat) :
    listIdsFromMember label member limit = newIterator >>= fun entries => pure
      (((visited (label ++ colon :: member) (label ++ [semicolon]) entries).take limit).map
        fun entry => idOfKey entry.1) := by
  rw [listIdsFromMember, iter_prefix_from_member_eq, bind_assoc]
  rfl

def idsFrom (store : Store) (label member : Bytes) (limit : Nat) : List Bytes :=
  ((OrderedMap.range store (label ++ colon :: member) (label ++ [semicolon])).take limit).map
    fun entry => idOfKey entry.1

theorem run_list_ids_from_any_member (store : Store) (label member : Bytes) (limit : Nat) :
    (listIdsFromMember label member limit).run rockHandle store =
      (idsFrom store label member limit, store) := by
  rw [list_ids_from_member_eq, newIterator, Program.run_bind, Program.run_perform]
  simp only [rockHandle, visited_to_list]
  rfl

theorem colon_le_member (label member : Bytes) : label ++ [colon] ≤ label ++ colon :: member := by
  apply le_of_prefix
  exact ⟨member, by simp⟩

theorem ids_from_sublist (store : Store) (label member : Bytes) (limit : Nat) :
    (idsFrom store label member limit).Sublist (idsUnder store label) := by
  rw [idsFrom, idsUnder, keysUnder, List.map_map]
  apply List.Sublist.map
  apply (List.take_sublist _ _).trans
  rw [OrderedMap.range_of_le (colon_le_member label member)]
  exact List.filter_sublist

theorem ids_from_of_free {store : Store} {label : Bytes} (free : colon ∉ label) (member : Bytes)
    (limit : Nat) :
    idsFrom store label member limit =
      ((idsUnder store label).filter (member ≤ ·)).take limit := by
  have direct := congrArg Prod.fst (run_list_ids_from_any_member store label member limit)
  rw [run_list_ids_from_member store free] at direct
  exact direct.symm

section Agreement

variable {left right : Store} {label : Bytes}

theorem entries_under_sublist (kept : ∀ key value, label ++ [colon] <+: key →
    left[key]? = some value → right[key]? = some value) :
    (entriesUnder left label).Sublist (entriesUnder right label) := by
  apply OrderedMap.range_sublist
  intro key value above below
  exact kept key value ((in_prefix_range_iff label key).mp ⟨above, below⟩)

theorem ids_under_sublist (kept : ∀ key value, label ++ [colon] <+: key →
    left[key]? = some value → right[key]? = some value) :
    (idsUnder left label).Sublist (idsUnder right label) := by
  rw [idsUnder, idsUnder, keysUnder, keysUnder]
  exact ((entries_under_sublist kept).map _).map _

variable (agree : ∀ key, label ++ [colon] <+: key → left[key]? = right[key]?)

include agree

theorem entries_under_congr : entriesUnder left label = entriesUnder right label := by
  apply OrderedMap.range_congr
  intro key above below
  exact agree key ((in_prefix_range_iff label key).mp ⟨above, below⟩)

theorem ids_under_congr : idsUnder left label = idsUnder right label := by
  rw [idsUnder, idsUnder, keysUnder, keysUnder, entries_under_congr agree]

theorem range_from_congr (member : Bytes) :
    OrderedMap.range left (label ++ colon :: member) (label ++ [semicolon]) =
      OrderedMap.range right (label ++ colon :: member) (label ++ [semicolon]) := by
  rw [OrderedMap.range_of_le (colon_le_member label member),
    OrderedMap.range_of_le (colon_le_member label member)]
  exact congrArg _ (entries_under_congr agree)

end Agreement

section Steady

variable {Inv : Store → Prop} {store : Store} {label : Bytes}

theorem steady_get {key : Bytes} (same : ∀ state, Inv state → state[key]? = store[key]?) :
    (get key).Steady rockHandle Inv store := by
  apply Program.steady_perform
  intro state holds
  exact ⟨rfl, same state holds⟩

theorem steady_exists_key {key : Bytes}
    (same : ∀ state, Inv state → (key ∈ state ↔ key ∈ store)) :
    (existsKey key).Steady rockHandle Inv store := by
  apply Program.steady_perform
  intro state holds
  refine ⟨rfl, ?_⟩
  change state.contains key = store.contains key
  rw [Bool.eq_iff_iff, Std.ExtTreeMap.contains_iff_mem, Std.ExtTreeMap.contains_iff_mem]
  exact same state holds

theorem guaranteed_exists_key {key : Bytes} {present : Bool}
    (same : ∀ state, Inv state → state.contains key = present) :
    (existsKey key).Guaranteed rockHandle Inv (· = present) := by
  intro state holds
  exact ⟨holds, same state holds⟩

theorem steady_new_iterator {β : Type} {start stop : Bytes} (f : List (Bytes × Bytes) → β)
    (same : ∀ state, Inv state →
      OrderedMap.range state start stop = OrderedMap.range store start stop) :
    (newIterator >>= fun entries => (pure (f (visited start stop entries)) : RockProgram β)).Steady
      rockHandle Inv store := by
  refine ⟨?_, trivial⟩
  intro state holds
  refine ⟨rfl, ?_⟩
  change Program.done (f (visited start stop state.toList)) =
    Program.done (f (visited start stop store.toList))
  rw [visited_to_list, visited_to_list, same state holds]

theorem steady_list_ids_from_offset
    (agree : ∀ state, Inv state → ∀ key, label ++ [colon] <+: key → state[key]? = store[key]?)
    (offset limit : Nat) :
    (listIdsFromOffset label offset limit).Steady rockHandle Inv store := by
  rw [list_ids_from_offset_eq]
  apply steady_new_iterator fun shown => ((shown.drop offset).take limit).map
    fun entry => idOfKey entry.1
  intro state holds
  exact entries_under_congr (agree state holds)

theorem steady_list_ids_from_member
    (agree : ∀ state, Inv state → ∀ key, label ++ [colon] <+: key → state[key]? = store[key]?)
    (member : Bytes) (limit : Nat) :
    (listIdsFromMember label member limit).Steady rockHandle Inv store := by
  rw [list_ids_from_member_eq]
  apply steady_new_iterator fun shown => (shown.take limit).map fun entry => idOfKey entry.1
  intro state holds
  exact range_from_congr (agree state holds) member

theorem steady_unless_missing_option {centroidId : Bytes} {listing : RockProgram (List Bytes)}
    (steady : listing.Steady rockHandle Inv store)
    (same : ∀ state, Inv state →
      (getCentroidKey centroidId ∈ state ↔ getCentroidKey centroidId ∈ store)) :
    (unlessMissingOption centroidId listing).Steady rockHandle Inv store := by
  apply Program.steady_bind steady
  intro docs
  split
  · apply Program.steady_bind (steady_exists_key same)
    intro present
    split
    · trivial
    · trivial
  · trivial

theorem steady_load_document {F : Type} {serialization : Serialization F} {docId : Bytes}
    (same : ∀ state, Inv state → state[getDocumentKey docId]? = store[getDocumentKey docId]?) :
    (loadDocument serialization docId).Steady rockHandle Inv store := by
  apply Program.steady_bind (steady_get same)
  intro stored
  split
  · trivial
  · split
    · trivial
    · trivial

end Steady

section Reading

theorem handler_of_reads {call : RockCall} (reads : call.Reads) (now : Store) :
    (rockHandle call now).2 = now := by
  cases call with
  | put key value => exact False.elim reads
  | get key => rfl
  | existsKey key => rfl
  | del key => exact False.elim reads
  | newIterator => rfl

theorem guaranteed_of_reads {α : Type} {Inv : Store → Prop} {program : RockProgram α}
    (reads : program.Calls RockCall.Reads) :
    program.Guaranteed rockHandle Inv fun _ => True := by
  apply Program.guaranteed_of_calls _ reads
  intro call now isRead holds
  rw [handler_of_reads isRead]
  exact holds

end Reading

section Guaranteed

variable {Inv : Store → Prop} {label : Bytes} {Post : List Bytes → Prop}
  (listings : ∀ state, Inv state → ∀ ids, ids.Sublist (idsUnder state label) → Post ids)

include listings

theorem guaranteed_list_ids_from_offset (offset limit : Nat) :
    (listIdsFromOffset label offset limit).Guaranteed rockHandle Inv Post := by
  rw [list_ids_from_offset_eq]
  intro state holds
  refine ⟨holds, ?_⟩
  apply listings state holds
  change (((visited (label ++ [colon]) (label ++ [semicolon]) state.toList).drop offset).take
    limit).map (fun entry => idOfKey entry.1) |>.Sublist (idsUnder state label)
  rw [visited_to_list, idsUnder, keysUnder, List.map_map]
  exact ((List.take_sublist _ _).trans (List.drop_sublist _ _)).map _

omit listings in
theorem guaranteed_list_ids_from_any_member {member : Bytes} {limit : Nat}
    (shows : ∀ state, Inv state → Post (idsFrom state label member limit)) :
    (listIdsFromMember label member limit).Guaranteed rockHandle Inv Post := by
  rw [list_ids_from_member_eq]
  intro state holds
  refine ⟨holds, ?_⟩
  have shown := shows state holds
  rw [idsFrom, ← visited_to_list] at shown
  exact shown

theorem guaranteed_list_ids_from_member (member : Bytes) (limit : Nat) :
    (listIdsFromMember label member limit).Guaranteed rockHandle Inv Post :=
  guaranteed_list_ids_from_any_member fun state holds =>
    listings state holds _ (ids_from_sublist state label member limit)

omit listings in
theorem guaranteed_unless_missing_option {centroidId : Bytes} {listing : RockProgram (List Bytes)}
    (guaranteed : listing.Guaranteed rockHandle Inv Post) :
    (unlessMissingOption centroidId listing).Guaranteed rockHandle Inv
      fun answer => ∀ ids, answer = some ids → Post ids := by
  apply Program.guaranteed_bind guaranteed
  intro docs holds
  have answered : ∀ ids, some docs = some ids → Post ids := by
    intro ids same
    cases same
    exact holds
  split
  · intro state held
    refine ⟨held, ?_⟩
    change Program.Guaranteed rockHandle Inv _ (if state.contains (getCentroidKey centroidId) then
      (pure (some docs) : RockProgram (Option (List Bytes))) else pure none)
    split
    · exact answered
    · intro ids same
      cases same
  · exact answered

end Guaranteed

section Members

variable {store : Store} {centroidId : Bytes}

/-- The documents with a member record of the centroid, in the order of their keys. -/
def members (store : Store) (centroidId : Bytes) : List Bytes :=
  (keysUnder store (getCentroidDocumentPrefix centroidId)).map
    (·.drop ((getCentroidDocumentPrefix centroidId).length + 1))

def listedId (centroidId docId : Bytes) : Bytes := idOfKey (getCentroidDocumentKey centroidId docId)

theorem member_key_eq_join (centroidId docId : Bytes) :
    getCentroidDocumentKey centroidId docId =
      join colon (getCentroidDocumentPrefix centroidId) docId :=
  (LogicalRecord.member centroidId docId).store_key_eq_join

theorem keys_under_eq_members :
    keysUnder store (getCentroidDocumentPrefix centroidId) =
      (members store centroidId).map (getCentroidDocumentKey centroidId) := by
  rw [members, List.map_map]
  have fixed : ∀ key ∈ keysUnder store (getCentroidDocumentPrefix centroidId),
      (getCentroidDocumentKey centroidId ∘
        (·.drop ((getCentroidDocumentPrefix centroidId).length + 1))) key = id key := by
    intro key member
    obtain ⟨rest, rfl⟩ := ((mem_keys_under_iff store _ key).mp member).1
    rw [Function.comp_apply, member_key_eq_join]
    simp [join]
  rw [List.map_congr_left fixed, List.map_id]

theorem member_key_injective : Function.Injective (getCentroidDocumentKey centroidId) := by
  intro left right same
  exact List.append_cancel_left same

theorem mem_members_iff (docId : Bytes) :
    docId ∈ members store centroidId ↔ getCentroidDocumentKey centroidId docId ∈ store := by
  rw [← List.mem_map_of_injective member_key_injective, ← keys_under_eq_members, mem_keys_under_iff,
    member_key_eq_join]
  simp [join]

theorem members_nodup : (members store centroidId).Nodup := by
  apply List.Nodup.of_map (getCentroidDocumentKey centroidId)
  rw [← keys_under_eq_members]
  exact (keys_under_ascending store _).nodup

theorem ids_under_eq_members :
    idsUnder store (getCentroidDocumentPrefix centroidId) =
      (members store centroidId).map (listedId centroidId) := by
  rw [idsUnder, keys_under_eq_members, List.map_map]
  rfl

theorem colon_not_in_member_label (free : colon ∉ centroidId) :
    colon ∉ getCentroidDocumentPrefix centroidId :=
  (Scan.members centroidId).colon_not_in_label free

theorem listed_id_of_free (free : colon ∉ centroidId) (docId : Bytes) :
    listedId centroidId docId = docId := by
  rw [listedId, member_key_eq_join]
  exact id_of_join (colon_not_in_member_label free) docId

/-- An id with a colon is cut at the first one, and so are its member records. -/
theorem exists_cut {id : Bytes} (cut : colon ∈ id) :
    ∃ front back, colon ∉ front ∧ id = front ++ colon :: back := by
  obtain ⟨front, back, split, free⟩ := List.eq_append_cons_of_mem cut
  exact ⟨front, back, free, split⟩

theorem listed_id_of_cut {front back : Bytes} (free : colon ∉ front) (docId : Bytes) :
    listedId (front ++ colon :: back) docId = getCentroidDocumentKey back docId := by
  have shape : getCentroidDocumentKey (front ++ colon :: back) docId =
      join colon front (getCentroidDocumentKey back docId) := by
    simp [getCentroidDocumentKey, join]
  rw [listedId, shape]
  exact id_of_join free _

theorem listed_id_longer (cut : colon ∈ centroidId) (docId : Bytes) :
    docId.length < (listedId centroidId docId).length := by
  obtain ⟨front, back, free, rfl⟩ := exists_cut cut
  rw [listed_id_of_cut free, getCentroidDocumentKey, List.length_append, List.length_append]
  have labelled : 0 < (ascii "__documents:").length := by decide
  omega

theorem listed_id_injective : Function.Injective (listedId centroidId) := by
  intro left right same
  by_cases cut : colon ∈ centroidId
  · obtain ⟨front, back, free, rfl⟩ := exists_cut cut
    rw [listed_id_of_cut free, listed_id_of_cut free] at same
    exact member_key_injective same
  · rwa [listed_id_of_free cut, listed_id_of_free cut] at same

theorem ids_under_nodup : (idsUnder store (getCentroidDocumentPrefix centroidId)).Nodup := by
  rw [ids_under_eq_members]
  exact members_nodup.map listed_id_injective

theorem member_ending_ne_metadata_ending (left right : Bytes) :
    ascii "__documents:" ++ left ≠ ascii "__centroid_metadata:" ++ right := by
  intro same
  have beginnings := congrArg (List.take 3) same
  rw [List.take_append_of_le_length (by decide), List.take_append_of_le_length (by decide)]
    at beginnings
  exact absurd beginnings (by decide)

theorem document_key_ne_metadata_key (docId metaName : Bytes) :
    getDocumentKey (listedId centroidId docId) ≠ getCentroidMetadataKey centroidId metaName := by
  intro same
  by_cases cut : colon ∈ centroidId
  · obtain ⟨front, back, free, rfl⟩ := exists_cut cut
    rw [listed_id_of_cut free] at same
    have shape : getCentroidMetadataKey (front ++ colon :: back) metaName =
        join colon front (getCentroidMetadataKey back metaName) := by
      simp [getCentroidMetadataKey, join]
    have document : getDocumentKey (getCentroidDocumentKey back docId) =
        join colon getDocumentsPrefix (getCentroidDocumentKey back docId) :=
      (LogicalRecord.documentBody _).store_key_eq_join
    rw [shape, document] at same
    have ends := ((join_eq_join_iff colon (by decide) free _ _).mp same).2
    rw [getCentroidDocumentKey, getCentroidMetadataKey, List.append_assoc, List.append_assoc]
      at ends
    exact member_ending_ne_metadata_ending docId metaName (List.append_cancel_left ends)
  · have owners := (store_key_eq_iff (owned_document (listedId centroidId docId))
      (show (LogicalRecord.centroidMetadata centroidId metaName).Owned from
        unambiguous_of_colon_free cut)).mp same
    cases owners

theorem document_key_ne_centroid_key (docId id : Bytes) :
    getDocumentKey docId ≠ getCentroidKey id := by
  intro same
  cases (store_key_eq_iff (owned_document docId) (owned_centroid id)).mp same

theorem centroid_key_not_listed :
    ¬ getCentroidDocumentPrefix centroidId ++ [colon] <+: getCentroidKey centroidId := by
  intro begins
  have shorter := begins.length_le
  simp +arith [getCentroidDocumentPrefix, getCentroidKey, getCentroidsPrefix, ascii] at shorter

theorem metadata_key_not_listed (metaName : Bytes) :
    ¬ getCentroidDocumentPrefix centroidId ++ [colon] <+:
      getCentroidMetadataKey centroidId metaName := by
  rw [getCentroidDocumentPrefix, getCentroidMetadataKey, List.append_assoc, List.append_assoc,
    List.prefix_append_right_inj]
  intro begins
  obtain ⟨rest, same⟩ := begins
  exact member_ending_ne_metadata_ending rest metaName same

end Members

end SyncPersistence

end Relevanced.Persistence

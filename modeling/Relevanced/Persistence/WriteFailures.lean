import Relevanced.Persistence.Listings

/-!
# Writes that fail

A `put` that fails returns false, and `del` drops the status of its `Delete`; nothing that
calls them looks at what they return. Here every write that is issued may be lost, as an
assignment of outcomes says, and the requests that write are run on such a store.
-/

namespace Relevanced.Persistence

open Foundation
open Models

set_option autoImplicit false

/-- A store, how many writes have been issued to it, and how many of these have failed. -/
structure Unreliable where
  store : Store
  issued : Nat
  failed : Nat

namespace Unreliable

def start (store : Store) : Unreliable where
  store := store
  issued := 0
  failed := 0

/-- The next write either leaves the store it is to leave, or leaves it as it is. -/
def write (succeeds : Nat → Bool) (state : Unreliable) (written : Store) : Bool × Unreliable :=
  if succeeds state.issued then
    (true, { store := written, issued := state.issued + 1, failed := state.failed })
  else
    (false, { store := state.store, issued := state.issued + 1, failed := state.failed + 1 })

variable (succeeds : Nat → Bool) (state : Unreliable)

/-- `RockHandle` with these writes: `put` returns whether its status is ok, `del` returns true
whatever the status is. -/
def unreliableHandle : Program.Handler RockHandleIf Unreliable
  | .put key value, state => state.write succeeds (state.store.insert key value)
  | .get key, state => (state.store[key]?, state)
  | .existsKey key, state => (state.store.contains key, state)
  | .del key, state =>
      if state.store.contains key then (true, (state.write succeeds (state.store.erase key)).2)
      else (false, state)
  | .newIterator, state => (state.store.toList, state)

@[simp] theorem issued_write (written : Store) :
    (state.write succeeds written).2.issued = state.issued + 1 := by
  rw [write]
  split <;> rfl

/-- Nothing has failed exactly when all that was issued succeeds. -/
def Counted (state : Unreliable) : Prop :=
  state.failed = 0 ↔ ∀ index < state.issued, succeeds index = true

variable {succeeds state}

theorem counted_write (counted : Counted succeeds state) (written : Store) :
    Counted succeeds (state.write succeeds written).2 := by
  rw [write]
  split
  · rename_i succeeded
    constructor
    · intro none index below
      rcases Nat.lt_succ_iff_lt_or_eq.mp below with earlier | rfl
      · exact counted.mp none index earlier
      · exact succeeded
    · intro all
      exact counted.mpr fun index below => all index (Nat.lt_succ_of_lt below)
  · rename_i failed
    apply iff_of_false (Nat.succ_ne_zero state.failed)
    intro all
    exact failed (all state.issued (Nat.lt_succ_self _))

theorem counted_call (request : RockCall) (counted : Counted succeeds state) :
    Counted succeeds (unreliableHandle succeeds request state).2 := by
  cases request with
  | put key value => exact counted_write counted _
  | get key => exact counted
  | existsKey key => exact counted
  | del key =>
      rw [unreliableHandle]
      split
      · exact counted_write counted _
      · exact counted
  | newIterator => exact counted

theorem counted_run {α : Type} (program : RockProgram α) (store : Store) :
    Counted succeeds (program.run (unreliableHandle succeeds) (start store)).2 := by
  apply Program.run_preserves (unreliableHandle succeeds)
    (fun request _ counted => counted_call request counted)
  simp [Counted, start]

variable (succeeds state)

/-- The states `del` can leave: the key is gone, or nothing but the count has changed. -/
def afterDel (key : Bytes) : Unreliable := (state.write succeeds (state.store.erase key)).2

@[simp] theorem issued_after_del (key : Bytes) :
    (state.afterDel succeeds key).issued = state.issued + 1 := issued_write succeeds state _

theorem getElem?_after_del_of_ne {key erased : Bytes} (other : key ≠ erased) :
    (state.afterDel succeeds erased).store[key]? = state.store[key]? := by
  rw [afterDel, write]
  split
  · exact OrderedMap.getElem?_erase_of_ne other
  · rfl

theorem mem_after_del_of_ne {key erased : Bytes} (other : key ≠ erased) :
    key ∈ (state.afterDel succeeds erased).store ↔ key ∈ state.store := by
  rw [Std.ExtTreeMap.mem_iff_isSome_getElem?, Std.ExtTreeMap.mem_iff_isSome_getElem?,
    getElem?_after_del_of_ne succeeds state other]

@[simp] theorem run_put_unreliable (key value : Bytes) :
    (put key value).run (unreliableHandle succeeds) state =
      state.write succeeds (state.store.insert key value) := rfl

@[simp] theorem run_exists_key_unreliable (key : Bytes) :
    (existsKey key).run (unreliableHandle succeeds) state = (state.store.contains key, state) := rfl

theorem run_exists_key_of_mem {key : Bytes} (held : key ∈ state.store) :
    (existsKey key).run (unreliableHandle succeeds) state = (true, state) := by
  rw [run_exists_key_unreliable, Std.ExtTreeMap.contains_iff_mem.mpr held]

theorem run_exists_key_of_not_mem {key : Bytes} (absent : key ∉ state.store) :
    (existsKey key).run (unreliableHandle succeeds) state = (false, state) := by
  have missing : state.store.contains key = false :=
    Bool.eq_false_iff.mpr fun held => absent (Std.ExtTreeMap.contains_iff_mem.mp held)
  rw [run_exists_key_unreliable, missing]

theorem run_del_unreliable_of_mem {key : Bytes} (held : key ∈ state.store) :
    (del key).run (unreliableHandle succeeds) state = (true, state.afterDel succeeds key) := by
  rw [del, Program.run_perform]
  exact if_pos (Std.ExtTreeMap.contains_iff_mem.mpr held)

theorem run_del_unreliable_of_not_mem {key : Bytes} (absent : key ∉ state.store) :
    (del key).run (unreliableHandle succeeds) state = (false, state) := by
  rw [del, Program.run_perform]
  exact if_neg fun held => absent (Std.ExtTreeMap.contains_iff_mem.mp held)

theorem run_walk_erasing_unreliable (entries : List (Bytes × Bytes)) (foundAny : Bool)
    (distinct : (entries.map Prod.fst).Nodup)
    (held : ∀ key ∈ entries.map Prod.fst, key ∈ state.store) :
    ∃ after, (walk erasing entries foundAny ()).run (unreliableHandle succeeds) state =
        ((foundAny || !entries.isEmpty, ()), after) ∧
      after.issued = state.issued + entries.length ∧
      ∀ key, key ∉ entries.map Prod.fst → after.store[key]? = state.store[key]? := by
  induction entries generalizing foundAny state with
  | nil => exact ⟨state, by simp [walk], by simp, fun _ _ => rfl⟩
  | cons entry entries ih =>
      obtain ⟨fresh, restDistinct⟩ := List.nodup_cons.mp distinct
      have restHeld : ∀ key ∈ entries.map Prod.fst,
          key ∈ (state.afterDel succeeds entry.1).store := by
        intro key member
        have other : key ≠ entry.1 := fun same => fresh (same ▸ member)
        exact (mem_after_del_of_ne succeeds state other).mpr
          (held key (List.mem_cons_of_mem _ member))
      obtain ⟨after, walked, issued, frame⟩ :=
        ih (state.afterDel succeeds entry.1) true restDistinct restHeld
      refine ⟨after, ?_, ?_, ?_⟩
      · have deleted := run_del_unreliable_of_mem succeeds state
          (held entry.1 List.mem_cons_self)
        simp only [walk, erasing, Program.run_bind, deleted, Program.run_pure]
        simpa using walked
      · rw [issued, issued_after_del, List.length_cons]
        omega
      · intro key absent
        rw [List.map_cons, List.mem_cons, not_or] at absent
        rw [frame key absent.2, getElem?_after_del_of_ne succeeds state absent.1]

theorem run_erase_under_prefix_unreliable (label : Bytes) :
    ∃ after, (SyncPersistence.eraseUnderPrefix label).run (unreliableHandle succeeds) state =
        ((), after) ∧
      after.issued = state.issued + (keysUnder state.store label).length ∧
      ∀ key, ¬ label ++ [colon] <+: key → after.store[key]? = state.store[key]? := by
  have distinct : (keysUnder state.store label).Nodup :=
    (keys_under_ascending state.store label).nodup
  have held : ∀ key ∈ keysUnder state.store label, key ∈ state.store :=
    fun key member => ((mem_keys_under_iff state.store label key).mp member).2
  obtain ⟨after, walked, issued, frame⟩ := run_walk_erasing_unreliable succeeds state
    (entriesUnder state.store label) false distinct held
  refine ⟨after, ?_, ?_, ?_⟩
  · rw [SyncPersistence.eraseUnderPrefix, iterPrefix, iter_range_eq, newIterator, Program.run_bind,
      Program.run_bind, Program.run_perform]
    simp only [unreliableHandle, visited_to_list]
    rw [entriesUnder] at walked
    rw [walked]
    rfl
  · rw [issued, keysUnder, List.length_map]
  · intro key outside
    apply frame
    intro member
    exact outside ((mem_keys_under_iff state.store label key).mp member).1

end Unreliable

section Keys

theorem member_key_ne_back_link_key (centroidId documentId : Bytes) :
    getCentroidDocumentKey centroidId documentId ≠
      getDocumentCentroidKey documentId centroidId := by
  intro same
  have letters := congrArg (List.count (117 : Byte)) same
  have inMember : (ascii "__documents:").count (117 : Byte) = 1 := by decide
  have inBackLink : (ascii "__centroids:").count (117 : Byte) = 0 := by decide
  rw [getCentroidDocumentKey, getDocumentCentroidKey] at letters
  simp only [List.count_append, inMember, inBackLink] at letters
  omega

theorem not_under_of_short {label key : Bytes} (short : key.length ≤ label.length) :
    ¬ label ++ [colon] <+: key := by
  intro begins
  have longer := begins.length_le
  rw [List.length_append, List.length_singleton] at longer
  omega

theorem not_under_both {owner left right key : Bytes}
    (apart : ¬ left ++ [colon] <+: right ++ [colon])
    (shorter : left.length ≤ right.length) (underLeft : owner ++ left ++ [colon] <+: key) :
    ¬ owner ++ right ++ [colon] <+: key := by
  intro underRight
  apply apart
  rw [List.append_assoc] at underLeft underRight
  apply (List.prefix_append_right_inj owner).mp
  apply List.prefix_of_prefix_length_le underLeft underRight
  simp only [List.length_append, List.length_singleton]
  omega

end Keys

namespace SyncPersistence

/-- The requests that write to the store. -/
inductive WriteRequest (F : Type) where
  | saveDocument (doc : ProcessedDocument F)
  | saveNewDocument (doc : ProcessedDocument F)
  | createNewCentroid (id : Bytes)
  | saveCentroid (id : Bytes) (centroid : Centroid F)
  | addDocumentToCentroid (centroidId documentId : Bytes)
  | removeDocumentFromCentroid (centroidId documentId : Bytes)
  | deleteDocument (id : Bytes)
  | deleteCentroid (id : Bytes)
  | setCentroidMetadata (centroidId metadataName value : Bytes)

namespace WriteRequest

variable {F : Type}

def method [Zero F] [One F] (serialization : Serialization F) :
    WriteRequest F → RockProgram (Try Bool)
  | saveDocument doc => SyncPersistence.saveDocument serialization doc
  | saveNewDocument doc => SyncPersistence.saveNewDocument serialization doc
  | createNewCentroid id => SyncPersistence.createNewCentroid serialization id
  | saveCentroid id centroid => SyncPersistence.saveCentroid serialization id centroid
  | addDocumentToCentroid centroidId documentId =>
      SyncPersistence.addDocumentToCentroid centroidId documentId
  | removeDocumentFromCentroid centroidId documentId =>
      SyncPersistence.removeDocumentFromCentroid centroidId documentId
  | deleteDocument id => SyncPersistence.deleteDocument id
  | deleteCentroid id => SyncPersistence.deleteCentroid id
  | setCentroidMetadata centroidId metadataName value =>
      SyncPersistence.setCentroidMetadata centroidId metadataName value

/-- How many writes a request comes to on a store; none when it is rejected. -/
def writes (store : Store) : WriteRequest F → Nat
  | saveDocument _ => 2
  | saveNewDocument doc => if getDocumentKey doc.id ∈ store then 0 else 2
  | createNewCentroid id => if getCentroidKey id ∈ store then 0 else 1
  | saveCentroid _ _ => 1
  | addDocumentToCentroid centroidId documentId =>
      if getCentroidKey centroidId ∈ store ∧ getDocumentKey documentId ∈ store ∧
          getCentroidDocumentKey centroidId documentId ∉ store then 2
      else 0
  | removeDocumentFromCentroid centroidId documentId =>
      if getCentroidKey centroidId ∈ store ∧ getDocumentKey documentId ∈ store ∧
          getCentroidDocumentKey centroidId documentId ∈ store then
        if getDocumentCentroidKey documentId centroidId ∈ store then 2 else 1
      else 0
  | deleteDocument id =>
      if getDocumentKey id ∈ store then
        1 + (keysUnder store (getDocumentCentroidsPrefix id)).length +
          (keysUnder store (documentMetadataPrefix id)).length
      else 0
  | deleteCentroid id =>
      if getCentroidKey id ∈ store then
        1 + (keysUnder store (getCentroidDocumentPrefix id)).length +
          (keysUnder store (centroidMetadataPrefix id)).length
      else 0
  | setCentroidMetadata _ _ _ => 1

end WriteRequest

open Unreliable

/-- An acknowledged request has issued so many writes; a rejected one counts for none. -/
def Issues (result : Try Bool × Unreliable) (expected : Nat) : Prop :=
  match result.1 with
  | .ok _ => result.2.issued = expected
  | .error _ => expected = 0

section Requests

variable {F : Type} (serialization : Serialization F) (succeeds : Nat → Bool) (store : Store)

theorem run_save_document_unreliable (state : Unreliable) (doc : ProcessedDocument F) :
    ∃ after, (saveDocument serialization doc).run (unreliableHandle succeeds) state =
        (.ok true, after) ∧ after.issued = state.issued + 2 := by
  refine ⟨_, rfl, ?_⟩
  exact (issued_write succeeds _ _).trans (congrArg (· + 1) (issued_write succeeds _ _))

theorem run_erase_both_unreliable (state : Unreliable) {mainKey first second : Bytes}
    (notFirst : ¬ first ++ [colon] <+: mainKey) (notSecond : ¬ second ++ [colon] <+: mainKey)
    (apart : ∀ key, first ++ [colon] <+: key → ¬ second ++ [colon] <+: key) :
    ∃ after, ((eraseUnderPrefix first >>= fun _ => eraseUnderPrefix second).run
        (unreliableHandle succeeds) (state.afterDel succeeds mainKey)) = ((), after) ∧
      after.issued = state.issued + 1 + (keysUnder state.store first).length +
        (keysUnder state.store second).length := by
  obtain ⟨middle, ranFirst, issuedFirst, frameFirst⟩ :=
    run_erase_under_prefix_unreliable succeeds (state.afterDel succeeds mainKey) first
  obtain ⟨after, ranSecond, issuedSecond, _⟩ :=
    run_erase_under_prefix_unreliable succeeds middle second
  have sameFirst : keysUnder (state.afterDel succeeds mainKey).store first =
      keysUnder state.store first := by
    apply congrArg (List.map Prod.fst)
    apply entries_under_congr
    intro key under
    apply getElem?_after_del_of_ne
    rintro rfl
    exact notFirst under
  have sameSecond : keysUnder middle.store second = keysUnder state.store second := by
    apply congrArg (List.map Prod.fst)
    apply entries_under_congr
    intro key under
    rw [frameFirst key fun underFirst => apart key underFirst under]
    apply getElem?_after_del_of_ne
    rintro rfl
    exact notSecond under
  refine ⟨after, ?_, ?_⟩
  · rw [Program.run_bind, ranFirst]
    exact ranSecond
  · rw [issuedSecond, issuedFirst, issued_after_del, sameFirst, sameSecond]

/-- The answer a request gives on a reliable store, and its writes counted. -/
structure Unnoticed [Zero F] [One F] (request : WriteRequest F) (result : Try Bool × Unreliable) :
    Prop where
  answer : result.1 = ((request.method serialization).run rockHandle store).1
  issues : Issues result (request.writes store)

variable {serialization succeeds store} [Zero F] [One F] {request : WriteRequest F}
  {result : Try Bool × Unreliable}

theorem unnoticed_of_ok {after : Unreliable} (ran : result = (.ok true, after))
    (reliable : ((request.method serialization).run rockHandle store).1 = .ok true)
    (issued : after.issued = request.writes store) :
    Unnoticed serialization store request result := by
  subst ran
  exact ⟨reliable.symm, issued⟩

theorem unnoticed_of_error {after : Unreliable} {rejection : ProtocolException}
    (ran : result = (.error rejection, after))
    (reliable : ((request.method serialization).run rockHandle store).1 = .error rejection)
    (none : request.writes store = 0) : Unnoticed serialization store request result := by
  subst ran
  exact ⟨reliable.symm, none⟩

variable (serialization succeeds store)

/-- Both deletes: the record itself, then what is under two labels. -/
def deletion (mainKey first second : Bytes) (missing : ProtocolException) :
    RockProgram (Try Bool) := do
  if ← del mainKey then
    eraseUnderPrefix first
    eraseUnderPrefix second
    pure (.ok true)
  else pure (.error missing)

theorem run_deletion_of_mem {mainKey first second : Bytes} (missing : ProtocolException)
    (notFirst : mainKey.length ≤ first.length) (notSecond : mainKey.length ≤ second.length)
    (apart : ∀ key, first ++ [colon] <+: key → ¬ second ++ [colon] <+: key)
    (held : mainKey ∈ store) :
    ∃ after, (deletion mainKey first second missing).run (unreliableHandle succeeds) (start store) =
        (.ok true, after) ∧
      after.issued = 1 + (keysUnder store first).length + (keysUnder store second).length := by
  obtain ⟨after, ran, issued⟩ := run_erase_both_unreliable succeeds (start store)
    (not_under_of_short notFirst) (not_under_of_short notSecond) apart
  refine ⟨after, ?_, ?_⟩
  · rw [deletion, Program.run_bind, run_del_unreliable_of_mem succeeds (start store) held]
    simp only [if_true]
    rw [← bind_assoc, Program.run_bind, ran]
    rfl
  · rw [issued, start, Nat.zero_add]

theorem run_deletion_of_not_mem {mainKey : Bytes} (first second : Bytes)
    (missing : ProtocolException) (absent : mainKey ∉ store) :
    (deletion mainKey first second missing).run (unreliableHandle succeeds) (start store) =
      (.error missing, start store) := by
  rw [deletion, Program.run_bind, run_del_unreliable_of_not_mem succeeds (start store) absent]
  rfl

/-- What both deletes come to, the record's key being under neither label and the labels apart. -/
theorem deletion_unnoticed (request : WriteRequest F) {mainKey first second : Bytes}
    {missing : ProtocolException}
    (method : request.method serialization = deletion mainKey first second missing)
    (reliable : ((request.method serialization).run rockHandle store).1 =
      if mainKey ∈ store then .ok true else .error missing)
    (writes : request.writes store =
      if mainKey ∈ store then
        1 + (keysUnder store first).length + (keysUnder store second).length
      else 0)
    (notFirst : mainKey.length ≤ first.length) (notSecond : mainKey.length ≤ second.length)
    (apart : ∀ key, first ++ [colon] <+: key → ¬ second ++ [colon] <+: key) :
    Unnoticed serialization store request
      ((request.method serialization).run (unreliableHandle succeeds) (start store)) := by
  by_cases held : mainKey ∈ store
  · obtain ⟨after, ran, issued⟩ :=
      run_deletion_of_mem succeeds store missing notFirst notSecond apart held
    rw [if_pos held] at reliable writes
    rw [← method] at ran
    exact unnoticed_of_ok ran reliable (issued.trans writes.symm)
  · have ran := run_deletion_of_not_mem succeeds store first second missing held
    rw [if_neg held] at reliable writes
    rw [← method] at ran
    exact unnoticed_of_error ran reliable writes

theorem delete_document_unnoticed (id : Bytes) :
    Unnoticed serialization store (.deleteDocument id)
      ((deleteDocument id).run (unreliableHandle succeeds) (start store)) := by
  apply deletion_unnoticed serialization succeeds store (.deleteDocument id) rfl
    ((congrArg Prod.fst (run_delete_document store id)).trans (apply_ite Prod.fst _ _ _)) rfl
  · simp +arith [getDocumentKey, getDocumentsPrefix, getDocumentCentroidsPrefix, ascii]
  · simp +arith [getDocumentKey, getDocumentsPrefix, documentMetadataPrefix, ascii]
  · exact fun key => @not_under_both id (ascii "__centroids") (ascii "__document_metadata") key
      (by decide) (by decide)

theorem delete_centroid_unnoticed (id : Bytes) :
    Unnoticed serialization store (.deleteCentroid id)
      ((deleteCentroid id).run (unreliableHandle succeeds) (start store)) := by
  apply deletion_unnoticed serialization succeeds store (.deleteCentroid id) rfl
    ((congrArg Prod.fst (run_delete_centroid store id)).trans (apply_ite Prod.fst _ _ _)) rfl
  · simp +arith [getCentroidKey, getCentroidsPrefix, getCentroidDocumentPrefix, ascii]
  · simp +arith [getCentroidKey, getCentroidsPrefix, centroidMetadataPrefix, ascii]
  · exact fun key => @not_under_both id (ascii "__documents") (ascii "__centroid_metadata") key
      (by decide) (by decide)

theorem save_new_document_unnoticed (doc : ProcessedDocument F) :
    Unnoticed serialization store (.saveNewDocument doc)
      ((saveNewDocument serialization doc).run (unreliableHandle succeeds) (start store)) := by
  have reliable := congrArg Prod.fst (run_save_new_document store serialization doc)
  rw [saveNewDocument, doesDocumentExist, Program.run_bind]
  by_cases held : getDocumentKey doc.id ∈ store
  · rw [if_pos held] at reliable
    rw [run_exists_key_of_mem succeeds (start store) held]
    exact unnoticed_of_error rfl reliable (if_pos held)
  · obtain ⟨after, ran, issued⟩ :=
      run_save_document_unreliable serialization succeeds (start store) doc
    rw [if_neg held] at reliable
    rw [run_exists_key_of_not_mem succeeds (start store) held]
    refine unnoticed_of_ok ran reliable ?_
    rw [issued, WriteRequest.writes, if_neg held, start]

theorem create_new_centroid_unnoticed (id : Bytes) :
    Unnoticed serialization store (.createNewCentroid id)
      ((createNewCentroid serialization id).run (unreliableHandle succeeds) (start store)) := by
  have reliable := congrArg Prod.fst (run_create_new_centroid store serialization id)
  rw [createNewCentroid, Program.run_bind]
  by_cases held : getCentroidKey id ∈ store
  · rw [if_pos held] at reliable
    rw [run_exists_key_of_mem succeeds (start store) held]
    exact unnoticed_of_error rfl reliable (if_pos held)
  · rw [if_neg held] at reliable
    rw [run_exists_key_of_not_mem succeeds (start store) held]
    refine unnoticed_of_ok rfl reliable ?_
    rw [WriteRequest.writes, if_neg held]
    exact issued_write succeeds (start store) _

theorem add_document_unnoticed (centroidId documentId : Bytes) :
    Unnoticed serialization store (.addDocumentToCentroid centroidId documentId)
      ((addDocumentToCentroid centroidId documentId).run (unreliableHandle succeeds)
        (start store)) := by
  have reliable := congrArg Prod.fst (run_add_document_to_centroid store centroidId documentId)
  rw [addDocumentToCentroid, doesCentroidExist, doesDocumentExist, Program.run_bind]
  by_cases existing : getCentroidKey centroidId ∈ store
  · rw [run_exists_key_of_mem succeeds (start store) existing]
    rw [if_pos existing] at reliable
    simp only [if_true]
    rw [Program.run_bind]
    by_cases stored : getDocumentKey documentId ∈ store
    · rw [run_exists_key_of_mem succeeds (start store) stored]
      rw [if_pos stored] at reliable
      simp only [if_true]
      rw [Program.run_bind]
      by_cases listed : getCentroidDocumentKey centroidId documentId ∈ store
      · rw [run_exists_key_of_mem succeeds (start store) listed]
        rw [if_pos listed] at reliable
        exact unnoticed_of_error rfl reliable (if_neg fun fresh => fresh.2.2 listed)
      · rw [run_exists_key_of_not_mem succeeds (start store) listed]
        rw [if_neg listed] at reliable
        refine unnoticed_of_ok rfl reliable ?_
        rw [WriteRequest.writes, if_pos ⟨existing, stored, listed⟩]
        exact (issued_write succeeds _ _).trans (congrArg (· + 1) (issued_write succeeds _ _))
    · rw [run_exists_key_of_not_mem succeeds (start store) stored]
      rw [if_neg stored] at reliable
      exact unnoticed_of_error rfl reliable (if_neg fun both => stored both.2.1)
  · rw [run_exists_key_of_not_mem succeeds (start store) existing]
    rw [if_neg existing] at reliable
    exact unnoticed_of_error rfl reliable (if_neg fun both => existing both.1)

theorem run_del_back_link_unreliable (centroidId documentId : Bytes) :
    ∃ found after, (del (getDocumentCentroidKey documentId centroidId)).run
        (unreliableHandle succeeds) (start store) = (found, after) ∧
      (getCentroidDocumentKey centroidId documentId ∈ after.store ↔
        getCentroidDocumentKey centroidId documentId ∈ store) ∧
      after.issued = if getDocumentCentroidKey documentId centroidId ∈ store then 1 else 0 := by
  by_cases linked : getDocumentCentroidKey documentId centroidId ∈ store
  · refine ⟨_, _, run_del_unreliable_of_mem succeeds (start store) linked, ?_, ?_⟩
    · exact mem_after_del_of_ne succeeds (start store)
        (member_key_ne_back_link_key centroidId documentId)
    · rw [issued_after_del, if_pos linked, start]
  · refine ⟨_, _, run_del_unreliable_of_not_mem succeeds (start store) linked, Iff.rfl, ?_⟩
    rw [if_neg linked, start]

theorem remove_document_unnoticed (centroidId documentId : Bytes) :
    Unnoticed serialization store (.removeDocumentFromCentroid centroidId documentId)
      ((removeDocumentFromCentroid centroidId documentId).run (unreliableHandle succeeds)
        (start store)) := by
  have reliable := congrArg Prod.fst (run_remove_document_from_centroid store centroidId documentId)
  have untouched :
      getCentroidDocumentKey centroidId documentId ∈ unlinked store centroidId documentId ↔
        getCentroidDocumentKey centroidId documentId ∈ store := by
    rw [unlinked, OrderedMap.mem_erase_iff]
    exact and_iff_right (member_key_ne_back_link_key centroidId documentId)
  rw [removeDocumentFromCentroid, doesCentroidExist, doesDocumentExist, Program.run_bind]
  by_cases existing : getCentroidKey centroidId ∈ store
  · rw [run_exists_key_of_mem succeeds (start store) existing]
    rw [if_pos existing] at reliable
    simp only [if_true]
    rw [Program.run_bind]
    by_cases stored : getDocumentKey documentId ∈ store
    · obtain ⟨found, after, ran, listing, issued⟩ :=
        run_del_back_link_unreliable succeeds store centroidId documentId
      rw [run_exists_key_of_mem succeeds (start store) stored]
      rw [if_pos stored] at reliable
      simp only [if_true]
      rw [Program.run_bind, ran, Program.run_bind]
      by_cases listed : getCentroidDocumentKey centroidId documentId ∈ store
      · rw [run_del_unreliable_of_mem succeeds after (listing.mpr listed)]
        rw [if_pos (untouched.mpr listed)] at reliable
        refine unnoticed_of_ok rfl reliable ?_
        rw [WriteRequest.writes, if_pos ⟨existing, stored, listed⟩]
        change (after.afterDel succeeds _).issued = _
        rw [issued_after_del, issued]
        split <;> rfl
      · rw [run_del_unreliable_of_not_mem succeeds after fun held => listed (listing.mp held)]
        rw [if_neg fun held => listed (untouched.mp held)] at reliable
        exact unnoticed_of_error rfl reliable (if_neg fun all => listed all.2.2)
    · rw [run_exists_key_of_not_mem succeeds (start store) stored]
      rw [if_neg stored] at reliable
      exact unnoticed_of_error rfl reliable (if_neg fun both => stored both.2.1)
  · rw [run_exists_key_of_not_mem succeeds (start store) existing]
    rw [if_neg existing] at reliable
    exact unnoticed_of_error rfl reliable (if_neg fun both => existing both.1)

theorem request_unnoticed (request : WriteRequest F) :
    Unnoticed serialization store request
      ((request.method serialization).run (unreliableHandle succeeds) (start store)) := by
  cases request with
  | saveDocument doc =>
      obtain ⟨after, ran, issued⟩ :=
        run_save_document_unreliable serialization succeeds (start store) doc
      exact unnoticed_of_ok ran rfl issued
  | saveNewDocument doc => exact save_new_document_unnoticed serialization succeeds store doc
  | createNewCentroid id => exact create_new_centroid_unnoticed serialization succeeds store id
  | saveCentroid id centroid =>
      exact unnoticed_of_ok rfl rfl (issued_write succeeds (start store) _)
  | addDocumentToCentroid centroidId documentId =>
      exact add_document_unnoticed serialization succeeds store centroidId documentId
  | removeDocumentFromCentroid centroidId documentId =>
      exact remove_document_unnoticed serialization succeeds store centroidId documentId
  | deleteDocument id => exact delete_document_unnoticed serialization succeeds store id
  | deleteCentroid id => exact delete_centroid_unnoticed serialization succeeds store id
  | setCentroidMetadata centroidId metadataName value =>
      exact unnoticed_of_ok rfl rfl (issued_write succeeds (start store) _)

end Requests

/-- A request whose answer is not an exception has lost none of its writes. -/
def Written {F : Type} [Zero F] [One F] (serialization : Serialization F) (succeeds : Nat → Bool)
    (store : Store) (request : WriteRequest F) : Prop :=
  ∀ value,
    ((request.method serialization).run (unreliableHandle succeeds) (start store)).1 = .ok value →
    ((request.method serialization).run (unreliableHandle succeeds) (start store)).2.failed = 0

/-- No failure is ever reported, so success means written exactly when every write of the request
succeeds. -/
theorem success_means_written_iff {F : Type} [Zero F] [One F] (serialization : Serialization F)
    (succeeds : Nat → Bool) (store : Store) (request : WriteRequest F) :
    ((request.method serialization).run (unreliableHandle succeeds) (start store)).1 =
        ((request.method serialization).run rockHandle store).1 ∧
      (Written serialization succeeds store request ↔
        ∀ index < request.writes store, succeeds index = true) := by
  obtain ⟨answer, issues⟩ := request_unnoticed serialization succeeds store request
  have counted := @counted_run succeeds _ (request.method serialization) store
  refine ⟨answer, ?_⟩
  rw [Written]
  generalize (request.method serialization).run (unreliableHandle succeeds) (start store) = result
    at issues counted ⊢
  obtain ⟨answered, after⟩ := result
  cases answered with
  | error rejection =>
      have none : request.writes store = 0 := issues
      simp [none]
  | ok value =>
      have issued : after.issued = request.writes store := issues
      rw [← issued]
      exact ⟨fun written => counted.mp (written value rfl), fun all _ _ => counted.mpr all⟩

/-- A new document of which neither record is stored is acknowledged. -/
theorem lost_document_acknowledged :
    ¬ ∀ (store : Store) (succeeds : Nat → Bool) (request : WriteRequest Int),
      Written .idsOnly succeeds store request := by
  intro claim
  have written := claim ∅ (fun _ => false) (.saveNewDocument (.bare (ascii "d"))) true rfl
  exact absurd written (by decide)

end SyncPersistence

end Relevanced.Persistence

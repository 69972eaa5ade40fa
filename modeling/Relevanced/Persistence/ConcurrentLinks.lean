import Relevanced.Persistence.Persistence

/-!
# Adding and removing at the same time

`addDocumentToCentroid` writes the member key and then the back-link;
`removeDocumentFromCentroid` deletes the back-link and then the member key. The two
directions stay together as long as neither begins to write a pair while the other
stands between its two writes of the same pair.
-/

namespace Relevanced.Persistence

open Foundation
open Models
open LogicalRecord

set_option autoImplicit false

variable {F α : Type}

/-- Either direction of a membership is in the store exactly when the other one is. -/
def LinksAgree (store : Store) : Prop :=
  ∀ c d, Holds store (member c d) ↔ Holds store (backLink d c)

def PersistenceCall.adds : PersistenceCall F → Option (Bytes × Bytes)
  | addDocumentToCentroid centroidId docId => some (centroidId, docId)
  | _ => none

def PersistenceCall.removes : PersistenceCall F → Option (Bytes × Bytes)
  | removeDocumentFromCentroid centroidId docId => some (centroidId, docId)
  | _ => none

/-- The only requests are additions to and removals from centroids. -/
def LinksOnly : PersistenceAction F → Prop
  | .issue request => request.adds.isSome ∨ request.removes.isSome
  | _ => True

instance : ∀ action : PersistenceAction F, Decidable (LinksOnly action)
  | .issue request => inferInstanceAs (Decidable (request.adds.isSome ∨ request.removes.isSome))
  | .task _ | .client _ => isTrue trivial

def putMember (c d : Bytes) : RockCall :=
  .put (getCentroidDocumentKey c d) SyncPersistence.memberValue

def putBackLink (c d : Bytes) : RockCall :=
  .put (getDocumentCentroidKey d c) SyncPersistence.memberValue

def delBackLink (c d : Bytes) : RockCall := .del (getDocumentCentroidKey d c)

def delMember (c d : Bytes) : RockCall := .del (getCentroidDocumentKey c d)

def Adding (c d : Bytes) (task : PersistenceTask F) : Prop :=
  task.request.adds = some (c, d) ∧ task.next = some (putBackLink c d)

/-- The task has deleted the back-link, and the member key is next. -/
def Removing (c d : Bytes) (task : PersistenceTask F) : Prop :=
  task.request.removes = some (c, d) ∧ task.next = some (delMember c d)

instance (c d : Bytes) (task : PersistenceTask F) : Decidable (Adding c d task) :=
  inferInstanceAs (Decidable (_ ∧ _))

instance (c d : Bytes) (task : PersistenceTask F) : Decidable (Removing c d task) :=
  inferInstanceAs (Decidable (_ ∧ _))

/-- A task that begins to write a pair finds no opposite task between its writes of the pair, and
the pair is `Plain`. -/
def WritesInTurn (Plain : Bytes × Bytes → Prop) (pool : ThreadPool F α) :
    PersistenceAction F → Prop
  | .task index => ∀ task ∈ pool.tasks[index]?,
      (∀ pair ∈ task.request.adds, task.next = some (putMember pair.1 pair.2) →
        Plain pair ∧ ∀ other ∈ pool.tasks, ¬ Removing pair.1 pair.2 other) ∧
      (∀ pair ∈ task.request.removes, task.next = some (delBackLink pair.1 pair.2) →
        Plain pair ∧ ∀ other ∈ pool.tasks, ¬ Adding pair.1 pair.2 other)
  | _ => True

instance (Plain : Bytes × Bytes → Prop) [DecidablePred Plain] (pool : ThreadPool F α) :
    ∀ action : PersistenceAction F, Decidable (WritesInTurn Plain pool action)
  | .task index => inferInstanceAs (Decidable (∀ task ∈ pool.tasks[index]?,
      (∀ pair ∈ task.request.adds, task.next = some (putMember pair.1 pair.2) →
        Plain pair ∧ ∀ other ∈ pool.tasks, ¬ Removing pair.1 pair.2 other) ∧
      (∀ pair ∈ task.request.removes, task.next = some (delBackLink pair.1 pair.2) →
        Plain pair ∧ ∀ other ∈ pool.tasks, ¬ Adding pair.1 pair.2 other)))
  | .issue _ | .client _ => isTrue trivial

def LogicalRecord.IsLink : LogicalRecord → Prop
  | member _ _ => True
  | backLink _ _ => True
  | _ => False

theorem member_is_link (c d : Bytes) : (member c d).IsLink := trivial

theorem back_link_is_link (d c : Bytes) : (backLink d c).IsLink := trivial

/-- No other member key or back-link is stored under either key of the pair. -/
def Unshared (pair : Bytes × Bytes) : Prop :=
  ∀ record : LogicalRecord, record.IsLink →
    (record.storeKey = getCentroidDocumentKey pair.1 pair.2 → record = member pair.1 pair.2) ∧
    (record.storeKey = getDocumentCentroidKey pair.2 pair.1 → record = backLink pair.2 pair.1)

def ColonFreePair (pair : Bytes × Bytes) : Prop := colon ∉ pair.1 ∧ colon ∉ pair.2

instance : DecidablePred ColonFreePair := fun _ => inferInstanceAs (Decidable (_ ∧ _))

theorem owned_of_one_colon {record : LogicalRecord} (one : record.storeKey.count colon = 1) :
    record.Owned := by
  apply unambiguous_of_colon_free
  rw [record.store_key_eq_join, join, Scan.label_eq] at one
  rw [← List.count_eq_zero]
  simp only [List.count_append, List.count_cons_self] at one
  omega

theorem unshared_of_colon_free {pair : Bytes × Bytes} (free : ColonFreePair pair) :
    Unshared pair := by
  obtain ⟨c, d⟩ := pair
  have inCentroid : c.count colon = 0 := List.count_eq_zero.mpr free.1
  have inDocument : d.count colon = 0 := List.count_eq_zero.mpr free.2
  intro record _
  constructor
  · intro same
    have one : record.storeKey.count colon = 1 := by
      rw [same, getCentroidDocumentKey, List.count_append, List.count_append, inCentroid,
        inDocument]
      decide
    exact (store_key_eq_iff (owned_of_one_colon one) (owned_member free.1 d)).mp same
  · intro same
    have one : record.storeKey.count colon = 1 := by
      rw [same, getDocumentCentroidKey, List.count_append, List.count_append, inCentroid,
        inDocument]
      decide
    exact (store_key_eq_iff (owned_of_one_colon one) (owned_back_link free.2 c)).mp same

section Writes

variable {store : Store} {pair : Bytes × Bytes} {record : LogicalRecord}

theorem holds_put_member_iff (unshared : Unshared pair) (link : record.IsLink) :
    Holds (rockHandle (putMember pair.1 pair.2) store).2 record ↔
      record = member pair.1 pair.2 ∨ Holds store record := by
  change record.storeKey ∈ store.insert _ _ ↔ _
  rw [OrderedMap.mem_insert_iff]
  apply or_congr_left
  constructor
  · exact (unshared record link).1
  · rintro rfl
    rfl

theorem holds_put_back_link_iff (unshared : Unshared pair) (link : record.IsLink) :
    Holds (rockHandle (putBackLink pair.1 pair.2) store).2 record ↔
      record = backLink pair.2 pair.1 ∨ Holds store record := by
  change record.storeKey ∈ store.insert _ _ ↔ _
  rw [OrderedMap.mem_insert_iff]
  apply or_congr_left
  constructor
  · exact (unshared record link).2
  · rintro rfl
    rfl

theorem holds_del_member_iff (unshared : Unshared pair) (link : record.IsLink) :
    Holds (rockHandle (delMember pair.1 pair.2) store).2 record ↔
      record ≠ member pair.1 pair.2 ∧ Holds store record := by
  rw [delMember, store_after_del, Holds, OrderedMap.mem_erase_iff]
  apply and_congr_left'
  apply not_congr
  constructor
  · exact (unshared record link).1
  · rintro rfl
    rfl

theorem holds_del_back_link_iff (unshared : Unshared pair) (link : record.IsLink) :
    Holds (rockHandle (delBackLink pair.1 pair.2) store).2 record ↔
      record ≠ backLink pair.2 pair.1 ∧ Holds store record := by
  rw [delBackLink, store_after_del, Holds, OrderedMap.mem_erase_iff]
  apply and_congr_left'
  apply not_congr
  constructor
  · exact (unshared record link).2
  · rintro rfl
    rfl

end Writes

section Stages

variable {first second : RockCall} {Settled : Prop}

/-- What remains looks keys up, and comes to an end or to the first of two writes. -/
inductive Approaching (first second : RockCall) : RockProgram (Try Bool) → Prop where
  | ended (answer : Try Bool) : Approaching first second (.done answer)
  | looking (key : Bytes) (next : Bool → RockProgram (Try Bool))
      (approaches : ∀ answer, Approaching first second (next answer)) :
      Approaching first second (.call (.existsKey key) next)
  | writing (next : RockHandleIf.Answer first → RockProgram (Try Bool))
      (after : RockHandleIf.Answer first → RockHandleIf.Answer second → RockProgram (Try Bool))
      (goesOn : ∀ answer, next answer = .call second (after answer))
      (ends : ∀ answer last, ∃ value, after answer last = .done value) :
      Approaching first second (.call first next)

/-- A task has both of its writes before it, or one of a pair that is `Settled`, or none. -/
inductive LinkStage (first second : RockCall) (Settled : Prop) :
    RockProgram (Try Bool) → Prop where
  | approaching (program : RockProgram (Try Bool)) (approaches : Approaching first second program) :
      LinkStage first second Settled program
  | halfway (settled : Settled) (next : RockHandleIf.Answer second → RockProgram (Try Bool))
      (ends : ∀ answer, ∃ value, next answer = .done value) :
      LinkStage first second Settled (.call second next)

inductive LinkCalled (first second : RockCall) (Settled : Prop) (call : RockCall)
    (remainder : RockProgram (Try Bool)) : Prop where
  | looked (key : Bytes) (isLook : call = .existsKey key)
      (approaches : Approaching first second remainder)
  | wrote (isFirst : call = first) (isNext : remainder.nextCall = some second)
      (stage : Settled → LinkStage first second Settled remainder)
  | finished (isSecond : call = second) (settled : Settled) (isDone : remainder.nextCall = none)
      (approaches : Approaching first second remainder)

theorem LinkStage.called {call : RockCall}
    {next : RockHandleIf.Answer call → RockProgram (Try Bool)}
    (stage : LinkStage first second Settled (.call call next)) (answer : RockHandleIf.Answer call) :
    LinkCalled first second Settled call (next answer) := by
  cases stage with
  | approaching _ approaches =>
      cases approaches with
      | looking key _ approaches => exact .looked key rfl (approaches answer)
      | writing _ after goesOn ends =>
          rw [goesOn answer]
          exact .wrote rfl rfl fun settled => .halfway settled _ (ends answer)
  | halfway settled _ ends =>
      obtain ⟨value, isDone⟩ := ends answer
      rw [isDone]
      exact .finished rfl settled rfl (.ended value)

theorem Approaching.next_ne {program : RockProgram (Try Bool)}
    (approaches : Approaching first second program) (different : first ≠ second)
    (isWrite : ¬ second.Reads) : program.nextCall ≠ some second := by
  intro isNext
  cases approaches with
  | ended answer => cases isNext
  | looking key next _ =>
      cases isNext
      exact isWrite trivial
  | writing next _ _ _ => exact different (Option.some.inj isNext)

end Stages

def Linking : PersistenceTask F → Prop
  | ⟨.addDocumentToCentroid c d, _, program⟩ =>
      LinkStage (putMember c d) (putBackLink c d) (Unshared (c, d)) program
  | ⟨.removeDocumentFromCentroid c d, _, program⟩ =>
      LinkStage (delBackLink c d) (delMember c d) (Unshared (c, d)) program
  | _ => False

theorem keys_of_unshared {pair : Bytes × Bytes} (unshared : Unshared pair) :
    getCentroidDocumentKey pair.1 pair.2 ≠ getDocumentCentroidKey pair.2 pair.1 := by
  intro same
  have isBackLink := (unshared (member pair.1 pair.2) trivial).2 same
  cases isBackLink

inductive LinkMove (task after : PersistenceTask F) (call : RockCall) : Prop where
  | looked (key : Bytes) (isLook : call = .existsKey key) (linking : Linking after)
      (calm : ∀ pair, Unshared pair →
        ¬ Adding pair.1 pair.2 after ∧ ¬ Removing pair.1 pair.2 after)
  | putsMember (pair : Bytes × Bytes) (isPair : task.request.adds = some pair)
      (isCall : call = putMember pair.1 pair.2)
      (isNext : after.next = some (putBackLink pair.1 pair.2))
      (linking : Unshared pair → Linking after)
  | putsBackLink (pair : Bytes × Bytes) (isPair : task.request.adds = some pair)
      (isCall : call = putBackLink pair.1 pair.2) (isNext : after.next = none)
      (unshared : Unshared pair) (linking : Linking after)
  | delsBackLink (pair : Bytes × Bytes) (isPair : task.request.removes = some pair)
      (isCall : call = delBackLink pair.1 pair.2)
      (isNext : after.next = some (delMember pair.1 pair.2))
      (linking : Unshared pair → Linking after)
  | delsMember (pair : Bytes × Bytes) (isPair : task.request.removes = some pair)
      (isCall : call = delMember pair.1 pair.2) (isNext : after.next = none)
      (unshared : Unshared pair) (linking : Linking after)

theorem link_move {task : PersistenceTask F} {call : RockCall}
    {rest : RockHandleIf.Answer call → RockProgram ((PersistenceIf F).Reply task.request)}
    (linking : Linking task) (remaining : task.program = .call call rest)
    (answer : RockHandleIf.Answer call) : LinkMove task (task.after call (rest answer)) call := by
  obtain ⟨request, made, program⟩ := task
  have called {first second : RockCall} {Settled : Prop} {remainder : RockProgram (Try Bool)}
      {next : RockHandleIf.Answer call → RockProgram (Try Bool)}
      (stage : LinkStage first second Settled remainder) (isCall : remainder = .call call next) :
      LinkCalled first second Settled call (next answer) := by
    rw [isCall] at stage
    exact stage.called answer
  cases request with
  | addDocumentToCentroid c d =>
      cases called linking remaining with
      | looked key isLook approaches =>
          refine LinkMove.looked key isLook ?_ ?_
          · exact LinkStage.approaching _ approaches
          intro pair unshared
          constructor
          · rintro ⟨isPair, isNext⟩
            cases isPair
            apply approaches.next_ne _ id isNext
            intro same
            exact keys_of_unshared unshared (RockCall.put.inj same).1
          · rintro ⟨isPair, -⟩
            cases isPair
      | wrote isFirst isNext stage => exact .putsMember (c, d) rfl isFirst isNext stage
      | finished isSecond settled isDone approaches =>
          exact .putsBackLink (c, d) rfl isSecond isDone settled
            (LinkStage.approaching _ approaches)
  | removeDocumentFromCentroid c d =>
      cases called linking remaining with
      | looked key isLook approaches =>
          refine LinkMove.looked key isLook ?_ ?_
          · exact LinkStage.approaching _ approaches
          intro pair unshared
          constructor
          · rintro ⟨isPair, -⟩
            cases isPair
          · rintro ⟨isPair, isNext⟩
            cases isPair
            apply approaches.next_ne _ id isNext
            intro same
            exact keys_of_unshared unshared (RockCall.del.inj same).symm
      | wrote isFirst isNext stage => exact .delsBackLink (c, d) rfl isFirst isNext stage
      | finished isSecond settled isDone approaches =>
          exact .delsMember (c, d) rfl isSecond isDone settled (LinkStage.approaching _ approaches)
  | _ => exact absurd linking id

theorem linking_new [Zero F] [One F] {serialization : Serialization F} (request : PersistenceCall F)
    (links : request.adds.isSome ∨ request.removes.isSome) :
    Linking (PoolTask.new (persistence serialization) request) := by
  cases request with
  | addDocumentToCentroid c d =>
      apply LinkStage.approaching
      apply Approaching.looking
      rintro (_ | _)
      · exact .ended _
      apply Approaching.looking
      rintro (_ | _)
      · exact .ended _
      apply Approaching.looking
      rintro (_ | _)
      · exact .writing _ _ (fun _ => rfl) fun _ _ => ⟨_, rfl⟩
      · exact .ended _
  | removeDocumentFromCentroid c d =>
      apply LinkStage.approaching
      apply Approaching.looking
      rintro (_ | _)
      · exact .ended _
      apply Approaching.looking
      rintro (_ | _)
      · exact .ended _
      apply Approaching.writing _ _ (fun _ => rfl)
      rintro _ (_ | _)
      · exact ⟨_, rfl⟩
      · exact ⟨_, rfl⟩
  | _ => cases links <;> contradiction

section Pairs

variable {pool next : ThreadPool F α} {pair : Bytes × Bytes}

/-- Adders, removers and the two keys of one pair: adders have the member key in place and no
remover beside them, removers have the back-link gone, and without either the keys agree. -/
structure Balanced (adding removing heldMember heldBackLink : Prop) : Prop where
  adders : adding → heldMember ∧ ¬ removing
  removers : removing → ¬ heldBackLink
  settled : ¬ adding → ¬ removing → (heldMember ↔ heldBackLink)

def PairBalanced (pool : ThreadPool F α) (pair : Bytes × Bytes) : Prop :=
  Balanced (∃ task ∈ pool.tasks, Adding pair.1 pair.2 task)
    (∃ task ∈ pool.tasks, Removing pair.1 pair.2 task)
    (Holds pool.store (member pair.1 pair.2)) (Holds pool.store (backLink pair.2 pair.1))

structure LinkingSoundly (pool : ThreadPool F α) : Prop where
  alone : pool.clients = []
  linking : ∀ task ∈ pool.tasks, Linking task
  balanced : ∀ pair, Unshared pair → PairBalanced pool pair
  agreed : ∀ pair, ¬ Unshared pair →
    (Holds pool.store (member pair.1 pair.2) ↔ Holds pool.store (backLink pair.2 pair.1))

theorem linking_soundly_initial {store : Store} (agree : LinksAgree store) :
    LinkingSoundly (.initial store [] : ThreadPool F α) := by
  refine ⟨rfl, ?_, ?_, ?_⟩
  · intro task member
    cases member
  · intro pair _
    refine ⟨?_, ?_, ?_⟩
    · rintro ⟨task, member, -⟩
      cases member
    · rintro ⟨task, member, -⟩
      cases member
    · intro _ _
      exact agree pair.1 pair.2
  · intro pair _
    exact agree pair.1 pair.2

theorem exists_mem_set_iff {T : Type} {items : List T} {index : Nat} {old new : T} {Q : T → Prop}
    (found : items[index]? = some old) (same : Q new ↔ Q old) :
    (∃ item ∈ items.set index new, Q item) ↔ ∃ item ∈ items, Q item := by
  obtain ⟨bound, isOld⟩ := List.getElem?_eq_some_iff.mp found
  constructor
  · rintro ⟨item, member, holds⟩
    rcases List.mem_or_eq_of_mem_set member with before | rfl
    · exact ⟨item, before, holds⟩
    · exact ⟨old, List.mem_of_getElem? found, same.mp holds⟩
  · rintro ⟨item, member, holds⟩
    obtain ⟨position, inBounds, rfl⟩ := List.mem_iff_getElem.mp member
    by_cases moved : index = position
    · subst moved
      rw [isOld] at holds
      exact ⟨new, List.mem_set bound new, same.mpr holds⟩
    · have kept : (items.set index new)[position]? = some items[position] := by
        rw [List.getElem?_set_ne moved]
        exact List.getElem?_eq_getElem inBounds
      exact ⟨_, List.mem_of_getElem? kept, holds⟩

theorem Balanced.congr {adding removing heldMember heldBackLink : Prop}
    {adding' removing' heldMember' heldBackLink' : Prop}
    (balanced : Balanced adding removing heldMember heldBackLink) (adders : adding' ↔ adding)
    (removers : removing' ↔ removing) (members : heldMember' ↔ heldMember)
    (backLinks : heldBackLink' ↔ heldBackLink) :
    Balanced adding' removing' heldMember' heldBackLink' := by
  rw [propext adders, propext removers, propext members, propext backLinks]
  exact balanced

variable {index : Nat} {task after : PersistenceTask F} {store : Store}

theorem adds_of_removes {request : PersistenceCall F} (removes : request.removes = some pair) :
    request.adds = none := by
  cases request with
  | removeDocumentFromCentroid c d => rfl
  | _ => cases removes

theorem not_adding_of_removes (removes : task.request.removes = some pair) (c d : Bytes) :
    ¬ Adding c d task := by
  rintro ⟨adds, -⟩
  rw [adds_of_removes removes] at adds
  cases adds

theorem not_removing_of_adds (adds : task.request.adds = some pair) (c d : Bytes) :
    ¬ Removing c d task := by
  rintro ⟨removes, -⟩
  rw [adds_of_removes removes] at adds
  cases adds

theorem LinkingSoundly.write (sound : LinkingSoundly pool) (found : pool.tasks[index]? = some task)
    (linking : Linking after) (request : after.request = task.request)
    (isPair : task.request.adds = some pair ∨ task.request.removes = some pair)
    (unshared : Unshared pair)
    (elsewhere : ∀ record : LogicalRecord, record.IsLink → record ≠ member pair.1 pair.2 →
      record ≠ backLink pair.2 pair.1 → (Holds store record ↔ Holds pool.store record))
    (balanced : PairBalanced { pool with store := store, tasks := pool.tasks.set index after }
      pair) :
    LinkingSoundly { pool with store := store, tasks := pool.tasks.set index after } := by
  have members {other : Bytes × Bytes} (different : pair ≠ other) :
      Holds store (member other.1 other.2) ↔ Holds pool.store (member other.1 other.2) := by
    apply elsewhere _ (member_is_link _ _)
    · intro same
      exact different (Prod.ext (LogicalRecord.member.inj same).1.symm
        (LogicalRecord.member.inj same).2.symm)
    · exact fun same => nomatch same
  have backLinks {other : Bytes × Bytes} (different : pair ≠ other) :
      Holds store (backLink other.2 other.1) ↔ Holds pool.store (backLink other.2 other.1) := by
    apply elsewhere _ (back_link_is_link _ _)
    · exact fun same => nomatch same
    · intro same
      exact different (Prod.ext (LogicalRecord.backLink.inj same).2.symm
        (LogicalRecord.backLink.inj same).1.symm)
  have uninvolved {other : Bytes × Bytes} (different : pair ≠ other) {any : PersistenceTask F}
      (same : any.request = task.request) :
      ¬ Adding other.1 other.2 any ∧ ¬ Removing other.1 other.2 any := by
    constructor
    · rintro ⟨adds, -⟩
      rw [same] at adds
      rcases isPair with isAdd | isRemove
      · exact different (Option.some.inj (isAdd.symm.trans adds))
      · rw [adds_of_removes isRemove] at adds
        cases adds
    · rintro ⟨removes, -⟩
      rw [same] at removes
      rcases isPair with isAdd | isRemove
      · rw [adds_of_removes removes] at isAdd
        cases isAdd
      · exact different (Option.some.inj (isRemove.symm.trans removes))
  refine ⟨sound.alone, ?_, ?_, ?_⟩
  · intro other inPool
    rcases List.mem_or_eq_of_mem_set inPool with old | rfl
    · exact sound.linking other old
    · exact linking
  · intro other otherUnshared
    by_cases same : pair = other
    · subst same
      exact balanced
    · apply (sound.balanced other otherUnshared).congr
      · exact exists_mem_set_iff found
          (iff_of_false (uninvolved same request).1 (uninvolved same rfl).1)
      · exact exists_mem_set_iff found
          (iff_of_false (uninvolved same request).2 (uninvolved same rfl).2)
      · exact members same
      · exact backLinks same
  · intro other shared
    have different : pair ≠ other := by
      rintro rfl
      exact shared unshared
    rw [members different, backLinks different]
    exact sound.agreed other shared

theorem balanced_puts_member (found : pool.tasks[index]? = some task)
    (unshared : Unshared pair) (isPair : task.request.adds = some pair)
    (request : after.request = task.request)
    (isNext : after.next = some (putBackLink pair.1 pair.2))
    (inTurn : ∀ other ∈ pool.tasks, ¬ Removing pair.1 pair.2 other) :
    PairBalanced { pool with
      store := (rockHandle (putMember pair.1 pair.2) pool.store).2
      tasks := pool.tasks.set index after } pair := by
  have stillAdds : after.request.adds = some pair := request ▸ isPair
  have adding : ∃ other ∈ pool.tasks.set index after, Adding pair.1 pair.2 other :=
    ⟨after, List.mem_set (List.getElem?_eq_some_iff.mp found).1 _, stillAdds, isNext⟩
  have nobody : ¬ ∃ other ∈ pool.tasks.set index after, Removing pair.1 pair.2 other := by
    rintro ⟨other, inPool, removing⟩
    rcases List.mem_or_eq_of_mem_set inPool with old | rfl
    · exact inTurn other old removing
    · exact not_removing_of_adds stillAdds _ _ removing
  refine ⟨?_, ?_, ?_⟩
  · intro _
    exact ⟨(holds_put_member_iff unshared (member_is_link _ _)).mpr (.inl rfl), nobody⟩
  · intro removing
    exact absurd removing nobody
  · intro notAdding
    exact absurd adding notAdding

theorem balanced_puts_back_link (found : pool.tasks[index]? = some task)
    (unshared : Unshared pair) (isPair : task.request.adds = some pair)
    (request : after.request = task.request)
    (isNext : task.next = some (putBackLink pair.1 pair.2)) (balanced : PairBalanced pool pair) :
    PairBalanced { pool with
      store := (rockHandle (putBackLink pair.1 pair.2) pool.store).2
      tasks := pool.tasks.set index after } pair := by
  have stillAdds : after.request.adds = some pair := request ▸ isPair
  obtain ⟨held, nobody⟩ :=
    balanced.adders ⟨task, List.mem_of_getElem? found, isPair, isNext⟩
  have stillNobody : ¬ ∃ other ∈ pool.tasks.set index after, Removing pair.1 pair.2 other := by
    rw [exists_mem_set_iff found (iff_of_false (not_removing_of_adds stillAdds _ _)
      (not_removing_of_adds isPair _ _))]
    exact nobody
  have heldMember : Holds (rockHandle (putBackLink pair.1 pair.2) pool.store).2
      (member pair.1 pair.2) :=
    (holds_put_back_link_iff unshared (member_is_link _ _)).mpr (.inr held)
  have heldBackLink : Holds (rockHandle (putBackLink pair.1 pair.2) pool.store).2
      (backLink pair.2 pair.1) :=
    (holds_put_back_link_iff unshared (back_link_is_link _ _)).mpr (.inl rfl)
  refine ⟨?_, ?_, ?_⟩
  · intro _
    exact ⟨heldMember, stillNobody⟩
  · intro removing
    exact absurd removing stillNobody
  · intro _ _
    exact iff_of_true heldMember heldBackLink

theorem balanced_dels_back_link (found : pool.tasks[index]? = some task)
    (unshared : Unshared pair) (isPair : task.request.removes = some pair)
    (request : after.request = task.request)
    (isNext : after.next = some (delMember pair.1 pair.2))
    (inTurn : ∀ other ∈ pool.tasks, ¬ Adding pair.1 pair.2 other) :
    PairBalanced { pool with
      store := (rockHandle (delBackLink pair.1 pair.2) pool.store).2
      tasks := pool.tasks.set index after } pair := by
  have stillRemoves : after.request.removes = some pair := request ▸ isPair
  have removing : ∃ other ∈ pool.tasks.set index after, Removing pair.1 pair.2 other :=
    ⟨after, List.mem_set (List.getElem?_eq_some_iff.mp found).1 _, stillRemoves, isNext⟩
  have nobody : ¬ ∃ other ∈ pool.tasks.set index after, Adding pair.1 pair.2 other := by
    rintro ⟨other, inPool, adding⟩
    rcases List.mem_or_eq_of_mem_set inPool with old | rfl
    · exact inTurn other old adding
    · exact not_adding_of_removes stillRemoves _ _ adding
  refine ⟨?_, ?_, ?_⟩
  · intro adding
    exact absurd adding nobody
  · intro _ held
    exact ((holds_del_back_link_iff unshared (back_link_is_link _ _)).mp held).1 rfl
  · intro _ notRemoving
    exact absurd removing notRemoving

theorem balanced_dels_member (found : pool.tasks[index]? = some task)
    (unshared : Unshared pair) (isPair : task.request.removes = some pair)
    (request : after.request = task.request)
    (isNext : task.next = some (delMember pair.1 pair.2)) (balanced : PairBalanced pool pair) :
    PairBalanced { pool with
      store := (rockHandle (delMember pair.1 pair.2) pool.store).2
      tasks := pool.tasks.set index after } pair := by
  have stillRemoves : after.request.removes = some pair := request ▸ isPair
  have removing : ∃ other ∈ pool.tasks, Removing pair.1 pair.2 other :=
    ⟨task, List.mem_of_getElem? found, isPair, isNext⟩
  have gone := balanced.removers removing
  have nobody : ¬ ∃ other ∈ pool.tasks.set index after, Adding pair.1 pair.2 other := by
    rw [exists_mem_set_iff found (iff_of_false (not_adding_of_removes stillRemoves _ _)
      (not_adding_of_removes isPair _ _))]
    intro adding
    exact (balanced.adders adding).2 removing
  have noMember : ¬ Holds (rockHandle (delMember pair.1 pair.2) pool.store).2
      (member pair.1 pair.2) := fun held =>
    ((holds_del_member_iff unshared (member_is_link _ _)).mp held).1 rfl
  have noBackLink : ¬ Holds (rockHandle (delMember pair.1 pair.2) pool.store).2
      (backLink pair.2 pair.1) := fun held =>
    gone ((holds_del_member_iff unshared (back_link_is_link _ _)).mp held).2
  refine ⟨?_, ?_, ?_⟩
  · intro adding
    exact absurd adding nobody
  · intro _
    exact noBackLink
  · intro _ _
    exact iff_of_false noMember noBackLink

theorem LinkingSoundly.call (sound : LinkingSoundly pool) {call : RockCall}
    {rest : RockHandleIf.Answer call → RockProgram ((PersistenceIf F).Reply task.request)}
    (found : pool.tasks[index]? = some task) (remaining : task.program = .call call rest)
    (inTurn : WritesInTurn Unshared pool (.task index)) :
    LinkingSoundly { pool with
      store := (rockHandle call pool.store).2
      tasks := pool.tasks.set index (task.after call (rest (rockHandle call pool.store).1)) } := by
  have isCall : task.next = some call := by
    rw [PoolTask.next, remaining]
    rfl
  have guarded := inTurn task found
  have inPool := List.mem_of_getElem? found
  cases link_move (sound.linking task inPool) remaining (rockHandle call pool.store).1 with
  | looked key isLook linking calm =>
      subst isLook
      have before {pair : Bytes × Bytes} :
          ¬ Adding pair.1 pair.2 task ∧ ¬ Removing pair.1 pair.2 task := by
        constructor
        · rintro ⟨-, isNext⟩
          rw [isCall] at isNext
          cases isNext
        · rintro ⟨-, isNext⟩
          rw [isCall] at isNext
          cases isNext
      refine ⟨sound.alone, ?_, ?_, sound.agreed⟩
      · intro other member
        rcases List.mem_or_eq_of_mem_set member with old | rfl
        · exact sound.linking other old
        · exact linking
      · intro other unshared
        apply (sound.balanced other unshared).congr _ _ Iff.rfl Iff.rfl
        · exact exists_mem_set_iff found (iff_of_false (calm other unshared).1 before.1)
        · exact exists_mem_set_iff found (iff_of_false (calm other unshared).2 before.2)
  | putsMember pair isPair isWrite isNext linking =>
      subst isWrite
      obtain ⟨unshared, nobody⟩ := guarded.1 pair isPair isCall
      apply sound.write found (linking unshared) rfl (.inl isPair) unshared
      · intro record link notMember _
        rw [holds_put_member_iff unshared link]
        exact or_iff_right notMember
      · exact balanced_puts_member found unshared isPair rfl isNext nobody
  | putsBackLink pair isPair isWrite isNext unshared linking =>
      subst isWrite
      apply sound.write found linking rfl (.inl isPair) unshared
      · intro record link _ notBackLink
        rw [holds_put_back_link_iff unshared link]
        exact or_iff_right notBackLink
      · exact balanced_puts_back_link found unshared isPair rfl isCall
          (sound.balanced pair unshared)
  | delsBackLink pair isPair isWrite isNext linking =>
      subst isWrite
      obtain ⟨unshared, nobody⟩ := guarded.2 pair isPair isCall
      apply sound.write found (linking unshared) rfl (.inr isPair) unshared
      · intro record link _ notBackLink
        rw [holds_del_back_link_iff unshared link]
        exact and_iff_right notBackLink
      · exact balanced_dels_back_link found unshared isPair rfl isNext nobody
  | delsMember pair isPair isWrite isNext unshared linking =>
      subst isWrite
      apply sound.write found linking rfl (.inr isPair) unshared
      · intro record link notMember _
        rw [holds_del_member_iff unshared link]
        exact and_iff_right notMember
      · exact balanced_dels_member found unshared isPair rfl isCall (sound.balanced pair unshared)

theorem LinkingSoundly.issue [Zero F] [One F] {serialization : Serialization F}
    (sound : LinkingSoundly pool) {request : PersistenceCall F}
    (links : request.adds.isSome ∨ request.removes.isSome) :
    LinkingSoundly (pool.issue (persistence serialization) request) := by
  have linking : Linking (PoolTask.new (persistence serialization) request) :=
    linking_new request links
  have looksFirst (write : RockCall) (isWrite : ¬ write.Reads) :
      (PoolTask.new (persistence serialization) request).next ≠ some write := by
    intro isNext
    cases request with
    | addDocumentToCentroid c d => cases isNext; exact isWrite trivial
    | removeDocumentFromCentroid c d => cases isNext; exact isWrite trivial
    | _ => exact linking
  have grown {Q : PersistenceTask F → Prop}
      (notNew : ¬ Q (PoolTask.new (persistence serialization) request)) :
      (∃ task ∈ (pool.issue (persistence serialization) request).tasks, Q task) ↔
        ∃ task ∈ pool.tasks, Q task := by
    constructor
    · rintro ⟨task, member, holds⟩
      rcases List.mem_append.mp member with old | new
      · exact ⟨task, old, holds⟩
      · rw [List.mem_singleton.mp new] at holds
        exact absurd holds notNew
    · rintro ⟨task, member, holds⟩
      exact ⟨task, List.mem_append_left _ member, holds⟩
  refine ⟨sound.alone, ?_, ?_, sound.agreed⟩
  · intro task member
    rcases List.mem_append.mp member with old | new
    · exact sound.linking task old
    · rw [List.mem_singleton.mp new]
      exact linking
  · intro pair unshared
    apply (sound.balanced pair unshared).congr _ _ Iff.rfl Iff.rfl
    · exact grown fun adding => looksFirst _ id adding.2
    · exact grown fun removing => looksFirst _ id removing.2

theorem LinkingSoundly.step [Zero F] [One F] {serialization : Serialization F}
    {action : PersistenceAction F} (sound : LinkingSoundly pool) (allowed : LinksOnly action)
    (inTurn : WritesInTurn Unshared pool action)
    (stepped : (persistenceMachine α serialization).step pool action = some next) :
    LinkingSoundly next := by
  cases pool_step_cases stepped with
  | issued request => exact sound.issue allowed
  | called index task call rest found remaining => exact sound.call found remaining inTurn
  | submitted index request rest found =>
      rw [sound.alone] at found
      cases found
  | awaited index future kind rest task same value found =>
      rw [sound.alone] at found
      cases found

end Pairs

/-- No request is in progress. -/
def AtRest (pool : ThreadPool F α) : Prop := ∀ task ∈ pool.tasks, task.next = none

instance (pool : ThreadPool F α) : Decidable (AtRest pool) :=
  inferInstanceAs (Decidable (∀ task ∈ pool.tasks, task.next = none))

theorem links_agree_of_linking_soundly {pool : ThreadPool F α} (sound : LinkingSoundly pool)
    (atRest : AtRest pool) : LinksAgree pool.store := by
  intro c d
  by_cases unshared : Unshared (c, d)
  · have settled := (sound.balanced (c, d) unshared).settled
    apply settled
    · rintro ⟨task, member, -, isNext⟩
      rw [atRest task member] at isNext
      cases isNext
    · rintro ⟨task, member, -, isNext⟩
      rw [atRest task member] at isNext
      cases isNext
  · exact sound.agreed (c, d) unshared

/-- In every run of additions and removals whose writes of a pair begin in turn, the two
directions agree whenever no request is in progress. -/
theorem links_agree_of_writes_in_turn [Zero F] [One F] {serialization : Serialization F}
    (store : Store) (agree : LinksAgree store) (actions : List (PersistenceAction F))
    (allowed : ∀ action ∈ actions, LinksOnly action)
    (inTurn : (persistenceMachine α serialization).Guarded (WritesInTurn Unshared) actions
      (.initial store [])) :
    (persistenceMachine α serialization).Along (fun pool => AtRest pool → LinksAgree pool.store)
      actions (.initial store []) := by
  have preserved : ∀ (pool : ThreadPool F α) (action : PersistenceAction F) (next : ThreadPool F α),
      LinkingSoundly pool → LinksOnly action → WritesInTurn Unshared pool action →
      (persistenceMachine α serialization).step pool action = some next → LinkingSoundly next :=
    fun pool action next sound permitted guarded stepped => sound.step permitted guarded stepped
  exact Machine.along_of_guarded preserved (fun _ sound => links_agree_of_linking_soundly sound)
    actions allowed (linking_soundly_initial agree) inTurn

theorem writes_in_turn_of_colon_free (pool : ThreadPool F α) (action : PersistenceAction F)
    (inTurn : WritesInTurn ColonFreePair pool action) : WritesInTurn Unshared pool action := by
  cases action with
  | task index =>
      intro task found
      obtain ⟨adds, removes⟩ := inTurn task found
      refine ⟨?_, ?_⟩
      · intro pair isPair isNext
        obtain ⟨free, nobody⟩ := adds pair isPair isNext
        exact ⟨unshared_of_colon_free free, nobody⟩
      · intro pair isPair isNext
        obtain ⟨free, nobody⟩ := removes pair isPair isNext
        exact ⟨unshared_of_colon_free free, nobody⟩
  | _ => trivial

def unlinkedStore : Store :=
  ((∅ : Store).insert (getCentroidKey (ascii "c")) []).insert (getDocumentKey (ascii "d")) []

theorem link_key_length {record : LogicalRecord} (link : record.IsLink) :
    12 ≤ record.storeKey.length := by
  cases record with
  | member c d =>
      simp only [storeKey, getCentroidDocumentKey, List.length_append, ascii, List.length_map]
      simp
      omega
  | backLink d c =>
      simp only [storeKey, getDocumentCentroidKey, List.length_append, ascii, List.length_map]
      simp
      omega
  | _ => exact absurd link id

theorem links_agree_unlinked_store : LinksAgree unlinkedStore := by
  have absent {record : LogicalRecord} (link : record.IsLink) : ¬ Holds unlinkedStore record := by
    intro held
    have long := link_key_length link
    rcases OrderedMap.mem_insert_iff.mp held with isDocument | isOther
    · rw [isDocument] at long
      exact absurd long (by decide)
    · rcases OrderedMap.mem_insert_iff.mp isOther with isCentroid | isNone
      · rw [isCentroid] at long
        exact absurd long (by decide)
      · exact Std.ExtTreeMap.not_mem_empty isNone
  intro c d
  exact iff_of_false (absent (member_is_link c d)) (absent (back_link_is_link d c))

/-- The removal looks up its centroid while the addition writes, and deletes after it. -/
def addedThenRemoved : List (PersistenceAction Nat) :=
  [.issue (.addDocumentToCentroid (ascii "c") (ascii "d")),
    .issue (.removeDocumentFromCentroid (ascii "c") (ascii "d")),
    .task 0, .task 0, .task 0, .task 0, .task 1, .task 0, .task 1, .task 1, .task 1]

theorem added_then_removed_agrees :
    (persistenceMachine Unit Serialization.idsOnly).Along
      (fun pool => AtRest pool → LinksAgree pool.store) addedThenRemoved
      (.initial unlinkedStore []) := by
  apply links_agree_of_writes_in_turn unlinkedStore links_agree_unlinked_store addedThenRemoved
  · decide
  · have plain : (persistenceMachine Unit Serialization.idsOnly).Guarded
        (WritesInTurn ColonFreePair) addedThenRemoved (.initial unlinkedStore []) := by
      decide +kernel
    exact plain.mono writes_in_turn_of_colon_free

/-- The removal deletes the missing back-link before the addition writes it, and the member key
after the addition has written that. -/
def crossedAddition : List (PersistenceAction Nat) :=
  [.issue (.addDocumentToCentroid (ascii "c") (ascii "d")),
    .issue (.removeDocumentFromCentroid (ascii "c") (ascii "d")),
    .task 0, .task 0, .task 0, .task 0, .task 1, .task 1, .task 1, .task 1, .task 0]

theorem crossed_addition_is_half_linked :
    LinksAgree unlinkedStore ∧ (∀ action ∈ crossedAddition, LinksOnly action) ∧
      ∃ pool : ThreadPool Nat Unit, (persistenceMachine Unit Serialization.idsOnly).exec
          crossedAddition (.initial unlinkedStore []) = some pool ∧
        AtRest pool ∧ ¬ LinksAgree pool.store := by
  have ended : ((persistenceMachine Unit Serialization.idsOnly).exec crossedAddition
      (.initial unlinkedStore [])).map (fun pool => decide (AtRest pool ∧
        ¬ Holds pool.store (member (ascii "c") (ascii "d")) ∧
        Holds pool.store (backLink (ascii "d") (ascii "c")))) = some true := by
    decide +kernel
  obtain ⟨pool, executed, decided⟩ := Option.map_eq_some_iff.mp ended
  obtain ⟨atRest, noMember, heldBackLink⟩ := of_decide_eq_true decided
  refine ⟨links_agree_unlinked_store, by decide, pool, executed, atRest, ?_⟩
  intro agree
  exact noMember ((agree _ _).mpr heldBackLink)

end Relevanced.Persistence

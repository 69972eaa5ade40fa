import Relevanced.Foundation.Entries
import Relevanced.Util.AtomicMap

/-!
# The calls of an AtomicMap in one order

A call takes effect at its last access, except in three cases: a value set in an item
that has been erased, or read from one, and a value that `addOrGetData` drops. These take
effect right before the call that erased the item or added it, which came later than
they began.
-/

namespace Relevanced.Util

open Foundation
open SequentialObject

set_option autoImplicit false

variable {TKey TVal : Type} [DecidableEq TKey]

/-- Calls that have found no item for the key have been made before that moment. -/
def AddedInTime (calls : List (AtomicCall TKey TVal)) (key : TKey) (placed : Nat) : Prop :=
  ∀ call ∈ calls, call.stage = .missing → call.op.key = key → call.invoked ≤ placed

/-- Calls that have found the item have been made before that moment. -/
def ErasedInTime (calls : List (AtomicCall TKey TVal)) (item placed : Nat) : Prop :=
  ∀ call ∈ calls, call.stage = .found item → call.invoked ≤ placed

section Items

variable {items : List (AtomicItem TKey TVal)} {calls later : List (AtomicCall TKey TVal)}
  {effects extended : List (MapEffect TKey TVal)}

/-- The effect that has added the item. -/
def AddedBy (calls : List (AtomicCall TKey TVal)) (effects : List (MapEffect TKey TVal))
    (index : Nat)
    (item : AtomicItem TKey TVal) : Prop :=
  ∃ anchor val contents, (sequentialMap TKey TVal).Anchored emptyMap effects anchor contents ∧
    anchor.mark = some (.added index) ∧ anchor.op = .insertOrUpdate item.key val ∧
    (item.erased = false → AddedInTime calls item.key anchor.placed)

/-- The effect that has erased the item, right before which the map has the value of the item. -/
def ErasedBy (calls : List (AtomicCall TKey TVal)) (effects : List (MapEffect TKey TVal))
    (index : Nat)
    (item : AtomicItem TKey TVal) : Prop :=
  ∃ anchor contents, (sequentialMap TKey TVal).Anchored emptyMap effects anchor contents ∧
    anchor.mark = some (.erased index) ∧ anchor.op = .erase item.key ∧
    contents item.key = some item.value ∧ ErasedInTime calls index anchor.placed

/-- Calls that have found an item, or none, have been there before. -/
def FewerWaiting (calls later : List (AtomicCall TKey TVal)) : Prop :=
  ∀ call ∈ later, (call.stage = .missing ∨ ∃ item, call.stage = .found item) → call ∈ calls

/-- Effects keep their places. -/
def KeepsPlaces (effects extended : List (MapEffect TKey TVal)) : Prop :=
  ∀ effect contents, (sequentialMap TKey TVal).Anchored emptyMap effects effect contents →
    ∃ others, (sequentialMap TKey TVal).Anchored emptyMap extended effect others

omit [DecidableEq TKey] in
theorem AddedInTime.fewer {key : TKey} {placed : Nat} (inTime : AddedInTime calls key placed)
    (fewer : FewerWaiting calls later) : AddedInTime later key placed :=
  fun call member missing => inTime call (fewer call member (Or.inl missing)) missing

omit [DecidableEq TKey] in
theorem ErasedInTime.fewer {item placed : Nat} (inTime : ErasedInTime calls item placed)
    (fewer : FewerWaiting calls later) : ErasedInTime later item placed :=
  fun call member found => inTime call (fewer call member (Or.inr ⟨item, found⟩)) found

theorem AddedBy.keep {index : Nat} {old item : AtomicItem TKey TVal}
    (added : AddedBy calls effects index old) (fewer : FewerWaiting calls later)
    (places : KeepsPlaces effects extended) (sameKey : old.key = item.key)
    (stillErased : old.erased = true → item.erased = true) : AddedBy later extended index item := by
  obtain ⟨anchor, val, contents, anchored, marked, isOp, inTime⟩ := added
  obtain ⟨others, stillAnchored⟩ := places anchor contents anchored
  refine ⟨anchor, val, others, stillAnchored, marked, ?_, ?_⟩
  · rw [← sameKey]
    exact isOp
  · intro isListed
    have wasListed : old.erased = false := by
      cases isErased : old.erased with
      | false => rfl
      | true =>
          rw [stillErased isErased] at isListed
          cases isListed
    rw [← sameKey]
    exact (inTime wasListed).fewer fewer

theorem ErasedBy.keep {index : Nat} {item : AtomicItem TKey TVal}
    (erased : ErasedBy calls effects index item) (fewer : FewerWaiting calls later)
    (places : ∀ effect contents, effect.mark = some (.erased index) →
      (sequentialMap TKey TVal).Anchored emptyMap effects effect contents →
      (sequentialMap TKey TVal).Anchored emptyMap extended effect contents) :
    ErasedBy later extended index item := by
  obtain ⟨anchor, contents, anchored, marked, isOp, holds, inTime⟩ := erased
  exact ⟨anchor, contents, places anchor contents marked anchored, marked, isOp, holds,
    inTime.fewer fewer⟩

end Items

section Calls

/-- What is known of a call in the order of effects: it takes effect when its result is decided. -/
def CallExplained (items : List (AtomicItem TKey TVal))
    (effects : List (MapEffect TKey TVal)) (index : Nat) (call : AtomicCall TKey TVal) : Prop :=
  match call.stage with
  | .called => ∀ effect ∈ effects, effect.call ≠ index
  | .missing => ∀ effect ∈ effects, effect.call ≠ index
  | .found item => (∀ effect ∈ effects, effect.call ≠ index) ∧
      ∃ known, items[item]? = some known ∧ known.key = call.op.key
  | .decided result => ∃ effect ∈ effects, effect.call = index ∧ effect.result = result
  | .returned _ _ => True

end Calls

/-- The order of effects explains the calls so far, and leaves what the skip list holds. -/
structure Explained (map : AtomicMap TKey TVal) (effects : List (MapEffect TKey TVal))
    (contents : TKey → Option TVal) : Prop where
  scheduled : Scheduled (sequentialMap TKey TVal) emptyMap map.now map.history effects contents
  listed : ∀ key value, contents key = some value ↔ ∃ item, map.Lists item key value
  unique : ∀ first second key left right, map.Lists first key left → map.Lists second key right →
    first = second
  added : ∀ index item, map.items[index]? = some item → AddedBy map.calls effects index item
  erased : ∀ index item, map.items[index]? = some item → item.erased = true →
    ErasedBy map.calls effects index item
  calls : ∀ index call, map.calls[index]? = some call →
    CallExplained map.items effects index call
  past : ∀ call ∈ map.calls, call.invoked ≤ map.now

section Steps

variable {map : AtomicMap TKey TVal} {effects extended : List (MapEffect TKey TVal)}
  {contents others : TKey → Option TVal} {index invoked : Nat} {op : MapOp TKey TVal}
  {stage : AtomicStage TVal}

/-- The call has not taken effect. -/
def AtomicStage.waiting : AtomicStage TVal → Bool
  | .called => true
  | .found _ => true
  | .missing => true
  | .decided _ => false
  | .returned _ _ => false

omit [DecidableEq TKey] in
theorem AtomicStage.outcome_of_waiting (waiting : stage.waiting = true) : stage.outcome = none := by
  cases stage with
  | returned time result => cases waiting
  | _ => rfl

/-- The effect that a call has now. -/
def effectNow (map : AtomicMap TKey TVal) (index invoked : Nat) (op : MapOp TKey TVal)
    (result : MapResult TVal) (mark : Option ItemEvent) : MapEffect TKey TVal where
  call := index
  op := op
  result := result
  invoked := invoked
  placed := map.now
  mark := mark

omit [DecidableEq TKey] in
theorem CallExplained.unplaced {items : List (AtomicItem TKey TVal)}
    {call : AtomicCall TKey TVal} (explained : CallExplained items effects index call)
    (waiting : call.stage.waiting = true) : ∀ effect ∈ effects, effect.call ≠ index := by
  unfold CallExplained at explained
  split at explained
  · exact explained
  · exact explained
  · exact explained.1
  · rename_i isDecided
    rw [isDecided] at waiting
    cases waiting
  · rename_i isReturned
    rw [isReturned] at waiting
    cases waiting

theorem Explained.pending (explained : Explained map effects contents)
    (called : map.calls[index]? = some ⟨op, invoked, stage⟩) (waiting : stage.waiting = true)
    (result : MapResult TVal) (mark : Option ItemEvent) :
    Scheduled.Pending map.history effects (effectNow map index invoked op result mark) where
  known := by
    have returned := AtomicStage.outcome_of_waiting waiting
    simp [AtomicMap.history, effectNow, called, AtomicCall.record, returned]
  unplaced := (explained.calls index _ called).unplaced waiting

omit [DecidableEq TKey] in
theorem history_of_stage {later : AtomicStage TVal}
    (called : map.calls[index]? = some ⟨op, invoked, stage⟩)
    (same : later.outcome = stage.outcome) :
    (map.calls.set index ⟨op, invoked, later⟩).map AtomicCall.record = map.history := by
  apply List.ext_getElem?
  intro place
  rw [AtomicMap.history, List.getElem?_map, List.getElem?_map]
  by_cases isIndex : index = place
  · subst isIndex
    rw [List.getElem?_set_self (List.getElem?_eq_some_iff.mp called).1, called]
    simp [AtomicCall.record, same]
  · rw [List.getElem?_set_ne isIndex]

omit [DecidableEq TKey] in
theorem fewer_waiting_of_set {result : MapResult TVal} (calls : List (AtomicCall TKey TVal)) :
    FewerWaiting calls (calls.set index ⟨op, invoked, .decided result⟩) := by
  intro call member waits
  rcases List.mem_or_eq_of_mem_set member with before | isNew
  · exact before
  · rw [isNew] at waits
    simp at waits

omit [DecidableEq TKey] in
theorem invoked_of_set {now : Nat} {calls : List (AtomicCall TKey TVal)}
    (past : ∀ call ∈ calls, call.invoked ≤ now)
    (called : calls[index]? = some ⟨op, invoked, stage⟩) (later : AtomicStage TVal) :
    ∀ call ∈ calls.set index ⟨op, invoked, later⟩, call.invoked ≤ now + 1 := by
  intro call member
  rcases List.mem_or_eq_of_mem_set member with before | isNew
  · exact Nat.le_succ_of_le (past call before)
  · rw [isNew]
    have before := past _ (List.mem_of_getElem? called)
    exact Nat.le_succ_of_le before

omit [DecidableEq TKey] in
theorem CallExplained.extend {items changed : List (AtomicItem TKey TVal)} {place : Nat}
    {call : AtomicCall TKey TVal} {new : MapEffect TKey TVal}
    (explained : CallExplained items effects place call)
    (members : ∀ effect, effect ∈ extended ↔ effect = new ∨ effect ∈ effects)
    (other : new.call ≠ place)
    (keys : ∀ (item : Nat) (known : AtomicItem TKey TVal), items[item]? = some known →
      ∃ kept : AtomicItem TKey TVal, changed[item]? = some kept ∧ kept.key = known.key) :
    CallExplained changed extended place call := by
  have unplaced (before : ∀ effect ∈ effects, effect.call ≠ place) :
      ∀ effect ∈ extended, effect.call ≠ place := by
    intro effect member
    rcases (members effect).mp member with rfl | isOld
    · exact other
    · exact before effect isOld
  unfold CallExplained at explained ⊢
  split at explained
  · exact unplaced explained
  · exact unplaced explained
  · obtain ⟨before, known, isKnown, sameKey⟩ := explained
    obtain ⟨kept, isKept, keptKey⟩ := keys _ known isKnown
    exact ⟨unplaced before, kept, isKept, keptKey.trans sameKey⟩
  · obtain ⟨effect, member, own⟩ := explained
    exact ⟨effect, (members effect).mpr (Or.inr member), own⟩
  · trivial

theorem Explained.decide (explained : Explained map effects contents)
    (called : map.calls[index]? = some ⟨op, invoked, stage⟩) (waiting : stage.waiting = true)
    {result : MapResult TVal} {mark : Option ItemEvent}
    {items : List (AtomicItem TKey TVal)}
    (scheduled : Scheduled (sequentialMap TKey TVal) emptyMap map.now map.history extended others)
    (members : ∀ effect, effect ∈ extended ↔
      effect = effectNow map index invoked op result mark ∨ effect ∈ effects)
    (keys : ∀ (item : Nat) (known : AtomicItem TKey TVal), map.items[item]? = some known →
      ∃ kept : AtomicItem TKey TVal, items[item]? = some kept ∧ kept.key = known.key)
    (listed : ∀ key value, others key = some value ↔
      ∃ item : Nat, items[item]? = some ⟨key, value, false⟩)
    (unique : ∀ (first second : Nat) (key : TKey) (left right : TVal),
      items[first]? = some ⟨key, left, false⟩ →
      items[second]? = some ⟨key, right, false⟩ → first = second)
    (added : ∀ (item : Nat) (known : AtomicItem TKey TVal), items[item]? = some known →
      AddedBy (map.calls.set index ⟨op, invoked, .decided result⟩) extended item known)
    (erased : ∀ (item : Nat) (known : AtomicItem TKey TVal), items[item]? = some known →
      known.erased = true →
        ErasedBy (map.calls.set index ⟨op, invoked, .decided result⟩) extended item known) :
    Explained
      { items := items
        calls := map.calls.set index ⟨op, invoked, .decided result⟩
        now := map.now + 1 } extended others where
  scheduled := by
    have kept : (map.calls.set index ⟨op, invoked, .decided result⟩).map AtomicCall.record =
        map.history := history_of_stage called (AtomicStage.outcome_of_waiting waiting).symm
    rw [AtomicMap.history, kept]
    exact scheduled.later (Nat.le_succ _)
  listed := listed
  unique := unique
  added := added
  erased := erased
  calls := by
    intro place call located
    by_cases same : index = place
    · subst same
      rw [List.getElem?_set_self (List.getElem?_eq_some_iff.mp called).1] at located
      cases located
      exact ⟨_, (members _).mpr (Or.inl rfl), rfl, rfl⟩
    · rw [List.getElem?_set_ne same] at located
      exact (explained.calls place call located).extend members same keys
  past := invoked_of_set explained.past called _

theorem explained_initial : Explained (.initial : AtomicMap TKey TVal) [] emptyMap where
  scheduled := Scheduled.nothing _ _
  listed key value := by simp [emptyMap, AtomicMap.Lists, AtomicMap.initial]
  unique first second key left right lists := by cases lists
  added index item known := by cases known
  erased index item known := by cases known
  calls index call located := by cases located
  past call member := by cases member

theorem Explained.invoke (explained : Explained map effects contents) (op : MapOp TKey TVal) :
    Explained (map.invoke op) effects contents where
  scheduled := by
    rw [AtomicMap.history, AtomicMap.invoke, List.map_append]
    exact (explained.scheduled.invoke op).later (Nat.le_succ _)
  listed := explained.listed
  unique := explained.unique
  added index item known := by
    apply (explained.added index item known).keep _ (fun effect held anchored => ⟨held, anchored⟩)
      rfl id
    intro call member waits
    rcases List.mem_append.mp member with before | isNew
    · exact before
    · rw [List.mem_singleton.mp isNew] at waits
      simp at waits
  erased index item known isErased := by
    apply (explained.erased index item known isErased).keep _ (fun _ _ _ anchored => anchored)
    intro call member waits
    rcases List.mem_append.mp member with before | isNew
    · exact before
    · rw [List.mem_singleton.mp isNew] at waits
      simp at waits
  calls index call located := by
    by_cases within : index < map.calls.length
    · rw [AtomicMap.invoke, List.getElem?_append_left within] at located
      exact explained.calls index call located
    · have outside := Nat.le_of_not_lt within
      rw [AtomicMap.invoke, List.getElem?_append_right outside] at located
      cases List.mem_singleton.mp (List.mem_of_getElem? located)
      intro effect member own
      obtain ⟨record, known, _⟩ := explained.scheduled.called effect member
      have placed := (List.getElem?_eq_some_iff.mp known).1
      rw [AtomicMap.history, List.length_map] at placed
      omega
  past call member := by
    rcases List.mem_append.mp member with before | isNew
    · exact Nat.le_succ_of_le (explained.past call before)
    · rw [List.mem_singleton.mp isNew]
      exact Nat.le_succ _

theorem Explained.search (explained : Explained map effects contents)
    (called : map.calls[index]? = some ⟨op, invoked, .called⟩) {later : AtomicStage TVal}
    (outcome : (later = .missing ∧ ∀ item value, ¬ map.Lists item op.key value) ∨
      ∃ item value, later = .found item ∧ map.Lists item op.key value) :
    Explained (map.setStage index ⟨op, invoked, .called⟩ later) effects contents where
  scheduled := by
    have sameOutcome : later.outcome = (.called : AtomicStage TVal).outcome := by
      rcases outcome with ⟨rfl, _⟩ | ⟨item, value, rfl, _⟩
      · rfl
      · rfl
    have kept := history_of_stage called sameOutcome
    rw [AtomicMap.history, AtomicMap.setStage, kept]
    exact explained.scheduled.later (Nat.le_succ _)
  listed := explained.listed
  unique := explained.unique
  added place item known := by
    obtain ⟨anchor, val, held, anchored, marked, isOp, inTime⟩ := explained.added place item known
    refine ⟨anchor, val, held, anchored, marked, isOp, ?_⟩
    intro isListed call member missing sameKey
    rcases List.mem_or_eq_of_mem_set member with before | isNew
    · exact inTime isListed call before missing sameKey
    · subst isNew
      rcases outcome with ⟨_, unlisted⟩ | ⟨found, value, isFound, _⟩
      · obtain ⟨key, value, erased⟩ := item
        simp only at isListed sameKey
        subst isListed sameKey
        exact absurd known (unlisted place value)
      · rw [isFound] at missing
        cases missing
  erased place item known isErased := by
    obtain ⟨anchor, held, anchored, marked, isOp, holds, inTime⟩ :=
      explained.erased place item known isErased
    refine ⟨anchor, held, anchored, marked, isOp, holds, ?_⟩
    intro call member found
    rcases List.mem_or_eq_of_mem_set member with before | isNew
    · exact inTime call before found
    · subst isNew
      rcases outcome with ⟨isMissing, _⟩ | ⟨other, value, isFound, lists⟩
      · rw [isMissing] at found
        cases found
      · rw [isFound] at found
        cases found
        rw [AtomicMap.Lists, AtomicMap.setStage] at *
        rw [known] at lists
        cases lists
        cases isErased
  calls place call located := by
    by_cases same : index = place
    · subst same
      rw [AtomicMap.setStage, List.getElem?_set_self (List.getElem?_eq_some_iff.mp called).1]
        at located
      cases located
      have unplaced := explained.calls index _ called
      rcases outcome with ⟨rfl, _⟩ | ⟨item, value, rfl, lists⟩
      · exact unplaced
      · exact ⟨unplaced, _, lists, rfl⟩
    · rw [AtomicMap.setStage, List.getElem?_set_ne same] at located
      exact explained.calls place call located
  past := invoked_of_set explained.past called _

theorem Explained.finish (explained : Explained map effects contents) {result : MapResult TVal}
    (called : map.calls[index]? = some ⟨op, invoked, .decided result⟩) :
    Explained (map.setStage index ⟨op, invoked, .decided result⟩ (.returned map.now result))
      effects contents where
  scheduled := by
    obtain ⟨effect, member, own, isResult⟩ := explained.calls index _ called
    have known : map.history[index]? = some ⟨op, invoked, none⟩ := by
      simp [AtomicMap.history, called, AtomicCall.record, AtomicStage.outcome]
    have responded := explained.scheduled.respond known member own
    rw [isResult] at responded
    have sameHistory : (map.setStage index ⟨op, invoked, .decided result⟩
        (.returned map.now result)).history =
          map.history.set index ⟨op, invoked, some (map.now, result)⟩ := by
      rw [AtomicMap.history, AtomicMap.setStage, List.map_set]
      rfl
    rw [sameHistory]
    exact responded.later (Nat.le_succ _)
  listed := explained.listed
  unique := explained.unique
  added place item known := by
    apply (explained.added place item known).keep _ (fun effect held anchored => ⟨held, anchored⟩)
      rfl id
    intro call member waits
    rcases List.mem_or_eq_of_mem_set member with before | isNew
    · exact before
    · rw [isNew] at waits
      simp at waits
  erased place item known isErased := by
    apply (explained.erased place item known isErased).keep _ (fun _ _ _ anchored => anchored)
    intro call member waits
    rcases List.mem_or_eq_of_mem_set member with before | isNew
    · exact before
    · rw [isNew] at waits
      simp at waits
  calls place call located := by
    by_cases same : index = place
    · subst same
      rw [AtomicMap.setStage, List.getElem?_set_self (List.getElem?_eq_some_iff.mp called).1]
        at located
      cases located
      trivial
    · rw [AtomicMap.setStage, List.getElem?_set_ne same] at located
      exact explained.calls place call located
  past := invoked_of_set explained.past called _

omit [DecidableEq TKey] in
theorem mem_last_iff (effects : List (MapEffect TKey TVal)) (new effect : MapEffect TKey TVal) :
    effect ∈ effects ++ [new] ↔ effect = new ∨ effect ∈ effects := by
  rw [List.mem_append, List.mem_singleton, or_comm]

theorem keeps_places_last (effects : List (MapEffect TKey TVal)) (new : MapEffect TKey TVal) :
    KeepsPlaces effects (effects ++ [new]) :=
  fun _ contents anchored => ⟨contents, anchored.append new⟩

theorem Explained.placeLast (explained : Explained map effects contents)
    (called : map.calls[index]? = some ⟨op, invoked, stage⟩) (waiting : stage.waiting = true)
    {result : MapResult TVal} (mark : Option ItemEvent)
    (answers : ((sequentialMap TKey TVal).apply op contents).1 = result) :
    Scheduled (sequentialMap TKey TVal) emptyMap map.now map.history
      (effects ++ [effectNow map index invoked op result mark])
      ((sequentialMap TKey TVal).apply op contents).2 :=
  explained.scheduled.append (explained.pending called waiting result mark)
    (explained.past _ (List.mem_of_getElem? called)) rfl answers

theorem Explained.absent (explained : Explained map effects contents) {key : TKey}
    (unlisted : ∀ item value, ¬ map.Lists item key value) : contents key = none := by
  apply Option.eq_none_iff_forall_ne_some.mpr
  intro value holds
  obtain ⟨item, lists⟩ := (explained.listed key value).mp holds
  exact unlisted item value lists

omit [DecidableEq TKey] in
theorem same_keys (items : List (AtomicItem TKey TVal)) (item : Nat)
    (known : AtomicItem TKey TVal) (located : items[item]? = some known) :
    ∃ kept : AtomicItem TKey TVal, items[item]? = some kept ∧ kept.key = known.key :=
  ⟨known, located, rfl⟩

theorem Explained.answer (explained : Explained map effects contents)
    (called : map.calls[index]? = some ⟨op, invoked, stage⟩) (waiting : stage.waiting = true)
    {result : MapResult TVal}
    (answers : (sequentialMap TKey TVal).apply op contents = (result, contents)) :
    Explained (map.setStage index ⟨op, invoked, stage⟩ (.decided result))
      (effects ++ [effectNow map index invoked op result none]) contents := by
  have placed := explained.placeLast called waiting none (congrArg Prod.fst answers)
  rw [answers] at placed
  apply explained.decide called waiting placed (mem_last_iff _ _) (same_keys _) explained.listed
    explained.unique
  · intro item known located
    exact (explained.added item known located).keep (fewer_waiting_of_set _)
      (keeps_places_last _ _) rfl id
  · intro item known located isErased
    exact (explained.erased item known located isErased).keep (fewer_waiting_of_set _)
      fun _ _ _ anchored => anchored.append _

section Items

variable {item : Nat} {old new : AtomicItem TKey TVal}

omit [DecidableEq TKey] in
theorem keys_of_set {items : List (AtomicItem TKey TVal)}
    (found : items[item]? = some old) (sameKey : new.key = old.key) (place : Nat)
    (known : AtomicItem TKey TVal) (located : items[place]? = some known) :
    ∃ kept : AtomicItem TKey TVal,
      (items.set item new)[place]? = some kept ∧ kept.key = known.key := by
  by_cases same : item = place
  · subst same
    rw [found] at located
    cases located
    exact ⟨new, List.getElem?_set_self (List.getElem?_eq_some_iff.mp found).1, sameKey⟩
  · refine ⟨known, ?_, rfl⟩
    rw [List.getElem?_set_ne same]
    exact located

theorem Explained.unique_of_set (explained : Explained map effects contents)
    (new : AtomicItem TKey TVal) (found : map.items[item]? = some old) (sameKey : new.key = old.key)
    (stillErased : old.erased = true → new.erased = true) (first second : Nat) (key : TKey)
    (left right : TVal) (isFirst : (map.items.set item new)[first]? = some ⟨key, left, false⟩)
    (isSecond : (map.items.set item new)[second]? = some ⟨key, right, false⟩) :
    first = second := by
  have before (place : Nat) (value : TVal)
      (located : (map.items.set item new)[place]? = some ⟨key, value, false⟩) :
      ∃ earlier, map.Lists place key earlier := by
    rcases found_set located with ⟨rfl, isNew⟩ | ⟨_, isOld⟩
    · refine ⟨old.value, ?_⟩
      have isListed : old.erased = false := by
        cases isErased : old.erased with
        | false => rfl
        | true =>
            have flag := stillErased isErased
            rw [← isNew] at flag
            cases flag
      rw [← isNew] at sameKey
      rw [AtomicMap.Lists, found, ← isListed, show key = old.key from sameKey]
    · exact ⟨value, isOld⟩
  obtain ⟨firstValue, firstLists⟩ := before first left isFirst
  obtain ⟨secondValue, secondLists⟩ := before second right isSecond
  exact explained.unique first second key firstValue secondValue firstLists secondLists

theorem Explained.added_of_set (explained : Explained map effects contents)
    (new : AtomicItem TKey TVal) (found : map.items[item]? = some old) (sameKey : new.key = old.key)
    (stillErased : old.erased = true → new.erased = true) (places : KeepsPlaces effects extended)
    {result : MapResult TVal} (place : Nat) (known : AtomicItem TKey TVal)
    (located : (map.items.set item new)[place]? = some known) :
    AddedBy (map.calls.set index ⟨op, invoked, .decided result⟩) extended place known := by
  rcases found_set located with ⟨rfl, rfl⟩ | ⟨_, isOld⟩
  · exact (explained.added place old found).keep (fewer_waiting_of_set _) places sameKey.symm
      stillErased
  · exact (explained.added place known isOld).keep (fewer_waiting_of_set _) places rfl id

/-- `insertOrUpdate` sets the value of an item that is in the list. -/
theorem Explained.setListed (explained : Explained map effects contents) {key : TKey}
    {val value : TVal}
    (called : map.calls[index]? = some ⟨.insertOrUpdate key val, invoked, .found item⟩)
    (lists : map.Lists item key value) :
    Explained ((map.setValue item ⟨key, value, false⟩ val).setStage index
        ⟨.insertOrUpdate key val, invoked, .found item⟩ (.decided .void))
      (effects ++ [effectNow map index invoked (.insertOrUpdate key val) .void none])
      (Function.update contents key (some val)) := by
  change Explained ⟨map.items.set item ⟨key, val, false⟩, _, _⟩ _ _
  refine explained.decide called rfl (explained.placeLast called rfl none rfl) (mem_last_iff _ _)
    (keys_of_set lists rfl) ?_ (explained.unique_of_set ⟨key, val, false⟩ lists rfl id)
    (explained.added_of_set ⟨key, val, false⟩ lists rfl id (keeps_places_last _ _)) ?_
  · intro wanted held
    constructor
    · intro holds
      by_cases same : wanted = key
      · subst same
        rw [Function.update_self] at holds
        cases holds
        exact ⟨item, List.getElem?_set_self (List.getElem?_eq_some_iff.mp lists).1⟩
      · rw [Function.update_of_ne same] at holds
        obtain ⟨place, listed⟩ := (explained.listed wanted held).mp holds
        refine ⟨place, ?_⟩
        rw [List.getElem?_set_ne]
        · exact listed
        · rintro rfl
          rw [AtomicMap.Lists, lists] at listed
          cases listed
          exact same rfl
    · rintro ⟨place, located⟩
      rcases found_set located with ⟨_, isNew⟩ | ⟨other, isOld⟩
      · cases isNew
        exact Function.update_self _ _ _
      · have different : wanted ≠ key := by
          rintro rfl
          exact other (explained.unique place item _ held value isOld lists)
        rw [Function.update_of_ne different]
        exact (explained.listed wanted held).mpr ⟨place, isOld⟩
  · intro place known located isErased
    rcases found_set located with ⟨_, rfl⟩ | ⟨_, isOld⟩
    · cases isErased
    · exact (explained.erased place known isOld isErased).keep (fewer_waiting_of_set _)
        fun _ _ _ anchored => anchored.append _

theorem Explained.listed_of_set (explained : Explained map effects contents)
    (found : map.items[item]? = some old) (wasErased : old.erased = true)
    (isErased : new.erased = true) (key : TKey) (value : TVal) :
    contents key = some value ↔
      ∃ place : Nat, (map.items.set item new)[place]? = some ⟨key, value, false⟩ := by
  rw [explained.listed]
  constructor
  · rintro ⟨place, lists⟩
    refine ⟨place, ?_⟩
    rw [List.getElem?_set_ne]
    · exact lists
    · rintro rfl
      rw [AtomicMap.Lists, found] at lists
      cases lists
      cases wasErased
  · rintro ⟨place, located⟩
    rcases found_set located with ⟨_, isNew⟩ | ⟨_, isOld⟩
    · rw [← isNew] at isErased
      cases isErased
    · exact ⟨place, isOld⟩

end Items

/-- `insertOrUpdate` sets the value of an item that has been erased since it was found. -/
theorem Explained.setErased (explained : Explained map effects contents) {item : Nat} {key : TKey}
    {val : TVal} {old : AtomicItem TKey TVal}
    (called : map.calls[index]? = some ⟨.insertOrUpdate key val, invoked, .found item⟩)
    (found : map.items[item]? = some old) (wasErased : old.erased = true) :
    ∃ extended, Explained ((map.setValue item old val).setStage index
      ⟨.insertOrUpdate key val, invoked, .found item⟩ (.decided .void)) extended contents := by
  obtain ⟨anchor, held, anchored, marked, isErase, holds, inTime⟩ :=
    explained.erased item old found wasErased
  obtain ⟨_, known, located, sameKey⟩ := explained.calls index _ called
  rw [found] at located
  cases located
  have sameKey : old.key = key := sameKey
  subst sameKey
  obtain ⟨extended, scheduled, members, anchorMoved, othersKept⟩ := explained.scheduled.insert
    (explained.pending called rfl .void none) rfl rfl anchored
    (by rw [marked]; rfl) (inTime _ (List.mem_of_getElem? called) rfl) rfl
    (by rw [isErase]; exact update_erased old.key val old.value holds)
  refine ⟨extended, ?_⟩
  change Explained ⟨map.items.set item { old with value := val }, _, _⟩ _ _
  have places : KeepsPlaces effects extended := by
    intro effect reached isAnchored
    by_cases same : effect = anchor
    · exact ⟨_, same ▸ anchorMoved⟩
    · exact ⟨reached, othersKept effect reached same isAnchored⟩
  refine explained.decide called rfl scheduled members (keys_of_set found rfl)
    (explained.listed_of_set found wasErased wasErased)
    (explained.unique_of_set { old with value := val } found rfl id)
    (explained.added_of_set { old with value := val } found rfl id places) ?_
  intro place known located isErased
  rcases found_set located with ⟨rfl, rfl⟩ | ⟨other, isOld⟩
  · refine ⟨anchor, _, anchorMoved, marked, isErase, ?_, inTime.fewer (fewer_waiting_of_set _)⟩
    exact Function.update_self _ _ _
  · apply (explained.erased place known isOld isErased).keep (fewer_waiting_of_set _)
    intro effect reached isMarked isAnchored
    apply othersKept effect reached _ isAnchored
    rintro rfl
    rw [marked] at isMarked
    cases isMarked
    exact other rfl

theorem Explained.getErased (explained : Explained map effects contents) {item : Nat} {key : TKey}
    {old : AtomicItem TKey TVal}
    (called : map.calls[index]? = some ⟨.getOption key, invoked, .found item⟩)
    (found : map.items[item]? = some old) (wasErased : old.erased = true) :
    ∃ extended, Explained (map.setStage index ⟨.getOption key, invoked, .found item⟩
      (.decided (.option (some old.value)))) extended contents := by
  obtain ⟨anchor, held, anchored, marked, isErase, holds, inTime⟩ :=
    explained.erased item old found wasErased
  obtain ⟨_, known, located, sameKey⟩ := explained.calls index _ called
  rw [found] at located
  cases located
  have sameKey : old.key = key := sameKey
  subst sameKey
  obtain ⟨extended, scheduled, members, anchorMoved, othersKept⟩ := explained.scheduled.insert
    (explained.pending called rfl (.option (some old.value)) none) rfl rfl anchored
    (by rw [marked]; rfl) (inTime _ (List.mem_of_getElem? called) rfl)
    (congrArg MapResult.option holds) rfl
  have places : KeepsPlaces effects extended := by
    intro effect reached isAnchored
    by_cases same : effect = anchor
    · exact ⟨_, same ▸ anchorMoved⟩
    · exact ⟨reached, othersKept effect reached same isAnchored⟩
  refine ⟨extended, explained.decide called rfl scheduled members (same_keys _) explained.listed
    explained.unique ?_ ?_⟩
  · intro place known located
    exact (explained.added place known located).keep (fewer_waiting_of_set _) places rfl id
  · intro place known located isErased
    by_cases same : place = item
    · subst same
      rw [found] at located
      cases located
      exact ⟨anchor, held, anchorMoved, marked, isErase, holds,
        inTime.fewer (fewer_waiting_of_set _)⟩
    · apply (explained.erased place known located isErased).keep (fewer_waiting_of_set _)
      intro effect reached isMarked isAnchored
      apply othersKept effect reached _ isAnchored
      rintro rfl
      rw [marked] at isMarked
      cases isMarked
      exact same rfl

/-- `addOrGetData` finds an item that has been added since `find` found none. -/
theorem Explained.drop (explained : Explained map effects contents) {item : Nat} {key : TKey}
    {val value : TVal}
    (called : map.calls[index]? = some ⟨.insertOrUpdate key val, invoked, .missing⟩)
    (lists : map.Lists item key value) :
    ∃ extended, Explained (map.setStage index ⟨.insertOrUpdate key val, invoked, .missing⟩
      (.decided .void)) extended contents := by
  obtain ⟨anchor, first, held, anchored, marked, isUpdate, inTime⟩ :=
    explained.added item _ lists
  obtain ⟨extended, scheduled, members, anchorMoved, othersKept⟩ := explained.scheduled.insert
    (explained.pending called rfl .void none) rfl rfl anchored
    (by rw [marked]; rfl) (inTime rfl _ (List.mem_of_getElem? called) rfl rfl) rfl
    (by rw [isUpdate]; exact update_absorbed key val first held)
  refine ⟨extended, explained.decide called rfl scheduled members (same_keys _) explained.listed
    explained.unique ?_ ?_⟩
  · intro place known located
    apply (explained.added place known located).keep (fewer_waiting_of_set _) _ rfl id
    intro effect reached isAnchored
    by_cases same : effect = anchor
    · exact ⟨_, same ▸ anchorMoved⟩
    · exact ⟨reached, othersKept effect reached same isAnchored⟩
  · intro place known located isErased
    apply (explained.erased place known located isErased).keep (fewer_waiting_of_set _)
    intro effect reached isMarked isAnchored
    apply othersKept effect reached _ isAnchored
    rintro rfl
    rw [marked] at isMarked
    cases isMarked

theorem Explained.add (explained : Explained map effects contents) {key : TKey} {val : TVal}
    (called : map.calls[index]? = some ⟨.insertOrUpdate key val, invoked, .missing⟩)
    (unlisted : ∀ item value, ¬ map.Lists item key value) :
    Explained ((map.add key val).setStage index ⟨.insertOrUpdate key val, invoked, .missing⟩
        (.decided .void))
      (effects ++ [effectNow map index invoked (.insertOrUpdate key val) .void
        (some (.added map.items.length))]) (Function.update contents key (some val)) := by
  change Explained ⟨map.items ++ [⟨key, val, false⟩], _, _⟩ _ _
  have located_iff (place : Nat) (known : AtomicItem TKey TVal)
      (located : (map.items ++ [⟨key, val, false⟩])[place]? = some known) :
      map.items[place]? = some known ∨
        (place = map.items.length ∧ known = ⟨key, val, false⟩) := by
    by_cases within : place < map.items.length
    · rw [List.getElem?_append_left within] at located
      exact Or.inl located
    · have outside := Nat.le_of_not_lt within
      have bound := (List.getElem?_eq_some_iff.mp located).1
      rw [List.length_append, List.length_singleton] at bound
      rw [List.getElem?_append_right outside] at located
      exact Or.inr ⟨by omega, List.mem_singleton.mp (List.mem_of_getElem? located)⟩
  have kept (place : Nat) (known : AtomicItem TKey TVal)
      (located : map.items[place]? = some known) :
      (map.items ++ [⟨key, val, false⟩])[place]? = some known := by
    rw [List.getElem?_append_left (List.getElem?_eq_some_iff.mp located).1]
    exact located
  refine explained.decide called rfl (explained.placeLast called rfl _ rfl) (mem_last_iff _ _)
    (fun place known located => ⟨known, kept place known located, rfl⟩) ?_ ?_ ?_ ?_
  · intro wanted held
    by_cases same : wanted = key
    · subst same
      rw [Function.update_self]
      constructor
      · intro holds
        cases holds
        exact ⟨map.items.length, by simp⟩
      · rintro ⟨place, located⟩
        rcases located_iff place _ located with isOld | ⟨_, isNew⟩
        · exact absurd isOld (unlisted place held)
        · cases isNew
          rfl
    · rw [Function.update_of_ne same, explained.listed]
      constructor
      · rintro ⟨place, lists⟩
        exact ⟨place, kept place _ lists⟩
      · rintro ⟨place, located⟩
        rcases located_iff place _ located with isOld | ⟨_, isNew⟩
        · exact ⟨place, isOld⟩
        · cases isNew
          exact absurd rfl same
  · intro first second wanted left right isFirst isSecond
    rcases located_iff first _ isFirst with firstOld | ⟨firstLast, firstNew⟩
    · rcases located_iff second _ isSecond with secondOld | ⟨_, secondNew⟩
      · exact explained.unique first second wanted left right firstOld secondOld
      · cases secondNew
        exact absurd firstOld (unlisted first left)
    · rcases located_iff second _ isSecond with secondOld | ⟨secondLast, _⟩
      · cases firstNew
        exact absurd secondOld (unlisted second right)
      · rw [firstLast, secondLast]
  · intro place known located
    rcases located_iff place known located with isOld | ⟨rfl, rfl⟩
    · exact (explained.added place known isOld).keep (fewer_waiting_of_set _)
        (keeps_places_last _ _) rfl id
    · refine ⟨effectNow map index invoked (.insertOrUpdate key val) .void
        (some (.added map.items.length)), val, _, anchored_last _ _, rfl, rfl, ?_⟩
      intro _ call member missing _
      exact explained.past call (fewer_waiting_of_set _ call member (Or.inl missing))
  · intro place known located isErased
    rcases located_iff place known located with isOld | ⟨_, rfl⟩
    · exact (explained.erased place known isOld isErased).keep (fewer_waiting_of_set _)
        fun _ _ _ anchored => anchored.append _
    · cases isErased

theorem Explained.remove (explained : Explained map effects contents) {item : Nat} {key : TKey}
    {value : TVal} (called : map.calls[index]? = some ⟨.erase key, invoked, .called⟩)
    (lists : map.Lists item key value) :
    Explained ((map.remove item ⟨key, value, false⟩).setStage index ⟨.erase key, invoked, .called⟩
        (.decided (.erased true)))
      (effects ++ [effectNow map index invoked (.erase key) (.erased true) (some (.erased item))])
      (Function.update contents key none) := by
  change Explained ⟨map.items.set item ⟨key, value, true⟩, _, _⟩ _ _
  have holds : contents key = some value := (explained.listed key value).mpr ⟨item, lists⟩
  have answers : ((sequentialMap TKey TVal).apply (.erase key) contents).1 = .erased true := by
    simp [sequentialMap, holds]
  refine explained.decide called rfl (explained.placeLast called rfl _ answers) (mem_last_iff _ _)
    (keys_of_set lists rfl) ?_
    (explained.unique_of_set ⟨key, value, true⟩ lists rfl (fun _ => rfl))
    (explained.added_of_set ⟨key, value, true⟩ lists rfl (fun _ => rfl) (keeps_places_last _ _)) ?_
  · intro wanted held
    by_cases same : wanted = key
    · subst same
      rw [Function.update_self]
      constructor
      · intro gone
        cases gone
      · rintro ⟨place, located⟩
        rcases found_set located with ⟨_, isNew⟩ | ⟨other, isOld⟩
        · cases isNew
        · exact absurd (explained.unique place item _ held value isOld lists) other
    · rw [Function.update_of_ne same, explained.listed]
      constructor
      · rintro ⟨place, listed⟩
        refine ⟨place, ?_⟩
        rw [List.getElem?_set_ne]
        · exact listed
        · rintro rfl
          rw [AtomicMap.Lists, lists] at listed
          cases listed
          exact same rfl
      · rintro ⟨place, located⟩
        rcases found_set located with ⟨_, isNew⟩ | ⟨_, isOld⟩
        · cases isNew
        · exact ⟨place, isOld⟩
  · intro place known located isErased
    rcases found_set located with ⟨rfl, rfl⟩ | ⟨_, isOld⟩
    · refine ⟨effectNow map index invoked (.erase key) (.erased true) (some (.erased place)), _,
        anchored_last _ _, rfl, rfl, ?_, ?_⟩
      · rw [explained.scheduled.reaches]
        exact holds
      · intro call member found
        exact explained.past call (fewer_waiting_of_set _ call member (Or.inr ⟨place, found⟩))
    · exact (explained.erased place known isOld isErased).keep (fewer_waiting_of_set _)
        fun _ _ _ anchored => anchored.append _

theorem Explained.step (explained : Explained map effects contents)
    {next : AtomicMap TKey TVal} (transition : map.Transition next) :
    ∃ extended others, Explained next extended others := by
  cases transition with
  | invoke op => exact ⟨_, _, explained.invoke op⟩
  | find index invoked item op value called lists =>
      exact ⟨_, _, explained.search called (Or.inr ⟨item, value, rfl, lists⟩)⟩
  | miss index invoked key val called unlisted =>
      exact ⟨_, _, explained.search called (Or.inl ⟨rfl, unlisted⟩)⟩
  | setValue index invoked item key val old called known =>
      obtain ⟨_, found, located, sameKey⟩ := explained.calls index _ called
      rw [known] at located
      cases located
      obtain ⟨oldKey, value, erased⟩ := old
      cases sameKey
      cases erased with
      | false => exact ⟨_, _, explained.setListed called known⟩
      | true =>
          obtain ⟨extended, after⟩ := explained.setErased called known rfl
          exact ⟨extended, contents, after⟩
  | dropValue index invoked item key val value called lists =>
      obtain ⟨extended, after⟩ := explained.drop called lists
      exact ⟨extended, contents, after⟩
  | add index invoked key val called unlisted => exact ⟨_, _, explained.add called unlisted⟩
  | remove index invoked item key value called lists => exact ⟨_, _, explained.remove called lists⟩
  | eraseNone index invoked key called unlisted =>
      have absent := explained.absent unlisted
      refine ⟨_, _, explained.answer called rfl ?_⟩
      simp only [sequentialMap, absent, Option.isSome_none]
      rw [← absent, Function.update_eq_self]
  | getNone index invoked key called unlisted =>
      refine ⟨_, _, explained.answer called rfl ?_⟩
      simp only [sequentialMap, explained.absent unlisted]
  | getValue index invoked item key old called known =>
      obtain ⟨_, found, located, sameKey⟩ := explained.calls index _ called
      rw [known] at located
      cases located
      obtain ⟨oldKey, value, erased⟩ := old
      cases sameKey
      cases erased with
      | false =>
          refine ⟨_, _, explained.answer called rfl ?_⟩
          have holds := (explained.listed key value).mpr ⟨item, known⟩
          simp only [sequentialMap, holds]
      | true =>
          obtain ⟨extended, after⟩ := explained.getErased called known rfl
          exact ⟨extended, contents, after⟩
  | finish index invoked op result called => exact ⟨_, _, explained.finish called⟩

end Steps

theorem explained_of_step (map : AtomicMap TKey TVal) (action : AtomicAction TKey TVal)
    (next : AtomicMap TKey TVal) (before : ∃ effects contents, Explained map effects contents)
    (stepped : (atomicMachine TKey TVal).step map action = some next) :
    ∃ effects contents, Explained next effects contents := by
  obtain ⟨effects, contents, explained⟩ := before
  exact explained.step (AtomicMap.transition_of_step stepped)

section Histories

variable {map : AtomicMap TKey TVal} {effects : List (MapEffect TKey TVal)}
  {contents : TKey → Option TVal}

theorem Explained.linearizes (explained : Explained map effects contents) :
    Linearizes (sequentialMap TKey TVal) emptyMap map.history (effects.map Effect.entry) :=
  explained.scheduled.linearizes

theorem Explained.timed (explained : Explained map effects contents) : Timed map.history := by
  intro record member time result returned
  obtain ⟨index, known⟩ := List.mem_iff_getElem?.mp member
  obtain ⟨effect, isEffect, rfl⟩ :=
    explained.scheduled.complete index record time result known returned
  obtain ⟨same, alsoKnown, _, sameInvoked, facts⟩ := explained.scheduled.called effect isEffect
  rw [known] at alsoKnown
  cases alsoKnown
  rw [sameInvoked]
  exact (explained.scheduled.past effect isEffect).1.trans (facts time result returned).1

end Histories

end Relevanced.Util

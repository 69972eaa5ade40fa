import Relevanced.Foundation.Machine
import Relevanced.Util.MapHistory

/-!
# AtomicMap

The calls of a `ConcurrentMap` as they are when the pointers in its items and the memory behind
them are left out: an item has a value, which is read and set in one access. An item that has
been erased is kept, so that `insertOrUpdate` can set the value of an item that is no longer in
the list, and `getOption` can read one.
-/

namespace Relevanced.Util

open Foundation
open SequentialObject

set_option autoImplicit false

structure AtomicItem (TKey TVal : Type) where
  key : TKey
  value : TVal
  erased : Bool
  deriving DecidableEq

/-- What a call has done: `find` has found an item or none, or its result is known. -/
inductive AtomicStage (TVal : Type) where
  | called
  | found (item : Nat)
  | missing
  | decided (result : MapResult TVal)
  | returned (time : Nat) (result : MapResult TVal)
  deriving DecidableEq

structure AtomicCall (TKey TVal : Type) where
  op : MapOp TKey TVal
  invoked : Nat
  stage : AtomicStage TVal
  deriving DecidableEq

/-- Items are known by the order in which they have been added, and stay known when erased. -/
structure AtomicMap (TKey TVal : Type) where
  items : List (AtomicItem TKey TVal)
  calls : List (AtomicCall TKey TVal)
  now : Nat
  deriving DecidableEq

namespace AtomicMap

variable {TKey TVal : Type}

def initial : AtomicMap TKey TVal where
  items := []
  calls := []
  now := 0

def setStage (map : AtomicMap TKey TVal) (index : Nat) (call : AtomicCall TKey TVal)
    (stage : AtomicStage TVal) : AtomicMap TKey TVal :=
  { map with
    calls := map.calls.set index { call with stage := stage }
    now := map.now + 1 }

variable [DecidableEq TKey]

/-- `accessor.find`. -/
def find (map : AtomicMap TKey TVal) (key : TKey) : Option Nat :=
  map.items.findIdx? fun item => !item.erased && item.key = key

/-- `it->setValue`. -/
def setValue (map : AtomicMap TKey TVal) (index : Nat) (item : AtomicItem TKey TVal)
    (val : TVal) : AtomicMap TKey TVal :=
  { map with items := map.items.set index { item with value := val } }

/-- The item that `addOrGetData` adds. -/
def add (map : AtomicMap TKey TVal) (key : TKey) (val : TVal) : AtomicMap TKey TVal :=
  { map with items := map.items ++ [⟨key, val, false⟩] }

/-- `accessor.erase`, of an item that is in the list. -/
def remove (map : AtomicMap TKey TVal) (index : Nat) (item : AtomicItem TKey TVal) :
    AtomicMap TKey TVal :=
  { map with items := map.items.set index { item with erased := true } }

def insertOrUpdate (map : AtomicMap TKey TVal) (index : Nat) (call : AtomicCall TKey TVal)
    (key : TKey) (val : TVal) : Option (AtomicMap TKey TVal) :=
  match call.stage with
  | .called =>
      match map.find key with
      | some item => some (map.setStage index call (.found item))
      | none => some (map.setStage index call .missing)
  | .found item =>
      map.items[item]?.map fun old =>
        (map.setValue item old val).setStage index call (.decided .void)
  | .missing =>
      -- `addOrGetData` leaves an item that has been added since `find` as it is
      match map.find key with
      | some _ => some (map.setStage index call (.decided .void))
      | none => some ((map.add key val).setStage index call (.decided .void))
  | _ => none

def erase (map : AtomicMap TKey TVal) (index : Nat) (call : AtomicCall TKey TVal) (key : TKey) :
    Option (AtomicMap TKey TVal) :=
  match call.stage with
  | .called =>
      match map.find key with
      | some item =>
          map.items[item]?.map fun old =>
            (map.remove item old).setStage index call (.decided (.erased true))
      | none => some (map.setStage index call (.decided (.erased false)))
  | _ => none

def getOption (map : AtomicMap TKey TVal) (index : Nat) (call : AtomicCall TKey TVal)
    (key : TKey) : Option (AtomicMap TKey TVal) :=
  match call.stage with
  | .called =>
      match map.find key with
      | some item => some (map.setStage index call (.found item))
      | none => some (map.setStage index call (.decided (.option none)))
  | .found item =>
      map.items[item]?.map fun old =>
        map.setStage index call (.decided (.option (some old.value)))
  | _ => none

/-- The next access of a call, or its return. -/
def advance (map : AtomicMap TKey TVal) (index : Nat) : Option (AtomicMap TKey TVal) :=
  match map.calls[index]? with
  | none => none
  | some call =>
      match call.stage, call.op with
      | .decided result, _ => some (map.setStage index call (.returned map.now result))
      | _, .insertOrUpdate key val => map.insertOrUpdate index call key val
      | _, .erase key => map.erase index call key
      | _, .getOption key => map.getOption index call key

def invoke (map : AtomicMap TKey TVal) (op : MapOp TKey TVal) : AtomicMap TKey TVal :=
  { map with
    calls := map.calls ++ [⟨op, map.now, .called⟩]
    now := map.now + 1 }

end AtomicMap

inductive AtomicAction (TKey TVal : Type) where
  | invoke (op : MapOp TKey TVal)
  | advance (call : Nat)
  deriving DecidableEq

def atomicMachine (TKey TVal : Type) [DecidableEq TKey] :
    Machine (AtomicMap TKey TVal) (AtomicAction TKey TVal) where
  step map
    | .invoke op => some (map.invoke op)
    | .advance call => map.advance call

variable {TKey TVal : Type}

def AtomicStage.outcome : AtomicStage TVal → Option (Nat × MapResult TVal)
  | .returned time result => some (time, result)
  | _ => none

def AtomicCall.record (call : AtomicCall TKey TVal) :
    CallRecord (MapOp TKey TVal) (MapResult TVal) where
  op := call.op
  invoked := call.invoked
  returned := call.stage.outcome

def AtomicMap.history (map : AtomicMap TKey TVal) :
    List (CallRecord (MapOp TKey TVal) (MapResult TVal)) :=
  map.calls.map AtomicCall.record

/-- The effects that later ones may be put before. -/
inductive ItemEvent where
  | added (item : Nat)
  | erased (item : Nat)
  deriving DecidableEq

abbrev MapEffect (TKey TVal : Type) := Effect (MapOp TKey TVal) (MapResult TVal) ItemEvent


namespace AtomicMap

/-- The item is in the list, and has that key and that value. -/
def Lists (map : AtomicMap TKey TVal) (item : Nat) (key : TKey) (value : TVal) : Prop :=
  map.items[item]? = some ⟨key, value, false⟩

section Transitions

variable [DecidableEq TKey] {map next : AtomicMap TKey TVal}

theorem lists_of_find {key : TKey} {item : Nat} (found : map.find key = some item) :
    ∃ value, map.Lists item key value := by
  obtain ⟨within, isListed, _⟩ := List.findIdx?_eq_some_iff_getElem.mp found
  simp only [Bool.and_eq_true, Bool.not_eq_true', decide_eq_true_eq] at isListed
  refine ⟨map.items[item].value, ?_⟩
  rw [Lists, List.getElem?_eq_getElem within, ← isListed.1, ← isListed.2]

theorem unlisted_of_find {key : TKey} (missing : map.find key = none) (item : Nat) (value : TVal) :
    ¬ map.Lists item key value := by
  intro lists
  have outside := List.findIdx?_eq_none_iff.mp missing _ (List.mem_of_getElem? lists)
  simp at outside

/-- What the steps of the map do, one by one. -/
inductive Transition (map : AtomicMap TKey TVal) : AtomicMap TKey TVal → Prop where
  | invoke (op : MapOp TKey TVal) : Transition map (map.invoke op)
  | find (index invoked item : Nat) (op : MapOp TKey TVal) (value : TVal)
      (called : map.calls[index]? = some ⟨op, invoked, .called⟩)
      (lists : map.Lists item op.key value) :
      Transition map (map.setStage index ⟨op, invoked, .called⟩ (.found item))
  | miss (index invoked : Nat) (key : TKey) (val : TVal)
      (called : map.calls[index]? = some ⟨.insertOrUpdate key val, invoked, .called⟩)
      (unlisted : ∀ item value, ¬ map.Lists item key value) :
      Transition map
        (map.setStage index ⟨.insertOrUpdate key val, invoked, .called⟩ .missing)
  | setValue (index invoked item : Nat) (key : TKey) (val : TVal)
      (old : AtomicItem TKey TVal)
      (called : map.calls[index]? = some ⟨.insertOrUpdate key val, invoked, .found item⟩)
      (known : map.items[item]? = some old) :
      Transition map ((map.setValue item old val).setStage index
        ⟨.insertOrUpdate key val, invoked, .found item⟩ (.decided .void))
  | dropValue (index invoked item : Nat) (key : TKey) (val value : TVal)
      (called : map.calls[index]? = some ⟨.insertOrUpdate key val, invoked, .missing⟩)
      (lists : map.Lists item key value) :
      Transition map (map.setStage index ⟨.insertOrUpdate key val, invoked, .missing⟩
        (.decided .void))
  | add (index invoked : Nat) (key : TKey) (val : TVal)
      (called : map.calls[index]? = some ⟨.insertOrUpdate key val, invoked, .missing⟩)
      (unlisted : ∀ item value, ¬ map.Lists item key value) :
      Transition map ((map.add key val).setStage index
        ⟨.insertOrUpdate key val, invoked, .missing⟩ (.decided .void))
  | remove (index invoked item : Nat) (key : TKey) (value : TVal)
      (called : map.calls[index]? = some ⟨.erase key, invoked, .called⟩)
      (lists : map.Lists item key value) :
      Transition map ((map.remove item ⟨key, value, false⟩).setStage index
        ⟨.erase key, invoked, .called⟩ (.decided (.erased true)))
  | eraseNone (index invoked : Nat) (key : TKey)
      (called : map.calls[index]? = some ⟨.erase key, invoked, .called⟩)
      (unlisted : ∀ item value, ¬ map.Lists item key value) :
      Transition map (map.setStage index ⟨.erase key, invoked, .called⟩
        (.decided (.erased false)))
  | getNone (index invoked : Nat) (key : TKey)
      (called : map.calls[index]? = some ⟨.getOption key, invoked, .called⟩)
      (unlisted : ∀ item value, ¬ map.Lists item key value) :
      Transition map (map.setStage index ⟨.getOption key, invoked, .called⟩
        (.decided (.option none)))
  | getValue (index invoked item : Nat) (key : TKey) (old : AtomicItem TKey TVal)
      (called : map.calls[index]? = some ⟨.getOption key, invoked, .found item⟩)
      (known : map.items[item]? = some old) :
      Transition map (map.setStage index ⟨.getOption key, invoked, .found item⟩
        (.decided (.option (some old.value))))
  | finish (index invoked : Nat) (op : MapOp TKey TVal) (result : MapResult TVal)
      (called : map.calls[index]? = some ⟨op, invoked, .decided result⟩) :
      Transition map (map.setStage index ⟨op, invoked, .decided result⟩
        (.returned map.now result))

theorem transition_of_insert {index invoked : Nat} {stage : AtomicStage TVal} {key : TKey}
    {val : TVal}
    (called : map.calls[index]? = some ⟨.insertOrUpdate key val, invoked, stage⟩)
    (stepped : map.insertOrUpdate index ⟨.insertOrUpdate key val, invoked, stage⟩ key val =
      some next) : Transition map next := by
  cases stage with
  | called =>
      simp only [insertOrUpdate] at stepped
      split at stepped
      · rename_i item found
        cases stepped
        obtain ⟨value, lists⟩ := lists_of_find found
        exact .find index invoked item _ value called lists
      · rename_i missing
        cases stepped
        exact .miss index invoked key val called (unlisted_of_find missing)
  | found item =>
      obtain ⟨old, known, isNext⟩ := Option.map_eq_some_iff.mp stepped
      rw [← isNext]
      exact .setValue index invoked item key val old called known
  | missing =>
      simp only [insertOrUpdate] at stepped
      split at stepped
      · rename_i item found
        cases stepped
        obtain ⟨value, lists⟩ := lists_of_find found
        exact .dropValue index invoked item key val value called lists
      · rename_i missing
        cases stepped
        exact .add index invoked key val called (unlisted_of_find missing)
  | decided result => cases stepped
  | returned time result => cases stepped

theorem transition_of_erase {index invoked : Nat} {stage : AtomicStage TVal} {key : TKey}
    (called : map.calls[index]? = some ⟨.erase key, invoked, stage⟩)
    (stepped : map.erase index ⟨.erase key, invoked, stage⟩ key = some next) :
    Transition map next := by
  cases stage with
  | called =>
      simp only [erase] at stepped
      split at stepped
      · rename_i item found
        obtain ⟨value, lists⟩ := lists_of_find found
        rw [lists] at stepped
        cases stepped
        exact .remove index invoked item key value called lists
      · rename_i missing
        cases stepped
        exact .eraseNone index invoked key called (unlisted_of_find missing)
  | _ => cases stepped

theorem transition_of_get {index invoked : Nat} {stage : AtomicStage TVal} {key : TKey}
    (called : map.calls[index]? = some ⟨.getOption key, invoked, stage⟩)
    (stepped : map.getOption index ⟨.getOption key, invoked, stage⟩ key = some next) :
    Transition map next := by
  cases stage with
  | called =>
      simp only [getOption] at stepped
      split at stepped
      · rename_i item found
        cases stepped
        obtain ⟨value, lists⟩ := lists_of_find found
        exact .find index invoked item _ value called lists
      · rename_i missing
        cases stepped
        exact .getNone index invoked key called (unlisted_of_find missing)
  | found item =>
      obtain ⟨old, known, isNext⟩ := Option.map_eq_some_iff.mp stepped
      rw [← isNext]
      exact .getValue index invoked item key old called known
  | _ => cases stepped

theorem transition_of_step {action : AtomicAction TKey TVal}
    (stepped : (atomicMachine TKey TVal).step map action = some next) : Transition map next := by
  cases action with
  | invoke op =>
      cases stepped
      exact .invoke op
  | advance index =>
      change map.advance index = some next at stepped
      rw [advance] at stepped
      split at stepped
      · cases stepped
      · rename_i call called
        obtain ⟨op, invoked, stage⟩ := call
        split at stepped
        · rename_i result isDecided
          cases stepped
          simp only at isDecided
          subst isDecided
          exact .finish index invoked op result called
        · rename_i key val isOp _
          simp only at isOp
          subst isOp
          exact transition_of_insert called stepped
        · rename_i key isOp _
          simp only at isOp
          subst isOp
          exact transition_of_erase called stepped
        · rename_i key isOp _
          simp only at isOp
          subst isOp
          exact transition_of_get called stepped

end Transitions

end AtomicMap

end Relevanced.Util

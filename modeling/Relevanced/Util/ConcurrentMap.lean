import Relevanced.Util.MapHistory
import Relevanced.Util.MultiVersionPtr

/-!
# ConcurrentMap

The calls of `ConcurrentMap` on any threads, one access at a time: of the skip list, which is
a parameter, and of the `Proxy` in an item and the versions behind it, which are those of
`MultiVersionPtr`. What callers do with the pointers that `getOption` has given them is part of
the runs.
-/

namespace Relevanced.Util

open Foundation

set_option autoImplicit false

/-- What `ConcurrentMap` calls of `folly::ConcurrentSkipList`. Items are known by the order in which
they have been offered to it. -/
structure SkipList (TKey : Type) where
  State : Type
  empty : State
  find : State → TKey → Option Nat
  addOrGetData : State → TKey → Nat → State
  erase : State → TKey → State × Nat

/-- A key has one item at most, `addOrGetData` leaves the item that is there, and `erase` tells how
many items it has removed. Each access takes effect at once. -/
structure SkipList.Documented {TKey : Type} [DecidableEq TKey] (skipList : SkipList TKey) :
    Prop where
  find_empty : ∀ key, skipList.find skipList.empty key = none
  find_added : ∀ list key item other, skipList.find (skipList.addOrGetData list key item) other =
    if other = key then some ((skipList.find list key).getD item) else skipList.find list other
  find_erased : ∀ list key other, skipList.find (skipList.erase list key).1 other =
    if other = key then none else skipList.find list other
  erased : ∀ list key,
    (skipList.erase list key).2 = if (skipList.find list key).isSome then 1 else 0

/-- An item in a node, with the proxy that is its `val_`. -/
structure ConcurrentMapItem (TKey : Type) where
  key : TKey
  val : Nat
  /-- The node has been erased, and its item destroyed when nobody could use it any more. -/
  destroyed : Bool
  deriving DecidableEq

/-- Where a call stands between its accesses: `find` has found an item or none; it is in `reset` and
its value is not there yet, or in the copy of a pointer that it has not loaded yet; it has
taken effect, and has some methods of `Proxy` left to call. -/
inductive MapStage (TVal : Type) where
  | called
  | found (item : Nat)
  | missing
  | setting (item : Nat)
  | copying (item : Nat)
  | decided (left : List PointerAction) (result : MapResult TVal)
  | returned (time : Nat) (result : MapResult TVal)
  deriving DecidableEq

/-- The call has found the item, and may go on to use it. -/
def MapStage.holds {TVal : Type} (item : Nat) : MapStage TVal → Bool
  | .found other => other == item
  | .setting other => other == item
  | .copying other => other == item
  | _ => false

structure MapCall (TKey TVal : Type) where
  op : MapOp TKey TVal
  invoked : Nat
  stage : MapStage TVal
  deriving DecidableEq

/-- A call is made by the thread of its number. `values` has the `T` that each version owns. -/
structure ConcurrentMap {TKey : Type} (skipList : SkipList TKey) (TVal : Type) where
  list : skipList.State
  items : List (ConcurrentMapItem TKey)
  pointers : Pointers
  values : List TVal
  calls : List (MapCall TKey TVal)
  now : Nat

/-- A new item and the copy of it in its node, which no other thread could see before. -/
def Pointers.publish (pointers : Pointers) : Pointers :=
  { pointers with
    versions := pointers.versions ++ [⟨2, true, false, 0, 0⟩]
    proxies := pointers.proxies ++ [some pointers.versions.length, some pointers.versions.length] }

/-- Another thread, which is in no method. -/
def Pointers.enter (pointers : Pointers) : Pointers :=
  { pointers with threads := pointers.threads ++ [.idle] }

/-- The value of a proxy has not been replaced yet. -/
def ProxyStage.unsettled : ProxyStage → Bool
  | .setting _ _ => true
  | .exchanging _ _ _ => true
  | _ => false

namespace ConcurrentMap

variable {TKey TVal : Type} {skipList : SkipList TKey}

def initial : ConcurrentMap skipList TVal where
  list := skipList.empty
  items := []
  pointers := .initial 0
  values := []
  calls := []
  now := 0

def moveTo (map : ConcurrentMap skipList TVal) (index : Nat) (call : MapCall TKey TVal)
    (stage : MapStage TVal) : ConcurrentMap skipList TVal :=
  { map with calls := map.calls.set index { call with stage := stage } }

def tick (map : ConcurrentMap skipList TVal) : ConcurrentMap skipList TVal :=
  { map with now := map.now + 1 }

/-- The `T` of the version that a proxy points at. -/
def valueAt (map : ConcurrentMap skipList TVal) (proxy : Nat) : Option TVal :=
  match map.pointers.proxies[proxy]? with
  | some (some version) => map.values[version]?
  | _ => none

def invoke (map : ConcurrentMap skipList TVal) (op : MapOp TKey TVal) :
    ConcurrentMap skipList TVal :=
  { map with
    calls := map.calls ++ [⟨op, map.now, .called⟩]
    pointers := map.pointers.enter
    now := map.now + 1 }

/-- `accessor.find` of `insertOrUpdate` and `getOption`. -/
def find (map : ConcurrentMap skipList TVal) (index : Nat) (call : MapCall TKey TVal) :
    ConcurrentMap skipList TVal :=
  match skipList.find map.list call.op.key, call.op with
  | some item, _ => (map.moveTo index call (.found item)).tick
  | none, .getOption _ => (map.moveTo index call (.decided [] (.option none))).tick
  | none, _ => (map.moveTo index call .missing).tick

/-- `val_.reset(tempV.release())`. -/
def reset (map : ConcurrentMap skipList TVal) (index : Nat) (call : MapCall TKey TVal) (item : Nat)
    (val : TVal) : Option (ConcurrentMap skipList TVal) := do
  let known ← map.items[item]?
  let pointers ← map.pointers.step (.reset index known.val)
  pure { map.moveTo index call (.setting item) with
    pointers := pointers
    values := map.values ++ [val] }

/-- `getValuePtr` copies `val_`. -/
def getValuePtr (map : ConcurrentMap skipList TVal) (index : Nat) (call : MapCall TKey TVal)
    (item : Nat) : Option (ConcurrentMap skipList TVal) := do
  let known ← map.items[item]?
  let pointers ← map.pointers.step (.copy index known.val)
  pure { map.moveTo index call (.copying item) with pointers := pointers }

/-- `addOrGetData` adds a copy of the item and leaves the item itself to be destroyed. Where there
is an item for the key by now, the new one is gone before anybody else has seen it. -/
def addOrGetData (map : ConcurrentMap skipList TVal) (index : Nat) (call : MapCall TKey TVal)
    (key : TKey) (val : TVal) : ConcurrentMap skipList TVal :=
  match skipList.find map.list key with
  | some _ => (map.moveTo index call (.decided [] .void)).tick
  | none =>
      let item := map.pointers.proxies.length
      let added := map.moveTo index call (.decided [.destroy index item] .void)
      { added.tick with
        list := skipList.addOrGetData map.list key map.items.length
        items := map.items ++ [⟨key, item + 1, false⟩]
        pointers := map.pointers.publish
        values := map.values ++ [val] }

def erase (map : ConcurrentMap skipList TVal) (index : Nat) (call : MapCall TKey TVal)
    (key : TKey) :
    ConcurrentMap skipList TVal :=
  let erased := skipList.erase map.list key
  { (map.moveTo index call (.decided [] (.erased (decide (0 < erased.2))))).tick with
    list := erased.1 }

/-- The next method of `Proxy` that a call has left to call. -/
def callProxy (map : ConcurrentMap skipList TVal) (index : Nat) (call : MapCall TKey TVal)
    (action : PointerAction) (left : List PointerAction) (result : MapResult TVal) :
    Option (ConcurrentMap skipList TVal) :=
  (map.pointers.step action).map fun pointers =>
    { map.moveTo index call (.decided left result) with pointers := pointers }

/-- What a call does next when it is in no method of `Proxy`. -/
def proceed (map : ConcurrentMap skipList TVal) (index : Nat) (call : MapCall TKey TVal) :
    Option (ConcurrentMap skipList TVal) :=
  match call.stage, call.op with
  | .called, .erase key => some (map.erase index call key)
  | .called, _ => some (map.find index call)
  | .found item, .insertOrUpdate _ val => map.reset index call item val
  | .found item, .getOption _ => map.getValuePtr index call item
  | .missing, .insertOrUpdate key val => some (map.addOrGetData index call key val)
  | .decided [] result, _ => some (map.moveTo index call (.returned map.now result)).tick
  | .decided (action :: left) result, _ => map.callProxy index call action left result
  | _, _ => none

/-- The next access of a method of `Proxy`. `insertOrUpdate` takes effect when the proxy of the item
points at the new version, and `getOption` when it has loaded the pointer; the copy is then
moved into the `Optional`, which copies it once more. -/
def access (map : ConcurrentMap skipList TVal) (index : Nat) (call : MapCall TKey TVal)
    (stage : ProxyStage) : Option (ConcurrentMap skipList TVal) :=
  (map.pointers.advance index stage).map fun pointers =>
    let moved := { map with pointers := pointers }
    match call.stage, stage with
    | .setting _, _ =>
        if (pointers.threads[index]?).any ProxyStage.unsettled then moved
        else (moved.moveTo index call (.decided [] .void)).tick
    | .copying _, .copying target source =>
        (moved.moveTo index call (.decided [.copy index target, .destroy index target]
          (.option (map.valueAt source)))).tick
    | _, _ => moved

/-- The next access of a call. Callers go on with the pointers they have been given when the call
has returned. -/
def advance (map : ConcurrentMap skipList TVal) (index : Nat) :
    Option (ConcurrentMap skipList TVal) :=
  match map.calls[index]?, map.pointers.threads[index]? with
  | some call, some .idle => map.proceed index call
  | some call, some stage => map.access index call stage
  | _, _ => none

/-- The proxy is there, and is not that of an item. -/
def free (map : ConcurrentMap skipList TVal) (proxy : Nat) : Bool :=
  decide (proxy < map.pointers.proxies.length) &&
    map.items.all fun item => item.destroyed || item.val != proxy

def hasReturned (map : ConcurrentMap skipList TVal) (index : Nat) : Bool :=
  match map.calls[index]? with
  | some ⟨_, _, .returned _ _⟩ => true
  | _ => false

/-- What callers may do with the pointers of calls that have returned. -/
def usable (map : ConcurrentMap skipList TVal) : PointerAction → Bool
  | .copy thread source => map.hasReturned thread && map.free source
  | .assign thread target source => map.hasReturned thread && map.free target && map.free source
  | .destroy thread proxy => map.hasReturned thread && map.free proxy
  | .read thread proxy => map.hasReturned thread && map.free proxy
  | .readAgain thread => map.hasReturned thread
  | _ => false

def use (map : ConcurrentMap skipList TVal) (action : PointerAction) :
    Option (ConcurrentMap skipList TVal) :=
  if map.usable action then
    (map.pointers.step action).map fun pointers => { map with pointers := pointers }
  else none

/-- A call that is about to return releases its accessor, and deletes an erased node that no call
holds. -/
def recycle [DecidableEq TKey] (map : ConcurrentMap skipList TVal) (index item : Nat) :
    Option (ConcurrentMap skipList TVal) :=
  match map.calls[index]?, map.items[item]? with
  | some ⟨_, _, .decided [] _⟩, some known =>
      if known.destroyed || map.calls.any (fun call => call.stage.holds item) ||
          decide (skipList.find map.list known.key = some item) then none
      else
        (map.pointers.step (.destroy index known.val)).map fun pointers =>
          { map with
            items := map.items.set item { known with destroyed := true }
            pointers := pointers }
  | _, _ => none

end ConcurrentMap

inductive MapAction (TKey TVal : Type) where
  | invoke (op : MapOp TKey TVal)
  | advance (call : Nat)
  | use (action : PointerAction)
  | recycle (call item : Nat)
  deriving DecidableEq

def mapMachine {TKey : Type} [DecidableEq TKey] (skipList : SkipList TKey) (TVal : Type) :
    Machine (ConcurrentMap skipList TVal) (MapAction TKey TVal) where
  step map
    | .invoke op => some (map.invoke op)
    | .advance call => map.advance call
    | .use action => map.use action
    | .recycle call item => map.recycle call item

variable {TKey TVal : Type} {skipList : SkipList TKey}

/-- What a step can do. -/
inductive MapStep [DecidableEq TKey] (map : ConcurrentMap skipList TVal) :
    MapAction TKey TVal → ConcurrentMap skipList TVal → Prop where
  | invoke (op : MapOp TKey TVal) : MapStep map (.invoke op) (map.invoke op)
  | proceed {index : Nat} {call : MapCall TKey TVal} {next : ConcurrentMap skipList TVal}
      (called : map.calls[index]? = some call) (idle : map.pointers.threads[index]? = some .idle)
      (proceeded : map.proceed index call = some next) : MapStep map (.advance index) next
  | access {index : Nat} {call : MapCall TKey TVal} {stage : ProxyStage}
      {next : ConcurrentMap skipList TVal} (called : map.calls[index]? = some call)
      (inMethod : map.pointers.threads[index]? = some stage)
      (accessed : map.access index call stage = some next) : MapStep map (.advance index) next
  | use {action : PointerAction} {pointers : Pointers} (usable : map.usable action = true)
      (used : map.pointers.step action = some pointers) :
      MapStep map (.use action) { map with pointers := pointers }
  | recycle {index item invoked : Nat} {op : MapOp TKey TVal} {result : MapResult TVal}
      {known : ConcurrentMapItem TKey} {pointers : Pointers}
      (called : map.calls[index]? = some ⟨op, invoked, .decided [] result⟩)
      (located : map.items[item]? = some known) (notDestroyed : known.destroyed = false)
      (unheld : ∀ call ∈ map.calls, call.stage.holds item = false)
      (erased : skipList.find map.list known.key ≠ some item)
      (started : map.pointers.step (.destroy index known.val) = some pointers) :
      MapStep map (.recycle index item) { map with
        items := map.items.set item { known with destroyed := true }
        pointers := pointers }

theorem map_step_of_step [DecidableEq TKey] {map next : ConcurrentMap skipList TVal}
    {action : MapAction TKey TVal}
    (stepped : (mapMachine skipList TVal).step map action = some next) :
    MapStep map action next := by
  cases action with
  | invoke op =>
      cases stepped
      exact .invoke op
  | advance index =>
      change map.advance index = some next at stepped
      unfold ConcurrentMap.advance at stepped
      split at stepped
      · rename_i called idle
        exact .proceed called idle stepped
      · rename_i called inMethod
        exact .access called inMethod stepped
      · cases stepped
  | use action =>
      change map.use action = some next at stepped
      unfold ConcurrentMap.use at stepped
      split at stepped
      · rename_i usable
        obtain ⟨pointers, used, rfl⟩ := Option.map_eq_some_iff.mp stepped
        exact .use usable used
      · cases stepped
  | recycle index item =>
      change map.recycle index item = some next at stepped
      unfold ConcurrentMap.recycle at stepped
      split at stepped
      · rename_i op invoked result known called located
        split at stepped
        · cases stepped
        · rename_i recyclable
          simp only [Bool.or_eq_true, decide_eq_true_eq, not_or, List.any_eq_true, not_exists,
            not_and, Bool.not_eq_true] at recyclable
          obtain ⟨⟨notDestroyed, unheld⟩, erased⟩ := recyclable
          obtain ⟨pointers, started, rfl⟩ := Option.map_eq_some_iff.mp stepped
          exact .recycle called located notDestroyed unheld erased started
      · cases stepped

def MapStage.outcome : MapStage TVal → Option (Nat × MapResult TVal)
  | .returned time result => some (time, result)
  | _ => none

def MapCall.record (call : MapCall TKey TVal) : MapRecord TKey TVal where
  op := call.op
  invoked := call.invoked
  returned := call.stage.outcome

def ConcurrentMap.history (map : ConcurrentMap skipList TVal) : List (MapRecord TKey TVal) :=
  map.calls.map MapCall.record

/-- No step so far has touched a version, or its `T`, after it was deleted. -/
def ConcurrentMap.Faultless (map : ConcurrentMap skipList TVal) : Prop := map.pointers.fault = false

end Relevanced.Util

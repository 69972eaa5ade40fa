import Relevanced.Util.MapInvariant
import Relevanced.Util.MapLinearization

/-!
# A ConcurrentMap refines an AtomicMap

An item has the value that its proxy leads to, and each access of a `ConcurrentMap` is one of an
`AtomicMap`, or none.
-/

namespace Relevanced.Util

open Foundation
open SequentialObject
open ConcurrentMap

set_option autoImplicit false

variable {TKey TVal : Type} {skipList : SkipList TKey}

section Refinement

def MapStage.atomic : MapStage TVal → AtomicStage TVal
  | .called => .called
  | .found item => .found item
  | .missing => .missing
  | .setting item => .found item
  | .copying item => .found item
  | .decided _ result => .decided result
  | .returned time result => .returned time result

def MapCall.atomic (call : MapCall TKey TVal) : AtomicCall TKey TVal where
  op := call.op
  invoked := call.invoked
  stage := call.stage.atomic

/-- The map without its pointers. -/
structure Refines (map : ConcurrentMap skipList TVal) (atomic : AtomicMap TKey TVal) : Prop where
  now : atomic.now = map.now
  calls : atomic.calls = map.calls.map MapCall.atomic
  length : atomic.items.length = map.items.length
  items : ∀ index known, map.items[index]? = some known → ∃ item, atomic.items[index]? = some item ∧
    item.key = known.key ∧
      (item.erased = false ↔ skipList.find map.list known.key = some index) ∧
        (known.destroyed = false → map.valueAt known.val = some item.value)

variable {map next : ConcurrentMap skipList TVal} {atomic after : AtomicMap TKey TVal}

theorem value_at_of_pointed {proxy version : Nat}
    (pointed : map.pointers.proxies[proxy]? = some (some version)) :
    map.valueAt proxy = map.values[version]? := by
  rw [ConcurrentMap.valueAt, pointed]

theorem value_at_kept {proxy : Nat} {val : TVal} (holds : map.valueAt proxy = some val)
    (same : next.pointers.proxies[proxy]? = map.pointers.proxies[proxy]?)
    (kept : map.values <+: next.values) : next.valueAt proxy = some val := by
  obtain ⟨added, extended⟩ := kept
  rw [ConcurrentMap.valueAt] at holds ⊢
  rw [same]
  split at holds
  · rename_i version pointed
    rw [← extended]
    exact (List.getElem?_append_left (List.getElem?_eq_some_iff.mp holds).1).trans holds
  · cases holds

theorem Refines.frame (refines : Refines map atomic) (list : next.list = map.list)
    (items : next.items = map.items)
    (values : ∀ index item, map.Live index item →
      ∀ val, map.valueAt item.val = some val → next.valueAt item.val = some val)
    (now : after.now = next.now) (calls : after.calls = next.calls.map MapCall.atomic)
    (sameItems : after.items = atomic.items) : Refines next after where
  now := now
  calls := calls
  length := by rw [sameItems, items, refines.length]
  items index known located := by
    rw [items] at located
    obtain ⟨item, isItem, sameKey, isListed, isValue⟩ := refines.items index known located
    rw [sameItems, list]
    refine ⟨item, isItem, sameKey, isListed, ?_⟩
    intro isLive
    exact values index known ⟨located, isLive⟩ item.value (isValue isLive)

theorem atomic_calls_of_move (index : Nat) (call : MapCall TKey TVal) (stage : MapStage TVal) :
    (map.moveTo index call stage).calls.map MapCall.atomic =
      (map.calls.map MapCall.atomic).set index ⟨call.op, call.invoked, stage.atomic⟩ :=
  List.map_set

/-- A stage that an `AtomicMap` does not tell apart from the one before. -/
theorem atomic_calls_of_same {index : Nat} {call : MapCall TKey TVal} {stage : MapStage TVal}
    (called : map.calls[index]? = some call) (same : stage.atomic = call.stage.atomic) :
    (map.moveTo index call stage).calls.map MapCall.atomic = map.calls.map MapCall.atomic := by
  rw [atomic_calls_of_move, same]
  obtain ⟨inside, isCall⟩ := List.getElem?_eq_some_iff.mp called
  have held : (map.calls.map MapCall.atomic)[index]? = some call.atomic := by
    rw [List.getElem?_map, called]
    rfl
  obtain ⟨bound, isAtomic⟩ := List.getElem?_eq_some_iff.mp held
  change (map.calls.map MapCall.atomic).set index call.atomic = _
  rw [← isAtomic, List.set_getElem_self]

theorem Refines.called (refines : Refines map atomic) {index : Nat} {call : MapCall TKey TVal}
    (called : map.calls[index]? = some call) : atomic.calls[index]? = some call.atomic := by
  rw [refines.calls, List.getElem?_map, called]
  rfl

theorem Refines.setStage (refines : Refines map atomic) (index : Nat) (call : MapCall TKey TVal)
    (stage : MapStage TVal) : Refines (map.moveTo index call stage).tick
      (atomic.setStage index call.atomic stage.atomic) := by
  refine refines.frame rfl rfl (fun _ _ _ _ => id) ?_ ?_ rfl
  · exact congrArg (· + 1) refines.now
  · change _ = (map.moveTo index call stage).calls.map MapCall.atomic
    rw [atomic_calls_of_move, ← refines.calls]
    rfl

theorem Refines.history (refines : Refines map atomic) : map.history = atomic.history := by
  rw [ConcurrentMap.history, AtomicMap.history, refines.calls, List.map_map]
  apply List.map_congr_left
  rintro ⟨op, invoked, stage⟩ _
  cases stage <;> rfl

theorem refines_initial : Refines (.initial : ConcurrentMap skipList TVal) .initial where
  now := rfl
  calls := rfl
  length := rfl
  items _ _ located := by cases located

/-- Accesses that an `AtomicMap` does not have. -/
theorem Refines.stutter (refines : Refines map atomic) {pointers : Pointers} {values : List TVal}
    {calls : List (MapCall TKey TVal)}
    (sameCalls : calls.map MapCall.atomic = map.calls.map MapCall.atomic)
    (kept : map.values <+: values)
    (proxies : ∀ index item, map.Live index item →
      pointers.proxies[item.val]? = map.pointers.proxies[item.val]?) :
    Refines { map with pointers := pointers, values := values, calls := calls } atomic := by
  refine refines.frame rfl rfl ?_ refines.now ?_ rfl
  · intro index item isLive val holds
    exact value_at_kept holds (proxies index item isLive) kept
  · rw [sameCalls, refines.calls]

variable [DecidableEq TKey] {key : TKey}

theorem Refines.find_eq (refines : Refines map atomic) (wellFormed : map.WellFormed) (key : TKey) :
    atomic.find key = skipList.find map.list key := by
  cases isFound : atomic.find key with
  | some index =>
      obtain ⟨value, lists⟩ := AtomicMap.lists_of_find isFound
      have inside : index < map.items.length := by
        rw [← refines.length]
        exact (List.getElem?_eq_some_iff.mp lists).1
      obtain ⟨item, isItem, sameKey, isListed, _⟩ :=
        refines.items index _ (List.getElem?_eq_getElem inside)
      rw [AtomicMap.Lists, isItem] at lists
      cases lists
      change key = map.items[index].key at sameKey
      rw [sameKey]
      exact (isListed.mp rfl).symm
  | none =>
      cases isListed : skipList.find map.list key with
      | none => rfl
      | some index =>
          obtain ⟨known, ⟨located, isLive⟩, sameKey⟩ := wellFormed.found key index isListed
          obtain ⟨item, isItem, itemKey, listed, _⟩ := refines.items index known located
          rw [sameKey] at itemKey listed
          have lists : atomic.Lists index key item.value := by
            obtain ⟨itemsKey, value, erased⟩ := item
            cases itemKey
            cases listed.mpr isListed
            exact isItem
          exact absurd lists (AtomicMap.unlisted_of_find isFound index item.value)

theorem Refines.publish (refines : Refines map atomic) (wellFormed : map.WellFormed)
    (documented : skipList.Documented) (missing : skipList.find map.list key = none) (val : TVal) :
    Refines (map.publish key val) (atomic.add key val) where
  now := refines.now
  calls := refines.calls
  length := by
    change (atomic.items ++ [_]).length = (map.items ++ [_]).length
    rw [List.length_append, List.length_append, refines.length]
    rfl
  items place known located := by
    change ∃ item, (atomic.items ++ [_])[place]? = some item ∧ _
    change (map.items ++ [_])[place]? = some known at located
    have lists : skipList.find (map.publish key val).list known.key =
        if known.key = key then some map.items.length else skipList.find map.list known.key := by
      have added := documented.find_added map.list key map.items.length known.key
      rw [missing] at added
      exact added
    rw [lists]
    rcases found_append located with before | ⟨rfl, rfl⟩
    · obtain ⟨item, isItem, sameKey, isListed, isValue⟩ := refines.items place known before
      have inside := (List.getElem?_eq_some_iff.mp isItem).1
      refine ⟨item, (List.getElem?_append_left inside).trans isItem, sameKey, ?_, ?_⟩
      · split
        · rename_i same
          rw [isListed, same, missing]
          have other : map.items.length ≠ place := by
            rw [← refines.length]
            exact inside.ne'
          simp [other]
        · exact isListed
      · intro isLive
        refine value_at_kept (isValue isLive) ?_ (List.prefix_append map.values [val])
        exact List.getElem?_append_left (wellFormed.bound place known ⟨before, isLive⟩)
    · refine ⟨⟨key, val, false⟩, ?_, rfl, ?_, ?_⟩
      · rw [← refines.length, List.getElem?_concat_length]
      · rw [if_pos rfl]
        exact ⟨fun _ => rfl, fun _ => rfl⟩
      · intro _
        have pointed : map.pointers.publish.proxies[map.pointers.proxies.length + 1]? =
            some (some map.pointers.versions.length) := by
          change (map.pointers.proxies ++ [_, _])[_]? = _
          rw [List.getElem?_append_right (Nat.le_add_right _ 1), Nat.add_sub_cancel_left]
          rfl
        refine (value_at_of_pointed pointed).trans ?_
        change (map.values ++ [val])[map.pointers.versions.length]? = some val
        rw [← wellFormed.versions]
        exact List.getElem?_concat_length

theorem Refines.erase (refines : Refines map atomic) (documented : skipList.Documented)
    {item : Nat} (isFound : skipList.find map.list key = some item) {old : AtomicItem TKey TVal}
    (located : atomic.items[item]? = some old) (sameKey : old.key = key) :
    Refines { map with list := (skipList.erase map.list key).1 } (atomic.remove item old) where
  now := refines.now
  calls := refines.calls
  length := List.length_set.trans refines.length
  items place known isKnown := by
    obtain ⟨held, isItem, heldKey, isListed, isValue⟩ := refines.items place known isKnown
    change ∃ held, (atomic.items.set item _)[place]? = some held ∧ held.key = known.key ∧
      (held.erased = false ↔
        skipList.find (skipList.erase map.list key).1 known.key = some place) ∧ _
    rw [documented.find_erased]
    by_cases same : item = place
    · subst same
      cases located.symm.trans isItem
      refine ⟨{ old with erased := true }, ?_, heldKey, ?_, isValue⟩
      · exact List.getElem?_set_self (List.getElem?_eq_some_iff.mp located).1
      · rw [if_pos (heldKey.symm.trans sameKey)]
        simp
    · refine ⟨held, (List.getElem?_set_ne same).trans isItem, heldKey, ?_, isValue⟩
      split
      · rename_i isKey
        rw [isListed, isKey, isFound]
        simp [same]
      · exact isListed

theorem Refines.eraseNone (refines : Refines map atomic) (documented : skipList.Documented)
    (missing : skipList.find map.list key = none) :
    Refines { map with list := (skipList.erase map.list key).1 } atomic where
  now := refines.now
  calls := refines.calls
  length := refines.length
  items place known isKnown := by
    obtain ⟨held, isItem, heldKey, isListed, isValue⟩ := refines.items place known isKnown
    refine ⟨held, isItem, heldKey, ?_, isValue⟩
    change held.erased = false ↔
      skipList.find (skipList.erase map.list key).1 known.key = some place
    rw [documented.find_erased]
    split
    · rename_i isKey
      rw [isListed, isKey, missing]
    · exact isListed

omit [DecidableEq TKey] in
theorem Refines.setValue (refines : Refines map atomic) (wellFormed : map.WellFormed)
    {item version : Nat} {known : ConcurrentMapItem TKey} {old : AtomicItem TKey TVal} {val : TVal}
    {pointers : Pointers} (isLive : map.Live item known) (located : atomic.items[item]? = some old)
    (proxies : pointers.proxies = map.pointers.proxies.set known.val (some version))
    (isValue : map.values[version]? = some val) :
    Refines { map with pointers := pointers } (atomic.setValue item old val) where
  now := refines.now
  calls := refines.calls
  length := List.length_set.trans refines.length
  items place other isOther := by
    obtain ⟨held, isItem, heldKey, isListed, otherValue⟩ := refines.items place other isOther
    change ∃ held, (atomic.items.set item _)[place]? = some held ∧ _
    by_cases same : item = place
    · subst same
      cases located.symm.trans isItem
      obtain rfl : known = other := Option.some.inj (isLive.1.symm.trans isOther)
      refine ⟨{ old with value := val }, ?_, heldKey, isListed, ?_⟩
      · exact List.getElem?_set_self (List.getElem?_eq_some_iff.mp located).1
      · intro _
        refine (value_at_of_pointed ?_).trans isValue
        change pointers.proxies[known.val]? = some (some version)
        rw [proxies]
        exact List.getElem?_set_self (wellFormed.bound item known isLive)
    · refine ⟨held, (List.getElem?_set_ne same).trans isItem, heldKey, isListed, ?_⟩
      intro notDestroyed
      refine value_at_kept (otherValue notDestroyed) ?_ (List.prefix_refl _)
      change pointers.proxies[other.val]? = _
      rw [proxies]
      apply List.getElem?_set_ne
      intro sameProxy
      exact same
        (wellFormed.distinct item place known other isLive ⟨isOther, notDestroyed⟩ sameProxy)

omit [DecidableEq TKey] in
theorem Refines.recycle (refines : Refines map atomic) {item : Nat}
    {known : ConcurrentMapItem TKey} (located : map.items[item]? = some known) {pointers : Pointers}
    (proxies : pointers.proxies = map.pointers.proxies) :
    Refines { map with
      items := map.items.set item { known with destroyed := true }
      pointers := pointers } atomic where
  now := refines.now
  calls := refines.calls
  length := refines.length.trans List.length_set.symm
  items place other isOther := by
    change (map.items.set item _)[place]? = some other at isOther
    by_cases same : item = place
    · subst same
      rw [List.getElem?_set_self (List.getElem?_eq_some_iff.mp located).1] at isOther
      cases isOther
      obtain ⟨held, isItem, heldKey, isListed, _⟩ := refines.items item known located
      exact ⟨held, isItem, heldKey, isListed, fun isLive => by cases isLive⟩
    · rw [List.getElem?_set_ne same] at isOther
      obtain ⟨held, isItem, heldKey, isListed, isValue⟩ := refines.items place other isOther
      refine ⟨held, isItem, heldKey, isListed, ?_⟩
      intro isLive
      exact value_at_kept (isValue isLive) (congrArg (·[other.val]?) proxies) (List.prefix_refl _)

structure Represents (map : ConcurrentMap skipList TVal) (atomic : AtomicMap TKey TVal) : Prop where
  wellFormed : map.WellFormed
  refines : Refines map atomic

/-- The atomic map has gone on by one step, or by none, to what the map has become. -/
def Follows (atomic : AtomicMap TKey TVal) (next : ConcurrentMap skipList TVal) : Prop :=
  ∃ after, (after = atomic ∨ ∃ action, (atomicMachine TKey TVal).step atomic action = some after) ∧
    Represents next after

section Steps

variable {index : Nat} {call : MapCall TKey TVal} (wellFormed : map.WellFormed)
  (refines : Refines map atomic)

include wellFormed refines

theorem follows_of_access {stage : MapStage TVal} {later : ProxyStage} {pointers : Pointers}
    {values : List TVal} (called : map.calls[index]? = some call)
    (same : stage.atomic = call.stage.atomic)
    (threads : pointers.threads = map.pointers.threads.set index later)
    (proxies : map.pointers.proxies.length ≤ pointers.proxies.length)
    (kept : map.values <+: values) (versions : values.length = pointers.versions.length)
    (others : ∀ place item, map.Live place item →
      pointers.proxies[item.val]? = map.pointers.proxies[item.val]?)
    (coherent : { map.moveTo index call stage with pointers := pointers, values := values }.Coherent
      index { call with stage := stage } later) :
    Follows atomic { map.moveTo index call stage with pointers := pointers, values := values } :=
  ⟨atomic, Or.inl rfl, wellFormed.moveTo threads proxies kept versions coherent,
    refines.stutter (atomic_calls_of_same called same) kept others⟩

theorem follows_of_stage {stage : MapStage TVal}
    (idle : map.pointers.threads[index]? = some .idle)
    (coherent :
      (map.moveTo index call stage).tick.Coherent index { call with stage := stage } .idle)
    (stepped : atomic.advance index = some (atomic.setStage index call.atomic stage.atomic)) :
    Follows atomic (map.moveTo index call stage).tick :=
  ⟨_, Or.inr ⟨.advance index, stepped⟩, wellFormed.proceed idle coherent,
    refines.setStage index call stage⟩

theorem follows_of_invoke (op : MapOp TKey TVal) : Follows atomic (map.invoke op) := by
  refine ⟨atomic.invoke op, Or.inr ⟨.invoke op, rfl⟩, ?_, ?_⟩
  · refine wellFormed.settle map.calls.length rfl rfl (Nat.le_refl _) (fun _ _ => id)
      wellFormed.versions ?_ ?_ ?_ ?_
    · change (map.pointers.threads ++ [ProxyStage.idle]).length = (map.calls ++ [_]).length
      rw [List.length_append, List.length_append, wellFormed.threads]
      rfl
    · intro other isOther
      exact get_of_append isOther
    · intro other isOther
      rw [← wellFormed.threads] at isOther
      exact get_of_append isOther
    · intro call stage called inMethod
      change (map.calls ++ [_])[map.calls.length]? = _ at called
      change (map.pointers.threads ++ [ProxyStage.idle])[map.calls.length]? = _ at inMethod
      rw [List.getElem?_concat_length] at called
      rw [← wellFormed.threads, List.getElem?_concat_length] at inMethod
      cases called
      cases inMethod
      exact rfl
  · refine refines.frame rfl rfl (fun _ _ _ _ => id) ?_ ?_ rfl
    · exact congrArg (· + 1) refines.now
    · change atomic.calls ++ [_] = (map.calls ++ [_]).map MapCall.atomic
      rw [List.map_append, ← refines.calls, refines.now]
      rfl

theorem follows_of_find {op : MapOp TKey TVal} {invoked : Nat}
    (called : map.calls[index]? = some ⟨op, invoked, .called⟩)
    (searches : ∀ key, op ≠ .erase key) (idle : map.pointers.threads[index]? = some .idle) :
    Follows atomic (map.find index ⟨op, invoked, .called⟩) := by
  have held := refines.called called
  have find_eq := refines.find_eq wellFormed op.key
  unfold ConcurrentMap.find
  cases isFound : skipList.find map.list op.key with
  | some item =>
      obtain ⟨known, isLive, _⟩ := wellFormed.found op.key item isFound
      have coherent : (map.moveTo index ⟨op, invoked, .called⟩ (.found item)).tick.Coherent index
          ⟨op, invoked, .found item⟩ .idle := ⟨rfl, known, isLive⟩
      apply follows_of_stage wellFormed refines idle coherent
      rw [isFound] at find_eq
      rw [AtomicMap.advance, held]
      cases op with
      | insertOrUpdate key val =>
          change atomic.find key = some item at find_eq
          simp only [MapCall.atomic, MapStage.atomic, AtomicMap.insertOrUpdate, find_eq]
      | erase key => exact absurd rfl (searches key)
      | getOption key =>
          change atomic.find key = some item at find_eq
          simp only [MapCall.atomic, MapStage.atomic, AtomicMap.getOption, find_eq]
  | none =>
      rw [isFound] at find_eq
      cases op with
      | insertOrUpdate key val =>
          have coherent : (map.moveTo index ⟨.insertOrUpdate key val, invoked, .called⟩
            .missing).tick.Coherent index ⟨.insertOrUpdate key val, invoked, .missing⟩ .idle := rfl
          apply follows_of_stage wellFormed refines idle coherent
          change atomic.find key = none at find_eq
          rw [AtomicMap.advance, held]
          simp only [MapCall.atomic, MapStage.atomic, AtomicMap.insertOrUpdate, find_eq]
      | erase key => exact absurd rfl (searches key)
      | getOption key =>
          apply follows_of_stage wellFormed refines idle
            (coherent_of_idle _ index (.getOption key) invoked (.option none))
          change atomic.find key = none at find_eq
          rw [AtomicMap.advance, held]
          simp only [MapCall.atomic, MapStage.atomic, AtomicMap.getOption, find_eq]

theorem follows_of_reset {key : TKey} {val : TVal} {invoked item : Nat}
    (called : map.calls[index]? = some ⟨.insertOrUpdate key val, invoked, .found item⟩)
    (isLive : ∃ known, map.Live item known)
    (stepped : map.reset index ⟨.insertOrUpdate key val, invoked, .found item⟩ item val =
      some next) : Follows atomic next := by
  obtain ⟨known, isLive⟩ := isLive
  obtain ⟨other, located, stepped⟩ := Option.bind_eq_some_iff.mp stepped
  obtain ⟨pointers, started, isNext⟩ := Option.bind_eq_some_iff.mp stepped
  obtain rfl : known = other := Option.some.inj (isLive.1.symm.trans located)
  obtain ⟨_, rfl⟩ := start_of_step rfl started
  cases isNext
  have isValue : (map.values ++ [val])[map.pointers.versions.length]? = some val := by
    rw [← wellFormed.versions, List.getElem?_concat_length]
  refine follows_of_access wellFormed refines called rfl rfl (Nat.le_refl _)
    (List.prefix_append map.values [val]) ?_ (fun _ _ _ => rfl) ?_
  · change (map.values ++ [val]).length = (map.pointers.versions ++ [_]).length
    rw [List.length_append, List.length_append, wellFormed.versions]
    rfl
  · exact ⟨known, key, val, map.pointers.versions.length, isLive, rfl, isValue, Or.inl rfl⟩

theorem follows_of_get {key : TKey} {invoked item : Nat}
    (called : map.calls[index]? = some ⟨.getOption key, invoked, .found item⟩)
    (isLive : ∃ known, map.Live item known)
    (stepped : map.getValuePtr index ⟨.getOption key, invoked, .found item⟩ item = some next) :
    Follows atomic next := by
  obtain ⟨known, isLive⟩ := isLive
  obtain ⟨other, located, stepped⟩ := Option.bind_eq_some_iff.mp stepped
  obtain ⟨pointers, started, isNext⟩ := Option.bind_eq_some_iff.mp stepped
  obtain rfl : known = other := Option.some.inj (isLive.1.symm.trans located)
  obtain ⟨_, rfl⟩ := start_of_step rfl started
  cases isNext
  have longer : map.pointers.proxies.length < (map.pointers.proxies ++ [none]).length := by
    rw [List.length_append]
    exact Nat.lt_succ_self _
  refine follows_of_access wellFormed refines called rfl rfl longer.le (List.prefix_refl _)
    wellFormed.versions ?_ ?_
  · intro place item isItem
    exact List.getElem?_append_left (wellFormed.bound place item isItem)
  · refine ⟨known, key, map.pointers.proxies.length, isLive, rfl, rfl, longer, ?_⟩
    intro place item isItem
    exact (wellFormed.bound place item isItem).ne

theorem follows_of_add (documented : skipList.Documented) {key : TKey} {val : TVal} {invoked : Nat}
    (called : map.calls[index]? = some ⟨.insertOrUpdate key val, invoked, .missing⟩)
    (idle : map.pointers.threads[index]? = some .idle) :
    Follows atomic
      (map.addOrGetData index ⟨.insertOrUpdate key val, invoked, .missing⟩ key val) := by
  have held := refines.called called
  have find_eq := refines.find_eq wellFormed key
  unfold ConcurrentMap.addOrGetData
  cases isFound : skipList.find map.list key with
  | some item =>
      apply follows_of_stage wellFormed refines idle
        (coherent_of_idle _ index (.insertOrUpdate key val) invoked .void)
      rw [isFound] at find_eq
      rw [AtomicMap.advance, held]
      simp only [MapCall.atomic, MapStage.atomic, AtomicMap.insertOrUpdate, find_eq]
  | none =>
      rw [isFound] at find_eq
      refine ⟨(atomic.add key val).setStage index ⟨.insertOrUpdate key val, invoked, .missing⟩
        (.decided .void), Or.inr ⟨.advance index, ?_⟩, ?_, ?_⟩
      · change atomic.advance index = _
        rw [AtomicMap.advance, held]
        simp only [MapCall.atomic, MapStage.atomic, AtomicMap.insertOrUpdate, find_eq]
      · have published := wellFormed.publish documented isFound val
        refine published.proceed idle ⟨fun _ => False.elim, ?_⟩
        intro action member
        cases List.mem_singleton.mp member
        exact ⟨rfl, free_publish wellFormed val⟩
      · exact (refines.publish wellFormed documented isFound val).setStage index
          ⟨.insertOrUpdate key val, invoked, .missing⟩ _

theorem follows_of_erase (documented : skipList.Documented) {key : TKey} {invoked : Nat}
    (called : map.calls[index]? = some ⟨.erase key, invoked, .called⟩)
    (idle : map.pointers.threads[index]? = some .idle) :
    Follows atomic (map.erase index ⟨.erase key, invoked, .called⟩ key) := by
  have held := refines.called called
  have find_eq := refines.find_eq wellFormed key
  have erased := documented.erased map.list key
  let erasedMap : ConcurrentMap skipList TVal :=
    { map with list := (skipList.erase map.list key).1 }
  have stays (result : MapResult TVal) :
      (erasedMap.moveTo index ⟨.erase key, invoked, .called⟩
        (.decided [] result)).tick.WellFormed :=
    (wellFormed.erase documented key).proceed idle
      (coherent_of_idle _ index (.erase key) invoked result)
  unfold ConcurrentMap.erase
  dsimp only
  cases isFound : skipList.find map.list key with
  | some item =>
      rw [isFound] at find_eq erased
      obtain ⟨value, lists⟩ := AtomicMap.lists_of_find find_eq
      rw [erased]
      refine ⟨(atomic.remove item ⟨key, value, false⟩).setStage index ⟨.erase key, invoked, .called⟩
        (.decided (.erased true)), Or.inr ⟨.advance index, ?_⟩, stays _, ?_⟩
      · change atomic.advance index = _
        rw [AtomicMap.advance, held]
        simp only [MapCall.atomic, MapStage.atomic, AtomicMap.erase, find_eq]
        rw [lists]
        rfl
      · exact (refines.erase documented isFound lists rfl).setStage index
          ⟨.erase key, invoked, .called⟩ (.decided [] (.erased true))
  | none =>
      rw [isFound] at find_eq erased
      rw [erased]
      refine ⟨atomic.setStage index ⟨.erase key, invoked, .called⟩ (.decided (.erased false)),
        Or.inr ⟨.advance index, ?_⟩, stays _, ?_⟩
      · change atomic.advance index = _
        rw [AtomicMap.advance, held]
        simp only [MapCall.atomic, MapStage.atomic, AtomicMap.erase, find_eq]
      · exact (refines.eraseNone documented isFound).setStage index
          ⟨.erase key, invoked, .called⟩ (.decided [] (.erased false))

omit refines wellFormed [DecidableEq TKey] in
theorem move_to_same (called : map.calls[index]? = some call) :
    map.moveTo index call call.stage = map := by
  obtain ⟨inside, rfl⟩ := List.getElem?_eq_some_iff.mp called
  rw [ConcurrentMap.moveTo, List.set_getElem_self]

theorem follows_of_spares {stage : MapStage TVal} {pointers : Pointers}
    (called : map.calls[index]? = some call) (same : stage.atomic = call.stage.atomic)
    (spares : map.Spares index pointers)
    (coherent : ∀ later : ProxyStage,
      (∀ proxy, later.Targets proxy → { map with pointers := pointers }.Free proxy) →
      { map with pointers := pointers }.Coherent index { call with stage := stage } later) :
    Follows atomic { map.moveTo index call stage with pointers := pointers } := by
  obtain ⟨⟨later, threads, own⟩, versions, count, others⟩ := spares
  exact follows_of_access wellFormed refines called same threads count (List.prefix_refl _)
    (wellFormed.versions.trans versions.symm) others (coherent later own)

omit refines wellFormed [DecidableEq TKey] in
theorem grows_of_spares {pointers : Pointers} (spares : map.Spares index pointers) :
    map.Grows { map with pointers := pointers } :=
  ⟨spares.count, fun _ _ => id, fun _ _ => Or.inl⟩

theorem follows_of_proxy {op : MapOp TKey TVal} {invoked : Nat} {result : MapResult TVal}
    {action : PointerAction} {left : List PointerAction}
    (called : map.calls[index]? = some ⟨op, invoked, .decided (action :: left) result⟩)
    (leaves : ∀ other ∈ action :: left, map.Leaves index other)
    (stepped : map.callProxy index ⟨op, invoked, .decided (action :: left) result⟩ action left
      result = some next) : Follows atomic next := by
  obtain ⟨pointers, started, rfl⟩ := Option.map_eq_some_iff.mp stepped
  have spares : map.Spares index pointers := by
    have mine := leaves action List.mem_cons_self
    cases action with
    | copy thread source =>
        cases mine
        exact spares_of_copy wellFormed started
    | destroy thread proxy =>
        obtain ⟨rfl, free⟩ := mine
        exact spares_of_destroy free started
    | _ => exact mine.elim
  refine follows_of_spares wellFormed refines called rfl spares fun later own => ⟨own, ?_⟩
  intro other member
  exact (leaves other (List.mem_cons_of_mem _ member)).grow (grows_of_spares spares)

theorem follows_of_return {op : MapOp TKey TVal} {invoked : Nat} {result : MapResult TVal}
    (called : map.calls[index]? = some ⟨op, invoked, .decided [] result⟩)
    (idle : map.pointers.threads[index]? = some .idle) :
    Follows atomic
      (map.moveTo index ⟨op, invoked, .decided [] result⟩ (.returned map.now result)).tick := by
  have coherent : (map.moveTo index ⟨op, invoked, .decided [] result⟩
      (.returned map.now result)).tick.Coherent index
        ⟨op, invoked, .returned map.now result⟩ .idle :=
    fun _ => False.elim
  apply follows_of_stage wellFormed refines idle coherent
  rw [AtomicMap.advance, refines.called called]
  simp only [MapCall.atomic, MapStage.atomic, refines.now]

theorem follows_of_proceed (documented : skipList.Documented)
    (called : map.calls[index]? = some call) (idle : map.pointers.threads[index]? = some .idle)
    (stepped : map.proceed index call = some next) : Follows atomic next := by
  have coherent := wellFormed.coherent index call .idle called idle
  obtain ⟨op, invoked, stage⟩ := call
  cases stage with
  | called =>
      cases op with
      | insertOrUpdate key val =>
          cases stepped
          exact follows_of_find wellFormed refines called (by simp) idle
      | erase key =>
          cases stepped
          exact follows_of_erase wellFormed refines documented called idle
      | getOption key =>
          cases stepped
          exact follows_of_find wellFormed refines called (by simp) idle
  | found item =>
      cases op with
      | insertOrUpdate key val =>
          exact follows_of_reset wellFormed refines called coherent.2 stepped
      | erase key => cases stepped
      | getOption key => exact follows_of_get wellFormed refines called coherent.2 stepped
  | missing =>
      cases op with
      | insertOrUpdate key val =>
          cases stepped
          exact follows_of_add wellFormed refines documented called idle
      | _ => cases stepped
  | decided left result =>
      cases left with
      | nil =>
          cases stepped
          exact follows_of_return wellFormed refines called idle
      | cons action left => exact follows_of_proxy wellFormed refines called coherent.2 stepped
  | _ => cases stepped

/-- `setValue` takes effect when the proxy of its item leads to the new version. -/
theorem follows_of_set {key : TKey} {val : TVal} {invoked item version : Nat}
    {known : ConcurrentMapItem TKey} {later : ProxyStage} {pointers : Pointers}
    (called : map.calls[index]? = some ⟨.insertOrUpdate key val, invoked, .setting item⟩)
    (isLive : map.Live item known) (isValue : map.values[version]? = some val)
    (threads : pointers.threads = map.pointers.threads.set index later)
    (versions : pointers.versions.length = map.pointers.versions.length)
    (proxies : pointers.proxies = map.pointers.proxies.set known.val (some version))
    (targets : ∀ proxy, ¬ later.Targets proxy) :
    Follows atomic (({ map with pointers := pointers } : ConcurrentMap skipList TVal).moveTo index
      ⟨.insertOrUpdate key val, invoked, .setting item⟩ (.decided [] .void)).tick := by
  obtain ⟨old, located, _⟩ := refines.items item known isLive.1
  have stepped : atomic.advance index = some ((atomic.setValue item old val).setStage index
      ⟨.insertOrUpdate key val, invoked, .found item⟩ (.decided .void)) := by
    rw [AtomicMap.advance, refines.called called]
    simp only [MapCall.atomic, MapStage.atomic, AtomicMap.insertOrUpdate]
    rw [located, Option.map_some]
  refine ⟨_, Or.inr ⟨.advance index, stepped⟩, ?_, ?_⟩
  · have count : map.pointers.proxies.length ≤ pointers.proxies.length := by
      rw [proxies, List.length_set]
    refine wellFormed.moveTo threads count (List.prefix_refl _)
      (wellFormed.versions.trans versions.symm) ⟨?_, fun _ member => absurd member List.not_mem_nil⟩
    exact fun proxy isTarget => absurd isTarget (targets proxy)
  · exact (refines.setValue wellFormed isLive located proxies isValue).setStage index
      ⟨.insertOrUpdate key val, invoked, .setting item⟩ (.decided [] .void)

theorem follows_of_waiting {pointers : Pointers} {later : ProxyStage}
    (called : map.calls[index]? = some call)
    (threads : pointers.threads = map.pointers.threads.set index later)
    (versions : pointers.versions.length = map.pointers.versions.length)
    (proxies : pointers.proxies = map.pointers.proxies)
    (coherent : { map with pointers := pointers }.Coherent index call later) :
    Follows atomic { map with pointers := pointers } := by
  have follows : Follows atomic { map.moveTo index call call.stage with
      pointers := pointers, values := map.values } :=
    follows_of_access wellFormed refines called rfl threads (congrArg List.length proxies).ge
      (List.prefix_refl _) (wellFormed.versions.trans versions.symm)
      (fun _ item _ => congrArg (·[item.val]?) proxies)
        (by rw [move_to_same called]; exact coherent)
  rw [move_to_same called] at follows
  exact follows

theorem follows_of_setting {op : MapOp TKey TVal} {invoked item : Nat} {stage : ProxyStage}
    (called : map.calls[index]? = some ⟨op, invoked, .setting item⟩)
    (inMethod : map.pointers.threads[index]? = some stage)
    (stepped : map.access index ⟨op, invoked, .setting item⟩ stage = some next) :
    Follows atomic next := by
  have coherent := wellFormed.coherent index _ stage called inMethod
  obtain ⟨known, key, val, version, isLive, isOp, isValue, isStage⟩ := coherent
  have inside := (List.getElem?_eq_some_iff.mp inMethod).1
  cases isOp
  obtain ⟨pointers, advanced, rfl⟩ := Option.map_eq_some_iff.mp stepped
  have any_eq (later : ProxyStage) :
      ((map.pointers.threads.set index later)[index]?).any ProxyStage.unsettled =
        later.unsettled := by
    rw [List.getElem?_set_self inside]
    rfl
  have settles {later : ProxyStage} (isSettled : later.unsettled = false) :
      ((map.pointers.threads.set index later)[index]?).any ProxyStage.unsettled = false :=
    (any_eq later).trans isSettled
  have waits {later : ProxyStage} (isWaiting : later.unsettled = true) :
      ((map.pointers.threads.set index later)[index]?).any ProxyStage.unsettled = true :=
    (any_eq later).trans isWaiting
  rcases isStage with rfl | ⟨prevBase, rfl⟩
  · obtain ⟨base, pointed, rfl⟩ := Option.map_eq_some_iff.mp advanced
    by_cases settled : base = some version
    · rw [if_pos settled]
      change Follows atomic (if ((map.pointers.threads.set index .idle)[index]?).any
        ProxyStage.unsettled then _ else _)
      rw [settles rfl, if_neg Bool.false_ne_true]
      have same : map.pointers.proxies = map.pointers.proxies.set known.val (some version) := by
        obtain ⟨within, isBase⟩ := List.getElem?_eq_some_iff.mp pointed
        rw [← settled, ← isBase, List.set_getElem_self]
      exact follows_of_set wellFormed refines called isLive isValue rfl rfl same fun _ => id
    · rw [if_neg settled]
      change Follows atomic (if ((map.pointers.threads.set index
        (.exchanging known.val (some version) base))[index]?).any ProxyStage.unsettled
        then _ else _)
      rw [waits rfl, if_pos rfl]
      exact follows_of_waiting wellFormed refines called rfl rfl rfl
        ⟨known, key, val, version, isLive, rfl, isValue, Or.inr ⟨base, rfl⟩⟩
  · obtain ⟨base, pointed, rfl⟩ := Option.map_eq_some_iff.mp advanced
    unfold Pointers.exchange
    by_cases same : base = prevBase
    · have within : version < map.pointers.versions.length := by
        rw [← wellFormed.versions]
        exact (List.getElem?_eq_some_iff.mp isValue).1
      rw [if_pos same]
      dsimp only
      rw [List.getElem?_eq_getElem within]
      change Follows atomic (if ((map.pointers.threads.set index
        (.incrementing version prevBase))[index]?).any ProxyStage.unsettled then _ else _)
      rw [settles rfl, if_neg Bool.false_ne_true]
      exact follows_of_set wellFormed refines called isLive isValue rfl List.length_set rfl
        fun _ => id
    · rw [if_neg same]
      change Follows atomic (if ((map.pointers.threads.set index
        (.setting known.val (some version)))[index]?).any ProxyStage.unsettled then _ else _)
      rw [waits rfl, if_pos rfl]
      exact follows_of_waiting wellFormed refines called rfl rfl rfl
        ⟨known, key, val, version, isLive, rfl, isValue, Or.inl rfl⟩

/-- `getOption` takes effect when it has loaded the pointer. -/
theorem follows_of_copying {op : MapOp TKey TVal} {invoked item : Nat} {stage : ProxyStage}
    (called : map.calls[index]? = some ⟨op, invoked, .copying item⟩)
    (inMethod : map.pointers.threads[index]? = some stage)
    (stepped : map.access index ⟨op, invoked, .copying item⟩ stage = some next) :
    Follows atomic next := by
  have coherent := wellFormed.coherent index _ stage called inMethod
  obtain ⟨known, key, target, isLive, isOp, rfl, free⟩ := coherent
  cases isOp
  obtain ⟨pointers, advanced, rfl⟩ := Option.map_eq_some_iff.mp stepped
  obtain ⟨base, pointed, rfl⟩ := Option.map_eq_some_iff.mp advanced
  obtain ⟨old, located, _, _, isValue⟩ := refines.items item known isLive.1
  have stepped : atomic.advance index = some (atomic.setStage index
      ⟨.getOption key, invoked, .found item⟩ (.decided (.option (some old.value)))) := by
    rw [AtomicMap.advance, refines.called called]
    simp only [MapCall.atomic, MapStage.atomic, AtomicMap.getOption]
    rw [located, Option.map_some]
  refine ⟨_, Or.inr ⟨.advance index, stepped⟩, ?_, ?_⟩
  · refine wellFormed.moveTo rfl (Nat.le_refl _) (List.prefix_refl _) wellFormed.versions ⟨?_, ?_⟩
    · rintro proxy rfl
      exact free
    · intro action member
      rcases List.mem_cons.mp member with rfl | last
      · exact rfl
      · cases List.mem_singleton.mp last
        exact ⟨rfl, free⟩
  · have loaded : Refines { map with
        pointers := map.pointers.moveTo index (.setting target base) } atomic :=
      refines.stutter rfl (List.prefix_refl _) fun _ _ _ => rfl
    dsimp only
    rw [isValue isLive.2]
    exact loaded.setStage index ⟨.getOption key, invoked, .copying item⟩
      (.decided _ (.option (some old.value)))

theorem follows_in_method (called : map.calls[index]? = some call) {stage : ProxyStage}
    (inMethod : map.pointers.threads[index]? = some stage)
    (stepped : map.access index call stage = some next) : Follows atomic next := by
  have coherent := wellFormed.coherent index call stage called inMethod
  obtain ⟨op, invoked, callStage⟩ := call
  cases callStage with
  | setting item => exact follows_of_setting wellFormed refines called inMethod stepped
  | copying item => exact follows_of_copying wellFormed refines called inMethod stepped
  | called => cases coherent; cases stepped
  | found item => cases coherent.1; cases stepped
  | missing => cases coherent; cases stepped
  | decided left result =>
      obtain ⟨pointers, advanced, rfl⟩ := Option.map_eq_some_iff.mp stepped
      have spares := spares_of_advance coherent.1 advanced
      have follows := follows_of_spares wellFormed refines called rfl spares fun later own =>
        ⟨own, fun action member => (coherent.2 action member).grow (grows_of_spares spares)⟩
      rw [move_to_same called] at follows
      exact follows
  | returned time result =>
      obtain ⟨pointers, advanced, rfl⟩ := Option.map_eq_some_iff.mp stepped
      have spares := spares_of_advance coherent advanced
      have follows := follows_of_spares wellFormed refines called rfl spares fun later own => own
      rw [move_to_same called] at follows
      exact follows

theorem follows_of_use {action : PointerAction} {pointers : Pointers}
    (usable : map.usable action = true) (used : map.pointers.step action = some pointers) :
    Follows atomic { map with pointers := pointers } := by
  obtain ⟨thread, returned, spares⟩ := spares_of_usable wellFormed usable used
  unfold ConcurrentMap.hasReturned at returned
  split at returned
  · rename_i op invoked time result called
    have follows := follows_of_spares wellFormed refines called rfl spares fun later own => own
    rw [move_to_same called] at follows
    exact follows
  · cases returned

end Steps

/-- Each step of a `ConcurrentMap` is one of an `AtomicMap`, or none. -/
theorem follows_of_step (documented : skipList.Documented) (wellFormed : map.WellFormed)
    (refines : Refines map atomic) {action : MapAction TKey TVal}
    (stepped : (mapMachine skipList TVal).step map action = some next) : Follows atomic next := by
  cases map_step_of_step stepped with
  | invoke op => exact follows_of_invoke wellFormed refines op
  | proceed called idle proceeded =>
      exact follows_of_proceed wellFormed refines documented called idle proceeded
  | access called inMethod accessed =>
      exact follows_in_method wellFormed refines called inMethod accessed
  | use usable used => exact follows_of_use wellFormed refines usable used
  | recycle called located notDestroyed unheld erased started =>
      refine ⟨atomic, Or.inl rfl,
        wellFormed.recycle called ⟨located, notDestroyed⟩ unheld erased started, ?_⟩
      obtain ⟨_, rfl⟩ := start_of_step rfl started
      exact refines.recycle located rfl

end Refinement

end Relevanced.Util

import Relevanced.Foundation.ByteString
import Relevanced.Foundation.OrderedMap
import Relevanced.Foundation.Program

/-!
# RockHandle

The key-value store behind `SyncPersistence`: RocksDB taken as an ordered map of
byte strings whose iterators are snapshots. Every `put`, `get`, `exists`, `del`
and `NewIterator` is one call; the iteration functions are programs over these
calls, so that a callback may itself read and write the store while the iterator
keeps walking the snapshot it was created from.
-/

namespace Relevanced.Persistence

open Foundation

set_option autoImplicit false

abbrev Store := OrderedMap Bytes Bytes

inductive RockCall where
  | put (key value : Bytes)
  | get (key : Bytes)
  | existsKey (key : Bytes)
  | del (key : Bytes)
  | newIterator

abbrev RockHandleIf : Interface where
  Call := RockCall
  Answer
    | .put _ _ => Bool
    | .get _ => Option Bytes
    | .existsKey _ => Bool
    | .del _ => Bool
    | .newIterator => List (Bytes × Bytes)

abbrev RockProgram := Program RockHandleIf

def put (key value : Bytes) : RockProgram Bool := @Program.perform RockHandleIf (.put key value)

def get (key : Bytes) : RockProgram (Option Bytes) := @Program.perform RockHandleIf (.get key)

def existsKey (key : Bytes) : RockProgram Bool := @Program.perform RockHandleIf (.existsKey key)

def del (key : Bytes) : RockProgram Bool := @Program.perform RockHandleIf (.del key)

/-- `db_->NewIterator`: the entries the iterator will walk, in key order. -/
def newIterator : RockProgram (List (Bytes × Bytes)) :=
  @Program.perform RockHandleIf .newIterator

/-- RocksDB as an ordered map. `put` always succeeds; `del` reports whether the key was there. -/
def rockHandle : Program.Handler RockHandleIf Store
  | .put key value, store => (true, store.insert key value)
  | .get key, store => (store[key]?, store)
  | .existsKey key, store => (store.contains key, store)
  | .del key, store =>
      if store.contains key then (true, store.erase key) else (false, store)
  | .newIterator, store => (store.toList, store)

section Iteration

variable {α : Type}

/-- A callback of an iteration over its captured variables `α`: it sees the key and the
value the iterator stands on, and says whether it called `escape`. -/
abbrev IterFn (α : Type) := Bytes → Bytes → α → RockProgram (α × Bool)

/-- The `for` loop of `iterRange` from the entries the iterator still has to visit. -/
def iterLoop (stop : Bytes) (iterFn : IterFn α) :
    List (Bytes × Bytes) → Bool → α → RockProgram (Bool × α)
  | [], foundAny, captured => pure (foundAny, captured)
  | (key, value) :: it, foundAny, captured =>
      if key < stop then do
        let (captured, escaped) ← iterFn key value captured
        if escaped then pure (true, captured) else iterLoop stop iterFn it true captured
      else pure (foundAny, captured)

def iterRange (start stop : Bytes) (iterFn : IterFn α) (captured : α) :
    RockProgram (Bool × α) := do
  let entries ← newIterator
  let it := entries.dropWhile fun entry => entry.1 < start
  iterLoop stop iterFn it false captured

def colon : Byte := 58

def semicolon : Byte := 59

def iterPrefix (label : Bytes) (iterFn : IterFn α) (captured : α) : RockProgram (Bool × α) :=
  iterRange (label ++ [colon]) (label ++ [semicolon]) iterFn captured

/-- The captured counters of the ranged iterations around those of their own callback. -/
structure Progress (α : Type) where
  anySeen : Bool
  offsetSeen : Nat
  limitSeen : Nat
  captured : α

def Progress.initial (captured : α) : Progress α where
  anySeen := false
  offsetSeen := 0
  limitSeen := 0
  captured := captured

/-- The part of both ranged callbacks that counts towards `limitCount`. -/
def limited (limitCount : Nat) (iterFn : IterFn α) : IterFn (Progress α) :=
  fun key value progress =>
    let progress := { progress with anySeen := true, limitSeen := progress.limitSeen + 1 }
    if progress.limitSeen > limitCount then pure (progress, true)
    else do
      let (captured, escaped) ← iterFn key value progress.captured
      pure ({ progress with captured := captured }, escaped)

def skipping (offset limitCount : Nat) (iterFn : IterFn α) : IterFn (Progress α) :=
  fun key value progress =>
    let progress := { progress with offsetSeen := progress.offsetSeen + 1 }
    if progress.offsetSeen ≤ offset then pure (progress, false)
    else limited limitCount iterFn key value progress

def iterPrefixFromOffset (label : Bytes) (offset limitCount : Nat) (iterFn : IterFn α)
    (captured : α) : RockProgram (Bool × α) := do
  let (_, progress) ← iterRange (label ++ [colon]) (label ++ [semicolon])
    (skipping offset limitCount iterFn) (Progress.initial captured)
  pure (progress.anySeen, progress.captured)

def iterPrefixFromMember (label member : Bytes) (limitCount : Nat) (iterFn : IterFn α)
    (captured : α) : RockProgram (Bool × α) := do
  let (_, progress) ← iterRange (label ++ colon :: member) (label ++ [semicolon])
    (limited limitCount iterFn) (Progress.initial captured)
  pure (progress.anySeen, progress.captured)

/-- The same loop over entries that all lie before the stop key. -/
def walk (iterFn : IterFn α) : List (Bytes × Bytes) → Bool → α → RockProgram (Bool × α)
  | [], foundAny, captured => pure (foundAny, captured)
  | (key, value) :: it, _, captured => do
      let (captured, escaped) ← iterFn key value captured
      if escaped then pure (true, captured) else walk iterFn it true captured

theorem iter_loop_eq_walk (stop : Bytes) (iterFn : IterFn α) (it : List (Bytes × Bytes))
    (foundAny : Bool) (captured : α) :
    iterLoop stop iterFn it foundAny captured =
      walk iterFn (it.takeWhile fun entry => entry.1 < stop) foundAny captured := by
  induction it generalizing foundAny captured with
  | nil => rfl
  | cons entry it ih =>
      by_cases before : entry.1 < stop
      · simp only [iterLoop, walk, before, if_true, decide_true, List.takeWhile_cons_of_pos, ih]
      · simp only [iterLoop, walk, before, if_false, decide_false, Bool.false_eq_true,
          not_false_eq_true, List.takeWhile_cons_of_neg]

theorem run_iter_range (start stop : Bytes) (iterFn : IterFn α) (captured : α) (store : Store) :
    (iterRange start stop iterFn captured).run rockHandle store =
      (walk iterFn (OrderedMap.range store start stop) false captured).run rockHandle store := by
  rw [iterRange, newIterator, Program.run_bind, Program.run_perform]
  simp only [rockHandle, iter_loop_eq_walk, OrderedMap.seek_then_walk]

end Iteration

theorem semicolon_after_colon : colon ⋖ semicolon := by
  refine ⟨by decide, ?_⟩
  intro byte above below
  simp only [colon, semicolon, Fin.lt_def] at above below
  omega

/-- The keys `iterPrefix` visits: those that begin with the label and a colon. -/
theorem in_prefix_range_iff (label key : Bytes) :
    label ++ [colon] ≤ key ∧ key < label ++ [semicolon] ↔ label ++ [colon] <+: key :=
  prefix_range_iff semicolon_after_colon label key

section Effects

@[simp] theorem run_put (key value : Bytes) (store : Store) :
    (put key value).run rockHandle store = (true, store.insert key value) := rfl

@[simp] theorem run_get (key : Bytes) (store : Store) :
    (get key).run rockHandle store = (store[key]?, store) := rfl

@[simp] theorem run_exists_key (key : Bytes) (store : Store) :
    (existsKey key).run rockHandle store = (store.contains key, store) := rfl

@[simp] theorem run_del (key : Bytes) (store : Store) :
    (del key).run rockHandle store = (store.contains key, store.erase key) := by
  rw [del, Program.run_perform]
  cases held : store.contains key with
  | true => simp only [rockHandle, held, if_true]
  | false =>
      have absent : key ∉ store := by
        intro present
        rw [Std.ExtTreeMap.contains_iff_mem.mpr present] at held
        cases held
      simp only [rockHandle, held, Bool.false_eq_true, if_false]
      rw [OrderedMap.erase_of_absent absent]

theorem store_after_del (key : Bytes) (store : Store) :
    (rockHandle (.del key) store).2 = store.erase key :=
  congrArg Prod.snd (run_del key store)

end Effects

section Collecting

variable {β : Type} (decode : Bytes → β)

/-- The callback of every listing: it appends what it makes of the key and never escapes. -/
def collecting : IterFn (List β) := fun key _ seen => pure (seen ++ [decode key], false)

theorem walk_collecting (entries : List (Bytes × Bytes)) (foundAny : Bool) (seen : List β) :
    walk (collecting decode) entries foundAny seen =
      pure (foundAny || !entries.isEmpty, seen ++ entries.map fun entry => decode entry.1) := by
  induction entries generalizing foundAny seen with
  | nil => simp [walk]
  | cons entry entries ih => simp [walk, collecting, ih]

theorem walk_limited (limitCount : Nat) (entries : List (Bytes × Bytes)) (foundAny : Bool)
    (progress : Progress (List β)) :
    (fun result => (result.2.anySeen, result.2.captured)) <$>
        walk (limited limitCount (collecting decode)) entries foundAny progress =
      pure (progress.anySeen || !entries.isEmpty,
        progress.captured ++
          (entries.take (limitCount - progress.limitSeen)).map fun entry => decode entry.1) := by
  induction entries generalizing foundAny progress with
  | nil => simp [walk]
  | cons entry entries ih =>
      by_cases full : limitCount < progress.limitSeen + 1
      · have none : limitCount - progress.limitSeen = 0 := by omega
        simp [walk, limited, full, none]
      · have more : limitCount - progress.limitSeen =
            limitCount - (progress.limitSeen + 1) + 1 := by omega
        simp [walk, limited, collecting, full, ih, more]

theorem walk_skipping (offset limitCount : Nat) (entries : List (Bytes × Bytes))
    (foundAny : Bool) (progress : Progress (List β)) :
    (fun result => (result.2.anySeen, result.2.captured)) <$>
        walk (skipping offset limitCount (collecting decode)) entries foundAny progress =
      pure (progress.anySeen || !(entries.drop (offset - progress.offsetSeen)).isEmpty,
        progress.captured ++
          ((entries.drop (offset - progress.offsetSeen)).take
            (limitCount - progress.limitSeen)).map fun entry => decode entry.1) := by
  induction entries generalizing foundAny progress with
  | nil => simp [walk]
  | cons entry entries ih =>
      by_cases skipped : progress.offsetSeen + 1 ≤ offset
      · have further : offset - progress.offsetSeen = offset - (progress.offsetSeen + 1) + 1 := by
          omega
        simp [walk, skipping, skipped, ih, further]
      · have passed : offset - progress.offsetSeen = 0 := by omega
        have stillPassed : offset - (progress.offsetSeen + 1) = 0 := by omega
        by_cases full : limitCount < progress.limitSeen + 1
        · have none : limitCount - progress.limitSeen = 0 := by omega
          simp [walk, skipping, limited, skipped, full, passed, none]
        · have more : limitCount - progress.limitSeen =
              limitCount - (progress.limitSeen + 1) + 1 := by omega
          simp [walk, skipping, limited, collecting, skipped, full, ih, passed, stillPassed, more]

end Collecting

section Erasing

/-- The callback of both delete operations. -/
def erasing : IterFn Unit := fun key _ _ => do
  let _ ← del key
  pure ((), false)

theorem run_walk_erasing (entries : List (Bytes × Bytes)) (foundAny : Bool) (store : Store) :
    (walk erasing entries foundAny ()).run rockHandle store =
      ((foundAny || !entries.isEmpty, ()),
        (entries.map Prod.fst).foldl (fun current key => current.erase key) store) := by
  induction entries generalizing foundAny store with
  | nil => simp [walk]
  | cons entry entries ih => simp [walk, erasing, ih]

end Erasing

section Calls

variable {α : Type} {Allowed : RockCall → Prop} {iterFn : IterFn α}

theorem calls_iter_loop (stop : Bytes)
    (calls : ∀ key value captured, (iterFn key value captured).Calls Allowed)
    (it : List (Bytes × Bytes)) (foundAny : Bool) (captured : α) :
    (iterLoop stop iterFn it foundAny captured).Calls Allowed := by
  induction it generalizing foundAny captured with
  | nil => exact Program.calls_pure _
  | cons entry it ih =>
      rw [iterLoop]
      split
      · apply Program.calls_bind (calls entry.1 entry.2 captured)
        intro result
        dsimp only
        split
        · exact Program.calls_pure _
        · exact ih true result.1
      · exact Program.calls_pure _

theorem calls_iter_range (iterates : Allowed .newIterator) (start stop : Bytes)
    (calls : ∀ key value captured, (iterFn key value captured).Calls Allowed) (captured : α) :
    (iterRange start stop iterFn captured).Calls Allowed := by
  apply Program.calls_bind (Program.calls_perform iterates)
  intro entries
  exact calls_iter_loop stop calls _ false captured

theorem calls_limited (limitCount : Nat)
    (calls : ∀ key value captured, (iterFn key value captured).Calls Allowed) (key value : Bytes)
    (progress : Progress α) : (limited limitCount iterFn key value progress).Calls Allowed := by
  unfold limited
  dsimp only
  split
  · exact Program.calls_pure _
  · exact Program.calls_bind (calls key value _) fun _ => Program.calls_pure _

theorem calls_skipping (offset limitCount : Nat)
    (calls : ∀ key value captured, (iterFn key value captured).Calls Allowed) (key value : Bytes)
    (progress : Progress α) :
    (skipping offset limitCount iterFn key value progress).Calls Allowed := by
  unfold skipping
  dsimp only
  split
  · exact Program.calls_pure _
  · exact calls_limited limitCount calls key value _

theorem calls_collecting {β : Type} (decode : Bytes → β) (key value : Bytes) (seen : List β) :
    (collecting decode key value seen).Calls Allowed := Program.calls_pure _

end Calls

section Scans

variable (store : Store) (label : Bytes)

/-- The entries `iterPrefix` visits. -/
def entriesUnder : List (Bytes × Bytes) :=
  OrderedMap.range store (label ++ [colon]) (label ++ [semicolon])

def keysUnder : List Bytes := (entriesUnder store label).map Prod.fst

/-- What is left when every key under a label has been deleted. -/
def eraseUnder : Store := OrderedMap.eraseRange store (label ++ [colon]) (label ++ [semicolon])

theorem mem_keys_under_iff (key : Bytes) :
    key ∈ keysUnder store label ↔ label ++ [colon] <+: key ∧ key ∈ store := by
  rw [keysUnder, entriesUnder, OrderedMap.mem_range_keys_iff, ← and_assoc, in_prefix_range_iff]

theorem keys_under_ascending : (keysUnder store label).Pairwise (· < ·) :=
  OrderedMap.range_keys_ascending store _ _

theorem getElem?_erase_under (key : Bytes) :
    (eraseUnder store label)[key]? = if label ++ [colon] <+: key then none else store[key]? := by
  rw [eraseUnder, OrderedMap.getElem?_eraseRange]
  simp only [in_prefix_range_iff]

theorem mem_erase_under_iff (key : Bytes) :
    key ∈ eraseUnder store label ↔ ¬ label ++ [colon] <+: key ∧ key ∈ store := by
  rw [Std.ExtTreeMap.mem_iff_isSome_getElem?, Std.ExtTreeMap.mem_iff_isSome_getElem?,
    getElem?_erase_under]
  split
  · simp_all
  · simp_all

theorem run_iter_prefix_erasing :
    (iterPrefix label erasing ()).run rockHandle store =
      ((!(entriesUnder store label).isEmpty, ()), eraseUnder store label) := by
  rw [iterPrefix, run_iter_range, run_walk_erasing, Bool.false_or]
  rfl

variable {β : Type} (decode : Bytes → β)

theorem run_iter_prefix_collecting :
    (iterPrefix label (collecting decode) []).run rockHandle store =
      ((!(entriesUnder store label).isEmpty, (keysUnder store label).map decode), store) := by
  rw [iterPrefix, run_iter_range, walk_collecting, Program.run_pure, Bool.false_or]
  simp [keysUnder, entriesUnder]

theorem run_iter_prefix_from_offset (offset limitCount : Nat) :
    (iterPrefixFromOffset label offset limitCount (collecting decode) []).run rockHandle store =
      ((!((entriesUnder store label).drop offset).isEmpty,
        (((keysUnder store label).drop offset).take limitCount).map decode), store) := by
  have counted := congrArg (fun program => program.run rockHandle store)
    (walk_skipping decode offset limitCount (entriesUnder store label) false
      (Progress.initial []))
  simp only [Program.run_map, Program.run_pure, Progress.initial, Nat.sub_zero, Bool.false_or,
    List.nil_append] at counted
  rw [iterPrefixFromOffset, Program.run_bind, run_iter_range]
  refine counted.trans ?_
  rw [keysUnder, ← List.map_drop, ← List.map_take, List.map_map]
  rfl

theorem run_iter_prefix_from_member (member : Bytes) (limitCount : Nat) :
    (iterPrefixFromMember label member limitCount (collecting decode) []).run rockHandle store =
      ((!((entriesUnder store label).filter fun entry =>
          label ++ colon :: member ≤ entry.1).isEmpty,
        (((keysUnder store label).filter fun key => label ++ colon :: member ≤ key).take
          limitCount).map decode), store) := by
  have later : label ++ [colon] ≤ label ++ colon :: member := by
    apply le_of_prefix
    exact ⟨member, by simp⟩
  have counted := congrArg (fun program => program.run rockHandle store)
    (walk_limited decode limitCount
      ((entriesUnder store label).filter fun entry => label ++ colon :: member ≤ entry.1) false
      (Progress.initial []))
  simp only [Program.run_map, Program.run_pure, Progress.initial, Nat.sub_zero, Bool.false_or,
    List.nil_append] at counted
  rw [iterPrefixFromMember, Program.run_bind, run_iter_range, OrderedMap.range_of_le later]
  refine counted.trans ?_
  rw [keysUnder, List.filter_map, ← List.map_take, List.map_map]
  rfl

end Scans

end Relevanced.Persistence

import Relevanced.Foundation.Machine
import Relevanced.Persistence.RockHandle

/-!
# InMemoryRockHandle

The test double of `RockHandle`: a `std::map` whose iterations walk a sorted copy
of its entries. It differs from the RocksDB store in one operation: its `put` keeps
the value a key already has. The two give the same answers to every sequence of calls
in which no `put`, a callback's included, replaces a value by another.
-/

namespace Relevanced.Persistence

open Foundation

set_option autoImplicit false

/-- The methods of `RockHandleIf`. A callback works on the caller's variables `α`. -/
inductive HandleCall (α : Type) where
  | put (key value : Bytes)
  | get (key : Bytes)
  | existsKey (key : Bytes)
  | del (key : Bytes)
  | iterRange (start stop : Bytes) (iterFn : IterFn α) (captured : α)
  | iterPrefix (label : Bytes) (iterFn : IterFn α) (captured : α)
  | iterPrefixFromOffset (label : Bytes) (offset limitCount : Nat) (iterFn : IterFn α)
      (captured : α)
  | iterPrefixFromMember (label member : Bytes) (limitCount : Nat) (iterFn : IterFn α)
      (captured : α)

/-- What the callback of an iteration was shown, and what it left behind. -/
abbrev Shown (α : Type) := List (Bytes × Bytes) × α

abbrev HandleIf (α : Type) : Interface where
  Call := HandleCall α
  Answer
    | .put _ _ => Bool
    | .get _ => Option Bytes
    | .existsKey _ => Bool
    | .del _ => Bool
    | .iterRange _ _ _ _ => Bool × Shown α
    | .iterPrefix _ _ _ => Bool × Shown α
    | .iterPrefixFromOffset _ _ _ _ _ => Bool × Shown α
    | .iterPrefixFromMember _ _ _ _ _ => Bool × Shown α

section Recording

variable {α : Type}

/-- The callback that also keeps a list of what it is shown. -/
def recording (iterFn : IterFn α) : IterFn (Shown α) := fun key value (shown, captured) => do
  let (captured, escaped) ← iterFn key value captured
  pure ((shown ++ [(key, value)], captured), escaped)

end Recording

/-- The method of `RockHandle` behind each call. -/
def HandleCall.method {α : Type} : (call : HandleCall α) → RockProgram ((HandleIf α).Answer call)
  | .put key value => Persistence.put key value
  | .get key => Persistence.get key
  | .existsKey key => Persistence.existsKey key
  | .del key => Persistence.del key
  | .iterRange start stop iterFn captured =>
      Persistence.iterRange start stop (recording iterFn) ([], captured)
  | .iterPrefix label iterFn captured =>
      Persistence.iterPrefix label (recording iterFn) ([], captured)
  | .iterPrefixFromOffset label offset limitCount iterFn captured =>
      Persistence.iterPrefixFromOffset label offset limitCount (recording iterFn) ([], captured)
  | .iterPrefixFromMember label member limitCount iterFn captured =>
      Persistence.iterPrefixFromMember label member limitCount (recording iterFn) ([], captured)

namespace InMemoryRockHandle

/-- `data_.insert` leaves a key that is there as it is. -/
def inMemoryHandle : Program.Handler RockHandleIf Store
  | .put key value, data => (true, if key ∈ data then data else data.insert key value)
  | .get key, data => (data[key]?, data)
  | .existsKey key, data => (data.contains key, data)
  | .del key, data => if data.contains key then (true, data.erase key) else (false, data)
  | .newIterator, data => (data.toList, data)

section Iteration

variable {α : Type}

/-- `std::sort` with the keys compared. -/
def sortedKeys (entries : List (Bytes × Bytes)) : List (Bytes × Bytes) :=
  entries.mergeSort fun left right => left.1 ≤ right.1

/-- The `for` loop of `iterRange` over the sorted copy. -/
def iterLoop (start stop : Bytes) (iterFn : IterFn α) :
    List (Bytes × Bytes) → Bool → Bool → α → RockProgram (Bool × α)
  | [], _, anyVisited, captured => pure (anyVisited, captured)
  | (key, value) :: rest, escaped, anyVisited, captured =>
      if escaped then pure (anyVisited, captured)
      else if key < start then iterLoop start stop iterFn rest false anyVisited captured
      else if stop ≤ key then pure (anyVisited, captured)
      else do
        let (captured, escaped) ← iterFn key value captured
        iterLoop start stop iterFn rest escaped true captured

def iterRange (start stop : Bytes) (iterFn : IterFn α) (captured : α) :
    RockProgram (Bool × α) := do
  let data ← newIterator
  iterLoop start stop iterFn (sortedKeys data) false false captured

def iterPrefix (label : Bytes) (iterFn : IterFn α) (captured : α) : RockProgram (Bool × α) :=
  iterRange (label ++ [colon]) (label ++ [semicolon]) iterFn captured

def iterPrefixFromOffset (label : Bytes) (offset limitCount : Nat) (iterFn : IterFn α)
    (captured : α) : RockProgram (Bool × α) := do
  let (_, progress) ← iterRange (label ++ [colon]) (label ++ [semicolon])
    (skipping offset limitCount iterFn) (Progress.initial captured)
  pure (progress.anySeen, progress.captured)

def iterPrefixFromMember (label member : Bytes) (limitCount : Nat) (iterFn : IterFn α)
    (captured : α) : RockProgram (Bool × α) := do
  let (_, progress) ← iterRange (label ++ colon :: member) (label ++ [semicolon])
    (limited limitCount iterFn) (Progress.initial captured)
  pure (progress.anySeen, progress.captured)

/-- The method of `InMemoryRockHandle` behind each call. -/
def method : (call : HandleCall α) → RockProgram ((HandleIf α).Answer call)
  | .put key value => Persistence.put key value
  | .get key => Persistence.get key
  | .existsKey key => Persistence.existsKey key
  | .del key => Persistence.del key
  | .iterRange start stop iterFn captured =>
      iterRange start stop (recording iterFn) ([], captured)
  | .iterPrefix label iterFn captured => iterPrefix label (recording iterFn) ([], captured)
  | .iterPrefixFromOffset label offset limitCount iterFn captured =>
      iterPrefixFromOffset label offset limitCount (recording iterFn) ([], captured)
  | .iterPrefixFromMember label member limitCount iterFn captured =>
      iterPrefixFromMember label member limitCount (recording iterFn) ([], captured)

end Iteration

end InMemoryRockHandle

/-- The RocksDB store behind `RockHandleIf`. -/
def rockHandleIf (α : Type) : Program.Handler (HandleIf α) Store :=
  fun call store => call.method.run rockHandle store

/-- The test double behind `RockHandleIf`. -/
def inMemoryHandleIf (α : Type) : Program.Handler (HandleIf α) Store :=
  fun call data => (InMemoryRockHandle.method call).run InMemoryRockHandle.inMemoryHandle data

section Guard

/-- A `put` does not replace a value by another. -/
def KeepsValue : RockCall → Store → Prop
  | .put key value, store => ∀ stored ∈ store[key]?, stored = value
  | _, _ => True

instance (request : RockCall) (store : Store) : Decidable (KeepsValue request store) :=
  match request with
  | .put key value => inferInstanceAs (Decidable (∀ stored ∈ store[key]?, stored = value))
  | .get _ | .existsKey _ | .del _ | .newIterator => isTrue trivial

/-- No `put` of the call, nor any its callback makes, replaces a value by another. -/
def KeepsValues {α : Type} (store : Store) (call : HandleCall α) : Prop :=
  Program.GuardedRun rockHandle (I := RockHandleIf) KeepsValue call.method store

instance {α : Type} (store : Store) (call : HandleCall α) : Decidable (KeepsValues store call) :=
  Program.decidableGuardedRun rockHandle call.method store

/-- Complete calls on the RocksDB store. -/
def handleMachine (α : Type) : Machine Store (HandleCall α) where
  step store call := some (rockHandleIf α call store).2

end Guard

section Loops

variable {α : Type} {start stop : Bytes} {iterFn : IterFn α}

theorem in_memory_loop_escaped (entries : List (Bytes × Bytes)) (captured : α) :
    InMemoryRockHandle.iterLoop start stop iterFn entries true true captured =
      pure (true, captured) := by
  cases entries with
  | nil => rfl
  | cons entry rest => rfl

theorem in_memory_loop_from_start (entries : List (Bytes × Bytes))
    (reached : ∀ entry ∈ entries, start ≤ entry.1) (anyVisited : Bool) (captured : α) :
    InMemoryRockHandle.iterLoop start stop iterFn entries false anyVisited captured =
      iterLoop stop iterFn entries anyVisited captured := by
  induction entries generalizing anyVisited captured with
  | nil => rfl
  | cons entry rest ih =>
      have notBefore : ¬ entry.1 < start := not_lt.mpr (reached entry List.mem_cons_self)
      have restReached : ∀ later ∈ rest, start ≤ later.1 :=
        fun later member => reached later (List.mem_cons_of_mem entry member)
      by_cases inside : entry.1 < stop
      · have notPast : ¬ stop ≤ entry.1 := not_le.mpr inside
        simp only [InMemoryRockHandle.iterLoop, iterLoop, Bool.false_eq_true, if_false, notBefore,
          notPast, inside, if_true]
        apply bind_congr
        intro result
        cases escaped : result.2 with
        | true => exact in_memory_loop_escaped rest result.1
        | false => exact ih restReached true result.1
      · have past : stop ≤ entry.1 := not_lt.mp inside
        simp only [InMemoryRockHandle.iterLoop, iterLoop, Bool.false_eq_true, if_false, notBefore,
          past, inside, if_true]

/-- Skipping the keys before the start one by one is seeking to it. -/
theorem in_memory_loop_eq_seek {entries : List (Bytes × Bytes)}
    (ascending : entries.Pairwise fun left right => left.1 < right.1) (captured : α) :
    InMemoryRockHandle.iterLoop start stop iterFn entries false false captured =
      iterLoop stop iterFn (entries.dropWhile fun entry => entry.1 < start) false captured := by
  induction entries with
  | nil => rfl
  | cons entry rest ih =>
      obtain ⟨above, restAscending⟩ := List.pairwise_cons.mp ascending
      by_cases before : entry.1 < start
      · rw [List.dropWhile_cons_of_pos (by simpa using before), ← ih restAscending]
        simp only [InMemoryRockHandle.iterLoop, Bool.false_eq_true, if_false, before, if_true]
      · rw [List.dropWhile_cons_of_neg (by simpa using before)]
        apply in_memory_loop_from_start
        intro later member
        rcases List.mem_cons.mp member with rfl | inRest
        · exact not_lt.mp before
        · exact (not_lt.mp before).trans (above later inRest).le

theorem sorted_keys_of_store (store : Store) :
    InMemoryRockHandle.sortedKeys store.toList = store.toList := by
  apply List.mergeSort_of_pairwise
  exact (OrderedMap.toList_ascending store).imp fun less => by simpa using less.le

theorem in_memory_loop_of_store (store : Store) (captured : α) :
    InMemoryRockHandle.iterLoop start stop iterFn
        (InMemoryRockHandle.sortedKeys store.toList) false false captured =
      iterLoop stop iterFn (store.toList.dropWhile fun entry => entry.1 < start) false
        captured := by
  rw [sorted_keys_of_store]
  exact in_memory_loop_eq_seek (OrderedMap.toList_ascending store) captured

end Loops

section Double

theorem in_memory_agrees (request : RockCall) (store : Store) (keeps : KeepsValue request store) :
    InMemoryRockHandle.inMemoryHandle request store = rockHandle request store := by
  cases request with
  | put key value =>
      simp only [InMemoryRockHandle.inMemoryHandle, rockHandle, Prod.mk.injEq, true_and]
      split
      · rename_i present
        obtain ⟨stored, isStored⟩ :=
          Option.isSome_iff_exists.mp (Std.ExtTreeMap.mem_iff_isSome_getElem?.mp present)
        rw [← keeps stored isStored, OrderedMap.insert_of_stored isStored]
      · rfl
  | get key => rfl
  | existsKey key => rfl
  | del key => rfl
  | newIterator => rfl

/-- Iterations that continue alike on the entries of every store run alike on both handles. -/
theorem run_eq_of_snapshot {β : Type} {first second : List (Bytes × Bytes) → RockProgram β}
    (alike : ∀ store : Store, second store.toList = first store.toList) (store : Store)
    (keeps : Program.GuardedRun rockHandle (I := RockHandleIf) KeepsValue (newIterator >>= first)
      store) :
    (newIterator >>= second).run InMemoryRockHandle.inMemoryHandle store =
      (newIterator >>= first).run rockHandle store := by
  rw [Program.run_bind, Program.run_bind]
  change (second store.toList).run _ store = (first store.toList).run _ store
  rw [alike store]
  exact Program.run_eq_of_guarded in_memory_agrees _ store keeps.2

variable {α : Type}

theorem in_memory_call_eq (call : HandleCall α) (store : Store) (keeps : KeepsValues store call) :
    inMemoryHandleIf α call store = rockHandleIf α call store := by
  have direct (same : InMemoryRockHandle.method call = call.method) :
      inMemoryHandleIf α call store = rockHandleIf α call store := by
    rw [inMemoryHandleIf, rockHandleIf, same]
    exact Program.run_eq_of_guarded in_memory_agrees call.method store keeps
  cases call with
  | put key value => exact direct rfl
  | get key => exact direct rfl
  | existsKey key => exact direct rfl
  | del key => exact direct rfl
  | iterRange start stop iterFn captured =>
      exact run_eq_of_snapshot (fun store => in_memory_loop_of_store store ([], captured)) store
        keeps
  | iterPrefix label iterFn captured =>
      exact run_eq_of_snapshot (fun store => in_memory_loop_of_store store ([], captured)) store
        keeps
  | iterPrefixFromOffset label offset limitCount iterFn captured =>
      exact run_eq_of_snapshot
        (fun store => congrArg (· >>= _) (in_memory_loop_of_store store _)) store keeps
  | iterPrefixFromMember label member limitCount iterFn captured =>
      exact run_eq_of_snapshot
        (fun store => congrArg (· >>= _) (in_memory_loop_of_store store _)) store keeps

/-- The two handles answer a sequence of calls alike, callbacks included, as long as no `put`
replaces a value by another. -/
theorem in_memory_double_of_kept_values (calls : List (HandleCall α))
    (keeps : (handleMachine α).Guarded KeepsValues calls ∅) :
    (inMemoryHandleIf α).transcript calls ∅ = (rockHandleIf α).transcript calls ∅ := by
  have everywhere : ∀ store : Store, (handleMachine α).Guarded KeepsValues calls store →
      (inMemoryHandleIf α).transcript calls store = (rockHandleIf α).transcript calls store := by
    clear keeps
    induction calls with
    | nil => exact fun _ _ => rfl
    | cons call rest ih =>
        intro store keeps
        rw [Program.Handler.transcript, Program.Handler.transcript,
          in_memory_call_eq call store keeps.1, ih _ (keeps.2 _ rfl)]
  exact everywhere ∅ keeps

end Double

/-- Two keys are stored; an iteration deletes each key it is shown and stores another under it,
and escapes at the second. -/
def replacedWhileIterating : List (HandleCall Nat) :=
  [.put (ascii "p:a") (ascii "1"), .put (ascii "p:b") (ascii "2"),
    .iterPrefix (ascii "p")
      (fun key value seen => do
        let _ ← put (key ++ ascii "!") value
        let _ ← del key
        pure (seen + 1, seen == 1)) 0,
    .get (ascii "p:a!"), .get (ascii "p:a")]

theorem replaced_while_iterating_alike :
    (inMemoryHandleIf Nat).transcript replacedWhileIterating ∅ =
      (rockHandleIf Nat).transcript replacedWhileIterating ∅ :=
  in_memory_double_of_kept_values replacedWhileIterating (by decide +kernel)

theorem overwritten_value_differs :
    (inMemoryHandleIf Nat).transcript
        [.put (ascii "k") (ascii "1"), .put (ascii "k") (ascii "2"), .get (ascii "k")] ∅ ≠
      (rockHandleIf Nat).transcript
        [.put (ascii "k") (ascii "1"), .put (ascii "k") (ascii "2"), .get (ascii "k")] ∅ := by
  intro alike
  have answers := congrArg (fun transcript => transcript[2]?) alike
  simp only [Program.Handler.transcript, List.getElem?_cons_succ, List.getElem?_cons_zero,
    Option.some.injEq, Sigma.mk.injEq, heq_eq_eq, true_and] at answers
  exact absurd answers (by decide +kernel)

end Relevanced.Persistence

import Relevanced.Persistence.InMemoryRockHandle

/-!
# What a prefix scan shows

`iterPrefix` is a half-open range of keys and a loop that a callback can leave early. What
it comes to is stated without either: the callback is called on the keys that begin with
the prefix and a colon, in ascending order, as far as the call on which it escapes.
-/

namespace Relevanced.Persistence

open Foundation

set_option autoImplicit false

section Calls

variable {α : Type}

/-- The callback called on every entry of a list, and what each of the calls said of escaping. -/
def callEach (iterFn : IterFn α) : List (Bytes × Bytes) → α → RockProgram (List Bool × α)
  | [], captured => pure ([], captured)
  | (key, value) :: later, captured => do
      let (captured, escaped) ← iterFn key value captured
      let (flags, captured) ← callEach iterFn later captured
      pure (escaped :: flags, captured)

/-- No call but the last one escaped. -/
def EscapesLast (flags : List Bool) : Prop := ∀ flag ∈ flags.dropLast, flag = false

/-- An answer of `iterPrefix` and the store it leaves: `shown` are the entries the callback was
called on, `rest` those it was not, and `flags` says which calls escaped. -/
structure ExactScan (handler : Program.Handler RockHandleIf Store) (label : Bytes)
    (iterFn : IterFn α) (captured : α) (store : Store) (answer : (Bool × Shown α) × Store)
    (rest : List (Bytes × Bytes)) (flags : List Bool) : Prop where
  ascending : ((answer.1.2.1 ++ rest).map Prod.fst).Pairwise (· < ·)
  entries : ∀ key value, (key, value) ∈ answer.1.2.1 ++ rest ↔
    label ++ [colon] <+: key ∧ store[key]? = some value
  called : (callEach iterFn answer.1.2.1 captured).run handler store =
    ((flags, answer.1.2.2), answer.2)
  escapesLast : EscapesLast flags
  escaped : rest ≠ [] → flags.getLast? = some true
  found : answer.1.1 = true ↔ ∃ key, label ++ [colon] <+: key ∧ key ∈ store

end Calls

section Walks

variable {α : Type} (handler : Program.Handler RockHandleIf Store) (iterFn : IterFn α)

/-- The loop shows a beginning of the entries, and all of them unless the last call escaped. -/
theorem run_walk_recording (entries : List (Bytes × Bytes)) (foundAny : Bool)
    (before : List (Bytes × Bytes)) (captured : α) (store : Store) :
    ∃ shown rest flags left after, entries = shown ++ rest ∧
      (walk (recording iterFn) entries foundAny (before, captured)).run handler store =
        ((foundAny || !entries.isEmpty, (before ++ shown, left)), after) ∧
      (callEach iterFn shown captured).run handler store = ((flags, left), after) ∧
      EscapesLast flags ∧ (rest ≠ [] → flags.getLast? = some true) := by
  induction entries generalizing foundAny before captured store with
  | nil =>
      refine ⟨[], [], [], captured, store, rfl, ?_, rfl, ?_, ?_⟩
      · simp [walk]
      · simp [EscapesLast]
      · simp
  | cons entry later ih =>
      obtain ⟨key, value⟩ := entry
      rcases called : (iterFn key value captured).run handler store with ⟨⟨taken, escaped⟩, next⟩
      cases escaped with
      | true =>
          refine ⟨[(key, value)], later, [true], taken, next, rfl, ?_, ?_, ?_, ?_⟩
          · simp [walk, recording, called]
          · simp [callEach, called]
          · simp [EscapesLast]
          · simp
      | false =>
          obtain ⟨shown, rest, flags, left, after, split, walked, calls, onlyLast, byEscape⟩ :=
            ih true (before ++ [(key, value)]) taken next
          refine ⟨(key, value) :: shown, rest, false :: flags, left, after, ?_, ?_, ?_, ?_, ?_⟩
          · rw [split, List.cons_append]
          · simp [walk, recording, called, walked]
          · simp [callEach, called, calls]
          · intro flag member
            cases flags with
            | nil => simp at member
            | cons first others =>
                rw [List.dropLast_cons_of_ne_nil (List.cons_ne_nil first others)] at member
                rcases List.mem_cons.mp member with same | inRest
                · exact same
                · exact onlyLast flag inRest
          · intro some
            rw [List.getLast?_cons, byEscape some]
            rfl

end Walks

section Scans

variable {α : Type} (label : Bytes) (iterFn : IterFn α) (captured : α) (store : Store)

theorem mem_entries_under_iff (key value : Bytes) :
    (key, value) ∈ entriesUnder store label ↔
      label ++ [colon] <+: key ∧ store[key]? = some value := by
  rw [entriesUnder, OrderedMap.mem_range_iff, ← and_assoc, in_prefix_range_iff]

theorem entries_under_ne_nil_iff :
    (!(entriesUnder store label).isEmpty) = true ↔
      ∃ key, label ++ [colon] <+: key ∧ key ∈ store := by
  rw [Bool.not_eq_true', List.isEmpty_eq_false_iff_exists_mem]
  constructor
  · rintro ⟨⟨key, value⟩, member⟩
    obtain ⟨begins, stored⟩ := (mem_entries_under_iff label store key value).mp member
    exact ⟨key, begins, Std.ExtTreeMap.mem_iff_isSome_getElem?.mpr (by rw [stored]; rfl)⟩
  · rintro ⟨key, begins, held⟩
    obtain ⟨value, stored⟩ :=
      Option.isSome_iff_exists.mp (Std.ExtTreeMap.mem_iff_isSome_getElem?.mp held)
    exact ⟨(key, value), (mem_entries_under_iff label store key value).mpr ⟨begins, stored⟩⟩

theorem exact_scan_of_walk {handler : Program.Handler RockHandleIf Store}
    {answer : (Bool × Shown α) × Store}
    (walks : answer =
      (walk (recording iterFn) (entriesUnder store label) false ([], captured)).run handler store) :
    ∃ rest flags, ExactScan handler label iterFn captured store answer rest flags := by
  obtain ⟨shown, rest, flags, left, after, split, walked, calls, onlyLast, byEscape⟩ :=
    run_walk_recording handler iterFn (entriesUnder store label) false [] captured store
  rw [Bool.false_or, List.nil_append] at walked
  rw [walked] at walks
  subst walks
  refine ⟨rest, flags, ?_, ?_, calls, onlyLast, byEscape, ?_⟩
  · rw [← split]
    exact keys_under_ascending store label
  · intro key value
    rw [← split]
    exact mem_entries_under_iff label store key value
  · exact entries_under_ne_nil_iff label store

theorem rock_handle_scan :
    rockHandleIf α (.iterPrefix label iterFn captured) store =
      (walk (recording iterFn) (entriesUnder store label) false ([], captured)).run rockHandle
        store :=
  run_iter_range _ _ _ _ store

theorem in_memory_scan :
    inMemoryHandleIf α (.iterPrefix label iterFn captured) store =
      (walk (recording iterFn) (entriesUnder store label) false ([], captured)).run
        InMemoryRockHandle.inMemoryHandle store := by
  change (InMemoryRockHandle.iterLoop (label ++ [colon]) (label ++ [semicolon]) (recording iterFn)
    (InMemoryRockHandle.sortedKeys store.toList) false false ([], captured)).run
      InMemoryRockHandle.inMemoryHandle store = _
  rw [in_memory_loop_of_store, iter_loop_eq_walk, OrderedMap.seek_then_walk]
  rfl

end Scans

/-- `iterPrefix` of both handles is exact, for every store, prefix and callback. -/
theorem prefix_scans_exact {α : Type} (label : Bytes) (iterFn : IterFn α) (captured : α)
    (store : Store) :
    (∃ rest flags, ExactScan rockHandle label iterFn captured store
        (rockHandleIf α (.iterPrefix label iterFn captured) store) rest flags) ∧
      ∃ rest flags, ExactScan InMemoryRockHandle.inMemoryHandle label iterFn captured store
        (inMemoryHandleIf α (.iterPrefix label iterFn captured) store) rest flags := by
  constructor
  · exact exact_scan_of_walk label iterFn captured store
      (rock_handle_scan label iterFn captured store)
  · exact exact_scan_of_walk label iterFn captured store
      (in_memory_scan label iterFn captured store)

end Relevanced.Persistence

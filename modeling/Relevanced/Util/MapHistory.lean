import Mathlib.Data.Set.Function
import Relevanced.Foundation.Snapshots

/-!
# Histories of a map

What the calls of `ConcurrentMap` are to do one after another, and what is known of the reads of
every history that can be put in such an order.
-/

namespace Relevanced.Util

open Foundation
open SequentialObject

set_option autoImplicit false

inductive MapOp (TKey TVal : Type) where
  | insertOrUpdate (key : TKey) (val : TVal)
  | erase (key : TKey)
  | getOption (key : TKey)
  deriving DecidableEq

inductive MapResult (TVal : Type) where
  | void
  | erased (any : Bool)
  | option (result : Option TVal)
  deriving DecidableEq

/-- What the calls of the map are to do. -/
def sequentialMap (TKey TVal : Type) [DecidableEq TKey] :
    SequentialObject (TKey → Option TVal) (MapOp TKey TVal) (MapResult TVal) where
  apply
    | .insertOrUpdate key val, contents => (.void, Function.update contents key (some val))
    | .erase key, contents => (.erased (contents key).isSome, Function.update contents key none)
    | .getOption key, contents => (.option (contents key), contents)

abbrev MapRecord (TKey TVal : Type) := CallRecord (MapOp TKey TVal) (MapResult TVal)

variable {TKey TVal : Type}

def MapOp.key : MapOp TKey TVal → TKey
  | .insertOrUpdate key _ => key
  | .erase key => key
  | .getOption key => key

section Histories

variable (history : List (MapRecord TKey TVal))

/-- No call returns before it has been made. -/
def Timed : Prop :=
  ∀ record ∈ history, ∀ time result, record.returned = some (time, result) → record.invoked ≤ time

/-- The call stored a value under the key and had returned before the moment. -/
def StoredBefore (moment : Nat) (key : TKey) (record : MapRecord TKey TVal) : Prop :=
  record ∈ history ∧ (∃ val, record.op = .insertOrUpdate key val) ∧
    ∃ time, record.returned = some (time, .void) ∧ time < moment

/-- No value that had been stored under the key before the moment is newer. -/
def FreshAt (moment : Nat) (key : TKey) (value : TVal) : Prop :=
  ∀ other, StoredBefore history moment key other →
    ∃ record ∈ history, record.op = .insertOrUpdate key value ∧
      ∀ time result, record.returned = some (time, result) → other.invoked ≤ time

/-- Where a key is never erased, a read of it that is made after some value has been stored finds
one that was stored by a call made before the read returned, and by none that had returned before
the other value was to be stored. -/
def ReadsFresh : Prop :=
  ∀ (key : TKey) (result : Option TVal) (read : Nat), ∀ reader ∈ history,
    reader.op = .getOption key → reader.returned = some (read, .option result) →
    (∀ record ∈ history, record.op ≠ .erase key) →
    ∀ writer, StoredBefore history reader.invoked key writer →
      ∃ value, result = some value ∧ ∃ store ∈ history, store.op = .insertOrUpdate key value ∧
        store.invoked ≤ read ∧
        ∀ time answer, store.returned = some (time, answer) → writer.invoked ≤ time

end Histories

variable [DecidableEq TKey]

/-- The map before any call. -/
def emptyMap : TKey → Option TVal := fun _ => none

theorem update_absorbed (key : TKey) (val value : TVal) (contents : TKey → Option TVal) :
    (sequentialMap TKey TVal).apply (.insertOrUpdate key value)
        ((sequentialMap TKey TVal).apply (.insertOrUpdate key val) contents).2 =
      (sequentialMap TKey TVal).apply (.insertOrUpdate key value) contents := by
  simp [sequentialMap]

theorem update_erased (key : TKey) (val value : TVal) {contents : TKey → Option TVal}
    (present : contents key = some value) :
    (sequentialMap TKey TVal).apply (.erase key)
        ((sequentialMap TKey TVal).apply (.insertOrUpdate key val) contents).2 =
      (sequentialMap TKey TVal).apply (.erase key) contents := by
  simp [sequentialMap, present]

section Reads

variable {history : List (MapRecord TKey TVal)}
  {outcomes : List (Nat × MapOp TKey TVal × MapResult TVal)} {key : TKey}

theorem last_stored (kept : ∀ entry ∈ outcomes, entry.2.1 ≠ .erase key)
    {contents : TKey → Option TVal} {value : TVal} (holds : contents key = some value) :
    (sequentialMap TKey TVal).run (outcomes.map Prod.snd) contents key = some value ∨
      ∃ entry ∈ outcomes, ∃ stored, entry.2.1 = .insertOrUpdate key stored ∧
        (sequentialMap TKey TVal).run (outcomes.map Prod.snd) contents key = some stored := by
  induction outcomes generalizing contents value with
  | nil => exact Or.inl holds
  | cons entry rest ih =>
      obtain ⟨index, op, result⟩ := entry
      have restKept : ∀ later ∈ rest, later.2.1 ≠ .erase key :=
        fun later member => kept later (List.mem_cons_of_mem _ member)
      have afterwards (next : TVal)
          (holdsNext : ((sequentialMap TKey TVal).apply op contents).2 key = some next) :
          (sequentialMap TKey TVal).run (((index, op, result) :: rest).map Prod.snd) contents key =
              some next ∨
            ∃ entry ∈ (index, op, result) :: rest, ∃ stored,
              entry.2.1 = .insertOrUpdate key stored ∧
              (sequentialMap TKey TVal).run (((index, op, result) :: rest).map Prod.snd) contents
                key = some stored := by
        rcases ih restKept holdsNext with same | ⟨later, member, stored, isOp, last⟩
        · exact Or.inl same
        · exact Or.inr ⟨later, List.mem_cons_of_mem _ member, stored, isOp, last⟩
      cases op with
      | insertOrUpdate other stored =>
          by_cases same : key = other
          · subst same
            have holdsStored : ((sequentialMap TKey TVal).apply (.insertOrUpdate key stored)
                contents).2 key = some stored := Function.update_self _ _ _
            rcases afterwards stored holdsStored with last | later
            · exact Or.inr ⟨_, List.mem_cons_self, stored, rfl, last⟩
            · exact Or.inr later
          · apply afterwards value
            exact (Function.update_of_ne same _ _).trans holds
      | erase other =>
          have different : key ≠ other := by
            rintro rfl
            exact kept _ List.mem_cons_self rfl
          apply afterwards value
          exact (Function.update_of_ne different _ _).trans holds
      | getOption other => exact afterwards value holds

theorem stored_of_run {done : List (MapOp TKey TVal × MapResult TVal)}
    {contents : TKey → Option TVal} {value : TVal}
    (holds : (sequentialMap TKey TVal).run done contents key = some value) :
    contents key = some value ∨ ∃ outcome ∈ done, outcome.1 = .insertOrUpdate key value := by
  induction done generalizing contents with
  | nil => exact Or.inl holds
  | cons outcome rest ih =>
      obtain ⟨op, result⟩ := outcome
      rcases ih holds with earlier | ⟨later, member, isOp⟩
      · cases op with
        | insertOrUpdate other stored =>
            change Function.update contents other (some stored) key = some value at earlier
            by_cases same : key = other
            · subst same
              rw [Function.update_self] at earlier
              cases earlier
              exact Or.inr ⟨_, List.mem_cons_self, rfl⟩
            · rw [Function.update_of_ne same] at earlier
              exact Or.inl earlier
        | erase other =>
            change Function.update contents other none key = some value at earlier
            by_cases same : key = other
            · subst same
              rw [Function.update_self] at earlier
              cases earlier
            · rw [Function.update_of_ne same] at earlier
              exact Or.inl earlier
        | getOption other => exact Or.inl earlier
      · exact Or.inr ⟨later, List.mem_cons_of_mem _ member, isOp⟩

theorem reads_get (key : TKey) : (sequentialMap TKey TVal).Reads (.getOption key) := fun _ => rfl

theorem changes_insert {value : TVal} :
    ¬ (sequentialMap TKey TVal).Reads (.insertOrUpdate key value) := by
  intro reads
  have same := congrFun (reads emptyMap) key
  change Function.update emptyMap key (some value) key = none at same
  rw [Function.update_self] at same
  cases same

variable {order part : List (Nat × MapOp TKey TVal × MapResult TVal)}
  (linearizes : Linearizes (sequentialMap TKey TVal) emptyMap history order)

include linearizes

theorem record_of_stored (within : ∀ entry ∈ part, entry ∈ order) {value : TVal}
    (holds : (sequentialMap TKey TVal).run (part.map Prod.snd) emptyMap key = some value) :
    ∃ entry ∈ part, ∃ record, history[entry.1]? = some record ∧
      record.op = .insertOrUpdate key value := by
  rcases stored_of_run holds with empty | ⟨outcome, member, isOp⟩
  · cases empty
  · obtain ⟨entry, isEntry, rfl⟩ := List.mem_map.mp member
    obtain ⟨record, known, sameOp⟩ := linearizes.called entry (within entry isEntry)
    exact ⟨entry, isEntry, record, known, sameOp.trans isOp⟩

theorem holds_stored (kept : ∀ record ∈ history, record.op ≠ .erase key)
    (within : ∀ entry ∈ part, entry ∈ order)
    {entry : Nat × MapOp TKey TVal × MapResult TVal} (placed : entry ∈ part) {value : TVal}
    (isStore : entry.2.1 = .insertOrUpdate key value) :
    ((sequentialMap TKey TVal).run (part.map Prod.snd) emptyMap key).isSome := by
  obtain ⟨left, right, rfl⟩ := List.append_of_mem placed
  obtain ⟨index, op, result⟩ := entry
  cases isStore
  have rightKept : ∀ later ∈ right, later.2.1 ≠ .erase key := by
    intro later member
    obtain ⟨record, known, sameOp⟩ := linearizes.called later (within later (by simp [member]))
    rw [← sameOp]
    exact kept record (List.mem_of_getElem? known)
  rw [List.map_append, run_append]
  let reached := (sequentialMap TKey TVal).run (left.map Prod.snd) emptyMap
  have holds : Function.update reached key (some value) key = some value :=
    Function.update_self key (some value) reached
  change ((sequentialMap TKey TVal).run (right.map Prod.snd)
    (Function.update reached key (some value)) key).isSome
  rcases last_stored rightKept holds with same | ⟨_, _, stored, _, last⟩
  · rw [same]
    rfl
  · rw [last]
    rfl

theorem stored_of_read {index time : Nat} {record : MapRecord TKey TVal} {value : TVal}
    (known : history[index]? = some record) (isGet : record.op = .getOption key)
    (returned : record.returned = some (time, .option (some value))) :
    ∃ store ∈ history, store.op = .insertOrUpdate key value := by
  have placed := linearizes.complete index record time _ known returned
  obtain ⟨before, behind, split⟩ := List.append_of_mem placed
  have legal := linearizes.legal
  rw [split, List.map_append, List.map_cons] at legal
  have answer := answer_of_legal legal
  change MapResult.option (some value) =
    ((sequentialMap TKey TVal).apply record.op _).1 at answer
  rw [isGet] at answer
  have within : ∀ entry ∈ before, entry ∈ order := by
    rw [split]
    exact fun entry member => List.mem_append_left _ member
  obtain ⟨_, _, store, isStored, isStore⟩ :=
    record_of_stored linearizes within (MapResult.option.inj answer).symm
  exact ⟨store, List.mem_of_getElem? isStored, isStore⟩

theorem reads_fresh (timed : Timed history) : ReadsFresh history := by
  rintro key result read reader isReader isGet readReturned kept writer
    ⟨isWriter, ⟨val, isInsert⟩, written, writeReturned, later⟩
  obtain ⟨readerIndex, readerKnown⟩ := List.mem_iff_getElem?.mp isReader
  obtain ⟨writerIndex, writerKnown⟩ := List.mem_iff_getElem?.mp isWriter
  have writerPlaced :=
    linearizes.complete writerIndex writer written .void writerKnown writeReturned
  have readerPlaced := linearizes.complete readerIndex reader read _ readerKnown readReturned
  rw [isInsert] at writerPlaced
  rw [isGet] at readerPlaced
  obtain ⟨before, middle, behind, split⟩ := linearizes.split writerPlaced readerPlaced writerKnown
    readerKnown writeReturned later (by simp)
  have legal := linearizes.legal
  have realTime := linearizes.realTime
  have called := linearizes.called
  rw [split] at legal realTime called
  rw [List.map_append, legal_append, List.map_cons, List.map_append] at legal
  obtain ⟨_, _, restLegal⟩ := legal
  rw [legal_append] at restLegal
  obtain ⟨_, answers, _⟩ := restLegal
  obtain ⟨_, restOrdered, _⟩ := List.pairwise_append.mp realTime
  obtain ⟨afterWriter, middleOrdered⟩ := List.pairwise_cons.mp restOrdered
  obtain ⟨_, _, beforeReader⟩ := List.pairwise_append.mp middleOrdered
  have middleKept : ∀ entry ∈ middle, entry.2.1 ≠ .erase key := by
    intro entry member
    obtain ⟨record, known, sameOp⟩ := called entry (by simp [member])
    rw [← sameOp]
    exact kept record (List.mem_of_getElem? known)
  have storedByWriter := last_stored middleKept
    (Function.update_self key (some val)
      ((sequentialMap TKey TVal).run (before.map Prod.snd) emptyMap))
  rcases storedByWriter with same | ⟨entry, member, stored, isOp, last⟩
  · refine ⟨val, ?_, writer, isWriter, isInsert, ?_, ?_⟩
    · exact (MapResult.option.inj answers).symm.trans same
    · exact afterWriter _ (List.mem_append_right _ List.mem_cons_self) _ _ writerKnown readerKnown
        read _ readReturned
    · exact timed writer isWriter
  · obtain ⟨record, known, sameOp⟩ := called entry (by simp [member])
    refine ⟨stored, ?_, record, List.mem_of_getElem? known, sameOp.trans isOp, ?_, ?_⟩
    · exact (MapResult.option.inj answers).symm.trans last
    · exact beforeReader entry member _ List.mem_cons_self _ _ known readerKnown read _ readReturned
    · exact afterWriter entry (List.mem_append_left _ member) _ _ writerKnown known

end Reads

end Relevanced.Util

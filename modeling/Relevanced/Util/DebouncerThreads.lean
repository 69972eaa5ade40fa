import Mathlib.Data.Finset.Erase
import Mathlib.Data.Finset.Insert
import Mathlib.Data.Finset.Card
import Relevanced.Foundation.Machine
import Relevanced.Foundation.Tally

/-!
# Threads in the debouncer

The same class template, one access of its members at a time. A timer may fire at any moment
after it was scheduled, since its delay can be anything, and every continuation runs in a
thread of its own. The lock of `inFlight_` is held from the look into the set to the change of
`numInFlight_`, which other threads can see in between.
-/

namespace Relevanced.Util

open Foundation

set_option autoImplicit false

/-- How far one thread has come. A timer that is pending is a thread that has yet to start. -/
inductive Frame (T : Type) where
  | writing (t : T) (requeues : Bool)
  | entering (t : T) (requeues : Bool)
  | inserted (t : T)
  | delayingCall (t : T)
  | delayingRemoval (t : T)
  | delayingRequeue (t : T)
  | delayedCall (elem : T)
  | calling (elem : T)
  | delayedRemoval (elem : T)
  | delayedRequeue (toWrite : T)
  | removing (t : T)
  | erased
  | joining
  | joined
  | returned
  deriving DecidableEq

/-- What follows a `writeIfNotInFlight` that did not write. -/
def Frame.refused {T : Type} (t : T) (requeues : Bool) : Frame T :=
  if requeues then .delayingRequeue t else .returned

/-- The members of a `Debouncer<T>`, the lock of `inFlight_`, and the threads. -/
structure Threads (T : Type) where
  inFlight : Finset T
  numInFlight : Int
  stopping : Bool
  locked : Bool
  frames : List (Frame T)

namespace Threads

variable {T : Type}

def initial : Threads T where
  inFlight := ∅
  numInFlight := 0
  stopping := false
  locked := false
  frames := []

def moveTo (threads : Threads T) (index : Nat) (frame : Frame T) : Threads T :=
  { threads with frames := threads.frames.set index frame }

/-- A call from outside, or a timer. -/
def spawn (threads : Threads T) (frame : Frame T) : Threads T :=
  { threads with frames := threads.frames ++ [frame] }

def stop (threads : Threads T) : Threads T :=
  { threads with stopping := true }

/-- `numInFlight_.fetch_add(1)` and the end of the block. -/
def countInserted (threads : Threads T) : Threads T :=
  { threads with numInFlight := threads.numInFlight + 1, locked := false }

/-- `numInFlight_.fetch_sub(1)` and the end of the block. -/
def countErased (threads : Threads T) : Threads T :=
  { threads with numInFlight := threads.numInFlight - 1, locked := false }

variable [DecidableEq T]

/-- The block of `writeIfNotInFlight` up to the insertion. -/
def insertInFlight (threads : Threads T) (t : T) : Threads T :=
  { threads with inFlight := insert t threads.inFlight, locked := true }

/-- The block of `removeDebounced` up to the erasure. -/
def eraseInFlight (threads : Threads T) (t : T) : Threads T :=
  { threads with inFlight := threads.inFlight.erase t, locked := true }

/-- The next access of a thread. -/
def advance (threads : Threads T) (index : Nat) : Frame T → Option (Threads T)
  | .writing t requeues =>
      if threads.stopping then some (threads.moveTo index (.refused t requeues))
      else some (threads.moveTo index (.entering t requeues))
  | .entering t requeues =>
      if threads.locked then none
      else if t ∈ threads.inFlight then some (threads.moveTo index (.refused t requeues))
      else some ((threads.insertInFlight t).moveTo index (.inserted t))
  | .inserted t => some (threads.countInserted.moveTo index (.delayingCall t))
  | .delayingCall t =>
      some ((threads.moveTo index (.delayingRemoval t)).spawn (.delayedCall t))
  | .delayingRemoval t => some ((threads.moveTo index .returned).spawn (.delayedRemoval t))
  | .delayingRequeue t => some ((threads.moveTo index .returned).spawn (.delayedRequeue t))
  | .delayedCall elem =>
      if threads.stopping then some (threads.moveTo index .returned)
      else some (threads.moveTo index (.calling elem))
  | .calling _ => some (threads.moveTo index .returned)
  | .delayedRemoval elem => some (threads.moveTo index (.removing elem))
  | .delayedRequeue toWrite =>
      if threads.stopping then some (threads.moveTo index (.removing toWrite))
      else some (threads.moveTo index (.writing toWrite false))
  | .removing t =>
      if threads.locked then none
      else if t ∈ threads.inFlight then
        some ((threads.eraseInFlight t).moveTo index .erased)
      else some (threads.moveTo index .returned)
  | .erased => some (threads.countErased.moveTo index .returned)
  -- the loop of `join` reads the counter again as long as it is not 0
  | .joining => if threads.numInFlight = 0 then some (threads.moveTo index .joined) else none
  | .joined => none
  | .returned => none

def proceed (threads : Threads T) (index : Nat) : Option (Threads T) :=
  threads.frames[index]?.bind (threads.advance index)

end Threads

inductive ThreadAction (T : Type) where
  | write (t : T)
  | writeIfNotInFlight (t : T)
  | removeDebounced (t : T)
  | stop
  | join
  | proceed (index : Nat)
  deriving DecidableEq

namespace Threads

variable {T : Type} [DecidableEq T]

def step (threads : Threads T) : ThreadAction T → Option (Threads T)
  | .write t => some (threads.spawn (.writing t true))
  | .writeIfNotInFlight t => some (threads.spawn (.writing t false))
  | .removeDebounced t => some (threads.spawn (.removing t))
  | .stop => some threads.stop
  | .join => some (threads.spawn .joining)
  | .proceed index => threads.proceed index

end Threads

def threadsMachine (T : Type) [DecidableEq T] : Machine (Threads T) (ThreadAction T) where
  step := Threads.step

section Moves

variable {T : Type} [DecidableEq T]

/-- The steps that leave `inFlight_`, its lock and `numInFlight_` alone, with the frame they lead
to and the timers they schedule. -/
inductive Passes (threads : Threads T) : Frame T → Frame T → List (Frame T) → Prop where
  | refuse (t : T) (requeues : Bool) (stopped : threads.stopping = true) :
      Passes threads (.writing t requeues) (.refused t requeues) []
  | approach (t : T) (requeues : Bool) (running : threads.stopping = false) :
      Passes threads (.writing t requeues) (.entering t requeues) []
  | present (t : T) (requeues : Bool) (held : t ∈ threads.inFlight) :
      Passes threads (.entering t requeues) (.refused t requeues) []
  | delayCall (t : T) :
      Passes threads (.delayingCall t) (.delayingRemoval t) [.delayedCall t]
  | delayRemoval (t : T) :
      Passes threads (.delayingRemoval t) .returned [.delayedRemoval t]
  | delayRequeue (t : T) :
      Passes threads (.delayingRequeue t) .returned [.delayedRequeue t]
  | skip (elem : T) (stopped : threads.stopping = true) :
      Passes threads (.delayedCall elem) .returned []
  | allow (elem : T) (running : threads.stopping = false) :
      Passes threads (.delayedCall elem) (.calling elem) []
  | call (elem : T) : Passes threads (.calling elem) .returned []
  | expire (elem : T) : Passes threads (.delayedRemoval elem) (.removing elem) []
  | release (toWrite : T) (stopped : threads.stopping = true) :
      Passes threads (.delayedRequeue toWrite) (.removing toWrite) []
  | retry (toWrite : T) (running : threads.stopping = false) :
      Passes threads (.delayedRequeue toWrite) (.writing toWrite false) []
  | absent (t : T) (missing : t ∉ threads.inFlight) :
      Passes threads (.removing t) .returned []
  | join (drained : threads.numInFlight = 0) : Passes threads .joining .joined []

/-- What a thread can do at its next access, by its effect on `inFlight_` and `numInFlight_`. -/
inductive Move (threads : Threads T) (index : Nat) : Frame T → Threads T → Prop where
  | pass {frame later : Frame T} {spawned : List (Frame T)}
      (passes : Passes threads frame later spawned) :
      Move threads index frame { threads with frames := threads.frames.set index later ++ spawned }
  | insert (t : T) (requeues : Bool) (unlocked : threads.locked = false)
      (missing : t ∉ threads.inFlight) :
      Move threads index (.entering t requeues)
        ((threads.insertInFlight t).moveTo index (.inserted t))
  | countInserted (t : T) :
      Move threads index (.inserted t) (threads.countInserted.moveTo index (.delayingCall t))
  | erase (t : T) (unlocked : threads.locked = false) (held : t ∈ threads.inFlight) :
      Move threads index (.removing t) ((threads.eraseInFlight t).moveTo index .erased)
  | countErased :
      Move threads index .erased (threads.countErased.moveTo index .returned)

variable {threads next : Threads T} {index : Nat} {frame later : Frame T}

theorem Move.still (passes : Passes threads frame later []) :
    Move threads index frame (threads.moveTo index later) := by
  have moved := @Move.pass T _ threads index frame later [] passes
  rw [List.append_nil] at moved
  exact moved

theorem move_of_advance (advanced : threads.advance index frame = some next) :
    Move threads index frame next := by
  cases frame with
  | writing t requeues =>
      simp only [Threads.advance] at advanced
      split at advanced
      · rename_i stopped
        cases advanced
        exact .still (.refuse t requeues stopped)
      · rename_i running
        cases advanced
        exact .still (.approach t requeues (Bool.eq_false_iff.mpr running))
  | entering t requeues =>
      simp only [Threads.advance] at advanced
      split at advanced
      · cases advanced
      · rename_i unlocked
        split at advanced
        · rename_i held
          cases advanced
          exact .still (.present t requeues held)
        · rename_i missing
          cases advanced
          exact .insert t requeues (Bool.eq_false_iff.mpr unlocked) missing
  | inserted t =>
      cases advanced
      exact .countInserted t
  | delayingCall t =>
      cases advanced
      exact .pass (.delayCall t)
  | delayingRemoval t =>
      cases advanced
      exact .pass (.delayRemoval t)
  | delayingRequeue t =>
      cases advanced
      exact .pass (.delayRequeue t)
  | delayedCall elem =>
      simp only [Threads.advance] at advanced
      split at advanced
      · rename_i stopped
        cases advanced
        exact .still (.skip elem stopped)
      · rename_i running
        cases advanced
        exact .still (.allow elem (Bool.eq_false_iff.mpr running))
  | calling elem =>
      cases advanced
      exact .still (.call elem)
  | delayedRemoval elem =>
      cases advanced
      exact .still (.expire elem)
  | delayedRequeue toWrite =>
      simp only [Threads.advance] at advanced
      split at advanced
      · rename_i stopped
        cases advanced
        exact .still (.release toWrite stopped)
      · rename_i running
        cases advanced
        exact .still (.retry toWrite (Bool.eq_false_iff.mpr running))
  | removing t =>
      simp only [Threads.advance] at advanced
      split at advanced
      · cases advanced
      · rename_i unlocked
        split at advanced
        · rename_i held
          cases advanced
          exact .erase t (Bool.eq_false_iff.mpr unlocked) held
        · rename_i missing
          cases advanced
          exact .still (.absent t missing)
  | erased =>
      cases advanced
      exact .countErased
  | joining =>
      simp only [Threads.advance] at advanced
      split at advanced
      · rename_i drained
        cases advanced
        exact .still (.join drained)
      · cases advanced
  | joined => cases advanced
  | returned => cases advanced

theorem move_of_proceed (proceeded : threads.proceed index = some next) :
    ∃ frame, threads.frames[index]? = some frame ∧ Move threads index frame next := by
  obtain ⟨frame, found, advanced⟩ := Option.bind_eq_some_iff.mp proceeded
  exact ⟨frame, found, move_of_advance advanced⟩

end Moves

section Balance

variable {T : Type}

/-- 1 from the insertion of a value to the `fetch_add` for it. -/
def Frame.adding : Frame T → Nat
  | .inserted _ => 1
  | _ => 0

/-- 1 from the erasure of a value to the `fetch_sub` for it. -/
def Frame.subtracting : Frame T → Nat
  | .erased => 1
  | _ => 0

/-- The value that the thread removes from `inFlight_`, or has yet to schedule the removal of. -/
def Frame.removal : Frame T → Option T
  | .inserted t => some t
  | .delayingCall t => some t
  | .delayingRemoval t => some t
  | .delayedRemoval elem => some elem
  | .removing t => some t
  | _ => none

/-- What ties the set, its counter and its lock to the threads. -/
structure Balanced (threads : Threads T) : Prop where
  locking : tally Frame.adding threads.frames + tally Frame.subtracting threads.frames =
    threads.locked.toNat
  counter : threads.numInFlight + tally Frame.adding threads.frames =
    threads.inFlight.card + tally Frame.subtracting threads.frames
  held : ∀ t, .inserted t ∈ threads.frames → t ∈ threads.inFlight
  attended : ∀ t ∈ threads.inFlight, ∃ frame ∈ threads.frames, frame.removal = some t

theorem balanced_initial : Balanced (Threads.initial : Threads T) where
  locking := rfl
  counter := rfl
  held t member := by cases member
  attended t held := by cases held

variable {threads next : Threads T} {index : Nat} {frame later : Frame T}

theorem tally_frames {weight : Frame T → Nat} {frames spawned : List (Frame T)}
    (found : frames[index]? = some frame) :
    tally weight (frames.set index later ++ spawned) + weight frame =
      tally weight frames + weight later + tally weight spawned := by
  have replaced := @tally_set _ weight frames index frame later found
  rw [tally_append]
  omega

theorem mem_set_of_ne {frames : List (Frame T)} {other : Frame T}
    (found : frames[index]? = some frame) (member : other ∈ frames) (different : other ≠ frame) :
    other ∈ frames.set index later := by
  obtain ⟨position, foundOther⟩ := List.mem_iff_getElem?.mp member
  apply List.mem_iff_getElem?.mpr
  refine ⟨position, ?_⟩
  rw [List.getElem?_set_ne, foundOther]
  rintro rfl
  rw [found] at foundOther
  exact different (Option.some.inj foundOther).symm

theorem mem_set_self {frames : List (Frame T)} (found : frames[index]? = some frame) :
    later ∈ frames.set index later :=
  List.mem_set (List.getElem?_eq_some_iff.mp found).1 later

theorem attended_after {frames spawned : List (Frame T)} {t : T}
    (found : frames[index]? = some frame)
    (keeps : frame.removal = some t →
      later.removal = some t ∨ ∃ other ∈ spawned, other.removal = some t)
    (attended : ∃ other ∈ frames, other.removal = some t) :
    ∃ other ∈ frames.set index later ++ spawned, other.removal = some t := by
  obtain ⟨other, member, removal⟩ := attended
  by_cases same : other = frame
  · rw [same] at removal
    rcases keeps removal with inLater | ⟨timer, scheduled, inTimer⟩
    · exact ⟨later, List.mem_append_left _ (mem_set_self found), inLater⟩
    · exact ⟨timer, List.mem_append_right _ scheduled, inTimer⟩
  · exact ⟨other, List.mem_append_left _ (mem_set_of_ne found member same), removal⟩

theorem Balanced.spawn (balanced : Balanced threads) (quiet : frame.adding = 0)
    (still : frame.subtracting = 0) : Balanced (threads.spawn frame) where
  locking := by
    have locking := balanced.locking
    simp only [Threads.spawn, tally_append, tally_cons, tally_nil]
    omega
  counter := by
    have counter := balanced.counter
    simp only [Threads.spawn, tally_append, tally_cons, tally_nil]
    omega
  held t member := by
    rcases List.mem_append.mp member with before | new
    · exact balanced.held t before
    · rw [← List.mem_singleton.mp new] at quiet
      cases quiet
  attended t held := by
    obtain ⟨other, member, removal⟩ := balanced.attended t held
    exact ⟨other, List.mem_append_left _ member, removal⟩

theorem refused_weightless (t : T) (requeues : Bool) :
    (Frame.refused t requeues).adding = 0 ∧ (Frame.refused t requeues).subtracting = 0 := by
  cases requeues with
  | true => exact ⟨rfl, rfl⟩
  | false => exact ⟨rfl, rfl⟩

theorem Passes.weightless {spawned : List (Frame T)} (passes : Passes threads frame later spawned) :
    (frame.adding = 0 ∧ frame.subtracting = 0) ∧ (later.adding = 0 ∧ later.subtracting = 0) ∧
      tally Frame.adding spawned = 0 ∧ tally Frame.subtracting spawned = 0 := by
  cases passes with
  | refuse t requeues stopped => exact ⟨⟨rfl, rfl⟩, refused_weightless t requeues, rfl, rfl⟩
  | present t requeues held => exact ⟨⟨rfl, rfl⟩, refused_weightless t requeues, rfl, rfl⟩
  | _ => exact ⟨⟨rfl, rfl⟩, ⟨rfl, rfl⟩, rfl, rfl⟩

theorem Passes.removal {spawned : List (Frame T)} (passes : Passes threads frame later spawned)
    {t : T} (held : t ∈ threads.inFlight) (removal : frame.removal = some t) :
    later.removal = some t ∨ ∃ other ∈ spawned, other.removal = some t := by
  cases passes with
  | delayCall elem => exact Or.inl removal
  | delayRemoval elem => exact Or.inr ⟨_, List.mem_singleton_self _, removal⟩
  | expire elem => exact Or.inl removal
  | absent elem missing =>
      cases removal
      exact absurd held missing
  | _ => cases removal

theorem Balanced.pass (balanced : Balanced threads) (found : threads.frames[index]? = some frame)
    {spawned : List (Frame T)} (passes : Passes threads frame later spawned) :
    Balanced { threads with frames := threads.frames.set index later ++ spawned } := by
  obtain ⟨⟨notAdding, notSubtracting⟩, ⟨laterAdding, laterSubtracting⟩, noAdding, noSubtracting⟩ :=
    passes.weightless
  have adding := @tally_frames _ index frame later Frame.adding _ spawned found
  have subtracting := @tally_frames _ index frame later Frame.subtracting _ spawned found
  have locking := balanced.locking
  have counter := balanced.counter
  refine ⟨?_, ?_, ?_, ?_⟩
  · simp only
    omega
  · simp only
    omega
  · intro t member
    rcases List.mem_append.mp member with inFrames | inSpawned
    · rcases List.mem_or_eq_of_mem_set inFrames with before | moved
      · exact balanced.held t before
      · rw [← moved] at laterAdding
        cases laterAdding
    · have weighs := @weight_le_tally _ Frame.adding _ _ inSpawned
      rw [noAdding] at weighs
      cases weighs
  · intro t held
    exact attended_after found (passes.removal held) (balanced.attended t held)

theorem Balanced.countInserted {t : T} (balanced : Balanced threads)
    (found : threads.frames[index]? = some (.inserted t)) :
    Balanced (threads.countInserted.moveTo index (.delayingCall t)) := by
  have adding := @tally_set _ Frame.adding _ index _ (.delayingCall t) found
  have subtracting := @tally_set _ Frame.subtracting _ index _ (.delayingCall t) found
  have weighs := @weight_le_tally _ Frame.adding _ _ (List.mem_of_getElem? found)
  have locking := balanced.locking
  have counter := balanced.counter
  have locked := Bool.toNat_le threads.locked
  simp only [Frame.adding, Frame.subtracting] at adding subtracting weighs
  refine ⟨?_, ?_, ?_, ?_⟩
  · simp only [Threads.moveTo, Threads.countInserted, Bool.toNat_false]
    omega
  · simp only [Threads.moveTo, Threads.countInserted]
    omega
  · intro other member
    rcases List.mem_or_eq_of_mem_set member with before | moved
    · exact balanced.held other before
    · cases moved
  · intro other held
    have kept := @attended_after _ index _ (.delayingCall t) _ [] other found
      (fun removal => Or.inl removal) (balanced.attended other held)
    rw [List.append_nil] at kept
    exact kept

theorem Balanced.countErased (balanced : Balanced threads)
    (found : threads.frames[index]? = some .erased) :
    Balanced (threads.countErased.moveTo index .returned) := by
  have adding := @tally_set _ Frame.adding _ index _ .returned found
  have subtracting := @tally_set _ Frame.subtracting _ index _ .returned found
  have weighs := @weight_le_tally _ Frame.subtracting _ _ (List.mem_of_getElem? found)
  have locking := balanced.locking
  have counter := balanced.counter
  have locked := Bool.toNat_le threads.locked
  simp only [Frame.adding, Frame.subtracting] at adding subtracting weighs
  refine ⟨?_, ?_, ?_, ?_⟩
  · simp only [Threads.moveTo, Threads.countErased, Bool.toNat_false]
    omega
  · simp only [Threads.moveTo, Threads.countErased]
    omega
  · intro other member
    rcases List.mem_or_eq_of_mem_set member with before | moved
    · exact balanced.held other before
    · cases moved
  · intro other held
    have kept := @attended_after _ index _ .returned _ [] other found
      (fun removal => by cases removal) (balanced.attended other held)
    rw [List.append_nil] at kept
    exact kept

variable [DecidableEq T]

theorem Balanced.insert {t : T} {requeues : Bool} (balanced : Balanced threads)
    (found : threads.frames[index]? = some (.entering t requeues))
    (unlocked : threads.locked = false) (missing : t ∉ threads.inFlight) :
    Balanced ((threads.insertInFlight t).moveTo index (.inserted t)) := by
  have adding := @tally_set _ Frame.adding _ index _ (.inserted t) found
  have subtracting := @tally_set _ Frame.subtracting _ index _ (.inserted t) found
  have locking := balanced.locking
  have counter := balanced.counter
  have grown := Finset.card_insert_of_notMem missing
  rw [unlocked, Bool.toNat_false] at locking
  simp only [Frame.adding, Frame.subtracting] at adding subtracting
  refine ⟨?_, ?_, ?_, ?_⟩
  · simp only [Threads.moveTo, Threads.insertInFlight, Bool.toNat_true]
    omega
  · simp only [Threads.moveTo, Threads.insertInFlight]
    omega
  · intro other member
    rcases List.mem_or_eq_of_mem_set member with before | moved
    · exact Finset.mem_insert_of_mem (balanced.held other before)
    · cases moved
      exact Finset.mem_insert_self t threads.inFlight
  · intro other held
    rcases Finset.mem_insert.mp held with rfl | before
    · exact ⟨_, mem_set_self found, rfl⟩
    · have kept := @attended_after _ index _ (.inserted t) _ [] other found
        (fun removal => by cases removal) (balanced.attended other before)
      rw [List.append_nil] at kept
      exact kept

theorem Balanced.erase {t : T} (balanced : Balanced threads)
    (found : threads.frames[index]? = some (.removing t))
    (unlocked : threads.locked = false) (present : t ∈ threads.inFlight) :
    Balanced ((threads.eraseInFlight t).moveTo index .erased) := by
  have adding := @tally_set _ Frame.adding _ index _ .erased found
  have subtracting := @tally_set _ Frame.subtracting _ index _ .erased found
  have locking := balanced.locking
  have counter := balanced.counter
  have shrunk := Finset.card_erase_add_one present
  rw [unlocked, Bool.toNat_false] at locking
  simp only [Frame.adding, Frame.subtracting] at adding subtracting
  refine ⟨?_, ?_, ?_, ?_⟩
  · simp only [Threads.moveTo, Threads.eraseInFlight, Bool.toNat_true]
    omega
  · simp only [Threads.moveTo, Threads.eraseInFlight]
    omega
  · intro other member
    rcases List.mem_or_eq_of_mem_set member with before | moved
    · have weighs := @weight_le_tally _ Frame.adding threads.frames _ before
      simp only [Frame.adding] at weighs
      omega
    · cases moved
  · intro other held
    obtain ⟨different, before⟩ := Finset.mem_erase.mp held
    have kept := @attended_after _ index _ .erased _ [] other found
      (fun removal => absurd (Option.some.inj removal).symm different)
      (balanced.attended other before)
    rw [List.append_nil] at kept
    exact kept

theorem Balanced.move (balanced : Balanced threads)
    (found : threads.frames[index]? = some frame) (moved : Move threads index frame next) :
    Balanced next := by
  cases moved with
  | pass passes => exact balanced.pass found passes
  | insert t requeues unlocked missing => exact balanced.insert found unlocked missing
  | countInserted t => exact balanced.countInserted found
  | erase t unlocked held => exact balanced.erase found unlocked held
  | countErased => exact balanced.countErased found

theorem Balanced.step (balanced : Balanced threads) {action : ThreadAction T}
    (stepped : threads.step action = some next) : Balanced next := by
  cases action with
  | write t =>
      cases stepped
      exact balanced.spawn rfl rfl
  | writeIfNotInFlight t =>
      cases stepped
      exact balanced.spawn rfl rfl
  | removeDebounced t =>
      cases stepped
      exact balanced.spawn rfl rfl
  | stop =>
      cases stepped
      exact ⟨balanced.locking, balanced.counter, balanced.held, balanced.attended⟩
  | join =>
      cases stepped
      exact balanced.spawn rfl rfl
  | proceed index =>
      obtain ⟨frame, found, moved⟩ := move_of_proceed stepped
      exact balanced.move found moved

end Balance

section Draining

variable {T : Type}

/-- A bound on the steps that the thread, and the timers it schedules, have yet to take. -/
def Frame.ahead : Frame T → Nat
  | .writing _ requeues => if requeues then 14 else 10
  | .entering _ requeues => if requeues then 13 else 9
  | .inserted _ => 8
  | .delayingCall _ => 7
  | .delayingRemoval _ => 4
  | .delayingRequeue _ => 12
  | .delayedCall _ => 2
  | .calling _ => 1
  | .delayedRemoval _ => 3
  | .delayedRequeue _ => 11
  | .removing _ => 2
  | .erased => 1
  | .joining => 1
  | .joined => 0
  | .returned => 0

variable {threads next : Threads T} {index : Nat} {frame later : Frame T}

theorem Passes.ahead {spawned : List (Frame T)} (passes : Passes threads frame later spawned) :
    later.ahead + tally Frame.ahead spawned < frame.ahead := by
  cases passes with
  | refuse t requeues stopped => cases requeues <;> simp [Frame.refused, Frame.ahead]
  | approach t requeues running => cases requeues <;> simp [Frame.ahead]
  | present t requeues held => cases requeues <;> simp [Frame.refused, Frame.ahead]
  | _ => simp [Frame.ahead]

theorem Balanced.nonneg (balanced : Balanced threads) : 0 ≤ threads.numInFlight := by
  have locking := balanced.locking
  have counter := balanced.counter
  have locked := Bool.toNat_le threads.locked
  by_cases noneAdding : tally Frame.adding threads.frames = 0
  · omega
  · obtain ⟨frame, member, heavy⟩ := exists_of_tally_ne_zero noneAdding
    cases frame with
    | inserted t =>
        have inSet := balanced.held t member
        have positive := Finset.card_pos.mpr ⟨t, inSet⟩
        omega
    | _ => exact absurd rfl heavy

variable [DecidableEq T]

theorem Move.ahead (found : threads.frames[index]? = some frame)
    (moved : Move threads index frame next) :
    tally Frame.ahead next.frames < tally Frame.ahead threads.frames := by
  have set_ahead (later : Frame T) (less : later.ahead < frame.ahead) :
      tally Frame.ahead (threads.frames.set index later) < tally Frame.ahead threads.frames := by
    have replaced := @tally_set _ Frame.ahead _ index _ later found
    omega
  cases moved with
  | @pass _ later spawned passes =>
      have replaced := @tally_frames _ index frame later Frame.ahead _ spawned found
      have less := passes.ahead
      simp only
      omega
  | insert t requeues unlocked missing =>
      apply set_ahead
      cases requeues <;> simp [Frame.ahead]
  | countInserted t =>
      apply set_ahead
      simp [Frame.ahead]
  | erase t unlocked held =>
      apply set_ahead
      simp [Frame.ahead]
  | countErased =>
      apply set_ahead
      simp [Frame.ahead]

def ThreadAction.Proceeds : ThreadAction T → Prop
  | .proceed _ => True
  | _ => False

theorem length_le_ahead {actions : List (ThreadAction T)}
    (proceeds : ∀ action ∈ actions, action.Proceeds) {last : Threads T}
    (executed : (threadsMachine T).exec actions threads = some last) :
    actions.length ≤ tally Frame.ahead threads.frames := by
  induction actions generalizing threads with
  | nil => exact Nat.zero_le _
  | cons action rest ih =>
      obtain ⟨next, stepped, remaining⟩ := Machine.exec_cons executed
      have shorter := ih (fun later member => proceeds later (List.mem_cons_of_mem action member))
        remaining
      cases action with
      | proceed index =>
          obtain ⟨frame, found, moved⟩ := move_of_proceed stepped
          have less := moved.ahead found
          rw [List.length_cons]
          omega
      | _ => cases proceeds _ List.mem_cons_self

/-- No thread can take a step. -/
def Quiescent (threads : Threads T) : Prop := ∀ index, threads.proceed index = none

theorem Quiescent.advance (quiescent : Quiescent threads) (member : frame ∈ threads.frames) :
    ∃ index, threads.advance index frame = none := by
  obtain ⟨index, found⟩ := List.mem_iff_getElem?.mp member
  have blocked := quiescent index
  rw [Threads.proceed, found] at blocked
  exact ⟨index, blocked⟩

theorem Quiescent.unlocked (quiescent : Quiescent threads) (balanced : Balanced threads) :
    threads.locked = false := by
  cases locked : threads.locked with
  | false => rfl
  | true =>
      have locking := balanced.locking
      rw [locked, Bool.toNat_true] at locking
      by_cases noneAdding : tally Frame.adding threads.frames = 0
      · have someSubtracting : tally Frame.subtracting threads.frames ≠ 0 := by omega
        obtain ⟨frame, member, heavy⟩ := exists_of_tally_ne_zero someSubtracting
        obtain ⟨index, blocked⟩ := quiescent.advance member
        cases frame with
        | erased => cases blocked
        | _ => exact absurd rfl heavy
      · obtain ⟨frame, member, heavy⟩ := exists_of_tally_ne_zero noneAdding
        obtain ⟨index, blocked⟩ := quiescent.advance member
        cases frame with
        | inserted t => cases blocked
        | _ => exact absurd rfl heavy

theorem advance_of_removal {t : T} (unlocked : threads.locked = false)
    (removal : frame.removal = some t) : threads.advance index frame ≠ none := by
  cases frame with
  | removing other =>
      rw [Threads.advance, unlocked, if_neg Bool.false_ne_true]
      split <;> simp
  | inserted other => simp [Threads.advance]
  | delayingCall other => simp [Threads.advance]
  | delayingRemoval other => simp [Threads.advance]
  | delayedRemoval elem => simp [Threads.advance]
  | _ => cases removal

theorem Quiescent.drained (quiescent : Quiescent threads) (balanced : Balanced threads) :
    threads.inFlight = ∅ ∧ threads.numInFlight = 0 := by
  have unlocked := quiescent.unlocked balanced
  have empty : threads.inFlight = ∅ := by
    apply Finset.eq_empty_of_forall_notMem
    intro t held
    obtain ⟨frame, member, removal⟩ := balanced.attended t held
    obtain ⟨index, blocked⟩ := quiescent.advance member
    exact advance_of_removal unlocked removal blocked
  have locking := balanced.locking
  have counter := balanced.counter
  rw [unlocked, Bool.toNat_false] at locking
  rw [empty, Finset.card_empty] at counter
  exact ⟨empty, by omega⟩

/-- The counter is exact whenever the lock is free, every value in flight has a removal ahead,
and the threads alone bring both to nothing in a bounded number of steps. -/
structure Drains (threads : Threads T) : Prop where
  exact : threads.locked = false → threads.numInFlight = threads.inFlight.card
  nonneg : 0 ≤ threads.numInFlight
  attended : ∀ t ∈ threads.inFlight, ∃ frame ∈ threads.frames, frame.removal = some t
  ends : ∀ actions : List (ThreadAction T), (∀ action ∈ actions, action.Proceeds) →
    ∀ last, (threadsMachine T).exec actions threads = some last →
      actions.length ≤ tally Frame.ahead threads.frames ∧
        (Quiescent last → last.inFlight = ∅ ∧ last.numInFlight = 0)

theorem Balanced.drains (balanced : Balanced threads) : Drains threads where
  exact unlocked := by
    have locking := balanced.locking
    have counter := balanced.counter
    rw [unlocked, Bool.toNat_false] at locking
    omega
  nonneg := balanced.nonneg
  attended := balanced.attended
  ends actions proceeds last executed := by
    have preserved : ∀ (threads : Threads T) (action : ThreadAction T) (next : Threads T),
        Balanced threads → action.Proceeds →
        (threadsMachine T).step threads action = some next → Balanced next :=
      fun threads action next balanced _ stepped => balanced.step stepped
    have still := Machine.invariant_of_allowed preserved actions proceeds balanced executed
    exact ⟨length_le_ahead proceeds executed, fun quiescent => quiescent.drained still⟩

/-- However calls from outside, timers and `stop()` interleave. -/
theorem debouncer_drains (actions : List (ThreadAction T)) :
    (threadsMachine T).Along Drains actions .initial := by
  have preserved : ∀ (threads : Threads T) (action : ThreadAction T) (next : Threads T),
      Balanced threads → (threadsMachine T).step threads action = some next → Balanced next :=
    fun threads action next balanced stepped => balanced.step stepped
  have along := Machine.along_of_preserved preserved actions balanced_initial
  exact along.mono fun threads balanced => balanced.drains

end Draining

end Relevanced.Util

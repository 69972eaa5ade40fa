import Relevanced.Foundation.Machine

/-!
# One value in the debouncer

What a debouncer does for one value, with nothing but the writes of that value, its own timers
and the stop. When every timer fires exactly when it is due, the calls of `onValueCb_` are at
least an interval apart, and none comes before a write is `initialDelay` old.
-/

namespace Relevanced.Util

open Foundation

set_option autoImplicit false

inductive SlotTask where
  | onValue
  | remove
  | requeue (written : Nat)
  deriving DecidableEq

structure SlotTimer where
  task : SlotTask
  due : Nat
  deriving DecidableEq

/-- The part of a debouncer that belongs to one value: whether the value is in flight, its
pending timers, and the times of its writes and of the calls made for it, latest first. -/
structure Slot where
  initialDelay : Nat
  interval : Nat
  requeueDelay : Nat
  stopping : Bool
  now : Nat
  held : Bool
  timers : List SlotTimer
  writes : List Nat
  calls : List Nat
  deriving DecidableEq

inductive SlotAction where
  | write (time : Nat)
  | fire (index time : Nat)
  | stop (time : Nat)
  | pass (time : Nat)
  deriving DecidableEq

def SlotAction.time : SlotAction → Nat
  | write time => time
  | fire _ time => time
  | stop time => time
  | pass time => time

namespace Slot

def new (initialDelay interval : Nat) : Slot where
  initialDelay := initialDelay
  interval := interval
  requeueDelay := interval + 10
  stopping := false
  now := 0
  held := false
  timers := []
  writes := []
  calls := []

def schedule (slot : Slot) (delay : Nat) (task : SlotTask) : Slot :=
  { slot with timers := slot.timers ++ [⟨task, slot.now + delay⟩] }

def writeIfNotInFlight (slot : Slot) : Bool × Slot :=
  if slot.stopping then (false, slot)
  else if slot.held then (false, slot)
  else
    let inserted := { slot with held := true }
    (true, (inserted.schedule slot.initialDelay .onValue).schedule slot.interval .remove)

def write (slot : Slot) : Slot :=
  let (wrote, slot) := slot.writeIfNotInFlight
  if wrote then slot else slot.schedule slot.requeueDelay (.requeue slot.now)

def removeDebounced (slot : Slot) : Slot := { slot with held := false }

def perform (slot : Slot) : SlotTask → Slot
  | .onValue => if slot.stopping then slot else { slot with calls := slot.now :: slot.calls }
  | .remove => slot.removeDebounced
  | .requeue _ => if slot.stopping then slot.removeDebounced else slot.writeIfNotInFlight.2

def advance (slot : Slot) (time : Nat) : Slot := { slot with now := time }

def popTimer (slot : Slot) (index : Nat) : Slot :=
  { slot with timers := slot.timers.eraseIdx index }

def record (slot : Slot) : Slot := { slot with writes := slot.now :: slot.writes }

/-- The timer at the index, when it is due and no other of the value is due before it. -/
def firing (slot : Slot) (index time : Nat) : Option SlotTimer :=
  match slot.timers[index]? with
  | some timer =>
      if timer.due ≤ time ∧ ∀ other ∈ slot.timers, timer.due ≤ other.due then some timer else none
  | none => none

def effect (slot : Slot) : SlotAction → Option Slot
  | .write _ => some slot.record.write
  | .fire index time =>
      (slot.firing index time).map fun timer => (slot.popTimer index).perform timer.task
  | .stop _ => some { slot with stopping := true }
  | .pass _ => some slot

def step (slot : Slot) (action : SlotAction) : Option Slot :=
  if slot.now ≤ action.time then (slot.advance action.time).effect action else none

/-- No pending timer is left behind. -/
def Punctual (slot : Slot) (action : SlotAction) : Prop :=
  ∀ timer ∈ slot.timers, action.time ≤ timer.due

end Slot

def slotMachine : Machine Slot SlotAction where
  step := Slot.step

namespace Slot

/-- What the timers of a value keep apart as long as the debouncer runs. The time of a call, made
or pending, lies at least an interval before that of any call for a later insertion. -/
structure Steady (slot : Slot) : Prop where
  held : ∀ timer ∈ slot.timers, timer.task = .remove → slot.held = true
  single : slot.timers.Pairwise fun earlier later => earlier.task = .remove → later.task ≠ .remove
  spaced : slot.timers.Pairwise fun earlier later =>
    earlier.task = .onValue → later.task = .onValue → earlier.due + slot.interval ≤ later.due
  pending : ∀ timer ∈ slot.timers, timer.task = .onValue →
    (∀ call ∈ slot.calls, call + slot.interval ≤ timer.due) ∧
      ∃ write ∈ slot.writes, write + slot.initialDelay ≤ timer.due
  paced : ∀ moment, moment ∈ slot.calls ∨ ⟨.onValue, moment⟩ ∈ slot.timers →
    (∀ timer ∈ slot.timers, timer.task = .remove →
      moment + slot.interval ≤ timer.due + slot.initialDelay) ∧
    (slot.held = false → moment + slot.interval ≤ slot.now + slot.initialDelay)

/-- What holds in every run with punctual timers. -/
structure Throttled (slot : Slot) : Prop where
  apart : slot.calls.Pairwise fun later earlier => earlier + slot.interval ≤ later
  delayed : ∀ call ∈ slot.calls, ∃ write ∈ slot.writes, write + slot.initialDelay ≤ call
  past : ∀ write ∈ slot.writes, write ≤ slot.now
  due : ∀ timer ∈ slot.timers, slot.now ≤ timer.due
  retried : ∀ timer ∈ slot.timers, ∀ written, timer.task = .requeue written →
    written ∈ slot.writes
  steady : slot.stopping = false → Steady slot

theorem throttled_new (initialDelay interval : Nat) : Throttled (new initialDelay interval) where
  apart := List.Pairwise.nil
  delayed call member := by cases member
  past write member := by cases member
  due timer member := by cases member
  retried timer member := by cases member
  steady _ :=
    { held := fun timer member => by cases member
      single := List.Pairwise.nil
      spaced := List.Pairwise.nil
      pending := fun timer member => by cases member
      paced := fun moment either => by rcases either with member | member <;> cases member }

variable {slot : Slot}

theorem Steady.advance (steady : Steady slot) {time : Nat} (forward : slot.now ≤ time) :
    Steady (slot.advance time) where
  held := steady.held
  single := steady.single
  spaced := steady.spaced
  pending := steady.pending
  paced moment either := by
    obtain ⟨removed, free⟩ := steady.paced moment either
    refine ⟨removed, fun notHeld => ?_⟩
    have before := free notHeld
    change moment + slot.interval ≤ time + slot.initialDelay
    omega

theorem Throttled.advance (throttled : Throttled slot) {time : Nat} (forward : slot.now ≤ time)
    (punctual : ∀ timer ∈ slot.timers, time ≤ timer.due) : Throttled (slot.advance time) where
  apart := throttled.apart
  delayed := throttled.delayed
  past write member := Nat.le_trans (throttled.past write member) forward
  due := punctual
  retried := throttled.retried
  steady running := (throttled.steady running).advance forward

theorem Throttled.record (throttled : Throttled slot) : Throttled slot.record where
  apart := throttled.apart
  delayed call member := by
    obtain ⟨write, written, old⟩ := throttled.delayed call member
    exact ⟨write, List.mem_cons_of_mem _ written, old⟩
  past write member := by
    rcases List.mem_cons.mp member with rfl | before
    · exact Nat.le_refl _
    · exact throttled.past write before
  due := throttled.due
  retried timer member written task :=
    List.mem_cons_of_mem _ (throttled.retried timer member written task)
  steady running := by
    have steady := throttled.steady running
    refine ⟨steady.held, steady.single, steady.spaced, ?_, steady.paced⟩
    intro timer member task
    obtain ⟨later, write, written, old⟩ := steady.pending timer member task
    exact ⟨later, write, List.mem_cons_of_mem _ written, old⟩

theorem Throttled.scheduleRequeue (throttled : Throttled slot) {written : Nat}
    (recorded : written ∈ slot.writes) (delay : Nat) :
    Throttled (slot.schedule delay (.requeue written)) where
  apart := throttled.apart
  delayed := throttled.delayed
  past := throttled.past
  due timer member := by
    rcases List.mem_append.mp member with before | new
    · exact throttled.due timer before
    · rw [List.mem_singleton.mp new]
      exact Nat.le_add_right _ _
  retried timer member other task := by
    rcases List.mem_append.mp member with before | new
    · exact throttled.retried timer before other task
    · rw [List.mem_singleton.mp new] at task
      cases task
      exact recorded
  steady running := by
    have steady := throttled.steady running
    have old {timer : SlotTimer} (member : timer ∈ (slot.schedule delay (.requeue written)).timers)
        (other : ∀ moment, timer.task ≠ .requeue moment) : timer ∈ slot.timers := by
      rcases List.mem_append.mp member with before | new
      · exact before
      · rw [List.mem_singleton.mp new] at other
        exact absurd rfl (other written)
    refine ⟨?_, ?_, ?_, ?_, ?_⟩
    · intro timer member task
      exact steady.held timer (old member (by rw [task]; exact nofun)) task
    · refine List.pairwise_append.mpr ⟨steady.single, List.pairwise_singleton _ _, ?_⟩
      intro earlier _ later new _
      rw [List.mem_singleton.mp new]
      exact nofun
    · refine List.pairwise_append.mpr ⟨steady.spaced, List.pairwise_singleton _ _, ?_⟩
      intro earlier _ later new _ task
      rw [List.mem_singleton.mp new] at task
      cases task
    · intro timer member task
      exact steady.pending timer (old member (by rw [task]; exact nofun)) task
    · intro moment either
      obtain ⟨removed, free⟩ :=
        steady.paced moment (either.imp_right fun member => old member nofun)
      refine ⟨fun timer member task => ?_, free⟩
      exact removed timer (old member (by rw [task]; exact nofun)) task

/-- The slot with the value inserted and its two timers scheduled. -/
def inserted (slot : Slot) : Slot :=
  { slot with
    held := true
    timers := slot.timers ++ [⟨.onValue, slot.now + slot.initialDelay⟩,
      ⟨.remove, slot.now + slot.interval⟩] }

theorem write_if_not_in_flight_free (running : slot.stopping = false) (free : slot.held = false) :
    slot.writeIfNotInFlight = (true, slot.inserted) := by
  simp [writeIfNotInFlight, running, free, inserted, schedule]

theorem write_if_not_in_flight_refused (refused : slot.stopping = true ∨ slot.held = true) :
    slot.writeIfNotInFlight = (false, slot) := by
  unfold writeIfNotInFlight
  split
  · rfl
  · rename_i running
    rw [if_pos (refused.resolve_left running)]

theorem mem_inserted {timer : SlotTimer} (member : timer ∈ slot.inserted.timers) :
    timer ∈ slot.timers ∨ timer = ⟨.onValue, slot.now + slot.initialDelay⟩ ∨
      timer = ⟨.remove, slot.now + slot.interval⟩ := by
  simpa [inserted] using member

theorem Steady.inserted (steady : Steady slot) (free : slot.held = false) {written : Nat}
    (recorded : written ∈ slot.writes) (past : written ≤ slot.now) : Steady slot.inserted where
  held _ _ _ := rfl
  single := by
    refine List.pairwise_append.mpr ⟨steady.single, by simp, ?_⟩
    intro earlier member later _ removes
    rw [steady.held earlier member removes] at free
    cases free
  spaced := by
    refine List.pairwise_append.mpr ⟨steady.spaced, by simp, ?_⟩
    intro earlier member later new calls calledLater
    have before := (steady.paced earlier.due (Or.inr (calls ▸ member))).2 free
    have same : later = ⟨.onValue, slot.now + slot.initialDelay⟩ := by
      rcases List.mem_cons.mp new with same | other
      · exact same
      · rw [List.mem_singleton.mp other] at calledLater
        cases calledLater
    rw [same]
    exact before
  pending timer member calls := by
    rcases mem_inserted member with before | rfl | rfl
    · exact steady.pending timer before calls
    · refine ⟨fun call made => ?_, written, recorded, ?_⟩
      · exact (steady.paced call (Or.inl made)).2 free
      · exact Nat.add_le_add_right past _
    · cases calls
  paced moment either := by
    refine ⟨?_, nofun⟩
    intro timer member removes
    have latest : timer = ⟨.remove, slot.now + slot.interval⟩ := by
      rcases mem_inserted member with before | rfl | rfl
      · rw [steady.held timer before removes] at free
        cases free
      · cases removes
      · rfl
    rw [latest]
    change moment + slot.interval ≤ slot.now + slot.interval + slot.initialDelay
    have known : moment ∈ slot.calls ∨ ⟨.onValue, moment⟩ ∈ slot.timers ∨
        moment = slot.now + slot.initialDelay := by
      rcases either with made | member
      · exact Or.inl made
      · rcases mem_inserted member with before | same | same
        · exact Or.inr (Or.inl before)
        · exact Or.inr (Or.inr (SlotTimer.mk.inj same).2)
        · cases same
    rcases known with made | pending | rfl
    · have before := (steady.paced moment (Or.inl made)).2 free
      omega
    · have before := (steady.paced moment (Or.inr pending)).2 free
      omega
    · omega

theorem Throttled.inserted (throttled : Throttled slot) (running : slot.stopping = false)
    (free : slot.held = false) {written : Nat} (recorded : written ∈ slot.writes) :
    Throttled slot.inserted where
  apart := throttled.apart
  delayed := throttled.delayed
  past := throttled.past
  due timer member := by
    rcases mem_inserted member with before | rfl | rfl
    · exact throttled.due timer before
    · exact Nat.le_add_right _ _
    · exact Nat.le_add_right _ _
  retried timer member other task := by
    rcases mem_inserted member with before | rfl | rfl
    · exact throttled.retried timer before other task
    · cases task
    · cases task
  steady _ := (throttled.steady running).inserted free recorded (throttled.past written recorded)

theorem Throttled.writeIfNotInFlight (throttled : Throttled slot) {written : Nat}
    (recorded : written ∈ slot.writes) : Throttled slot.writeIfNotInFlight.2 := by
  by_cases refused : slot.stopping = true ∨ slot.held = true
  · rw [write_if_not_in_flight_refused refused]
    exact throttled
  · obtain ⟨running, free⟩ := not_or.mp refused
    rw [write_if_not_in_flight_free (Bool.eq_false_iff.mpr running) (Bool.eq_false_iff.mpr free)]
    exact throttled.inserted (Bool.eq_false_iff.mpr running) (Bool.eq_false_iff.mpr free) recorded

theorem Throttled.write (throttled : Throttled slot) (recorded : slot.now ∈ slot.writes) :
    Throttled slot.write := by
  have after := throttled.writeIfNotInFlight recorded
  by_cases refused : slot.stopping = true ∨ slot.held = true
  · rw [Slot.write, write_if_not_in_flight_refused refused]
    exact throttled.scheduleRequeue recorded slot.requeueDelay
  · obtain ⟨running, free⟩ := not_or.mp refused
    have accepted :=
      write_if_not_in_flight_free (Bool.eq_false_iff.mpr running) (Bool.eq_false_iff.mpr free)
    rw [accepted] at after
    rw [Slot.write, accepted]
    exact after

theorem Throttled.stop (throttled : Throttled slot) : Throttled { slot with stopping := true } where
  apart := throttled.apart
  delayed := throttled.delayed
  past := throttled.past
  due := throttled.due
  retried := throttled.retried
  steady := nofun

theorem Throttled.stopped (throttled : Throttled slot) (stopping : slot.stopping = true)
    {timers : List SlotTimer} (fewer : ∀ timer ∈ timers, timer ∈ slot.timers) (held : Bool) :
    Throttled { slot with timers := timers, held := held } where
  apart := throttled.apart
  delayed := throttled.delayed
  past := throttled.past
  due timer member := throttled.due timer (fewer timer member)
  retried timer member := throttled.retried timer (fewer timer member)
  steady running := by
    change slot.stopping = false at running
    rw [stopping] at running
    cases running

section Firing

variable {index time : Nat} {fired : SlotTimer}

theorem firing_spec (fires : slot.firing index time = some fired) :
    slot.timers[index]? = some fired ∧ fired.due ≤ time ∧
      ∀ other ∈ slot.timers, fired.due ≤ other.due := by
  unfold firing at fires
  split at fires
  · rename_i timer found
    split at fires
    · rename_i due
      cases fires
      exact ⟨found, due⟩
    · cases fires
  · cases fires

theorem around_fired {R : SlotTimer → SlotTimer → Prop} {timers : List SlotTimer}
    (pairwise : timers.Pairwise R) (found : timers[index]? = some fired) :
    ∀ timer ∈ timers.eraseIdx index, R timer fired ∨ R fired timer := by
  intro timer member
  obtain ⟨within, at_index⟩ := List.getElem?_eq_some_iff.mp found
  rw [List.eraseIdx_eq_take_drop_succ] at member
  rw [← List.take_append_drop index timers, List.drop_eq_getElem_cons within, at_index,
    List.pairwise_append, List.pairwise_cons] at pairwise
  obtain ⟨_, ⟨later, _⟩, earlier⟩ := pairwise
  rcases List.mem_append.mp member with before | after
  · exact Or.inl (earlier timer before fired List.mem_cons_self)
  · exact Or.inr (later timer after)

theorem Steady.fewer (steady : Steady slot) {timers : List SlotTimer}
    (sublist : timers.Sublist slot.timers) : Steady { slot with timers := timers } where
  held timer member := steady.held timer (sublist.subset member)
  single := steady.single.sublist sublist
  spaced := steady.spaced.sublist sublist
  pending timer member := steady.pending timer (sublist.subset member)
  paced moment either := by
    obtain ⟨removed, free⟩ :=
      steady.paced moment (either.imp_right fun member => sublist.subset member)
    exact ⟨fun timer member => removed timer (sublist.subset member), free⟩

theorem Throttled.popTimer (throttled : Throttled slot) (index : Nat) :
    Throttled (slot.popTimer index) where
  apart := throttled.apart
  delayed := throttled.delayed
  past := throttled.past
  due timer member := throttled.due timer (List.mem_of_mem_eraseIdx member)
  retried timer member := throttled.retried timer (List.mem_of_mem_eraseIdx member)
  steady running := (throttled.steady running).fewer (List.eraseIdx_sublist _ _)

theorem Steady.called (steady : Steady slot) (positive : 0 < slot.interval)
    (found : slot.timers[index]? = some fired) (calls : fired.task = .onValue)
    (now : fired.due = slot.now) (earliest : ∀ other ∈ slot.timers, fired.due ≤ other.due) :
    Steady { slot.popTimer index with calls := slot.now :: slot.calls } := by
  have popped := steady.fewer (List.eraseIdx_sublist slot.timers index)
  have member := List.mem_of_getElem? found
  refine ⟨popped.held, popped.single, popped.spaced, ?_, ?_⟩
  · intro timer inRest calledLater
    obtain ⟨later, old⟩ := popped.pending timer inRest calledLater
    refine ⟨?_, old⟩
    intro call made
    rcases List.mem_cons.mp made with rfl | before
    · rw [← now]
      rcases around_fired steady.spaced found timer inRest with earlier | after
      · have first := earliest timer (List.mem_of_mem_eraseIdx inRest)
        have apart := earlier calledLater calls
        omega
      · exact after calls calledLater
    · exact later call before
  · intro moment either
    have known : moment ∈ slot.calls ∨ ⟨.onValue, moment⟩ ∈ slot.timers := by
      rcases either with made | pending
      · rcases List.mem_cons.mp made with rfl | before
        · rw [← now, ← calls]
          exact Or.inr member
        · exact Or.inl before
      · exact Or.inr (List.mem_of_mem_eraseIdx pending)
    obtain ⟨removed, free⟩ := steady.paced moment known
    exact ⟨fun timer inRest => removed timer (List.mem_of_mem_eraseIdx inRest), free⟩

theorem Throttled.called (throttled : Throttled slot) (positive : 0 < slot.interval)
    (running : slot.stopping = false) (found : slot.timers[index]? = some fired)
    (calls : fired.task = .onValue) (now : fired.due = slot.now)
    (earliest : ∀ other ∈ slot.timers, fired.due ≤ other.due) :
    Throttled { slot.popTimer index with calls := slot.now :: slot.calls } := by
  have steady := throttled.steady running
  have popped := throttled.popTimer index
  obtain ⟨later, write, written, old⟩ :=
    steady.pending fired (List.mem_of_getElem? found) calls
  rw [now] at later old
  refine ⟨List.pairwise_cons.mpr ⟨later, throttled.apart⟩, ?_, popped.past, popped.due,
    popped.retried, fun _ => steady.called positive found calls now earliest⟩
  intro call made
  rcases List.mem_cons.mp made with rfl | before
  · exact ⟨write, written, old⟩
  · exact throttled.delayed call before

/-- The removal of a value releases it an interval after the insertion, and no timer that could
release it again is left. -/
theorem Steady.released (steady : Steady slot) (found : slot.timers[index]? = some fired)
    (removes : fired.task = .remove) (now : fired.due = slot.now) :
    Steady { slot.popTimer index with held := false } := by
  have popped := steady.fewer (List.eraseIdx_sublist slot.timers index)
  have alone (timer : SlotTimer) (inRest : timer ∈ slot.timers.eraseIdx index) :
      timer.task ≠ .remove := by
    intro also
    rcases around_fired steady.single found timer inRest with earlier | after
    · exact earlier also removes
    · exact after removes also
  refine ⟨?_, popped.single, popped.spaced, popped.pending, ?_⟩
  · intro timer inRest also
    exact absurd also (alone timer inRest)
  · intro moment either
    refine ⟨fun timer inRest also => absurd also (alone timer inRest), fun _ => ?_⟩
    have known := either.imp_right fun pending => List.mem_of_mem_eraseIdx pending
    have paced := (steady.paced moment known).1 fired (List.mem_of_getElem? found) removes
    rw [now] at paced
    exact paced

theorem Throttled.fire (throttled : Throttled slot) (positive : 0 < slot.interval)
    (fires : slot.firing index slot.now = some fired) :
    Throttled ((slot.popTimer index).perform fired.task) := by
  obtain ⟨found, due, earliest⟩ := firing_spec fires
  have member := List.mem_of_getElem? found
  have now : fired.due = slot.now := Nat.le_antisymm due (throttled.due fired member)
  have popped := throttled.popTimer index
  cases stopping : slot.stopping with
  | true =>
      have stopped (held : Bool) : Throttled { slot.popTimer index with held := held } :=
        throttled.stopped stopping (fun timer inRest => List.mem_of_mem_eraseIdx inRest) held
      have still : (slot.popTimer index).stopping = true := stopping
      cases fired.task with
      | onValue =>
          rw [perform, if_pos still]
          exact popped
      | remove => exact stopped false
      | requeue written =>
          rw [perform, if_pos still]
          exact stopped false
  | false =>
      have running : ¬ (slot.popTimer index).stopping = true := Bool.eq_false_iff.mp stopping
      cases task : fired.task with
      | onValue =>
          rw [perform, if_neg running]
          exact throttled.called positive stopping found task now earliest
      | remove =>
          refine ⟨popped.apart, popped.delayed, popped.past, popped.due, popped.retried,
            fun _ => ?_⟩
          exact (throttled.steady stopping).released found task now
      | requeue written =>
          rw [perform, if_neg running]
          exact popped.writeIfNotInFlight (throttled.retried fired member written task)

end Firing

theorem Throttled.step (throttled : Throttled slot) (positive : 0 < slot.interval)
    {action : SlotAction} (punctual : slot.Punctual action) {next : Slot}
    (stepped : slot.step action = some next) : Throttled next := by
  unfold Slot.step at stepped
  split at stepped
  · rename_i forward
    have advanced := throttled.advance forward punctual
    cases action with
    | write time =>
        cases stepped
        exact advanced.record.write List.mem_cons_self
    | fire index time =>
        obtain ⟨fired, fires, rfl⟩ := Option.map_eq_some_iff.mp stepped
        exact advanced.fire positive fires
    | stop time =>
        cases stepped
        exact advanced.stop
    | pass time =>
        cases stepped
        exact advanced
  · cases stepped

theorem write_if_not_in_flight_delays (slot : Slot) :
    slot.writeIfNotInFlight.2.initialDelay = slot.initialDelay ∧
      slot.writeIfNotInFlight.2.interval = slot.interval ∧
      slot.writeIfNotInFlight.2.now = slot.now := by
  by_cases refused : slot.stopping = true ∨ slot.held = true
  · rw [write_if_not_in_flight_refused refused]
    exact ⟨rfl, rfl, rfl⟩
  · obtain ⟨running, free⟩ := not_or.mp refused
    rw [write_if_not_in_flight_free (Bool.eq_false_iff.mpr running) (Bool.eq_false_iff.mpr free)]
    exact ⟨rfl, rfl, rfl⟩

theorem write_delays (slot : Slot) :
    slot.write.initialDelay = slot.initialDelay ∧ slot.write.interval = slot.interval ∧
      slot.write.now = slot.now := by
  have kept := write_if_not_in_flight_delays slot
  unfold write
  cases outcome : slot.writeIfNotInFlight with
  | mk wrote after =>
      rw [outcome] at kept
      cases wrote with
      | true => exact kept
      | false => exact kept

theorem perform_delays (slot : Slot) (task : SlotTask) :
    (slot.perform task).initialDelay = slot.initialDelay ∧
      (slot.perform task).interval = slot.interval ∧ (slot.perform task).now = slot.now := by
  cases task with
  | onValue =>
      simp only [perform]
      split <;> exact ⟨rfl, rfl, rfl⟩
  | remove => exact ⟨rfl, rfl, rfl⟩
  | requeue written =>
      simp only [perform]
      split
      · exact ⟨rfl, rfl, rfl⟩
      · exact write_if_not_in_flight_delays slot

theorem step_delays {action : SlotAction} {next : Slot} (stepped : slot.step action = some next) :
    next.initialDelay = slot.initialDelay ∧ next.interval = slot.interval ∧
      next.now = action.time ∧ slot.now ≤ action.time := by
  unfold Slot.step at stepped
  split at stepped
  · rename_i forward
    cases action with
    | write time =>
        cases stepped
        obtain ⟨initialDelay, interval, now⟩ := write_delays (slot.advance time).record
        exact ⟨initialDelay, interval, now, forward⟩
    | fire index time =>
        obtain ⟨fired, _, rfl⟩ := Option.map_eq_some_iff.mp stepped
        obtain ⟨initialDelay, interval, now⟩ :=
          perform_delays ((slot.advance time).popTimer index) fired.task
        exact ⟨initialDelay, interval, now, forward⟩
    | stop time =>
        cases stepped
        exact ⟨rfl, rfl, rfl, forward⟩
    | pass time =>
        cases stepped
        exact ⟨rfl, rfl, rfl, forward⟩
  · cases stepped

/-- The clock matters to a step only in that it must not go back. -/
theorem step_advance {time : Nat} {action : SlotAction} (before : slot.now ≤ action.time)
    (early : time ≤ action.time) : (slot.advance time).step action = slot.step action := by
  unfold Slot.step
  rw [if_pos before]
  exact if_pos early

end Slot

end Relevanced.Util

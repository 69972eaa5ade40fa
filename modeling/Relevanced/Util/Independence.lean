import Relevanced.Foundation.Images
import Relevanced.Util.Debouncer
import Relevanced.Util.Throttling

/-!
# Values are debounced apart

A debouncer is made of one slot for each value: what it does for a value is what the slot does
with the writes of that value, its timers and the stop. With punctual timers the calls for each
value are therefore throttled, and the calls that are possible for a value do not depend on
the writes of the others.
-/

namespace Relevanced.Util

open Foundation

set_option autoImplicit false

section Slots

variable {T : Type} [DecidableEq T]

def Task.value : Task T → T
  | .onValue elem => elem
  | .remove elem => elem
  | .requeue write => write.value

def Task.slot : Task T → SlotTask
  | .onValue _ => .onValue
  | .remove _ => .remove
  | .requeue write => .requeue write.moment.time

/-- The timer as one of the value's own. -/
def Timer.of (value : T) (timer : Timer T) : Option SlotTimer :=
  if timer.task.value = value then some ⟨timer.task.slot, timer.due⟩ else none

/-- What there is of one value in a debouncer. -/
def World.slot (world : World T) (value : T) : Slot where
  initialDelay := world.debouncer.initialDelay
  interval := world.debouncer.interval
  requeueDelay := world.debouncer.requeueDelay
  stopping := world.debouncer.stopping
  now := world.now.time
  held := decide (value ∈ world.debouncer.inFlight)
  timers := world.timers.filterMap (Timer.of value)
  writes := (world.writes.filter (·.value = value)).map (·.moment.time)
  calls := (world.calls.filter (·.value = value)).map (·.moment.time)

/-- What an action is to one value. -/
def Action.slot (world : World T) (value : T) : Action T → SlotAction
  | .write t time => if t = value then .write time else .pass time
  | .fire index time =>
      match world.timers[index]? with
      | some timer =>
          if timer.task.value = value then
            .fire (placeAmong (Timer.of value) world.timers index) time
          else .pass time
      | none => .pass time
  | .stop time => .stop time
  | .pass time => .pass time

variable {world : World T} {value : T}

theorem slot_schedule (delay : Nat) (task : Task T) :
    (world.schedule delay task).slot value =
      if task.value = value then (world.slot value).schedule delay task.slot
      else world.slot value := by
  unfold World.schedule World.slot
  rw [List.filterMap_append]
  by_cases own : task.value = value
  · simp [Timer.of, own, Slot.schedule]
  · simp [Timer.of, own]

theorem slot_record (t : T) :
    (world.record t).slot value =
      if t = value then (world.slot value).record else world.slot value := by
  unfold World.record World.slot
  by_cases own : t = value
  · simp [own, Slot.record]
  · simp [own]

theorem slot_insert (t : T) :
    (world.insertInFlight t).slot value =
      if t = value then { world.slot value with held := true } else world.slot value := by
  unfold World.insertInFlight World.slot
  by_cases own : t = value
  · simp [own]
  · simp [own, Finset.mem_insert, Ne.symm own]

theorem slot_remove (t : T) :
    (world.removeDebounced t).slot value =
      if t = value then (world.slot value).removeDebounced else world.slot value := by
  unfold World.removeDebounced
  by_cases own : t = value
  · subst own
    split
    · simp [World.slot, Slot.removeDebounced]
    · rename_i missing
      simp [World.slot, Slot.removeDebounced, missing]
  · split
    · simp [World.slot, Finset.mem_erase, Ne.symm own]
    · rfl

theorem slot_write_if_not_in_flight (t : T) :
    (world.writeIfNotInFlight t).2.slot value =
        (if t = value then (world.slot value).writeIfNotInFlight.2 else world.slot value) ∧
      (t = value → (world.writeIfNotInFlight t).1 = (world.slot value).writeIfNotInFlight.1) := by
  unfold World.writeIfNotInFlight Slot.writeIfNotInFlight
  by_cases stopping : world.debouncer.stopping = true
  · simp [stopping, World.slot]
  · by_cases held : t ∈ world.debouncer.inFlight
    · by_cases own : t = value
      · subst own
        simp [stopping, held, World.slot]
      · simp [stopping, held, own]
    · by_cases own : t = value
      · subst own
        have free : (world.slot t).held = false := decide_eq_false held
        have running : (world.slot t).stopping = false := Bool.eq_false_iff.mpr stopping
        simp only [if_neg stopping, if_neg held, free, running, slot_schedule, slot_insert,
          Task.value, if_true]
        exact ⟨rfl, fun _ => rfl⟩
      · simp only [if_neg stopping, if_neg held, slot_schedule, slot_insert, Task.value,
          if_neg own]
        exact ⟨trivial, fun same => absurd same own⟩

theorem slot_write (t : T) :
    (world.write t).slot value =
      if t = value then (world.slot value).write else world.slot value := by
  obtain ⟨after, wrote⟩ := @slot_write_if_not_in_flight T _ world value t
  unfold World.write Slot.write
  cases outcome : world.writeIfNotInFlight t with
  | mk accepted next =>
      rw [outcome] at after wrote
      by_cases own : t = value
      · rw [if_pos own] at after
        have same := wrote own
        simp only at after same
        rw [if_pos own]
        cases accepted with
        | true =>
            simp only [← same, if_true]
            exact after
        | false =>
            simp only [← same, Bool.false_eq_true, if_false]
            rw [slot_schedule]
            change (if t = value then _ else _) = _
            rw [if_pos own, ← after]
            rfl
      · rw [if_neg own] at after
        rw [if_neg own]
        cases accepted with
        | true => exact after
        | false =>
            simp only [Bool.false_eq_true, if_false]
            rw [slot_schedule]
            change (if t = value then _ else _) = _
            rw [if_neg own]
            exact after

theorem slot_perform (task : Task T) :
    (world.perform task).slot value =
      if task.value = value then (world.slot value).perform task.slot else world.slot value := by
  have stopping : (world.slot value).stopping = world.debouncer.stopping := rfl
  cases task with
  | onValue elem =>
      by_cases own : elem = value
      · simp only [World.perform, Slot.perform, Task.value, Task.slot, stopping, if_pos own]
        split
        · rfl
        · simp [World.slot, own]
      · have other : (Task.onValue elem).value ≠ value := own
        rw [if_neg other]
        simp only [World.perform]
        split
        · rfl
        · simp [World.slot, own]
  | remove elem => exact slot_remove elem
  | requeue write =>
      simp only [World.perform, Slot.perform, Task.value, Task.slot, stopping]
      split
      · exact slot_remove write.value
      · exact slot_write_if_not_in_flight write.value |>.1

theorem slot_pop {index : Nat} {timer : Timer T} (found : world.timers[index]? = some timer) :
    (world.popTimer index).slot value =
      if timer.task.value = value then
        (world.slot value).popTimer (placeAmong (Timer.of value) world.timers index)
      else world.slot value := by
  unfold World.popTimer World.slot Slot.popTimer
  by_cases own : timer.task.value = value
  · have imaged : timer.of value = some ⟨timer.task.slot, timer.due⟩ := if_pos own
    rw [if_pos own, (images_at found imaged).2]
  · have missing : timer.of value = none := if_neg own
    rw [if_neg own, images_without found missing]

theorem slot_time (world : World T) (value : T) (action : Action T) :
    (action.slot world value).time = action.time := by
  cases action with
  | write t time =>
      simp only [Action.slot]
      split <;> rfl
  | fire index time =>
      simp only [Action.slot]
      split
      · split <;> rfl
      · rfl
  | stop time => rfl
  | pass time => rfl

theorem mem_slot_timers {timer : SlotTimer} (member : timer ∈ (world.slot value).timers) :
    ∃ source ∈ world.timers, source.task.value = value ∧ source.task.slot = timer.task ∧
      source.due = timer.due := by
  obtain ⟨source, inWorld, imaged⟩ := List.mem_filterMap.mp member
  unfold Timer.of at imaged
  split at imaged
  · rename_i own
    cases imaged
    exact ⟨source, inWorld, own, rfl, rfl⟩
  · cases imaged

theorem mem_slot_of_mem {timer : Timer T} (member : timer ∈ world.timers) :
    ⟨timer.task.slot, timer.due⟩ ∈ (world.slot timer.task.value).timers :=
  List.mem_filterMap.mpr ⟨timer, member, if_pos rfl⟩

theorem slot_step {action : Action T} {next : World T} (stepped : world.step action = some next)
    (value : T) : (world.slot value).step (action.slot world value) = some (next.slot value) := by
  unfold World.step at stepped
  unfold Slot.step
  rw [slot_time]
  split at stepped
  · rename_i forward
    rw [if_pos (show (world.slot value).now ≤ action.time from forward)]
    cases action with
    | write t time =>
        cases stepped
        rw [slot_write, slot_record]
        by_cases own : t = value
        · simp only [Action.slot, if_pos own]
          rfl
        · simp only [Action.slot, if_neg own]
          rfl
    | fire index time =>
        obtain ⟨fired, fires, rfl⟩ := Option.map_eq_some_iff.mp stepped
        obtain ⟨found, due, earliest⟩ := firing_spec fires
        have foundHere : world.timers[index]? = some fired := found
        rw [slot_perform, slot_pop found]
        by_cases own : fired.task.value = value
        · rw [if_pos own, if_pos own]
          have imaged : fired.of value = some ⟨fired.task.slot, fired.due⟩ := if_pos own
          have placed := (images_at foundHere imaged).1
          have first : ∀ other ∈ (world.slot value).timers, fired.due ≤ other.due := by
            intro other member
            obtain ⟨source, inWorld, _, _, sameDue⟩ := mem_slot_timers member
            rw [← sameDue]
            exact earliest source inWorld
          have firesHere : ((world.slot value).advance time).firing
              (placeAmong (Timer.of value) world.timers index) time =
                some ⟨fired.task.slot, fired.due⟩ := by
            have there : ((world.slot value).advance time).timers[placeAmong (Timer.of value)
                world.timers index]? = some ⟨fired.task.slot, fired.due⟩ := placed
            rw [Slot.firing, there]
            exact if_pos ⟨due, first⟩
          simp only [Action.slot, foundHere, if_pos own, Slot.effect, Action.time]
          rw [firesHere]
          rfl
        · rw [if_neg own, if_neg own]
          simp only [Action.slot, foundHere, if_neg own]
          rfl
    | stop time =>
        cases stepped
        rfl
    | pass time =>
        cases stepped
        rfl
  · cases stepped

end Slots

section Throttling

variable {T : Type} [DecidableEq T]

/-- Every timer fires exactly when it is due: time does not pass it by. -/
def Punctual (world : World T) (action : Action T) : Prop :=
  ∀ timer ∈ world.timers, action.time ≤ timer.due

instance (world : World T) (action : Action T) : Decidable (Punctual world action) :=
  inferInstanceAs (Decidable (∀ timer ∈ world.timers, action.time ≤ timer.due))

variable {world next : World T} {value : T} {action : Action T}

theorem Punctual.slot (punctual : Punctual world action) (value : T) :
    (world.slot value).Punctual (action.slot world value) := by
  intro timer member
  obtain ⟨source, inWorld, _, _, sameDue⟩ := mem_slot_timers member
  rw [slot_time, ← sameDue]
  exact punctual source inWorld

/-- The times of the calls of `onValueCb_` for the value, latest first. -/
def World.callsOf (world : World T) (value : T) : List Nat := (world.slot value).calls

/-- The times of the writes of the value, latest first. -/
def World.writesOf (world : World T) (value : T) : List Nat := (world.slot value).writes

/-- The calls for a value are an interval apart, and each comes a delay after some write of it. -/
def Throttles (initialDelay interval : Nat) (world : World T) : Prop :=
  ∀ value, (world.callsOf value).Pairwise (fun later earlier => earlier + interval ≤ later) ∧
    ∀ call ∈ world.callsOf value, ∃ write ∈ world.writesOf value, write + initialDelay ≤ call

/-- Every slot keeps its delays and is throttled. -/
def SlotsThrottled (initialDelay interval : Nat) (world : World T) : Prop :=
  ∀ value, (world.slot value).Throttled ∧ (world.slot value).initialDelay = initialDelay ∧
    (world.slot value).interval = interval

variable {initialDelay interval : Nat}

theorem slots_throttled_initial :
    SlotsThrottled initialDelay interval (World.initial initialDelay interval : World T) :=
  fun _ => ⟨Slot.throttled_new initialDelay interval, rfl, rfl⟩

theorem SlotsThrottled.step (throttled : SlotsThrottled initialDelay interval world)
    (positive : 0 < interval) (punctual : Punctual world action)
    (stepped : world.step action = some next) : SlotsThrottled initialDelay interval next := by
  intro value
  obtain ⟨before, sameDelay, sameInterval⟩ := throttled value
  have slotStepped := slot_step stepped value
  obtain ⟨keptDelay, keptInterval, _, _⟩ := Slot.step_delays slotStepped
  refine ⟨?_, keptDelay.trans sameDelay, keptInterval.trans sameInterval⟩
  exact before.step (sameInterval ▸ positive) (punctual.slot value) slotStepped

theorem SlotsThrottled.throttles (throttled : SlotsThrottled initialDelay interval world) :
    Throttles initialDelay interval world := by
  intro value
  obtain ⟨slot, sameDelay, sameInterval⟩ := throttled value
  have apart := slot.apart
  have delayed := slot.delayed
  rw [sameInterval] at apart
  rw [sameDelay] at delayed
  exact ⟨apart, delayed⟩

theorem throttles_along (positive : 0 < interval) (actions : List (Action T))
    (throttled : SlotsThrottled initialDelay interval world)
    (punctual : (debouncerMachine T).Guarded Punctual actions world) :
    (debouncerMachine T).Along (Throttles initialDelay interval) actions world := by
  have preserved : ∀ (world : World T) (action : Action T) (next : World T),
      SlotsThrottled initialDelay interval world → True → Punctual world action →
      (debouncerMachine T).step world action = some next →
      SlotsThrottled initialDelay interval next :=
    fun world action next throttled _ punctual stepped =>
      throttled.step positive punctual stepped
  exact Machine.along_of_guarded preserved (fun _ throttled => throttled.throttles) actions
    (fun _ _ => trivial) throttled punctual

end Throttling

section Projection

variable {T : Type} [DecidableEq T]

/-- What a run is to one value. -/
def slotActions (value : T) : List (Action T) → World T → List SlotAction
  | [], _ => []
  | action :: rest, world =>
      action.slot world value ::
        match world.step action with
        | some next => slotActions value rest next
        | none => []

/-- The writes of the value and the stop, of all actions. -/
def Action.external (value : T) : Action T → Option SlotAction
  | .write t time => if t = value then some (.write time) else none
  | .stop time => some (.stop time)
  | _ => none

def SlotAction.external : SlotAction → Option SlotAction
  | .write time => some (.write time)
  | .stop time => some (.stop time)
  | _ => none

variable {world last : World T} {value : T}

theorem slot_external (action : Action T) :
    (action.slot world value).external = action.external value := by
  cases action with
  | write t time =>
      simp only [Action.slot, Action.external]
      split <;> rfl
  | fire index time =>
      simp only [Action.slot, Action.external]
      split
      · split <;> rfl
      · rfl
  | stop time => rfl
  | pass time => rfl

/-- A run of the debouncer is a punctual run of the slot, with the writes of the value alone. -/
theorem project_run {actions : List (Action T)}
    (punctual : (debouncerMachine T).Guarded Punctual actions world)
    (executed : (debouncerMachine T).exec actions world = some last) (value : T) :
    slotMachine.Guarded Slot.Punctual (slotActions value actions world) (world.slot value) ∧
      slotMachine.exec (slotActions value actions world) (world.slot value) =
        some (last.slot value) ∧
      (slotActions value actions world).filterMap SlotAction.external =
        actions.filterMap (Action.external value) := by
  induction actions generalizing world with
  | nil =>
      cases executed
      exact ⟨trivial, rfl, rfl⟩
  | cons action rest ih =>
      obtain ⟨next, stepped, remaining⟩ := Machine.exec_cons executed
      have slotStepped := slot_step stepped value
      have afterwards : world.step action = some next := stepped
      obtain ⟨guarded, executedRest, externals⟩ := ih (punctual.2 next stepped) remaining
      rw [slotActions, afterwards]
      refine ⟨Machine.guarded_of_step (punctual.1.slot value) slotStepped guarded, ?_, ?_⟩
      · exact (Machine.exec_of_step slotStepped _).trans executedRest
      · rw [List.filterMap_cons, List.filterMap_cons, slot_external, externals]

end Projection

section Merging

variable {T : Type} [DecidableEq T] {value : T} {slot slotNext : Slot}
  {world worldNext both next : World T} {action : Action T}

/-- One value is as in the slot, and all others are as in the world. -/
structure Merged (value : T) (slot : Slot) (world both : World T) : Prop where
  own : both.slot value = slot.advance both.now.time
  others : ∀ other, other ≠ value → both.slot other = (world.slot other).advance both.now.time

theorem advanced_pass {base after : Slot} {time later : Nat} (same : slot = base.advance time)
    (stepped : slot.step (.pass later) = some after) : after = base.advance later := by
  subst same
  unfold Slot.step at stepped
  split at stepped
  · cases stepped
    rfl
  · cases stepped

theorem advanced_step {base baseNext after : Slot} {time : Nat} {move : SlotAction}
    (same : slot = base.advance time) (baseStepped : base.step move = some baseNext)
    (stepped : slot.step move = some after) : after = baseNext.advance move.time := by
  obtain ⟨_, _, now, forward⟩ := Slot.step_delays baseStepped
  subst same
  obtain ⟨_, _, _, early⟩ := Slot.step_delays stepped
  have earlier : time ≤ move.time := early
  rw [Slot.step_advance forward earlier, baseStepped] at stepped
  cases stepped
  rw [← now]
  rfl

theorem Merged.step (merged : Merged value slot world both)
    (stepped : both.step action = some next)
    (ownMoves : (action.slot both value = .pass action.time ∧ slotNext = slot) ∨
      slot.step (action.slot both value) = some slotNext)
    (othersMove : ∀ other, other ≠ value →
      (action.slot both other = .pass action.time ∧ worldNext.slot other = world.slot other) ∨
        (world.slot other).step (action.slot both other) = some (worldNext.slot other)) :
    Merged value slotNext worldNext next := by
  have now : next.now.time = action.time := by
    obtain ⟨_, _, now, _⟩ := Slot.step_delays (slot_step stepped value)
    rw [slot_time] at now
    exact now
  constructor
  · have ownStepped := slot_step stepped value
    rcases ownMoves with ⟨passes, rfl⟩ | moves
    · rw [passes] at ownStepped
      rw [now]
      exact advanced_pass merged.own ownStepped
    · have after := advanced_step merged.own moves ownStepped
      rw [slot_time] at after
      rw [now]
      exact after
  · intro other different
    have otherStepped := slot_step stepped other
    rcases othersMove other different with ⟨passes, same⟩ | moves
    · rw [passes] at otherStepped
      rw [now, same]
      exact advanced_pass (merged.others other different) otherStepped
    · have after := advanced_step (merged.others other different) moves otherStepped
      rw [slot_time] at after
      rw [now]
      exact after

theorem step_of_fire {index time : Nat} {timer : Timer T} (forward : both.now.time ≤ time)
    (found : both.timers[index]? = some timer) (due : timer.due ≤ time)
    (late : ∀ other ∈ both.timers, time ≤ other.due) :
    ∃ next, both.step (.fire index time) = some next := by
  have fires : (both.advance time).firing (.fire index time) = some timer := by
    have there : (both.advance time).timers[index]? = some timer := found
    rw [World.firing, there]
    exact if_pos ⟨due, fun other member => Nat.le_trans due (late other member)⟩
  refine ⟨((both.advance time).popTimer index).perform timer.task, ?_⟩
  unfold World.step
  rw [if_pos (show both.now.time ≤ (Action.fire index time : Action T).time from forward)]
  change ((both.advance time).firing (.fire index time)).map _ = _
  rw [fires]
  rfl

theorem slot_fire {index : Nat} {timer : Timer T} (found : both.timers[index]? = some timer)
    (time : Nat) (other : T) :
    (Action.fire index time).slot both other =
      if timer.task.value = other then .fire (placeAmong (Timer.of other) both.timers index) time
      else .pass time := by
  simp only [Action.slot, found]

theorem fire_in_slot {base : Slot} {owner : T} {place time : Nat} {baseNext : Slot}
    (same : (both.slot owner).timers = base.timers)
    (stepped : base.step (.fire place time) = some baseNext)
    (forward : both.now.time ≤ time) (late : ∀ timer ∈ both.timers, time ≤ timer.due) :
    ∃ index next, both.step (.fire index time) = some next ∧
      ∀ other, (Action.fire index time).slot both other =
        if owner = other then .fire place time else .pass time := by
  have fires : ∃ timer, (base.advance time).firing place time = some timer := by
    unfold Slot.step at stepped
    split at stepped
    · obtain ⟨timer, fires, _⟩ := Option.map_eq_some_iff.mp stepped
      exact ⟨timer, fires⟩
    · cases stepped
  obtain ⟨timer, fires⟩ := fires
  obtain ⟨found, due, _⟩ := Slot.firing_spec fires
  have foundHere : (both.timers.filterMap (Timer.of owner))[place]? = some timer := by
    change (both.slot owner).timers[place]? = some timer
    rw [same]
    exact found
  obtain ⟨index, source, foundSource, imaged, placed⟩ := exists_preimage_at foundHere
  have owned : source.task.value = owner ∧ source.due = timer.due := by
    unfold Timer.of at imaged
    split at imaged
    · rename_i own
      cases imaged
      exact ⟨own, rfl⟩
    · cases imaged
  rw [← owned.2] at due
  obtain ⟨next, enabled⟩ := step_of_fire forward foundSource due late
  refine ⟨index, next, enabled, ?_⟩
  intro other
  rw [slot_fire foundSource, owned.1]
  by_cases own : owner = other
  · subst own
    rw [if_pos rfl, if_pos rfl, placed]
  · rw [if_neg own, if_neg own]

/-- The writes and the stop, which come from outside. -/
def Action.isExternal : Action T → Bool
  | .write _ _ => true
  | .stop _ => true
  | _ => false

/-- The merged world takes a step of its own, of those that come from outside if any. -/
structure Advances (both : World T) (time : Nat) (external : List (Action T)) (slot : Slot)
    (world : World T) (value : T) (action : Action T) (next : World T) : Prop where
  time : action.time = time
  stepped : both.step action = some next
  external : [action].filter Action.isExternal = external
  merged : Merged value slot world next

theorem Merged.ownMove (merged : Merged value slot world both) {move : SlotAction}
    (moves : slot.step move = some slotNext) (inner : move.external = none)
    (forward : both.now.time ≤ move.time) (late : ∀ timer ∈ both.timers, move.time ≤ timer.due) :
    ∃ action next, Advances both move.time [] slotNext world value action next := by
  cases move with
  | write time => cases inner
  | stop time => cases inner
  | pass time =>
      have stepped : both.step (.pass time) = some (both.advance time) := if_pos forward
      exact ⟨.pass time, _, rfl, stepped, rfl,
        merged.step stepped (Or.inr moves) fun other _ => Or.inl ⟨rfl, rfl⟩⟩
  | fire place time =>
      have same : (both.slot value).timers = slot.timers := by
        rw [merged.own]
        rfl
      obtain ⟨index, next, stepped, images⟩ := fire_in_slot same moves forward late
      refine ⟨.fire index time, next, rfl, stepped, rfl, merged.step stepped (Or.inr ?_) ?_⟩
      · rw [images value, if_pos rfl]
        exact moves
      · intro other different
        rw [images other, if_neg (Ne.symm different)]
        exact Or.inl ⟨rfl, rfl⟩

theorem Merged.otherMove (merged : Merged value slot world both)
    (moves : world.step action = some worldNext) (inner : action.external value = none)
    (forward : both.now.time ≤ action.time)
    (late : ∀ timer ∈ both.timers, action.time ≤ timer.due) :
    ∃ taken next, Advances both action.time ([action].filter Action.isExternal) slot worldNext value
      taken next := by
  have slotMoves (other : T) := slot_step moves other
  have passing (unowned : ∀ other, other ≠ value →
      action.slot world other = .pass action.time)
      (internal : action.isExternal = false) :
      ∃ taken next, Advances both action.time ([action].filter Action.isExternal) slot worldNext
        value taken next := by
    have stepped : both.step (.pass action.time) = some (both.advance action.time) := if_pos forward
    refine ⟨.pass action.time, _, rfl, stepped, ?_,
      merged.step stepped (Or.inl ⟨rfl, rfl⟩) fun other different => Or.inr ?_⟩
    · rw [List.filter_cons_of_neg (Bool.eq_false_iff.mp internal)]
      rfl
    · change (world.slot other).step (.pass action.time) = _
      rw [← unowned other different]
      exact slotMoves other
  cases action with
  | write t time =>
      have other : t ≠ value := by
        rintro rfl
        simp [Action.external] at inner
      have stepped : both.step (.write t time) =
          some (((both.advance time).record t).write t) := if_pos forward
      refine ⟨.write t time, _, rfl, stepped, rfl, merged.step stepped (Or.inl ⟨?_, rfl⟩) ?_⟩
      · exact if_neg other
      · exact fun owner _ => Or.inr (slotMoves owner)
  | fire index time =>
      have found : ∃ timer, world.timers[index]? = some timer := by
        unfold World.step at moves
        split at moves
        · obtain ⟨timer, fires, _⟩ := Option.map_eq_some_iff.mp moves
          exact ⟨timer, (firing_spec fires).1⟩
        · cases moves
      obtain ⟨timer, found⟩ := found
      by_cases own : timer.task.value = value
      · refine passing (fun other different => ?_) rfl
        rw [slot_fire found, own, if_neg (Ne.symm different)]
        rfl
      · have ownerMoves := slotMoves timer.task.value
        rw [slot_fire found, if_pos rfl] at ownerMoves
        have same : (both.slot timer.task.value).timers = (world.slot timer.task.value).timers := by
          rw [merged.others _ own]
          rfl
        obtain ⟨taken, next, stepped, images⟩ := fire_in_slot same ownerMoves forward late
        refine ⟨.fire taken time, next, rfl, stepped, rfl,
          merged.step stepped (Or.inl ⟨?_, rfl⟩) ?_⟩
        · rw [images value, if_neg own]
          rfl
        · intro other different
          have otherMoves := slotMoves other
          rw [slot_fire found] at otherMoves
          rw [images other]
          by_cases owned : timer.task.value = other
          · subst owned
            rw [if_pos rfl]
            exact Or.inr ownerMoves
          · rw [if_neg owned] at otherMoves ⊢
            exact Or.inr otherMoves
  | stop time => cases inner
  | pass time => exact passing (fun _ _ => rfl) rfl

theorem Merged.bothMove (merged : Merged value slot world both) {move external : SlotAction}
    (ownMoves : slot.step move = some slotNext) (moves : world.step action = some worldNext)
    (ownOuter : move.external = some external) (outer : action.external value = some external)
    (forward : both.now.time ≤ action.time) :
    ∃ next, Advances both action.time ([action].filter Action.isExternal) slotNext worldNext value
      action next := by
  cases action with
  | write t time =>
      by_cases own : t = value
      · subst own
        have same : external = .write time := by
          simpa [Action.external] using outer.symm
        subst same
        have sameMove : move = .write time := by
          cases move with
          | write other =>
              cases ownOuter
              rfl
          | stop other => cases ownOuter
          | fire place other => cases ownOuter
          | pass other => cases ownOuter
        subst sameMove
        have stepped : both.step (.write t time) =
            some (((both.advance time).record t).write t) := if_pos forward
        refine ⟨_, rfl, stepped, rfl, merged.step stepped (Or.inr ?_) ?_⟩
        · rw [show (Action.write t time).slot both t = .write time from if_pos rfl]
          exact ownMoves
        · exact fun other _ => Or.inr (slot_step moves other)
      · simp [Action.external, own] at outer
  | stop time =>
      cases outer
      have sameMove : move = .stop time := by
        cases move with
        | write other => cases ownOuter
        | stop other =>
            cases ownOuter
            rfl
        | fire place other => cases ownOuter
        | pass other => cases ownOuter
      subst sameMove
      have stepped : both.step (.stop time) = some (both.advance time).stop := if_pos forward
      exact ⟨_, rfl, stepped, rfl, merged.step stepped (Or.inr ownMoves)
        fun other _ => Or.inr (slot_step moves other)⟩
  | fire index time => cases outer
  | pass time => cases outer

end Merging

section Runs

variable {T : Type} [DecidableEq T] {value : T} {initialDelay interval : Nat}

/-- A punctual run of a slot. -/
structure SlotRun (actions : List SlotAction) (slot last : Slot) : Prop where
  throttled : slot.Throttled
  positive : 0 < slot.interval
  punctual : slotMachine.Guarded Slot.Punctual actions slot
  executed : slotMachine.exec actions slot = some last

/-- A punctual run of a debouncer. -/
structure WorldRun (initialDelay interval : Nat) (actions : List (Action T))
    (world last : World T) : Prop where
  throttled : SlotsThrottled initialDelay interval world
  positive : 0 < interval
  punctual : (debouncerMachine T).Guarded Punctual actions world
  executed : (debouncerMachine T).exec actions world = some last

variable {slot slotLast : Slot} {world last both : World T}

theorem SlotRun.next {move : SlotAction} {rest : List SlotAction}
    (run : SlotRun (move :: rest) slot slotLast) :
    ∃ next, slot.step move = some next ∧ next.now = move.time ∧ SlotRun rest next slotLast := by
  obtain ⟨next, stepped, remaining⟩ := Machine.exec_cons run.executed
  obtain ⟨_, sameInterval, now, _⟩ := Slot.step_delays stepped
  exact ⟨next, stepped, now, run.throttled.step run.positive run.punctual.1 stepped,
    sameInterval.symm ▸ run.positive, run.punctual.2 next stepped, remaining⟩

theorem WorldRun.next {action : Action T} {rest : List (Action T)}
    (run : WorldRun initialDelay interval (action :: rest) world last) :
    ∃ next, world.step action = some next ∧ next.now.time = action.time ∧
      WorldRun initialDelay interval rest next last := by
  obtain ⟨next, stepped, remaining⟩ := Machine.exec_cons run.executed
  have now : next.now.time = action.time := by rw [(stepped_of_step stepped).now]
  exact ⟨next, stepped, now, run.throttled.step run.positive run.punctual.1 stepped, run.positive,
    run.punctual.2 next stepped, remaining⟩

/-- The time of the next step, or of the last one if there is none. -/
def Slot.until (slot : Slot) : List SlotAction → Nat
  | [] => slot.now
  | move :: _ => move.time

def World.until (world : World T) : List (Action T) → Nat
  | [] => world.now.time
  | action :: _ => action.time

theorem SlotRun.late {actions : List SlotAction} (run : SlotRun actions slot slotLast) :
    ∀ timer ∈ slot.timers, slot.until actions ≤ timer.due := by
  cases actions with
  | nil => exact run.throttled.due
  | cons move rest => exact run.punctual.1

theorem WorldRun.late {actions : List (Action T)}
    (run : WorldRun initialDelay interval actions world last) :
    ∀ timer ∈ world.timers, world.until actions ≤ timer.due := by
  cases actions with
  | nil =>
      intro timer member
      exact (run.throttled timer.task.value).1.due _ (mem_slot_of_mem member)
  | cons action rest => exact run.punctual.1

theorem own_external_time {move external : SlotAction} (outer : move.external = some external) :
    move.time = external.time := by
  cases move with
  | write time =>
      cases outer
      rfl
  | stop time =>
      cases outer
      rfl
  | fire index time => cases outer
  | pass time => cases outer

theorem external_time {action : Action T} {external : SlotAction}
    (outer : action.external value = some external) : external.time = action.time := by
  cases action with
  | write t time =>
      simp only [Action.external] at outer
      split at outer <;> cases outer
      rfl
  | stop time =>
      cases outer
      rfl
  | fire index time => cases outer
  | pass time => cases outer

theorem SlotRun.forward {actions : List SlotAction} (run : SlotRun actions slot slotLast) :
    slot.now ≤ slot.until actions ∧ slot.until actions ≤ slotLast.now ∧
      ∀ external ∈ actions.filterMap SlotAction.external, slot.until actions ≤ external.time := by
  induction actions generalizing slot with
  | nil =>
      have same : slot = slotLast := Option.some.inj run.executed
      rw [same]
      exact ⟨Nat.le_refl _, Nat.le_refl _, fun external member => by cases member⟩
  | cons move rest ih =>
      obtain ⟨next, stepped, now, remaining⟩ := run.next
      obtain ⟨_, _, _, before⟩ := Slot.step_delays stepped
      obtain ⟨soon, ends, later⟩ := ih remaining
      rw [now] at soon
      refine ⟨before, Nat.le_trans soon ends, ?_⟩
      intro external member
      rw [List.filterMap_cons] at member
      cases outer : move.external with
      | none =>
          rw [outer] at member
          exact Nat.le_trans soon (later external member)
      | some found =>
          rw [outer] at member
          rcases List.mem_cons.mp member with rfl | inRest
          · exact Nat.le_of_eq (own_external_time outer)
          · exact Nat.le_trans soon (later external inRest)

theorem WorldRun.project {actions : List (Action T)}
    (run : WorldRun initialDelay interval actions world last) (value : T) :
    SlotRun (slotActions value actions world) (world.slot value) (last.slot value) ∧
      (slotActions value actions world).filterMap SlotAction.external =
        actions.filterMap (Action.external value) := by
  obtain ⟨punctual, executed, externals⟩ := project_run run.punctual run.executed value
  obtain ⟨throttled, _, sameInterval⟩ := run.throttled value
  exact ⟨⟨throttled, sameInterval ▸ run.positive, punctual, executed⟩, externals⟩

theorem until_slot_actions (actions : List (Action T)) :
    (world.slot value).until (slotActions value actions world) = world.until actions := by
  cases actions with
  | nil => rfl
  | cons action rest => exact slot_time world value action

theorem WorldRun.forward {actions : List (Action T)}
    (run : WorldRun initialDelay interval actions world last) (value : T) :
    world.now.time ≤ world.until actions ∧ world.until actions ≤ last.now.time ∧
      ∀ external ∈ actions.filterMap (Action.external value),
        world.until actions ≤ external.time := by
  obtain ⟨slotRun, externals⟩ := run.project value
  obtain ⟨soon, ends, later⟩ := slotRun.forward
  rw [until_slot_actions] at soon ends later
  rw [externals] at later
  exact ⟨soon, ends, later⟩

/-- No timer of the merged world is due before the next step of either part. -/
theorem Merged.late (merged : Merged value slot world both) {time : Nat}
    (ownLate : ∀ timer ∈ slot.timers, time ≤ timer.due)
    (late : ∀ timer ∈ world.timers, time ≤ timer.due) :
    ∀ timer ∈ both.timers, time ≤ timer.due := by
  intro timer member
  have inSlot := mem_slot_of_mem member
  by_cases own : timer.task.value = value
  · rw [own, merged.own] at inSlot
    exact ownLate _ inSlot
  · rw [merged.others _ own] at inSlot
    obtain ⟨source, inWorld, _, _, sameDue⟩ := mem_slot_timers inSlot
    have before := late source inWorld
    rw [sameDue] at before
    exact before

/-- From the merged world there is a punctual run to where both parts end. -/
def Mergeable (value : T) (externals : List (Action T)) (slotLast : Slot) (last both : World T) :
    Prop :=
  ∃ actions result, (debouncerMachine T).Guarded Punctual actions both ∧
    (debouncerMachine T).exec actions both = some result ∧
    actions.filter Action.isExternal = externals ∧ Merged value slotLast last result

variable {slotNext : Slot} {worldNext next : World T} {action : Action T} {time : Nat}
  {externals external : List (Action T)} {own : List SlotAction} {others : List (Action T)}

theorem Advances.now (advances : Advances both time external slotNext worldNext value action next) :
    next.now.time = time := by
  rw [(stepped_of_step advances.stepped).now]
  exact advances.time

theorem Advances.extend
    (advances : Advances both time external slotNext worldNext value action next)
    (late : ∀ timer ∈ both.timers, time ≤ timer.due)
    (mergeable : Mergeable value externals slotLast last next) :
    Mergeable value (external ++ externals) slotLast last both := by
  obtain ⟨actions, result, punctual, executed, outer, merged⟩ := mergeable
  have stepped : (debouncerMachine T).step both action = some next := advances.stepped
  refine ⟨action :: actions, result, ?_, ?_, ?_, merged⟩
  · refine Machine.guarded_of_step ?_ stepped punctual
    intro timer member
    rw [advances.time]
    exact late timer member
  · rw [Machine.exec_of_step stepped]
    exact executed
  · rw [← advances.external, ← outer, ← List.filter_append]
    rfl

/-- What is left of two runs, and a world that has merged what came before. -/
structure Merging (value : T) (initialDelay interval : Nat) (own : List SlotAction)
    (others : List (Action T)) (slot slotLast : Slot) (world last both : World T) : Prop where
  ownRun : SlotRun own slot slotLast
  worldRun : WorldRun initialDelay interval others world last
  merged : Merged value slot world both
  same : own.filterMap SlotAction.external = others.filterMap (Action.external value)
  ends : slotLast.now = last.now.time
  ownAhead : both.now.time ≤ slot.until own
  ahead : both.now.time ≤ world.until others

theorem Merging.late (merging : Merging value initialDelay interval own others slot slotLast world
      last both) (ownSoon : time ≤ slot.until own) (soon : time ≤ world.until others) :
    ∀ timer ∈ both.timers, time ≤ timer.due :=
  merging.merged.late
    (fun timer member => Nat.le_trans ownSoon (merging.ownRun.late timer member))
    (fun timer member => Nat.le_trans soon (merging.worldRun.late timer member))

theorem Merging.ownStep {move : SlotAction}
    (merging : Merging value initialDelay interval (move :: own) others slot slotLast world last
      both) (inner : move.external = none) (soon : move.time ≤ world.until others) :
    ∃ action next slotNext, Advances both move.time [] slotNext world value action next ∧
      Merging value initialDelay interval own others slotNext slotLast world last next := by
  obtain ⟨slotNext, moves, now, remaining⟩ := merging.ownRun.next
  have late := merging.late (Nat.le_refl _) soon
  obtain ⟨action, next, advances⟩ :=
    merging.merged.ownMove moves inner merging.ownAhead late
  have same := merging.same
  rw [List.filterMap_cons, inner] at same
  refine ⟨action, next, slotNext, advances, remaining, merging.worldRun, advances.merged, same,
    merging.ends, ?_, ?_⟩
  · rw [advances.now, ← now]
    exact remaining.forward.1
  · rw [advances.now]
    exact soon

theorem Merging.otherStep
    (merging : Merging value initialDelay interval own (action :: others) slot slotLast world last
      both) (inner : action.external value = none) (soon : action.time ≤ slot.until own) :
    ∃ taken next worldNext, Advances both action.time ([action].filter Action.isExternal) slot
        worldNext value taken next ∧
      Merging value initialDelay interval own others slot slotLast worldNext last next := by
  obtain ⟨worldNext, moves, now, remaining⟩ := merging.worldRun.next
  have late := merging.late soon (Nat.le_refl _)
  obtain ⟨taken, next, advances⟩ := merging.merged.otherMove moves inner merging.ahead late
  have same := merging.same
  rw [List.filterMap_cons, inner] at same
  refine ⟨taken, next, worldNext, advances, merging.ownRun, remaining, advances.merged, same,
    merging.ends, ?_, ?_⟩
  · rw [advances.now]
    exact soon
  · rw [advances.now, ← now]
    exact (remaining.forward value).1

theorem Merging.bothStep {move found : SlotAction}
    (merging : Merging value initialDelay interval (move :: own) (action :: others) slot slotLast
      world last both) (ownOuter : move.external = some found)
    (outer : action.external value = some found) :
    ∃ next slotNext worldNext, Advances both action.time ([action].filter Action.isExternal)
        slotNext worldNext value action next ∧
      Merging value initialDelay interval own others slotNext slotLast worldNext last next := by
  obtain ⟨slotNext, ownMoves, ownNow, ownRemaining⟩ := merging.ownRun.next
  obtain ⟨worldNext, moves, now, remaining⟩ := merging.worldRun.next
  obtain ⟨next, advances⟩ :=
    merging.merged.bothMove ownMoves moves ownOuter outer merging.ahead
  have same := merging.same
  rw [List.filterMap_cons, ownOuter, List.filterMap_cons, outer] at same
  refine ⟨next, slotNext, worldNext, advances, ownRemaining, remaining, advances.merged,
    (List.cons.inj same).2, merging.ends, ?_, ?_⟩
  · rw [advances.now, ← external_time outer, ← own_external_time ownOuter, ← ownNow]
    exact ownRemaining.forward.1
  · rw [advances.now, ← now]
    exact (remaining.forward value).1

/-- Which part moves next: the earlier one, and a step that both share when both have come
to it. -/
inductive Turn (slot : Slot) (world : World T) (value : T) :
    List SlotAction → List (Action T) → Prop where
  | ended : Turn slot world value [] []
  | own (move : SlotAction) (own : List SlotAction) (others : List (Action T))
      (inner : move.external = none) (soon : move.time ≤ world.until others) :
      Turn slot world value (move :: own) others
  | other (action : Action T) (own : List SlotAction) (others : List (Action T))
      (inner : action.external value = none) (soon : action.time ≤ slot.until own) :
      Turn slot world value own (action :: others)
  | both (move found : SlotAction) (action : Action T) (own : List SlotAction)
      (others : List (Action T)) (ownOuter : move.external = some found)
      (outer : action.external value = some found) :
      Turn slot world value (move :: own) (action :: others)

theorem Merging.turn
    (merging : Merging value initialDelay interval own others slot slotLast world last both) :
    Turn slot world value own others := by
  obtain ⟨ownNow, ownEnds, ownLater⟩ := merging.ownRun.forward
  obtain ⟨now, ends, later⟩ := merging.worldRun.forward value
  have same := merging.same
  have sameEnd := merging.ends
  cases own with
  | nil =>
      cases others with
      | nil => exact .ended
      | cons action rest =>
          have slotSame : slot = slotLast := Option.some.inj merging.ownRun.executed
          have inner : action.external value = none := by
            cases outer : action.external value with
            | none => rfl
            | some found =>
                rw [List.filterMap_cons, outer] at same
                cases same
          refine .other action [] rest inner ?_
          change action.time ≤ slot.now
          change action.time ≤ last.now.time at ends
          rw [slotSame, sameEnd]
          exact ends
  | cons move ownRest =>
      change move.time ≤ slotLast.now at ownEnds
      cases outer : move.external with
      | none =>
          by_cases soon : move.time ≤ world.until others
          · exact .own move ownRest others outer soon
          · cases others with
            | nil =>
                have worldSame : world = last := Option.some.inj merging.worldRun.executed
                exfalso
                apply soon
                change move.time ≤ world.now.time
                rw [worldSame, ← sameEnd]
                exact ownEnds
            | cons action rest =>
                have before : action.time < move.time := Nat.lt_of_not_le soon
                refine .other action (move :: ownRest) rest ?_ (Nat.le_of_lt before)
                cases otherOuter : action.external value with
                | none => rfl
                | some found =>
                    -- it would come from outside to the slot as well, and too late
                    have member : found ∈ (move :: ownRest).filterMap SlotAction.external := by
                      rw [same, List.filterMap_cons, otherOuter]
                      exact List.mem_cons_self
                    have notBefore := ownLater found member
                    rw [external_time otherOuter] at notBefore
                    exact absurd notBefore soon
      | some found =>
          cases others with
          | nil =>
              rw [List.filterMap_cons, outer] at same
              cases same
          | cons action rest =>
              cases otherOuter : action.external value with
              | none =>
                  refine .other action (move :: ownRest) rest otherOuter ?_
                  have member : found ∈ (action :: rest).filterMap (Action.external value) := by
                    rw [← same, List.filterMap_cons, outer]
                    exact List.mem_cons_self
                  change action.time ≤ move.time
                  rw [own_external_time outer]
                  exact later found member
              | some otherFound =>
                  rw [List.filterMap_cons, outer, List.filterMap_cons, otherOuter] at same
                  have sameFound : found = otherFound := (List.cons.inj same).1
                  subst sameFound
                  exact .both move found action ownRest rest outer otherOuter

/-- By induction on what is left of the two runs. -/
theorem merge_runs (bound : Nat) {own : List SlotAction} {others : List (Action T)} {slot : Slot}
    {world both : World T} (within : own.length + others.length ≤ bound)
    (merging : Merging value initialDelay interval own others slot slotLast world last both) :
    Mergeable value (others.filter Action.isExternal) slotLast last both := by
  induction bound generalizing own others slot world both with
  | zero =>
      have ownEmpty : own = [] := List.length_eq_zero_iff.mp (by omega)
      have empty : others = [] := List.length_eq_zero_iff.mp (by omega)
      subst ownEmpty empty
      cases merging.ownRun.executed
      cases merging.worldRun.executed
      exact ⟨[], both, trivial, rfl, rfl, merging.merged⟩
  | succ bound ih =>
      cases merging.turn with
      | ended =>
          cases merging.ownRun.executed
          cases merging.worldRun.executed
          exact ⟨[], both, trivial, rfl, rfl, merging.merged⟩
      | own move ownRest others inner soon =>
          obtain ⟨action, next, slotNext, advances, remaining⟩ := merging.ownStep inner soon
          rw [List.length_cons] at within
          exact advances.extend (merging.late (Nat.le_refl _) soon) (ih (by omega) remaining)
      | other action own rest inner soon =>
          obtain ⟨taken, next, worldNext, advances, remaining⟩ := merging.otherStep inner soon
          rw [List.length_cons] at within
          rw [← List.singleton_append, List.filter_append]
          exact advances.extend (merging.late soon (Nat.le_refl _)) (ih (by omega) remaining)
      | both move found action ownRest rest ownOuter outer =>
          obtain ⟨next, slotNext, worldNext, advances, remaining⟩ :=
            merging.bothStep ownOuter outer
          rw [List.length_cons, List.length_cons] at within
          have sameTime : action.time ≤ slot.until (move :: ownRest) := by
            change action.time ≤ move.time
            rw [own_external_time ownOuter, external_time outer]
          rw [← List.singleton_append, List.filter_append]
          exact advances.extend (merging.late sameTime (Nat.le_refl _)) (ih (by omega) remaining)

/-- What is possible for a value under some writes is possible under any others that agree with
them on the writes of that value and the stop, up to the same time. -/
def CallsIndependent (initialDelay interval : Nat) (actions : List (Action T)) : Prop :=
  ∀ (value : T) (last : World T),
    (debouncerMachine T).exec actions (.initial initialDelay interval) = some last →
    ∀ (others : List (Action T)) (otherLast : World T),
      (debouncerMachine T).Guarded Punctual others (.initial initialDelay interval) →
      (debouncerMachine T).exec others (.initial initialDelay interval) = some otherLast →
      actions.filterMap (Action.external value) = others.filterMap (Action.external value) →
      last.now.time = otherLast.now.time →
      ∃ merged result,
        (debouncerMachine T).Guarded Punctual merged (.initial initialDelay interval) ∧
        (debouncerMachine T).exec merged (.initial initialDelay interval) = some result ∧
        merged.filter Action.isExternal = others.filter Action.isExternal ∧
        result.callsOf value = last.callsOf value

theorem calls_independent (positive : 0 < interval) {actions : List (Action T)}
    (punctual : (debouncerMachine T).Guarded Punctual actions (.initial initialDelay interval)) :
    CallsIndependent initialDelay interval actions := by
  intro value last executed others otherLast otherPunctual otherExecuted same ends
  have here : WorldRun initialDelay interval actions (.initial initialDelay interval) last :=
    ⟨slots_throttled_initial, positive, punctual, executed⟩
  have there : WorldRun initialDelay interval others (.initial initialDelay interval) otherLast :=
    ⟨slots_throttled_initial, positive, otherPunctual, otherExecuted⟩
  obtain ⟨slotRun, externals⟩ := here.project value
  have start : Merging value initialDelay interval
      (slotActions value actions (.initial initialDelay interval)) others
      ((World.initial initialDelay interval).slot value) (last.slot value)
      (.initial initialDelay interval) otherLast (.initial initialDelay interval) :=
    { ownRun := slotRun
      worldRun := there
      merged := ⟨rfl, fun _ _ => rfl⟩
      same := externals.trans same
      ends := ends
      ownAhead := slotRun.forward.1
      ahead := (there.forward value).1 }
  obtain ⟨merged, result, mergedPunctual, mergedExecuted, outer, parts⟩ :=
    merge_runs _ (Nat.le_refl _) start
  refine ⟨merged, result, mergedPunctual, mergedExecuted, outer, ?_⟩
  unfold World.callsOf
  rw [parts.own]
  rfl

/-- Punctual timers throttle: in every state of a run the calls for each value are an interval
apart and each comes a delay after some write of the value, and which calls are possible for a
value is not up to the writes of others. -/
theorem debouncer_throttles (positive : 0 < interval) (actions : List (Action T))
    (punctual : (debouncerMachine T).Guarded Punctual actions (.initial initialDelay interval)) :
    (debouncerMachine T).Along (Throttles initialDelay interval) actions
        (.initial initialDelay interval) ∧
      CallsIndependent initialDelay interval actions :=
  ⟨throttles_along positive actions slots_throttled_initial punctual,
    calls_independent positive punctual⟩

theorem blocked_write_throttled :
    (debouncerMachine Nat).Along (Throttles 5000 30000) blockedWrite (.initial 5000 30000) ∧
      CallsIndependent 5000 30000 blockedWrite :=
  debouncer_throttles (by decide) blockedWrite (by decide)

end Runs

end Relevanced.Util

import Mathlib.Data.Finset.Erase
import Mathlib.Data.Finset.Insert
import Relevanced.Foundation.Machine

/-!
# Debouncer

The class template `Debouncer<T>` together with the timers it has scheduled. Times
are in milliseconds. A timer never fires before it is due, timers fire in the order
of their due times, and any of them may be late. Every write and every call of
`onValueCb_` is recorded with the moment it happened.
-/

namespace Relevanced.Util

open Foundation

set_option autoImplicit false

/-- A point of a run: how many actions came before it, and the time on the clock. -/
structure Moment where
  seq : Nat
  time : Nat
  deriving DecidableEq

instance : LE Moment where
  le earlier later := earlier.seq ≤ later.seq ∧ earlier.time ≤ later.time

theorem Moment.le_refl (moment : Moment) : moment ≤ moment :=
  ⟨Nat.le_refl _, Nat.le_refl _⟩

theorem Moment.le_trans {first second third : Moment} (before : first ≤ second)
    (after : second ≤ third) : first ≤ third :=
  ⟨Nat.le_trans before.1 after.1, Nat.le_trans before.2 after.2⟩

/-- One call of `write`. -/
structure Write (T : Type) where
  value : T
  moment : Moment
  deriving DecidableEq

/-- One call of `onValueCb_`. -/
structure Call (T : Type) where
  value : T
  moment : Moment
  deriving DecidableEq

/-- The continuations the debouncer attaches to a delayed future. -/
inductive Task (T : Type) where
  | onValue (elem : T)
  | remove (elem : T)
  | requeue (write : Write T)
  deriving DecidableEq

structure Timer (T : Type) where
  task : Task T
  created : Moment
  due : Nat
  deriving DecidableEq

/-- The members of a `Debouncer<T>`. -/
structure Debouncer (T : Type) where
  inFlight : Finset T
  initialDelay : Nat
  interval : Nat
  requeueDelay : Nat
  stopping : Bool
  numInFlight : Int

def Debouncer.new {T : Type} (initialDelay interval : Nat) : Debouncer T where
  inFlight := ∅
  initialDelay := initialDelay
  interval := interval
  requeueDelay := interval + 10
  stopping := false
  numInFlight := 0

/-- A debouncer with its pending timers and the record of what happened to it. -/
structure World (T : Type) where
  debouncer : Debouncer T
  now : Moment
  timers : List (Timer T)
  writes : List (Write T)
  calls : List (Call T)

namespace World

variable {T : Type} [DecidableEq T]

def initial (initialDelay interval : Nat) : World T where
  debouncer := .new initialDelay interval
  now := ⟨0, 0⟩
  timers := []
  writes := []
  calls := []

/-- `makeFuture(t).delayed(delay).then(task)`. -/
def schedule (world : World T) (delay : Nat) (task : Task T) : World T :=
  { world with timers := world.timers ++ [⟨task, world.now, world.now.time + delay⟩] }

def stop (world : World T) : World T :=
  { world with debouncer := { world.debouncer with stopping := true } }

def removeDebounced (world : World T) (t : T) : World T :=
  if t ∈ world.debouncer.inFlight then
    { world with debouncer := { world.debouncer with
        inFlight := world.debouncer.inFlight.erase t
        numInFlight := world.debouncer.numInFlight - 1 } }
  else world

/-- The insertion into `inFlight_` under its lock. -/
def insertInFlight (world : World T) (t : T) : World T :=
  { world with debouncer := { world.debouncer with
      inFlight := insert t world.debouncer.inFlight
      numInFlight := world.debouncer.numInFlight + 1 } }

def writeIfNotInFlight (world : World T) (t : T) : Bool × World T :=
  if world.debouncer.stopping then (false, world)
  else if t ∈ world.debouncer.inFlight then (false, world)
  else
    let inserted := world.insertInFlight t
    let delayed := inserted.schedule inserted.debouncer.initialDelay (.onValue t)
    (true, delayed.schedule delayed.debouncer.interval (.remove t))

def write (world : World T) (t : T) : World T :=
  let (wrote, world) := world.writeIfNotInFlight t
  if wrote then world
  else world.schedule world.debouncer.requeueDelay (.requeue ⟨t, world.now⟩)

/-- What a delayed continuation does when its timer fires. -/
def perform (world : World T) : Task T → World T
  | .onValue elem =>
      if world.debouncer.stopping then world
      else { world with calls := ⟨elem, world.now⟩ :: world.calls }
  | .remove elem => world.removeDebounced elem
  | .requeue toWrite =>
      if world.debouncer.stopping then world.removeDebounced toWrite.value
      else (world.writeIfNotInFlight toWrite.value).2

def advance (world : World T) (time : Nat) : World T :=
  { world with now := ⟨world.now.seq + 1, time⟩ }

/-- A timer that has fired is no longer pending. -/
def popTimer (world : World T) (index : Nat) : World T :=
  { world with timers := world.timers.eraseIdx index }

def record (world : World T) (t : T) : World T :=
  { world with writes := ⟨t, world.now⟩ :: world.writes }

end World

/-- What can happen next, and when. -/
inductive Action (T : Type) where
  | write (t : T) (time : Nat)
  | fire (index time : Nat)
  | stop (time : Nat)
  | pass (time : Nat)
  deriving DecidableEq

def Action.time {T : Type} : Action T → Nat
  | write _ time => time
  | fire _ time => time
  | stop time => time
  | pass time => time

namespace World

variable {T : Type} [DecidableEq T]

/-- The timer an action fires, when that timer is due and no other is due before it. -/
def firing (world : World T) : Action T → Option (Timer T)
  | .fire index time =>
      match world.timers[index]? with
      | some timer =>
          if timer.due ≤ time ∧ ∀ other ∈ world.timers, timer.due ≤ other.due then some timer
          else none
      | none => none
  | _ => none

/-- The effect of an action once the clock shows its time. -/
def effect (world : World T) : Action T → Option (World T)
  | .write t _ => some ((world.record t).write t)
  | .fire index time =>
      (world.firing (.fire index time)).map fun timer =>
        (world.popTimer index).perform timer.task
  | .stop _ => some world.stop
  | .pass _ => some world

def step (world : World T) (action : Action T) : Option (World T) :=
  if world.now.time ≤ action.time then (world.advance action.time).effect action else none

end World

def debouncerMachine (T : Type) [DecidableEq T] : Machine (World T) (Action T) where
  step := World.step

section Timers

variable {T : Type}

theorem mem_eraseIdx_of_ne {timers : List (Timer T)} {index : Nat} {fired timer : Timer T}
    (at_index : timers[index]? = some fired) (member : timer ∈ timers) (other : timer ≠ fired) :
    timer ∈ timers.eraseIdx index := by
  obtain ⟨position, found⟩ := List.mem_iff_getElem?.mp member
  apply List.mem_eraseIdx_iff_getElem?.mpr
  refine ⟨position, ?_, found⟩
  intro same
  rw [same, at_index] at found
  exact other (Option.some.inj found).symm

/-- A timer that still calls `onValueCb_(value)`, created at the moment or later. -/
def CallPending (timers : List (Timer T)) (value : T) (moment : Moment) : Prop :=
  ∃ timer ∈ timers, timer.task = .onValue value ∧ moment ≤ timer.created

variable (Served : T → Moment → Prop)

/-- What was wanted of the value at the moment has been served, or a timer will call for it. -/
def Covered (timers : List (Timer T)) (value : T) (moment : Moment) : Prop :=
  CallPending timers value moment ∨ Served value moment

/-- What ties the set in flight, the pending timers and the writes together, for any account
`Served` of what the calls of `onValueCb_` have achieved. -/
structure Tracked (world : World T) : Prop where
  running : world.debouncer.stopping = false
  requeueDelay : world.debouncer.requeueDelay = world.debouncer.interval + 10
  held : ∀ value ∈ world.debouncer.inFlight, ∃ timer ∈ world.timers, timer.task = .remove value
  created : ∀ timer ∈ world.timers, timer.created ≤ world.now
  removal : ∀ timer ∈ world.timers, ∀ value, timer.task = .remove value →
    timer.due = timer.created.time + world.debouncer.interval ∧
      Covered Served world.timers value timer.created
  requeue : ∀ timer ∈ world.timers, ∀ write, timer.task = .requeue write →
    timer.created = write.moment ∧
      timer.due = write.moment.time + world.debouncer.requeueDelay ∧
      ∀ other ∈ world.timers, other.task = .remove write.value →
        write.moment.time < other.created.time → write.moment.seq ≤ other.created.seq
  written : ∀ write ∈ world.writes,
    Covered Served world.timers write.value write.moment ∨
      ∃ timer ∈ world.timers, timer.task = .requeue write

end Timers

section Preservation

variable {T : Type} {Served : T → Moment → Prop} {world : World T}

theorem covered_of_later {timers : List (Timer T)} {value : T} {earlier later : Moment}
    (antitone : ∀ value earlier later, earlier ≤ later → Served value later →
      Served value earlier)
    (before : earlier ≤ later) (covered : Covered Served timers value later) :
    Covered Served timers value earlier := by
  rcases covered with ⟨timer, member, task, created⟩ | served
  · exact Or.inl ⟨timer, member, task, Moment.le_trans before created⟩
  · exact Or.inr (antitone value earlier later before served)

theorem covered_append {timers : List (Timer T)} {value : T} {moment : Moment}
    (covered : Covered Served timers value moment) (more : List (Timer T)) :
    Covered Served (timers ++ more) value moment := by
  rcases covered with ⟨timer, member, task, created⟩ | served
  · exact Or.inl ⟨timer, List.mem_append_left more member, task, created⟩
  · exact Or.inr served

theorem covered_eraseIdx {timers : List (Timer T)} {index : Nat} {fired : Timer T} {value : T}
    {moment : Moment} (found : timers[index]? = some fired)
    (answered : fired.task = .onValue value → moment ≤ fired.created → Served value moment)
    (covered : Covered Served timers value moment) :
    Covered Served (timers.eraseIdx index) value moment := by
  rcases covered with ⟨timer, member, task, created⟩ | served
  · by_cases same : timer = fired
    · subst same
      exact Or.inr (answered task created)
    · exact Or.inl ⟨timer, mem_eraseIdx_of_ne found member same, task, created⟩
  · exact Or.inr served

theorem Tracked.mono {More : T → Moment → Prop} (tracked : Tracked Served world)
    (grows : ∀ value moment, Served value moment → More value moment) : Tracked More world where
  running := tracked.running
  requeueDelay := tracked.requeueDelay
  held := tracked.held
  created := tracked.created
  removal timer member value task :=
    ⟨(tracked.removal timer member value task).1,
      (tracked.removal timer member value task).2.imp_right (grows value _)⟩
  requeue := tracked.requeue
  written write member := (tracked.written write member).imp_left (Or.imp_right (grows _ _))

theorem Tracked.advance (tracked : Tracked Served world) {time : Nat}
    (forward : world.now.time ≤ time) : Tracked Served (world.advance time) where
  running := tracked.running
  requeueDelay := tracked.requeueDelay
  held := tracked.held
  created timer member :=
    Moment.le_trans (tracked.created timer member) ⟨Nat.le_succ _, forward⟩
  removal := tracked.removal
  requeue := tracked.requeue
  written := tracked.written

/-- A timer may go once its call has been made, its value has been released, or its write has
been covered otherwise. -/
theorem Tracked.erase (tracked : Tracked Served world) {index : Nat} {fired : Timer T}
    (found : world.timers[index]? = some fired)
    (answered : ∀ value, fired.task = .onValue value → ∀ moment, moment ≤ fired.created →
      Served value moment)
    (released : ∀ value, fired.task = .remove value → value ∉ world.debouncer.inFlight)
    (requeued : ∀ write, fired.task = .requeue write →
      Covered Served world.timers write.value write.moment) :
    Tracked Served (world.popTimer index) where
  running := tracked.running
  requeueDelay := tracked.requeueDelay
  held value inFlight := by
    obtain ⟨timer, member, task⟩ := tracked.held value inFlight
    refine ⟨timer, mem_eraseIdx_of_ne found member ?_, task⟩
    intro same
    rw [same] at task
    exact released value task inFlight
  created timer member := tracked.created timer (List.mem_of_mem_eraseIdx member)
  removal timer member value task := by
    obtain ⟨due, covered⟩ := tracked.removal timer (List.mem_of_mem_eraseIdx member) value task
    exact ⟨due, covered_eraseIdx found (fun call => answered value call _) covered⟩
  requeue timer member write task := by
    obtain ⟨created, due, ordered⟩ :=
      tracked.requeue timer (List.mem_of_mem_eraseIdx member) write task
    exact ⟨created, due, fun other otherMember =>
      ordered other (List.mem_of_mem_eraseIdx otherMember)⟩
  written write member := by
    rcases tracked.written write member with covered | ⟨timer, timerMember, task⟩
    · exact Or.inl (covered_eraseIdx found (fun call => answered _ call _) covered)
    · by_cases same : timer = fired
      · rw [same] at task
        apply Or.inl
        exact covered_eraseIdx found (fun call => answered _ call _) (requeued write task)
      · exact Or.inr ⟨timer, mem_eraseIdx_of_ne found timerMember same, task⟩

/-- The timer that will call `onValueCb_` for a value inserted now. -/
def World.callTimer (world : World T) (value : T) : Timer T :=
  ⟨.onValue value, world.now, world.now.time + world.debouncer.initialDelay⟩

/-- The timer that will take a value inserted now out of the set in flight. -/
def World.removeTimer (world : World T) (value : T) : Timer T :=
  ⟨.remove value, world.now, world.now.time + world.debouncer.interval⟩

/-- The timer that will retry a write made now. -/
def World.requeueTimer (world : World T) (value : T) : Timer T :=
  ⟨.requeue ⟨value, world.now⟩, world.now, world.now.time + world.debouncer.requeueDelay⟩

theorem Tracked.scheduleRequeue (tracked : Tracked Served world) (value : T) :
    Tracked Served { world with timers := world.timers ++ [world.requeueTimer value] } where
  running := tracked.running
  requeueDelay := tracked.requeueDelay
  held other inFlight := by
    obtain ⟨timer, member, task⟩ := tracked.held other inFlight
    exact ⟨timer, List.mem_append_left _ member, task⟩
  created timer member := by
    rcases List.mem_append.mp member with before | new
    · exact tracked.created timer before
    · cases List.mem_singleton.mp new
      exact Moment.le_refl _
  removal timer member other task := by
    rcases List.mem_append.mp member with before | new
    · obtain ⟨due, covered⟩ := tracked.removal timer before other task
      exact ⟨due, covered_append covered _⟩
    · cases List.mem_singleton.mp new
      cases task
  requeue timer member write task := by
    rcases List.mem_append.mp member with before | new
    · obtain ⟨created, due, ordered⟩ := tracked.requeue timer before write task
      refine ⟨created, due, ?_⟩
      intro other otherMember removes later
      rcases List.mem_append.mp otherMember with otherBefore | otherNew
      · exact ordered other otherBefore removes later
      · cases List.mem_singleton.mp otherNew
        cases removes
    · cases List.mem_singleton.mp new
      cases task
      refine ⟨rfl, rfl, ?_⟩
      intro other otherMember removes later
      rcases List.mem_append.mp otherMember with otherBefore | otherNew
      · -- nothing pending was created after now
        have past := (tracked.created other otherBefore).2
        exact absurd later (Nat.not_lt.mpr past)
      · cases List.mem_singleton.mp otherNew
        cases removes
  written write member := by
    rcases tracked.written write member with covered | ⟨timer, timerMember, task⟩
    · exact Or.inl (covered_append covered _)
    · exact Or.inr ⟨timer, List.mem_append_left _ timerMember, task⟩

theorem Tracked.recorded (tracked : Tracked Served world) (write : Write T)
    (pending : Covered Served world.timers write.value write.moment ∨
      ∃ timer ∈ world.timers, timer.task = .requeue write) :
    Tracked Served { world with writes := write :: world.writes } where
  running := tracked.running
  requeueDelay := tracked.requeueDelay
  held := tracked.held
  created := tracked.created
  removal := tracked.removal
  requeue := tracked.requeue
  written other member := by
    rcases List.mem_cons.mp member with rfl | before
    · exact pending
    · exact tracked.written other before

/-- When a retry finds its value in flight, the insertion that put it there came after the
write: the removal timer of any earlier insertion would have been due first. -/
theorem Tracked.retry_covered (tracked : Tracked Served world)
    (antitone : ∀ value earlier later, earlier ≤ later → Served value later →
      Served value earlier)
    {fired : Timer T} (member : fired ∈ world.timers)
    (earliest : ∀ other ∈ world.timers, fired.due ≤ other.due) {write : Write T}
    (task : fired.task = .requeue write) (held : write.value ∈ world.debouncer.inFlight) :
    Covered Served world.timers write.value write.moment := by
  obtain ⟨removal, removalMember, removes⟩ := tracked.held write.value held
  obtain ⟨removalDue, covered⟩ := tracked.removal removal removalMember write.value removes
  obtain ⟨_, retryDue, ordered⟩ := tracked.requeue fired member write task
  have notBefore := earliest removal removalMember
  have delay := tracked.requeueDelay
  have later : write.moment.time < removal.created.time := by omega
  have sequence := ordered removal removalMember removes later
  exact covered_of_later antitone ⟨sequence, Nat.le_of_lt later⟩ covered

theorem firing_spec {index time : Nat} {fired : Timer T}
    (fires : world.firing (.fire index time) = some fired) :
    world.timers[index]? = some fired ∧ fired.due ≤ time ∧
      ∀ other ∈ world.timers, fired.due ≤ other.due := by
  unfold World.firing at fires
  cases found : world.timers[index]? with
  | none => simp [found] at fires
  | some timer =>
      simp only [found] at fires
      split at fires
      · rename_i earliest
        cases fires
        exact ⟨rfl, earliest⟩
      · cases fires

theorem Tracked.called (tracked : Tracked Served world) (call : Call T) :
    Tracked Served { world with calls := call :: world.calls } where
  running := tracked.running
  requeueDelay := tracked.requeueDelay
  held := tracked.held
  created := tracked.created
  removal := tracked.removal
  requeue := tracked.requeue
  written := tracked.written

variable [DecidableEq T]

theorem Tracked.remove (tracked : Tracked Served world) (value : T) :
    Tracked Served (world.removeDebounced value) := by
  unfold World.removeDebounced
  split
  · exact {
      running := tracked.running
      requeueDelay := tracked.requeueDelay
      held := fun other inFlight => tracked.held other (Finset.mem_of_mem_erase inFlight)
      created := tracked.created
      removal := tracked.removal
      requeue := tracked.requeue
      written := tracked.written }
  · exact tracked

theorem not_in_flight_after_remove (world : World T) (value : T) :
    value ∉ (world.removeDebounced value).debouncer.inFlight := by
  unfold World.removeDebounced
  split
  · exact Finset.notMem_erase value _
  · assumption

def World.inserted (world : World T) (value : T) : World T :=
  { world.insertInFlight value with
    timers := world.timers ++ [world.callTimer value, world.removeTimer value] }

theorem write_if_not_in_flight_inserts {value : T} (running : world.debouncer.stopping = false)
    (free : value ∉ world.debouncer.inFlight) :
    world.writeIfNotInFlight value = (true, world.inserted value) := by
  rw [World.writeIfNotInFlight, running, if_neg Bool.false_ne_true, if_neg free]
  simp [World.schedule, World.inserted, World.callTimer, World.removeTimer, World.insertInFlight]

theorem write_if_not_in_flight_blocked {value : T} (held : value ∈ world.debouncer.inFlight) :
    world.writeIfNotInFlight value = (false, world) := by
  rw [World.writeIfNotInFlight, if_pos held, ite_self]

theorem call_pending_inserted (world : World T) (value : T) :
    CallPending (world.inserted value).timers value world.now :=
  ⟨world.callTimer value, by simp [World.inserted], rfl, Moment.le_refl _⟩

theorem Tracked.insert (tracked : Tracked Served world) (value : T) :
    Tracked Served (world.inserted value) where
  running := tracked.running
  requeueDelay := tracked.requeueDelay
  held other inFlight := by
    rcases Finset.mem_insert.mp inFlight with rfl | before
    · exact ⟨world.removeTimer other, by simp [World.inserted], rfl⟩
    · obtain ⟨timer, member, task⟩ := tracked.held other before
      exact ⟨timer, List.mem_append_left _ member, task⟩
  created timer member := by
    rcases List.mem_append.mp member with before | new
    · exact tracked.created timer before
    · simp only [List.mem_cons, List.not_mem_nil, or_false] at new
      rcases new with rfl | rfl
      · exact Moment.le_refl _
      · exact Moment.le_refl _
  removal timer member other task := by
    rcases List.mem_append.mp member with before | new
    · obtain ⟨due, covered⟩ := tracked.removal timer before other task
      exact ⟨due, covered_append covered _⟩
    · simp only [List.mem_cons, List.not_mem_nil, or_false] at new
      rcases new with rfl | rfl
      · cases task
      · cases task
        exact ⟨rfl, Or.inl (call_pending_inserted world value)⟩
  requeue timer member write task := by
    rcases List.mem_append.mp member with before | new
    · obtain ⟨created, due, ordered⟩ := tracked.requeue timer before write task
      refine ⟨created, due, ?_⟩
      intro other otherMember removes later
      rcases List.mem_append.mp otherMember with otherBefore | otherNew
      · exact ordered other otherBefore removes later
      · simp only [List.mem_cons, List.not_mem_nil, or_false] at otherNew
        have past := tracked.created timer before
        rw [created] at past
        rcases otherNew with rfl | rfl
        · exact past.1
        · exact past.1
    · simp only [List.mem_cons, List.not_mem_nil, or_false] at new
      rcases new with rfl | rfl
      · cases task
      · cases task
  written write member := by
    rcases tracked.written write member with covered | ⟨timer, timerMember, task⟩
    · exact Or.inl (covered_append covered _)
    · exact Or.inr ⟨timer, List.mem_append_left _ timerMember, task⟩

theorem write_eq (running : world.debouncer.stopping = false) (value : T) :
    (value ∉ world.debouncer.inFlight ∧ (world.record value).write value =
        { world.inserted value with writes := ⟨value, world.now⟩ :: world.writes }) ∨
      (value ∈ world.debouncer.inFlight ∧ (world.record value).write value =
        { world with
          timers := world.timers ++ [world.requeueTimer value]
          writes := ⟨value, world.now⟩ :: world.writes }) := by
  by_cases held : value ∈ world.debouncer.inFlight
  · right
    refine ⟨held, ?_⟩
    have blocked : (world.record value).writeIfNotInFlight value = (false, world.record value) :=
      write_if_not_in_flight_blocked held
    rw [World.write, blocked]
    rfl
  · left
    refine ⟨held, ?_⟩
    have inserts : (world.record value).writeIfNotInFlight value =
        (true, (world.record value).inserted value) := write_if_not_in_flight_inserts running held
    rw [World.write, inserts]
    rfl

theorem Tracked.write (tracked : Tracked Served world) (value : T) :
    Tracked Served ((world.record value).write value) := by
  rcases write_eq tracked.running value with ⟨_, same⟩ | ⟨_, same⟩
  · rw [same]
    apply (tracked.insert value).recorded
    exact Or.inl (Or.inl (call_pending_inserted world value))
  · rw [same]
    apply (tracked.scheduleRequeue value).recorded
    exact Or.inr ⟨world.requeueTimer value, by simp, rfl⟩

theorem perform_on_value (world : World T) (running : world.debouncer.stopping = false)
    (value : T) :
    world.perform (.onValue value) = { world with calls := ⟨value, world.now⟩ :: world.calls } := by
  simp [World.perform, running]

theorem perform_requeue (world : World T) (running : world.debouncer.stopping = false)
    (write : Write T) :
    world.perform (.requeue write) = (world.writeIfNotInFlight write.value).2 := by
  simp [World.perform, running]

theorem remove_debounced_pop_timer (world : World T) (value : T) (index : Nat) :
    (world.popTimer index).removeDebounced value =
      (world.removeDebounced value).popTimer index := by
  unfold World.removeDebounced
  by_cases held : value ∈ world.debouncer.inFlight
  · rw [if_pos held, if_pos (show value ∈ (world.popTimer index).debouncer.inFlight from held)]
    rfl
  · rw [if_neg held, if_neg (show value ∉ (world.popTimer index).debouncer.inFlight from held)]

theorem Tracked.fireOnValue (tracked : Tracked Served world) {index : Nat} {fired : Timer T}
    (found : world.timers[index]? = some fired) {value : T} (task : fired.task = .onValue value)
    (answered : ∀ moment, moment ≤ fired.created → Served value moment) :
    Tracked Served ((world.popTimer index).perform
      (.onValue value)) := by
  have erased := tracked.erase found
    (fun other same => by
      cases task.symm.trans same
      exact answered)
    (fun other same => by cases task.symm.trans same)
    (fun write same => by cases task.symm.trans same)
  rw [perform_on_value (world.popTimer index) tracked.running]
  exact erased.called _

theorem Tracked.fireRemove (tracked : Tracked Served world) {index : Nat} {fired : Timer T}
    (found : world.timers[index]? = some fired) {value : T} (task : fired.task = .remove value) :
    Tracked Served ((world.popTimer index).perform
      (.remove value)) := by
  have timersKept : (world.removeDebounced value).timers = world.timers := by
    unfold World.removeDebounced
    split
    · rfl
    · rfl
  have erased := (tracked.remove value).erase (timersKept ▸ found)
    (fun other same => by cases task.symm.trans same)
    (fun other same => by
      cases task.symm.trans same
      exact not_in_flight_after_remove world value)
    (fun write same => by cases task.symm.trans same)
  change Tracked Served ((world.popTimer index).removeDebounced value)
  rw [remove_debounced_pop_timer]
  exact erased

theorem Tracked.fireRequeue (tracked : Tracked Served world)
    (antitone : ∀ value earlier later, earlier ≤ later → Served value later →
      Served value earlier)
    {index : Nat} {fired : Timer T} (found : world.timers[index]? = some fired)
    (earliest : ∀ other ∈ world.timers, fired.due ≤ other.due) {write : Write T}
    (task : fired.task = .requeue write) :
    Tracked Served ((world.popTimer index).perform
      (.requeue write)) := by
  have member : fired ∈ world.timers := List.mem_of_getElem? found
  rw [perform_requeue (world.popTimer index) tracked.running]
  by_cases held : write.value ∈ world.debouncer.inFlight
  · have blocked : (world.popTimer index).writeIfNotInFlight
        write.value = (false, world.popTimer index) :=
      write_if_not_in_flight_blocked held
    rw [blocked]
    apply tracked.erase found
    · intro other same
      cases task.symm.trans same
    · intro other same
      cases task.symm.trans same
    · intro retried same
      cases task.symm.trans same
      exact tracked.retry_covered antitone member earliest task held
  · have inserts : (world.popTimer index).writeIfNotInFlight
        write.value =
          (true, (world.popTimer index).inserted write.value) :=
      write_if_not_in_flight_inserts tracked.running held
    have within : index < world.timers.length := (List.getElem?_eq_some_iff.mp found).1
    have swapped : (world.popTimer index).inserted write.value =
        { world.inserted write.value with
          timers := (world.inserted write.value).timers.eraseIdx index } := by
      simp only [World.inserted, List.eraseIdx_append_of_lt_length within]
      rfl
    have stillFound : (world.inserted write.value).timers[index]? = some fired := by
      rw [World.inserted, List.getElem?_append_left within, found]
    rw [inserts, swapped]
    apply (tracked.insert write.value).erase stillFound
    · intro other same
      cases task.symm.trans same
    · intro other same
      cases task.symm.trans same
    · intro retried same
      cases task.symm.trans same
      have past := tracked.created fired member
      rw [(tracked.requeue fired member write task).1] at past
      exact covered_of_later antitone past (Or.inl (call_pending_inserted world write.value))

theorem Tracked.step {More : T → Moment → Prop} (tracked : Tracked Served world)
    (grows : ∀ value moment, Served value moment → More value moment)
    (antitone : ∀ value earlier later, earlier ≤ later → More value later → More value earlier)
    {action : Action T} {next : World T} (stepped : world.step action = some next)
    (neverStops : ∀ time, action ≠ .stop time)
    (answered : ∀ fired value, world.firing action = some fired → fired.task = .onValue value →
      ∀ moment, moment ≤ fired.created → More value moment) : Tracked More next := by
  unfold World.step at stepped
  split at stepped
  · rename_i forward
    have advanced := (tracked.mono grows).advance forward
    cases action with
    | write value time =>
        cases stepped
        exact advanced.write value
    | pass time =>
        cases stepped
        exact advanced
    | stop time => exact absurd rfl (neverStops time)
    | fire index time =>
        obtain ⟨fired, fires, performed⟩ := Option.map_eq_some_iff.mp stepped
        obtain ⟨found, _, earliest⟩ := firing_spec fires
        subst performed
        cases task : fired.task with
        | onValue value => exact advanced.fireOnValue found task (answered fired value fires task)
        | remove value => exact advanced.fireRemove found task
        | requeue write => exact advanced.fireRequeue antitone found earliest task
  · cases stepped

end Preservation

section Calls

variable {T : Type}

theorem tracked_initial (Served : T → Moment → Prop) (initialDelay interval : Nat) :
    Tracked Served (World.initial initialDelay interval) where
  running := rfl
  requeueDelay := rfl
  held value inFlight := by cases inFlight
  created timer member := by cases member
  removal timer member := by cases member
  requeue timer member := by cases member
  written write member := by cases member

/-- `onValueCb_(value)` has been called at the moment or later. -/
def CalledSince (world : World T) (value : T) (moment : Moment) : Prop :=
  ∃ call ∈ world.calls, call.value = value ∧ moment ≤ call.moment

variable [DecidableEq T]

theorem remove_debounced_calls (world : World T) (value : T) :
    (world.removeDebounced value).calls = world.calls := by
  unfold World.removeDebounced
  split
  · rfl
  · rfl

theorem write_if_not_in_flight_calls (world : World T) (value : T) :
    (world.writeIfNotInFlight value).2.calls = world.calls := by
  unfold World.writeIfNotInFlight
  split
  · rfl
  · split
    · rfl
    · rfl

theorem write_calls (world : World T) (value : T) : (world.write value).calls = world.calls := by
  have kept := write_if_not_in_flight_calls world value
  unfold World.write
  cases outcome : world.writeIfNotInFlight value with
  | mk wrote after =>
      rw [outcome] at kept
      cases wrote with
      | true => exact kept
      | false => exact kept

/-- What no operation on a world changes: the time, the writes, and the timers it started with. -/
structure Extends (world after : World T) : Prop where
  now : after.now = world.now
  writes : after.writes = world.writes
  timers : world.timers ⊆ after.timers

omit [DecidableEq T] in
theorem extends_refl (world : World T) : Extends world world :=
  ⟨rfl, rfl, List.Subset.refl _⟩

theorem remove_debounced_extends (world : World T) (value : T) :
    Extends world (world.removeDebounced value) := by
  unfold World.removeDebounced
  split
  · exact ⟨rfl, rfl, List.Subset.refl _⟩
  · exact extends_refl world

theorem write_if_not_in_flight_extends (world : World T) (value : T) :
    Extends world (world.writeIfNotInFlight value).2 := by
  unfold World.writeIfNotInFlight
  split
  · exact extends_refl world
  · split
    · exact extends_refl world
    · refine ⟨rfl, rfl, ?_⟩
      intro timer member
      exact List.mem_append_left _ (List.mem_append_left _ member)

theorem write_extends (world : World T) (value : T) : Extends world (world.write value) := by
  have kept := write_if_not_in_flight_extends world value
  unfold World.write
  cases outcome : world.writeIfNotInFlight value with
  | mk wrote after =>
      rw [outcome] at kept
      cases wrote with
      | true => exact kept
      | false => exact ⟨kept.now, kept.writes, List.subset_append_of_subset_left _ kept.timers⟩

theorem perform_extends (world : World T) (task : Task T) :
    Extends world (world.perform task) := by
  cases task with
  | onValue elem =>
      simp only [World.perform]
      split
      · exact extends_refl world
      · exact ⟨rfl, rfl, List.Subset.refl _⟩
  | remove elem => exact remove_debounced_extends world elem
  | requeue toWrite =>
      simp only [World.perform]
      split
      · exact remove_debounced_extends world toWrite.value
      · exact write_if_not_in_flight_extends world toWrite.value

/-- One step moves the clock, drops no write, and no timer but the one that fires. -/
structure Stepped (world : World T) (action : Action T) (next : World T) : Prop where
  now : next.now = ⟨world.now.seq + 1, action.time⟩
  writes : world.writes ⊆ next.writes
  recorded : ∀ value time, action = .write value time → ⟨value, next.now⟩ ∈ next.writes
  timers : ∀ timer ∈ world.timers, timer ∈ next.timers ∨ world.firing action = some timer

theorem stepped_of_step {world next : World T} {action : Action T}
    (step : world.step action = some next) : Stepped world action next := by
  unfold World.step at step
  split at step
  · cases action with
    | write value time =>
        cases step
        have kept := write_extends ((world.advance time).record value) value
        refine ⟨kept.now, ?_, ?_, ?_⟩
        · intro write member
          change write ∈ (((world.advance time).record value).write value).writes
          rw [kept.writes]
          exact List.mem_cons_of_mem _ member
        · intro other otherTime same
          cases same
          change ⟨value, (((world.advance time).record value).write value).now⟩ ∈
            (((world.advance time).record value).write value).writes
          rw [kept.writes, kept.now]
          exact List.mem_cons_self
        · intro timer member
          exact Or.inl (kept.timers member)
    | pass time =>
        cases step
        refine ⟨rfl, List.Subset.refl _, ?_, fun timer member => Or.inl member⟩
        intro value other same
        cases same
    | stop time =>
        cases step
        refine ⟨rfl, List.Subset.refl _, ?_, fun timer member => Or.inl member⟩
        intro value other same
        cases same
    | fire index time =>
        obtain ⟨fired, fires, performed⟩ := Option.map_eq_some_iff.mp step
        subst performed
        have kept := perform_extends ((world.advance time).popTimer index) fired.task
        refine ⟨kept.now, ?_, ?_, ?_⟩
        · intro write member
          change write ∈ (((world.advance time).popTimer index).perform fired.task).writes
          rw [kept.writes]
          exact member
        · intro value other same
          cases same
        · intro timer member
          by_cases same : timer = fired
          · subst same
            exact Or.inr fires
          · left
            apply kept.timers
            exact mem_eraseIdx_of_ne (firing_spec fires).1 member same
  · cases step

theorem call_pending_of_step {world next : World T} {action : Action T}
    (step : world.step action = some next) {value : T} {moment : Moment}
    (pending : CallPending world.timers value moment) :
    CallPending next.timers value moment ∨
      ∃ fired, world.firing action = some fired ∧ fired.task = .onValue value ∧
        moment ≤ fired.created := by
  obtain ⟨timer, member, task, since⟩ := pending
  rcases (stepped_of_step step).timers timer member with kept | fires
  · exact Or.inl ⟨timer, kept, task, since⟩
  · exact Or.inr ⟨timer, fires, task, since⟩

theorem calls_of_step {world next : World T} {action : Action T}
    (running : world.debouncer.stopping = false) (stepped : world.step action = some next) :
    world.calls ⊆ next.calls ∧
      ∀ fired value, world.firing action = some fired → fired.task = .onValue value →
        ⟨value, (world.advance action.time).now⟩ ∈ next.calls := by
  unfold World.step at stepped
  split at stepped
  · cases action with
    | write value time =>
        cases stepped
        rw [write_calls]
        exact ⟨List.Subset.refl _, fun fired value fires => by cases fires⟩
    | pass time =>
        cases stepped
        exact ⟨List.Subset.refl _, fun fired value fires => by cases fires⟩
    | stop time =>
        cases stepped
        exact ⟨List.Subset.refl _, fun fired value fires => by cases fires⟩
    | fire index time =>
        obtain ⟨fired, fires, performed⟩ := Option.map_eq_some_iff.mp stepped
        subst performed
        simp only [Action.time]
        have sameFired : ∀ other, world.firing (.fire index time) = some other → other = fired :=
          fun other firesOther => Option.some.inj (firesOther.symm.trans fires)
        cases task : fired.task with
        | onValue value =>
            rw [perform_on_value ((world.advance time).popTimer index) running]
            refine ⟨List.subset_cons_self _ _, ?_⟩
            intro other called firesOther calledTask
            rw [sameFired other firesOther, task] at calledTask
            cases calledTask
            exact List.mem_cons_self
        | remove value =>
            change _ ⊆ (World.removeDebounced _ value).calls ∧ _
            rw [remove_debounced_calls]
            refine ⟨List.Subset.refl _, ?_⟩
            intro other called firesOther calledTask
            rw [sameFired other firesOther, task] at calledTask
            cases calledTask
        | requeue write =>
            rw [perform_requeue ((world.advance time).popTimer index) running,
              write_if_not_in_flight_calls]
            refine ⟨List.Subset.refl _, ?_⟩
            intro other called firesOther calledTask
            rw [sameFired other firesOther, task] at calledTask
            cases calledTask
  · cases stepped

theorem tracked_by_calls {world next : World T} {action : Action T}
    (tracked : Tracked (CalledSince world) world) (neverStops : ∀ time, action ≠ .stop time)
    (stepped : world.step action = some next) : Tracked (CalledSince next) next := by
  obtain ⟨kept, made⟩ := calls_of_step tracked.running stepped
  have forward : world.now.time ≤ action.time := by
    by_contra backward
    simp [World.step, backward] at stepped
  apply tracked.step _ _ stepped neverStops
  · intro fired value fires task moment before
    have past : fired.created ≤ world.now := by
      cases action with
      | fire index time =>
          exact tracked.created fired (List.mem_of_getElem? (firing_spec fires).1)
      | write value time => cases fires
      | pass time => cases fires
      | stop time => cases fires
    refine ⟨_, made fired value fires task, rfl, Moment.le_trans before (Moment.le_trans past ?_)⟩
    exact ⟨Nat.le_succ _, forward⟩
  · rintro value moment ⟨call, member, called, since⟩
    exact ⟨call, kept member, called, since⟩
  · rintro value earlier later before ⟨call, member, called, since⟩
    exact ⟨call, member, called, Moment.le_trans before since⟩

/-- However writes and timers interleave, every write is answered by a call of `onValueCb_`
since it was made, or a pending timer will call it or retry that very write. -/
theorem no_write_lost (initialDelay interval : Nat) (actions : List (Action T))
    (neverStops : ∀ action ∈ actions, ∀ time, action ≠ .stop time) {world : World T}
    (executed : (debouncerMachine T).exec actions (.initial initialDelay interval) = some world) :
    ∀ write ∈ world.writes,
      (∃ call ∈ world.calls, call.value = write.value ∧ write.moment ≤ call.moment) ∨
        (∃ timer ∈ world.timers, timer.task = .onValue write.value ∧
          write.moment ≤ timer.created) ∨
        ∃ timer ∈ world.timers, timer.task = .requeue write := by
  have preserved : ∀ (world : World T) (action : Action T) (next : World T),
      Tracked (CalledSince world) world → (∀ time, action ≠ .stop time) →
      (debouncerMachine T).step world action = some next → Tracked (CalledSince next) next :=
    fun world action next tracked allowed stepped => tracked_by_calls tracked allowed stepped
  have tracked := Machine.invariant_of_allowed preserved actions neverStops
    (tracked_initial _ initialDelay interval) executed
  intro write member
  rcases tracked.written write member with (pending | called) | retried
  · exact Or.inr (Or.inl pending)
  · exact Or.inl called
  · exact Or.inr (Or.inr retried)

end Calls

/-- A second write inside the interval, retried after it. -/
def blockedWrite : List (Action Nat) :=
  [.write 7 0, .write 7 100, .fire 0 5000, .fire 0 30000, .fire 0 30110]

theorem blocked_write_not_lost :
    ∃ world, (debouncerMachine Nat).exec blockedWrite (.initial 5000 30000) = some world ∧
      ∀ write ∈ world.writes,
        (∃ call ∈ world.calls, call.value = write.value ∧ write.moment ≤ call.moment) ∨
          (∃ timer ∈ world.timers, timer.task = .onValue write.value ∧
            write.moment ≤ timer.created) ∨
          ∃ timer ∈ world.timers, timer.task = .requeue write :=
  ⟨_, rfl, no_write_lost 5000 30000 blockedWrite (by simp [blockedWrite]) rfl⟩

end Relevanced.Util

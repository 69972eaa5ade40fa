import Relevanced.CentroidUpdate.Exclusion
import Relevanced.Foundation.Handover

/-!
# Callbacks invoked once

`echoUpdated` on any threads, next to registrations: it moves the callbacks of its centroid out
of the table under the lock and invokes them after the lock is released. What has been
registered, collected and invoked is recorded.
-/

namespace Relevanced.CentroidUpdate

open Foundation

set_option autoImplicit false

/-- How far one call of `echoUpdated` has come. -/
inductive EchoStage where
  | called
  | broadcast
  | collected (forCentroidCbs : List Nat)
  | returned
  deriving DecidableEq

/-- The call has left the block in which it collects. -/
def EchoStage.hasCollected : EchoStage → Bool
  | .collected _ => true
  | .returned => true
  | _ => false

structure Echo (T : Type) where
  id : T
  stage : EchoStage
  deriving DecidableEq

/-- The callback table, the calls of `echoUpdated`, the callbacks that set a promise of
`joinUpdate`, and the calls of `setValue` they have made. -/
structure Echoes (T : Type) where
  callbacks : CallbackTable T
  stopping : Bool
  echoes : List (Echo T)
  promises : List Nat
  setValues : List Nat
  history : List (HandoverEvent T Nat Nat)

inductive EchoAction (T : Type) where
  | onUpdateSpecificOnce (id : T)
  | joinUpdate (id : T)
  | echoUpdated (id : T)
  | proceed (index : Nat)
  | stop
  deriving DecidableEq

namespace Echoes

variable {T : Type} [DecidableEq T]

def initial : Echoes T where
  callbacks := .empty
  stopping := false
  echoes := []
  promises := []
  setValues := []
  history := []

def moveTo (state : Echoes T) (index : Nat) (id : T) (stage : EchoStage) : Echoes T :=
  { state with echoes := state.echoes.set index ⟨id, stage⟩ }

def onUpdateSpecificOnce (state : Echoes T) (id : T) : Echoes T :=
  { state with
    callbacks := state.callbacks.onUpdateSpecificOnce id
    history := .registered state.callbacks.registered id :: state.history }

/-- The registration of `joinUpdate`, whose callback sets the promise. -/
def joinUpdate (state : Echoes T) (id : T) : Echoes T :=
  { state.onUpdateSpecificOnce id with
    promises := state.callbacks.registered :: state.promises }

/-- The second block of `echoUpdated`. -/
def collect (state : Echoes T) (index : Nat) (id : T) : Echoes T :=
  { state with
    callbacks := state.callbacks.collect id
    history := .collected index id :: state.history }

def invoke (state : Echoes T) (index callback : Nat) : Echoes T :=
  { state with
    callbacks := state.callbacks.invoke callback
    setValues :=
      if callback ∈ state.promises then callback :: state.setValues else state.setValues
    history := .used index callback :: state.history }

def advance (state : Echoes T) (index : Nat) (id : T) : EchoStage → Option (Echoes T)
  | .called => some (state.moveTo index id .broadcast)
  | .broadcast =>
      some ((state.collect index id).moveTo index id (.collected (state.callbacks.pending id)))
  | .collected [] => some (state.moveTo index id .returned)
  | .collected (callback :: rest) =>
      if state.stopping then some (state.moveTo index id .returned)
      else some ((state.invoke index callback).moveTo index id (.collected rest))
  | .returned => none

def step (state : Echoes T) : EchoAction T → Option (Echoes T)
  | .onUpdateSpecificOnce id => some (state.onUpdateSpecificOnce id)
  | .joinUpdate id => some (state.joinUpdate id)
  | .echoUpdated id => some { state with echoes := state.echoes ++ [⟨id, .called⟩] }
  | .proceed index =>
      state.echoes[index]?.bind fun echo => state.advance index echo.id echo.stage
  | .stop => some { state with stopping := true }

end Echoes

def echoMachine (T : Type) [DecidableEq T] : Machine (Echoes T) (EchoAction T) where
  step := Echoes.step

section Handing

variable {T : Type}

/-- The call of `echoUpdated` has the callback in its list and has not come to it. -/
def Carries (echoes : List (Echo T)) (index callback : Nat) (id : T) : Prop :=
  ∃ rest, echoes[index]? = some ⟨id, .collected rest⟩ ∧ callback ∈ rest

def Calls (echoes : List (Echo T)) (index : Nat) (id : T) : Prop :=
  ∃ stage, echoes[index]? = some ⟨id, stage⟩

/-- What ties the table and the calls of `echoUpdated` to the history. -/
structure Handing (state : Echoes T) : Prop where
  fresh : ∀ callback id, .registered callback id ∈ state.history →
    callback < state.callbacks.registered
  registeredOnce : RegisteredOnce state.history
  usedOnce : UsedOnce state.history
  collectors : ∀ index id, .collected index id ∈ state.history → Calls state.echoes index id
  collects : ∀ index id stage, state.echoes[index]? = some ⟨id, stage⟩ →
    stage.hasCollected = true → .collected index id ∈ state.history
  pending : ∀ id callback, callback ∈ state.callbacks.pending id ↔
    Waiting callback id state.history
  distinct : ∀ id, (state.callbacks.pending id).Nodup
  carried : ∀ index id rest, state.echoes[index]? = some ⟨id, .collected rest⟩ →
    rest.Nodup ∧ ∀ callback ∈ rest,
      Handed index callback id state.history ∧ ∀ other, .used other callback ∉ state.history
  served : state.stopping = false → ∀ index callback id, Handed index callback id state.history →
    .used index callback ∈ state.history ∨ Carries state.echoes index callback id
  promised : ∀ callback ∈ state.setValues, ∃ index, .used index callback ∈ state.history
  setOnce : state.setValues.Nodup

theorem handing_initial : Handing (Echoes.initial : Echoes T) where
  fresh callback id member := by cases member
  registeredOnce := trivial
  usedOnce := trivial
  collectors index id member := by cases member
  collects index id stage found := by cases found
  pending id callback := by simp [Echoes.initial, CallbackTable.empty, Waiting]
  distinct id := List.nodup_nil
  carried index id rest found := by cases found
  served running index callback id handed := False.elim handed
  promised callback member := by cases member
  setOnce := List.nodup_nil

variable {state next : Echoes T} {index : Nat} {id : T} {stage later : EchoStage}

theorem calls_set {echoes : List (Echo T)} {other : Nat} {owner : T}
    (found : echoes[index]? = some ⟨id, stage⟩) (calls : Calls echoes other owner) :
    Calls (echoes.set index ⟨id, later⟩) other owner := by
  obtain ⟨before, foundOther⟩ := calls
  by_cases same : other = index
  · subst same
    rw [found] at foundOther
    cases foundOther
    exact ⟨later, List.getElem?_set_self (List.getElem?_eq_some_iff.mp found).1⟩
  · refine ⟨before, ?_⟩
    rw [List.getElem?_set_ne (Ne.symm same)]
    exact foundOther

theorem carries_set {echoes : List (Echo T)} {other callback : Nat} {owner : T} {moved : Echo T}
    (carries : Carries echoes other callback owner) (different : other ≠ index) :
    Carries (echoes.set index moved) other callback owner := by
  obtain ⟨rest, found, listed⟩ := carries
  refine ⟨rest, ?_, listed⟩
  rw [List.getElem?_set_ne (Ne.symm different)]
  exact found

theorem Handing.move (handing : Handing state)
    (found : state.echoes[index]? = some ⟨id, stage⟩)
    (dropped : ∀ rest, stage = .collected rest → state.stopping = false → rest = [])
    (empty : ∀ rest, later ≠ .collected rest)
    (past : later.hasCollected = true → stage.hasCollected = true) :
    Handing (state.moveTo index id later) where
  fresh := handing.fresh
  registeredOnce := handing.registeredOnce
  usedOnce := handing.usedOnce
  collectors other owner member := calls_set found (handing.collectors other owner member)
  collects other owner stage foundOther hasCollected := by
    rcases found_set foundOther with ⟨rfl, same⟩ | ⟨_, before⟩
    · cases same
      exact handing.collects other id _ found (past hasCollected)
    · exact handing.collects other owner stage before hasCollected
  pending := handing.pending
  distinct := handing.distinct
  carried other owner rest foundOther := by
    rcases found_set foundOther with ⟨_, same⟩ | ⟨_, before⟩
    · cases same
      exact absurd rfl (empty rest)
    · exact handing.carried other owner rest before
  served running other callback owner handed := by
    rcases handing.served running other callback owner handed with used | ⟨rest, foundOther, listed⟩
    · exact Or.inl used
    · by_cases same : other = index
      · rw [same, found] at foundOther
        cases foundOther
        rw [dropped rest rfl running] at listed
        cases listed
      · exact Or.inr (carries_set ⟨rest, foundOther, listed⟩ same)
  promised := handing.promised
  setOnce := handing.setOnce

theorem Handing.call (handing : Handing state) (id : T) :
    Handing { state with echoes := state.echoes ++ [⟨id, .called⟩] } where
  fresh := handing.fresh
  registeredOnce := handing.registeredOnce
  usedOnce := handing.usedOnce
  collectors other owner member := by
    obtain ⟨stage, found⟩ := handing.collectors other owner member
    refine ⟨stage, ?_⟩
    rw [List.getElem?_append_left (List.getElem?_eq_some_iff.mp found).1]
    exact found
  collects other owner stage foundOther hasCollected := by
    rcases found_append foundOther with before | ⟨_, same⟩
    · exact handing.collects other owner stage before hasCollected
    · cases same
      cases hasCollected
  pending := handing.pending
  distinct := handing.distinct
  carried other owner rest foundOther := by
    rcases found_append foundOther with before | ⟨_, same⟩
    · exact handing.carried other owner rest before
    · cases same
  served running other callback owner handed := by
    rcases handing.served running other callback owner handed with used | ⟨rest, foundOther, listed⟩
    · exact Or.inl used
    · refine Or.inr ⟨rest, ?_, listed⟩
      rw [List.getElem?_append_left (List.getElem?_eq_some_iff.mp foundOther).1]
      exact foundOther
  promised := handing.promised
  setOnce := handing.setOnce

theorem Handing.invoke (handing : Handing state) {callback : Nat} {rest : List Nat}
    (found : state.echoes[index]? = some ⟨id, .collected (callback :: rest)⟩) :
    Handing ((state.invoke index callback).moveTo index id (.collected rest)) := by
  obtain ⟨distinct, each⟩ := handing.carried index id _ found
  obtain ⟨handed, unused⟩ := each callback List.mem_cons_self
  obtain ⟨fresh, distinctRest⟩ := List.nodup_cons.mp distinct
  refine ⟨?_, handing.registeredOnce, ⟨⟨id, handed⟩, unused, handing.usedOnce⟩, ?_, ?_,
    handing.pending, handing.distinct, ?_, ?_, ?_, ?_⟩
  · intro other owner member
    exact handing.fresh other owner ((List.mem_cons.mp member).resolve_left nofun)
  · intro other owner member
    exact calls_set found
      (handing.collectors other owner ((List.mem_cons.mp member).resolve_left nofun))
  · intro other owner stage foundOther hasCollected
    apply List.mem_cons_of_mem
    rcases found_set foundOther with ⟨rfl, same⟩ | ⟨_, before⟩
    · cases same
      exact handing.collects other id _ found rfl
    · exact handing.collects other owner stage before hasCollected
  · intro other owner others foundOther
    rcases found_set foundOther with ⟨rfl, same⟩ | ⟨different, before⟩
    · cases same
      refine ⟨distinctRest, fun later listed => ?_⟩
      obtain ⟨handedLater, unusedLater⟩ := each later (List.mem_cons_of_mem _ listed)
      refine ⟨handedLater, fun user member => ?_⟩
      rcases List.mem_cons.mp member with same | used
      · cases same
        exact fresh listed
      · exact unusedLater user used
    · obtain ⟨distinctOther, eachOther⟩ := handing.carried other owner others before
      refine ⟨distinctOther, fun later listed => ?_⟩
      obtain ⟨handedLater, unusedLater⟩ := eachOther later listed
      refine ⟨handedLater, fun user member => ?_⟩
      rcases List.mem_cons.mp member with same | used
      · cases same
        exact different (handed_unique handing.registeredOnce handedLater handed).1
      · exact unusedLater user used
  · intro running other later owner handedLater
    rcases handing.served running other later owner handedLater with
      used | ⟨others, foundOther, listed⟩
    · exact Or.inl (List.mem_cons_of_mem _ used)
    · by_cases same : other = index
      · rw [same, found] at foundOther
        cases foundOther
        rcases List.mem_cons.mp listed with rfl | inRest
        · rw [same]
          exact Or.inl List.mem_cons_self
        · rw [same]
          exact Or.inr ⟨rest, List.getElem?_set_self (List.getElem?_eq_some_iff.mp found).1, inRest⟩
      · exact Or.inr (carries_set ⟨others, foundOther, listed⟩ same)
  · intro later set
    simp only [Echoes.moveTo, Echoes.invoke] at set ⊢
    split at set
    · rcases List.mem_cons.mp set with rfl | before
      · exact ⟨index, List.mem_cons_self⟩
      · obtain ⟨other, used⟩ := handing.promised later before
        exact ⟨other, List.mem_cons_of_mem _ used⟩
    · obtain ⟨other, used⟩ := handing.promised later set
      exact ⟨other, List.mem_cons_of_mem _ used⟩
  · simp only [Echoes.moveTo, Echoes.invoke]
    split
    · refine List.nodup_cons.mpr ⟨?_, handing.setOnce⟩
      intro set
      obtain ⟨other, used⟩ := handing.promised callback set
      exact unused other used
    · exact handing.setOnce

variable [DecidableEq T]

theorem Handing.register (handing : Handing state) (id : T) :
    Handing (state.onUpdateSpecificOnce id) where
  fresh callback owner member := by
    rcases List.mem_cons.mp member with same | before
    · cases same
      exact Nat.lt_succ_self _
    · exact Nat.lt_succ_of_lt (handing.fresh callback owner before)
  registeredOnce := by
    refine ⟨?_, handing.registeredOnce⟩
    intro owner before
    exact Nat.lt_irrefl _ (handing.fresh _ owner before)
  usedOnce := handing.usedOnce
  collectors index owner member :=
    handing.collectors index owner ((List.mem_cons.mp member).resolve_left nofun)
  collects index owner stage found hasCollected :=
    List.mem_cons_of_mem _ (handing.collects index owner stage found hasCollected)
  pending owner callback := by
    have before := handing.pending owner callback
    by_cases same : owner = id
    · subst same
      simp only [Echoes.onUpdateSpecificOnce, CallbackTable.onUpdateSpecificOnce,
        Function.update_self, List.mem_append, List.mem_singleton, Waiting, before]
      constructor
      · rintro (waiting | rfl)
        · exact Or.inr waiting
        · exact Or.inl ⟨rfl, trivial⟩
      · rintro (⟨rfl, _⟩ | waiting)
        · exact Or.inr rfl
        · exact Or.inl waiting
    · simp only [Echoes.onUpdateSpecificOnce, CallbackTable.onUpdateSpecificOnce,
        Function.update_of_ne same, Waiting, before]
      constructor
      · exact Or.inr
      · rintro (⟨_, rfl⟩ | waiting)
        · exact absurd rfl same
        · exact waiting
  distinct owner := by
    by_cases same : owner = id
    · subst same
      simp only [Echoes.onUpdateSpecificOnce, CallbackTable.onUpdateSpecificOnce,
        Function.update_self]
      rw [← List.concat_eq_append]
      refine (handing.distinct owner).concat ?_
      intro member
      have waiting := (handing.pending owner _).mp member
      exact Nat.lt_irrefl _ (handing.fresh _ owner (registered_of_waiting waiting))
    · simp only [Echoes.onUpdateSpecificOnce, CallbackTable.onUpdateSpecificOnce,
        Function.update_of_ne same]
      exact handing.distinct owner
  carried other owner rest found := by
    obtain ⟨distinct, each⟩ := handing.carried other owner rest found
    refine ⟨distinct, fun callback listed => ⟨(each callback listed).1, ?_⟩⟩
    intro user member
    exact (each callback listed).2 user ((List.mem_cons.mp member).resolve_left nofun)
  served running other callback owner handed :=
    (handing.served running other callback owner handed).imp_left (List.mem_cons_of_mem _)
  promised callback set := by
    obtain ⟨other, used⟩ := handing.promised callback set
    exact ⟨other, List.mem_cons_of_mem _ used⟩
  setOnce := handing.setOnce

theorem Handing.joinUpdate (handing : Handing state) (id : T) : Handing (state.joinUpdate id) := by
  obtain ⟨fresh, registeredOnce, usedOnce, collectors, collects, pending, distinct, carried, served,
    promised, setOnce⟩ := handing.register id
  exact ⟨fresh, registeredOnce, usedOnce, collectors, collects, pending, distinct, carried, served,
    promised, setOnce⟩

theorem Handing.collect (handing : Handing state)
    (found : state.echoes[index]? = some ⟨id, .broadcast⟩) :
    Handing ((state.collect index id).moveTo index id
      (.collected (state.callbacks.pending id))) where
  fresh callback owner member :=
    handing.fresh callback owner ((List.mem_cons.mp member).resolve_left nofun)
  registeredOnce := handing.registeredOnce
  usedOnce := handing.usedOnce
  collectors other owner member := by
    rcases List.mem_cons.mp member with same | before
    · cases same
      exact ⟨_, List.getElem?_set_self (List.getElem?_eq_some_iff.mp found).1⟩
    · exact calls_set found (handing.collectors other owner before)
  collects other owner stage foundOther hasCollected := by
    rcases found_set foundOther with ⟨rfl, same⟩ | ⟨_, before⟩
    · cases same
      exact List.mem_cons_self
    · exact List.mem_cons_of_mem _ (handing.collects other owner stage before hasCollected)
  pending owner callback := by
    by_cases same : owner = id
    · subst same
      simp [Echoes.moveTo, Echoes.collect, CallbackTable.collect, Waiting]
    · simp only [Echoes.moveTo, Echoes.collect, CallbackTable.collect, Function.update_of_ne same,
        Waiting]
      rw [handing.pending owner callback]
      exact ⟨fun waiting => ⟨Ne.symm same, waiting⟩, And.right⟩
  distinct owner := by
    by_cases same : owner = id
    · subst same
      simp [Echoes.moveTo, Echoes.collect, CallbackTable.collect]
    · simp only [Echoes.moveTo, Echoes.collect, CallbackTable.collect, Function.update_of_ne same]
      exact handing.distinct owner
  carried other owner rest foundOther := by
    rcases found_set foundOther with ⟨rfl, same⟩ | ⟨_, before⟩
    · cases same
      refine ⟨handing.distinct id, ?_⟩
      intro callback listed
      have waiting := (handing.pending id callback).mp listed
      refine ⟨Or.inl ⟨rfl, rfl, waiting⟩, ?_⟩
      intro user member
      exact not_used_of_waiting handing.registeredOnce handing.usedOnce waiting
        ((List.mem_cons.mp member).resolve_left nofun)
    · obtain ⟨distinct, each⟩ := handing.carried other owner rest before
      refine ⟨distinct, fun callback listed => ⟨Or.inr (each callback listed).1, ?_⟩⟩
      intro user member
      exact (each callback listed).2 user ((List.mem_cons.mp member).resolve_left nofun)
  served running other callback owner handed := by
    rcases handed with ⟨rfl, rfl, waiting⟩ | handedBefore
    · refine Or.inr ⟨_, List.getElem?_set_self (List.getElem?_eq_some_iff.mp found).1, ?_⟩
      exact (handing.pending id callback).mpr waiting
    · rcases handing.served running other callback owner handedBefore with
        used | ⟨rest, foundOther, listed⟩
      · exact Or.inl (List.mem_cons_of_mem _ used)
      · refine Or.inr (carries_set ⟨rest, foundOther, listed⟩ ?_)
        rintro rfl
        rw [found] at foundOther
        cases foundOther
  promised callback set := by
    obtain ⟨other, used⟩ := handing.promised callback set
    exact ⟨other, List.mem_cons_of_mem _ used⟩
  setOnce := handing.setOnce

theorem Handing.advance (handing : Handing state)
    (found : state.echoes[index]? = some ⟨id, stage⟩)
    (advanced : state.advance index id stage = some next) : Handing next := by
  cases stage with
  | called =>
      cases advanced
      exact handing.move found nofun nofun nofun
  | broadcast =>
      cases advanced
      exact handing.collect found
  | collected forCentroidCbs =>
      cases forCentroidCbs with
      | nil =>
          cases advanced
          refine handing.move found (fun rest same _ => ?_) nofun fun _ => rfl
          cases same
          rfl
      | cons callback rest =>
          simp only [Echoes.advance] at advanced
          split at advanced
          · rename_i stopped
            cases advanced
            refine handing.move found (fun _ _ running => ?_) nofun fun _ => rfl
            rw [stopped] at running
            cases running
          · cases advanced
            exact handing.invoke found
  | returned => cases advanced

theorem Handing.step (handing : Handing state) {action : EchoAction T}
    (stepped : state.step action = some next) : Handing next := by
  cases action with
  | onUpdateSpecificOnce id =>
      cases stepped
      exact handing.register id
  | joinUpdate id =>
      cases stepped
      exact handing.joinUpdate id
  | echoUpdated id =>
      cases stepped
      exact handing.call id
  | proceed index =>
      obtain ⟨echo, found, advanced⟩ := Option.bind_eq_some_iff.mp stepped
      exact handing.advance found advanced
  | stop =>
      cases stepped
      obtain ⟨fresh, registeredOnce, usedOnce, collectors, collects, pending, distinct, carried, _,
        promised, setOnce⟩ := handing
      exact ⟨fresh, registeredOnce, usedOnce, collectors, collects, pending, distinct, carried,
        nofun, promised, setOnce⟩

/-- The call of `echoUpdated` returns once its thread goes on alone. -/
def EchoReturns (state : Echoes T) (index : Nat) (id : T) : Prop :=
  ∃ steps after, (echoMachine T).exec (List.replicate steps (.proceed index)) state = some after ∧
    after.echoes[index]? = some ⟨id, .returned⟩

theorem returned_returns (found : state.echoes[index]? = some ⟨id, .returned⟩) :
    EchoReturns state index id := ⟨0, state, rfl, found⟩

theorem EchoReturns.before (returns : EchoReturns next index id)
    (found : state.echoes[index]? = some ⟨id, stage⟩)
    (advanced : state.advance index id stage = some next) : EchoReturns state index id := by
  obtain ⟨steps, after, executed, returned⟩ := returns
  have stepped : (echoMachine T).step state (.proceed index) = some next := by
    change state.echoes[index]?.bind _ = some next
    rw [found]
    exact advanced
  refine ⟨steps + 1, after, ?_, returned⟩
  rw [List.replicate_succ, Machine.exec_of_step stepped]
  exact executed

omit [DecidableEq T] in
theorem found_moved (found : state.echoes[index]? = some ⟨id, stage⟩)
    (same : next.echoes = state.echoes) :
    (next.moveTo index id later).echoes[index]? = some ⟨id, later⟩ := by
  rw [Echoes.moveTo, same]
  exact List.getElem?_set_self (List.getElem?_eq_some_iff.mp found).1

theorem collected_returns {forCentroidCbs : List Nat}
    (found : state.echoes[index]? = some ⟨id, .collected forCentroidCbs⟩) :
    EchoReturns state index id := by
  induction forCentroidCbs generalizing state with
  | nil => exact (returned_returns (found_moved found rfl)).before found rfl
  | cons callback rest ih =>
      by_cases stopped : state.stopping = true
      · apply (returned_returns (found_moved found rfl)).before found
        rw [Echoes.advance, if_pos stopped]
      · have invoked : ((state.invoke index callback).moveTo index id (.collected rest)).echoes[
            index]? = some ⟨id, .collected rest⟩ := found_moved found rfl
        apply (ih invoked).before found
        rw [Echoes.advance, if_neg stopped]

theorem echo_returns (found : state.echoes[index]? = some ⟨id, stage⟩) :
    EchoReturns state index id := by
  have broadcast {state : Echoes T} (found : state.echoes[index]? = some ⟨id, .broadcast⟩) :
      EchoReturns state index id := by
    have collected : ((state.collect index id).moveTo index id
        (.collected (state.callbacks.pending id))).echoes[index]? =
          some ⟨id, .collected (state.callbacks.pending id)⟩ := found_moved found rfl
    exact (collected_returns collected).before found rfl
  cases stage with
  | called => exact (broadcast (found_moved found rfl)).before found rfl
  | broadcast => exact broadcast found
  | collected forCentroidCbs => exact collected_returns found
  | returned => exact returned_returns found

/-- Every invocation is the first of its callback, by the first call of `echoUpdated` of its own
centroid to collect after the registration. Without `stop()` that call has the callback in its
list until it invokes it, and has invoked it when it returns. A call has collected when it returns,
and returns once its thread goes on. No promise is set twice. -/
structure InvokedOnce (state : Echoes T) : Prop where
  once : UsedOnce state.history
  collectors : ∀ index id, .collected index id ∈ state.history → Calls state.echoes index id
  collects : ∀ index id, state.echoes[index]? = some ⟨id, .returned⟩ →
    .collected index id ∈ state.history
  returns : ∀ index id, Calls state.echoes index id → EchoReturns state index id
  first : state.stopping = false → ∀ index callback id, Handed index callback id state.history →
    .used index callback ∈ state.history ∨ Carries state.echoes index callback id
  invoked : state.stopping = false → ∀ index callback id, Handed index callback id state.history →
    state.echoes[index]? = some ⟨id, .returned⟩ → .used index callback ∈ state.history
  promises : state.setValues.Nodup

theorem Handing.invokedOnce (handing : Handing state) : InvokedOnce state where
  once := handing.usedOnce
  collectors := handing.collectors
  collects index id found := handing.collects index id .returned found rfl
  returns index id calls := by
    obtain ⟨stage, found⟩ := calls
    exact echo_returns found
  first := handing.served
  invoked running index callback id handed found := by
    rcases handing.served running index callback id handed with used | ⟨rest, carries, _⟩
    · exact used
    · rw [found] at carries
      cases carries
  promises := handing.setOnce

end Handing

section Following

variable {T R : Type}

/-- Where the echo of a call of `update` stands. -/
def Stage.Echoed : Stage R → EchoStage → Prop
  | .broadcast _, echo => echo = .broadcast
  | .collected forCentroidCbs _, echo => echo = .collected forCentroidCbs
  | .settled _, echo => echo = .called ∨ echo = .returned
  | .responded _, echo => echo = .called ∨ echo = .returned
  | .finished _, echo => echo = .called ∨ echo = .returned
  | _, echo => echo = .called

/-- The callbacks of the worker are those of the echoes, one for each call of `update`. -/
structure Follows (worker : Worker T R) (state : Echoes T) : Prop where
  callbacks : state.callbacks = worker.callbacks
  stopping : state.stopping = worker.stopping
  length : state.echoes.length = worker.attempts.length
  echoed : ∀ (index : Nat) (id : T) (stage : Stage R), worker.attempts[index]? = some ⟨id, stage⟩ →
    ∃ echo, state.echoes[index]? = some ⟨id, echo⟩ ∧ stage.Echoed echo

variable {worker next : Worker T R} {state after : Echoes T} {index : Nat} {id : T}
  {stage later : Stage R} {echo moved : EchoStage}

theorem Follows.add (follows : Follows worker state) (id : T) :
    Follows (worker.update id) { state with echoes := state.echoes ++ [⟨id, .called⟩] } where
  callbacks := follows.callbacks
  stopping := follows.stopping
  length := by simp [Worker.update, follows.length]
  echoed index other stage found := by
    rcases found_append found with before | ⟨last, same⟩
    · obtain ⟨echo, foundEcho, echoed⟩ := follows.echoed index other stage before
      refine ⟨echo, ?_, echoed⟩
      rw [List.getElem?_append_left (List.getElem?_eq_some_iff.mp foundEcho).1]
      exact foundEcho
    · cases same
      refine ⟨.called, ?_, rfl⟩
      rw [last, ← follows.length]
      exact List.getElem?_concat_length

theorem Follows.move (follows : Follows worker state)
    (callbacks : after.callbacks = next.callbacks) (stopping : after.stopping = next.stopping)
    (attempts : next.attempts = worker.attempts.set index ⟨id, later⟩)
    (echoes : after.echoes = state.echoes.set index ⟨id, moved⟩ ∨
      after.echoes = state.echoes ∧ state.echoes[index]? = some ⟨id, moved⟩)
    (echoed : later.Echoed moved) : Follows next after := by
  have afterLength : after.echoes.length = state.echoes.length := by
    rcases echoes with same | ⟨same, _⟩ <;> rw [same]
    exact List.length_set
  refine ⟨callbacks, stopping, ?_, ?_⟩
  · rw [afterLength, attempts, List.length_set, follows.length]
  · intro other owner stage found
    rw [attempts] at found
    rcases found_set found with ⟨rfl, same⟩ | ⟨different, before⟩
    · cases same
      refine ⟨moved, ?_, echoed⟩
      rcases echoes with same | ⟨same, foundEcho⟩
      · have within := (List.getElem?_eq_some_iff.mp found).1
        rw [List.length_set, ← follows.length] at within
        rw [same]
        exact List.getElem?_set_self within
      · rw [same]
        exact foundEcho
    · obtain ⟨echo, foundEcho, echoedOther⟩ := follows.echoed other owner stage before
      refine ⟨echo, ?_, echoedOther⟩
      rcases echoes with same | ⟨same, _⟩
      · rw [same, List.getElem?_set_ne (Ne.symm different)]
        exact foundEcho
      · rw [same]
        exact foundEcho

variable [DecidableEq T]

theorem proceed_exec (found : state.echoes[index]? = some ⟨id, echo⟩)
    (advanced : state.advance index id echo = some after) :
    (echoMachine T).exec [.proceed index] state = some after := by
  change ((state.echoes[index]?.bind fun echo => state.advance index echo.id echo.stage).bind some)
    = some after
  rw [found, Option.bind_some, advanced]
  rfl

omit [DecidableEq T] in
theorem echoed_of_quiet {stopping : Bool} (quiet : Quiet stopping stage later)
    (outside : ∀ forCentroidCbs result, stage ≠ .collected forCentroidCbs result)
    (echoed : stage.Echoed echo) : later.Echoed echo := by
  cases quiet with
  | drain result => exact absurd rfl (outside [] result)
  | interrupt stopped forCentroidCbs result => exact absurd rfl (outside forCentroidCbs result)
  | refuse stopped => exact Or.inl echoed
  | dismiss => exact Or.inl echoed
  | withdraw stopped => exact Or.inl echoed
  | abandon stopped result => exact Or.inl echoed
  | fail exception => exact Or.inl echoed
  | _ => exact echoed

/-- The next of the collected callbacks is invoked by both, or the rest is dropped by both. -/
theorem Follows.collected (follows : Follows worker state) {forCentroidCbs : List Nat}
    {result : Persistence.Try Bool}
    (foundEcho : state.echoes[index]? = some ⟨id, .collected forCentroidCbs⟩)
    (advanced : worker.advance index id (.collected forCentroidCbs result) = some next) :
    ∃ actions after, (echoMachine T).exec actions state = some after ∧ Follows next after := by
  cases forCentroidCbs with
  | nil =>
      cases advanced
      exact ⟨_, _, proceed_exec foundEcho rfl,
        follows.move follows.callbacks follows.stopping rfl (Or.inl rfl) (Or.inr rfl)⟩
  | cons callback rest =>
      simp only [Worker.advance] at advanced
      split at advanced
      · rename_i stopped
        cases advanced
        have dropped : state.advance index id (.collected (callback :: rest)) =
            some (state.moveTo index id .returned) := by
          rw [Echoes.advance, follows.stopping, if_pos stopped]
        exact ⟨_, _, proceed_exec foundEcho dropped,
          follows.move follows.callbacks follows.stopping rfl (Or.inl rfl) (Or.inr rfl)⟩
      · rename_i running
        cases advanced
        have invoked : state.advance index id (.collected (callback :: rest)) =
            some ((state.invoke index callback).moveTo index id (.collected rest)) := by
          rw [Echoes.advance, follows.stopping, if_neg running]
        refine ⟨_, _, proceed_exec foundEcho invoked,
          follows.move ?_ follows.stopping rfl (Or.inl rfl) rfl⟩
        change state.callbacks.invoke callback = worker.callbacks.invoke callback
        rw [follows.callbacks]

theorem Follows.advance (follows : Follows worker state)
    (found : worker.attempts[index]? = some ⟨id, stage⟩)
    (advanced : worker.advance index id stage = some next) :
    ∃ actions after, (echoMachine T).exec actions state = some after ∧ Follows next after := by
  obtain ⟨echo, foundEcho, echoed⟩ := follows.echoed index id stage found
  by_cases outside : ∀ forCentroidCbs result, stage ≠ .collected forCentroidCbs result
  · have still {later : Stage R}
        (attempts : next.attempts = worker.attempts.set index ⟨id, later⟩)
        (callbacks : next.callbacks = worker.callbacks) (stopping : next.stopping = worker.stopping)
        (same : later.Echoed echo) :
        ∃ actions after, (echoMachine T).exec actions state = some after ∧ Follows next after :=
      ⟨[], state, rfl, follows.move (follows.callbacks.trans callbacks.symm)
        (follows.stopping.trans stopping.symm) attempts (Or.inr ⟨rfl, foundEcho⟩) same⟩
    cases advance_cases advanced with
    | guard free => exact still rfl rfl rfl echoed
    | skip held => exact still rfl rfl rfl echoed
    | release result => exact still rfl rfl rfl echoed
    | echo value =>
        cases echoed
        exact ⟨_, _, proceed_exec foundEcho rfl,
          follows.move follows.callbacks follows.stopping rfl (Or.inl rfl) rfl⟩
    | collect result =>
        cases echoed
        refine ⟨_, _, proceed_exec foundEcho rfl,
          follows.move ?_ follows.stopping rfl (Or.inl rfl) ?_⟩
        · change state.callbacks.collect id = worker.callbacks.collect id
          rw [follows.callbacks]
        · change EchoStage.collected _ = .collected _
          rw [follows.callbacks]
    | invoke callback rest result => exact absurd rfl (outside (callback :: rest) result)
    | quiet stage later numInProgress moves =>
        exact still rfl rfl rfl (echoed_of_quiet moves outside echoed)
  · push Not at outside
    obtain ⟨forCentroidCbs, result, rfl⟩ := outside
    cases echoed
    exact follows.collected foundEcho advanced

omit [DecidableEq T] in
theorem echoed_of_running {progress : Option R} (echoed : (Stage.running progress).Echoed echo) :
    (later = .thrown ∨ later.isRunning = true ∨ ∃ result, later = .ran result) →
      later.Echoed echo := by
  rintro (rfl | running | ⟨result, rfl⟩)
  · exact echoed
  · cases later with
    | running progress => exact echoed
    | _ => cases running
  · exact echoed

theorem Follows.moveRun (follows : Follows worker state)
    (stepped : worker.moveRun index later = some next)
    (ends : later = .thrown ∨ later.isRunning = true ∨ ∃ result, later = .ran result) :
    ∃ actions after, (echoMachine T).exec actions state = some after ∧ Follows next after := by
  obtain ⟨id, progress, found, rfl⟩ := move_run_some stepped
  obtain ⟨echo, foundEcho, echoed⟩ := follows.echoed index id _ found
  exact ⟨[], state, rfl, follows.move follows.callbacks follows.stopping rfl
    (Or.inr ⟨rfl, foundEcho⟩) (echoed_of_running echoed ends)⟩

/-- Every step of the worker is made of steps of registrations and echoes. -/
theorem Follows.step (follows : Follows worker state) {action : WorkerAction T R}
    (stepped : worker.step action = some next) :
    ∃ actions after, (echoMachine T).exec actions state = some after ∧ Follows next after := by
  cases action with
  | update id =>
      cases stepped
      exact ⟨[.echoUpdated id], _, rfl, follows.add id⟩
  | joinUpdate id =>
      cases stepped
      have registered : Follows (worker.onUpdateSpecificOnce id) (state.joinUpdate id) := by
        refine ⟨?_, follows.stopping, follows.length, follows.echoed⟩
        change state.callbacks.onUpdateSpecificOnce id = worker.callbacks.onUpdateSpecificOnce id
        rw [follows.callbacks]
      exact ⟨[.joinUpdate id, .echoUpdated id], _, rfl, registered.add id⟩
  | proceed index =>
      obtain ⟨attempt, found, advanced⟩ := Option.bind_eq_some_iff.mp stepped
      exact follows.advance found advanced
  | runs index progress => exact follows.moveRun stepped (Or.inr (Or.inl rfl))
  | returns index result => exact follows.moveRun stepped (Or.inr (Or.inr ⟨result, rfl⟩))
  | throws index => exact follows.moveRun stepped (Or.inl rfl)
  | stop =>
      cases stepped
      exact ⟨[.stop], _, rfl, follows.callbacks, rfl, follows.length, follows.echoed⟩

/-- The callbacks of the worker are invoked once too: whatever its steps, its table is that of
some run of registrations and echoes. -/
theorem worker_callbacks_invoked (actions : List (WorkerAction T R)) :
    (workerMachine T R).Along (fun worker => ∃ state, Follows worker state ∧ InvokedOnce state)
      actions .initial := by
  have preserved : ∀ (worker : Worker T R) (action : WorkerAction T R) (next : Worker T R),
      (∃ state, Follows worker state ∧ Handing state) →
      (workerMachine T R).step worker action = some next →
      ∃ state, Follows next state ∧ Handing state := by
    rintro worker action next ⟨state, follows, handing⟩ stepped
    obtain ⟨taken, after, executed, followed⟩ := follows.step stepped
    have kept : ∀ (state : Echoes T) (action : EchoAction T) (next : Echoes T),
        Handing state → True → (echoMachine T).step state action = some next → Handing next :=
      fun state action next handing _ stepped => handing.step stepped
    have handed := Machine.invariant_of_allowed kept taken (fun _ _ => trivial) handing executed
    exact ⟨after, followed, handed⟩
  have start : Follows (Worker.initial : Worker T R) .initial :=
    ⟨rfl, rfl, rfl, fun index id stage found => by cases found⟩
  have along := Machine.along_of_preserved preserved actions ⟨_, start, handing_initial⟩
  refine along.mono ?_
  rintro worker ⟨state, follows, handing⟩
  exact ⟨state, follows, handing.invokedOnce⟩

end Following

end Relevanced.CentroidUpdate

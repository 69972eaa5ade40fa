import Relevanced.Server.Stamps

/-!
# What the freshness test says about a saved vector

A centroid counts as up to date when its `lastDocumentChange` stamp is not later than
its `lastCalculated` stamp. The stamps are whole seconds, written without waiting. The
comparison is sound in runs where no change is stamped with the second in which a run
that missed it began, and no `lastDocumentChange` write lowers the stored stamp.
-/

namespace Relevanced.Server

open Foundation
open CentroidUpdate

set_option autoImplicit false

section Stored

variable {T D : Type}

/-- The stamp is stored, or a later one is, or its write is pending. -/
def StampStored (lastDocumentChange : T → Option Nat) (puts : List (MetadataPut T)) (id : T)
    (ordinal stamp : Nat) : Prop :=
  .lastDocumentChange id ordinal stamp ∈ puts ∨
    ∃ stored, lastDocumentChange id = some stored ∧ stamp ≤ stored

/-- The write does not lower the stored `lastDocumentChange` stamp. -/
def RaisesStamp (lastDocumentChange : T → Option Nat) : MetadataPut T → Prop
  | .lastDocumentChange id _ stamp => ∀ stored ∈ lastDocumentChange id, stored ≤ stamp
  | .lastCalculated _ _ _ => True

/-- A change is not stamped with the second in which a run that missed it began, and a
`lastDocumentChange` write does not lower the stored stamp. -/
def StampsSeparate (server : RelevanceServer T D) (action : ServerAction T D) : Prop :=
  StampsApart server action ∧
    match action with
    | .executePut index =>
        ∀ put ∈ server.puts[index]?, RaisesStamp server.lastDocumentChange put
    | _ => True

instance (lastDocumentChange : T → Option Nat) (put : MetadataPut T) :
    Decidable (RaisesStamp lastDocumentChange put) := by
  cases put with
  | lastDocumentChange id ordinal stamp =>
      exact inferInstanceAs (Decidable (∀ stored ∈ lastDocumentChange id, stored ≤ stamp))
  | lastCalculated id stamp upTo => exact isTrue trivial

instance [DecidableEq T] (server : RelevanceServer T D) (action : ServerAction T D) :
    Decidable (StampsSeparate server action) := by
  induction action using ServerAction.casesOn with
  | executePut index =>
      exact inferInstanceAs (Decidable (StampsApart server (.executePut index) ∧
        ∀ put ∈ server.puts[index]?, RaisesStamp server.lastDocumentChange put))
  | stampRequest index =>
      exact inferInstanceAs (Decidable (StampsApart server (.stampRequest index) ∧ True))
  | _ => exact isTrue ⟨trivial, trivial⟩

structure RelevanceServer.Settled (server : RelevanceServer T D) : Prop where
  requests : ∀ request ∈ server.requests, request.stage.inFlight = false
  runs : ∀ attempt ∈ server.updateWorker.attempts, attempt.stage.isRunning = false
  puts : server.puts = []

/-- Once everything has settled, a changed centroid that counts as up to date has a vector
computed from a listing made after all its changes. -/
def FreshWhenSettled (server : RelevanceServer T D) : Prop :=
  server.Settled → ∀ id centroidExists, server.history id ≠ [] →
    isCentroidUpToDate centroidExists (server.lastCalculated id) (server.lastDocumentChange id) =
      .ok true →
    server.saved id = (server.history id).length

end Stored

section Preservation

variable {T D : Type} {lastDocumentChange : T → Option Nat} {puts : List (MetadataPut T)}
  {index : Nat} {id : T} {ordinal stamp : Nat}

theorem StampStored.put [DecidableEq T] {other : T} {place taken : Nat}
    (stored : StampStored lastDocumentChange puts other place taken)
    (found : puts[index]? = some (.lastDocumentChange id ordinal stamp))
    (raises : ∀ stored, lastDocumentChange id = some stored → stored ≤ stamp) :
    StampStored (Function.update lastDocumentChange id (some stamp)) (puts.eraseIdx index) other
      place taken := by
  rcases stored with pending | ⟨earlier, isStored, notBelow⟩
  · rcases mem_eraseIdx_or_eq found pending with same | kept
    · cases same
      exact Or.inr ⟨stamp, Function.update_self _ _ _, Nat.le_refl _⟩
    · exact Or.inl kept
  · right
    by_cases same : other = id
    · subst same
      exact ⟨stamp, Function.update_self _ _ _, Nat.le_trans notBelow (raises earlier isStored)⟩
    · rw [Function.update_of_ne same]
      exact ⟨earlier, isStored, notBelow⟩

theorem StampStored.putCalculated {calculated upTo : Nat}
    (stored : StampStored lastDocumentChange puts id ordinal stamp) {other : T}
    (found : puts[index]? = some (.lastCalculated other calculated upTo)) :
    StampStored lastDocumentChange (puts.eraseIdx index) id ordinal stamp := by
  refine stored.imp_left ?_
  intro pending
  rcases mem_eraseIdx_or_eq found pending with same | kept
  · cases same
  · exact kept

theorem StampStored.submit (stored : StampStored lastDocumentChange puts id ordinal stamp)
    (put : MetadataPut T) : StampStored lastDocumentChange (puts ++ [put]) id ordinal stamp :=
  stored.imp_left (List.mem_append_left _)

variable [DecidableEq T] [DecidableEq D] {server next : RelevanceServer T D}
  {action : ServerAction T D}

theorem stamps_stored_step
    (stored : EachStamp (StampStored server.lastDocumentChange server.puts) server.requests)
    (separate : StampsSeparate server action) (transition : Transition server action next) :
    EachStamp (StampStored next.lastDocumentChange next.puts) next.requests := by
  cases transition with
  | stamp index id change ordinal found =>
      have wider : EachStamp (StampStored server.lastDocumentChange
          (server.puts ++ [.lastDocumentChange id ordinal server.clock])) server.requests :=
        stored.mono fun request member stamp isStored => isStored.submit _
      apply wider.set
      intro stamp taken
      cases taken
      exact Or.inl (List.mem_append_right _ (List.mem_singleton_self _))
  | putChange index id ordinal stamp found =>
      exact stored.mono fun request member taken isStored =>
        isStored.put found (separate.2 _ found)
  | putCalculated index id stamp upTo found =>
      exact stored.mono fun request member taken isStored => isStored.putCalculated found
  | finishRun index id start upTo found =>
      exact stored.mono fun request member taken isStored => isStored.submit _
  | commit id change ignoring absent => exact stored.add _ rfl
  | confirm id docId ordinal present => exact stored.add _ rfl
  | trigger index time id change ordinal stamp queue found running stepped =>
      apply stored.set
      intro same taken
      exact stored _ (List.mem_of_getElem? found) same taken
  | refuse index time id change ordinal stamp found stopped =>
      apply stored.set
      intro same taken
      exact stored _ (List.mem_of_getElem? found) same taken
  | _ => exact stored

end Preservation

section Runs

variable {T D : Type}

/-- The stamps agree with the runs, and those of all changes are stored or about to be. -/
structure RelevanceServer.Stamped (server : RelevanceServer T D) : Prop where
  dated : server.Dated
  stored : EachStamp (StampStored server.lastDocumentChange server.puts) server.requests

theorem stamped_initial : (RelevanceServer.initial : RelevanceServer T D).Stamped where
  dated := dated_initial
  stored request member := by cases member

theorem fresh_of_stamped {server : RelevanceServer T D} (stamped : server.Stamped) :
    FreshWhenSettled server := by
  intro settled id centroidExists changed current
  have notAbove := stamped.dated.sound.bounded id
  have positive := List.length_pos_of_ne_nil changed
  obtain ⟨request, member, sameId, sameOrdinal, committing⟩ :=
    stamped.dated.requested.requested id ((server.history id).length - 1) (by omega)
  obtain ⟨stamp, isStamp⟩ := stamped_of_settled committing (settled.requests request member)
  have later := stamped.dated.later request member stamp isStamp
  have written := stamped.stored request member stamp isStamp
  rw [settled.puts] at written
  rw [sameId, sameOrdinal] at later
  rcases written with pending | ⟨stored, isStored, notBelow⟩
  · cases pending
  · rw [sameId] at isStored
    obtain ⟨calculated, isCalculated, reached⟩ := up_to_date_stamps current isStored
    obtain ⟨upTo, listed, seen⟩ := stamped.dated.calculations.stored id calculated isCalculated
    have sees := seen_of_start later (Nat.le_trans notBelow reached) listed
    omega

variable [DecidableEq T] [DecidableEq D]

theorem RelevanceServer.Stamped.step {server next : RelevanceServer T D}
    {action : ServerAction T D} (stamped : server.Stamped)
    (separate : StampsSeparate server action) (transition : Transition server action next) :
    next.Stamped where
  dated := stamped.dated.step separate.1 transition
  stored := stamps_stored_step stamped.stored separate transition

/-- In every run whose changes are stamped apart from the starts of the runs that missed them,
and whose `lastDocumentChange` writes do not go back, the freshness test is sound. -/
theorem fresh_of_separate_stamps (actions : List (ServerAction T D))
    (separate : (serverMachine T D).Guarded StampsSeparate actions .initial) :
    (serverMachine T D).Along FreshWhenSettled actions .initial := by
  have preserved : ∀ (server : RelevanceServer T D) (action : ServerAction T D)
      (next : RelevanceServer T D), server.Stamped → True → StampsSeparate server action →
      (serverMachine T D).step server action = some next → next.Stamped :=
    fun server action next stamped _ guarded stepped => stamped.step guarded (step_cases stepped)
  exact Machine.along_of_guarded preserved (fun _ stamped => fresh_of_stamped stamped) actions
    (fun _ _ => trivial) stamped_initial separate

end Runs

/-- One document is added and its run begins; another is added within the same second, after
the run has listed the members. -/
def addedWithinTheSecond : List (ServerAction Nat Nat) :=
  [.tick 100, .request 7 (.add 1) false, .stampRequest 0, .executePut 0, .triggerUpdate 0 0,
    .fire 0 5000, .proceed 0, .proceed 0, .proceed 0, .proceed 0, .readClock 0, .listMembers 0,
    .request 7 (.add 2) false, .stampRequest 1, .executePut 0, .triggerUpdate 1 5010,
    .saveCentroid 0, .finishRun 0, .executePut 0]

/-- One document is added a second before its run begins, and the run covers it. -/
def addedASecondBefore : List (ServerAction Nat Nat) :=
  [.tick 100, .request 7 (.add 1) false, .stampRequest 0, .executePut 0, .triggerUpdate 0 0,
    .tick 5, .fire 0 5000, .proceed 0, .proceed 0, .proceed 0, .proceed 0, .readClock 0,
    .listMembers 0, .saveCentroid 0, .finishRun 0, .executePut 0]

theorem added_a_second_before_is_fresh :
    (serverMachine Nat Nat).Along FreshWhenSettled addedASecondBefore .initial :=
  fresh_of_separate_stamps addedASecondBefore (by decide +kernel)

theorem added_within_the_second_is_not_fresh :
    ∃ server, (serverMachine Nat Nat).exec addedWithinTheSecond .initial = some server ∧
      server.Settled ∧ server.history 7 ≠ [] ∧
      isCentroidUpToDate true (server.lastCalculated 7) (server.lastDocumentChange 7) = .ok true ∧
      server.saved 7 ≠ (server.history 7).length := by
  refine ⟨_, rfl, ⟨?_, ?_, ?_⟩, ?_, ?_, ?_⟩
  · decide
  · decide
  · rfl
  · decide
  · decide
  · decide

end Relevanced.Server

import Relevanced.Server.Runs

/-!
# What the stamps stand for

A `lastCalculated` stamp is the second in which a run began. As long as no change is
stamped with the second in which a run that missed it began, the stamp of a change is
later than those of all runs that missed it.
-/

namespace Relevanced.Server

open Foundation
open CentroidUpdate

set_option autoImplicit false

section Stamps

variable {T D : Type}

def LaterThanMissed (listings : List (Listing T)) (id : T) (ordinal stamp : Nat) : Prop :=
  ∀ listing ∈ listings, listing.id = id → listing.upTo ≤ ordinal → listing.startTimestamp < stamp

/-- A `lastCalculated` stamp is the start of a run whose listing the saved vector has seen. -/
structure CalculationsStamped (saved : T → Nat) (lastCalculated : T → Option Nat)
    (puts : List (MetadataPut T)) (listings : List (Listing T)) : Prop where
  stored : ∀ id stamp, lastCalculated id = some stamp →
    ∃ upTo, ⟨id, stamp, upTo⟩ ∈ listings ∧ upTo ≤ saved id
  pending : ∀ id stamp upTo, .lastCalculated id stamp upTo ∈ puts →
    ⟨id, stamp, upTo⟩ ∈ listings ∧ upTo ≤ saved id

/-- The stamps taken, pending and stored agree with the runs. -/
structure RelevanceServer.Dated (server : RelevanceServer T D) : Prop where
  sound : server.Sound
  requested : ChangesRequested server.history server.requests
  later : EachStamp (LaterThanMissed server.listings) server.requests
  calculations : CalculationsStamped server.saved server.lastCalculated server.puts
    server.listings

theorem dated_initial : (RelevanceServer.initial : RelevanceServer T D).Dated where
  sound := sound_initial
  requested := changes_requested_initial
  later request member := by cases member
  calculations := {
    stored := fun id stamp stored => by cases stored
    pending := fun id stamp upTo member => by cases member }

/-- A change is not stamped with the second in which a run that missed it began. -/
def StampsApart (server : RelevanceServer T D) : ServerAction T D → Prop
  | .stampRequest index => ∀ request ∈ server.requests[index]?,
      ∀ listing ∈ server.listings, listing.id = request.id → listing.upTo ≤ request.ordinal →
        listing.startTimestamp ≠ server.clock
  | _ => True

instance [DecidableEq T] (server : RelevanceServer T D) (action : ServerAction T D) :
    Decidable (StampsApart server action) := by
  induction action using ServerAction.casesOn with
  | stampRequest index =>
      exact inferInstanceAs (Decidable (∀ request ∈ server.requests[index]?,
        ∀ listing ∈ server.listings, listing.id = request.id → listing.upTo ≤ request.ordinal →
          listing.startTimestamp ≠ server.clock))
  | _ => exact isTrue trivial

end Stamps

section Preservation

variable {T : Type} {saved : T → Nat} {lastCalculated : T → Option Nat}
  {puts more : List (MetadataPut T)} {listings : List (Listing T)} {index : Nat} {id : T}

theorem CalculationsStamped.morePuts
    (calculations : CalculationsStamped saved lastCalculated puts listings)
    (kept : ∀ id stamp upTo, .lastCalculated id stamp upTo ∈ more →
      .lastCalculated id stamp upTo ∈ puts) :
    CalculationsStamped saved lastCalculated more listings where
  stored := calculations.stored
  pending id stamp upTo member := calculations.pending id stamp upTo (kept id stamp upTo member)

theorem CalculationsStamped.grow
    (calculations : CalculationsStamped saved lastCalculated puts listings) {newer : T → Nat}
    {longer : List (Listing T)} (grows : ∀ id, saved id ≤ newer id) (kept : listings ⊆ longer) :
    CalculationsStamped newer lastCalculated puts longer where
  stored id stamp stored := by
    obtain ⟨upTo, listed, seen⟩ := calculations.stored id stamp stored
    exact ⟨upTo, kept listed, Nat.le_trans seen (grows id)⟩
  pending id stamp upTo member := by
    obtain ⟨listed, seen⟩ := calculations.pending id stamp upTo member
    exact ⟨kept listed, Nat.le_trans seen (grows id)⟩

theorem LaterThanMissed.list {ordinal stamp seen : Nat}
    (later : LaterThanMissed listings id ordinal stamp) (listed : T) (start : Nat)
    (sees : listed = id → ordinal < seen) :
    LaterThanMissed (⟨listed, start, seen⟩ :: listings) id ordinal stamp := by
  intro listing member sameId missed
  rcases List.mem_cons.mp member with same | before
  · subst same
    exact absurd (sees sameId) (Nat.not_lt.mpr missed)
  · exact later listing before sameId missed

variable [DecidableEq T]

theorem CalculationsStamped.putCalculated
    (calculations : CalculationsStamped saved lastCalculated puts listings) {stamp upTo : Nat}
    (found : puts[index]? = some (.lastCalculated id stamp upTo)) :
    CalculationsStamped saved (Function.update lastCalculated id (some stamp))
      (puts.eraseIdx index) listings where
  stored other newStamp stored := by
    by_cases same : other = id
    · subst same
      rw [Function.update_self] at stored
      cases stored
      exact ⟨upTo, calculations.pending other stamp upTo (List.mem_of_getElem? found)⟩
    · rw [Function.update_of_ne same] at stored
      exact calculations.stored other newStamp stored
  pending other newStamp seen member :=
    calculations.pending other newStamp seen (List.mem_of_mem_eraseIdx member)

end Preservation

section Steps

variable {T D : Type} [DecidableEq T] [DecidableEq D] {server next : RelevanceServer T D}
  {action : ServerAction T D}

theorem later_than_missed_step {id : T} {ordinal stamp : Nat}
    (later : LaterThanMissed server.listings id ordinal stamp)
    (known : ordinal < (server.history id).length) (transition : Transition server action next) :
    LaterThanMissed next.listings id ordinal stamp := by
  cases transition with
  | listMembers index listed start found =>
      apply later.list
      intro same
      rw [same]
      exact known
  | _ => exact later

theorem calculations_stamped_step (dated : server.Dated)
    (transition : Transition server action next) :
    CalculationsStamped next.saved next.lastCalculated next.puts next.listings := by
  have calculations := dated.calculations
  have grown := calculations.grow (saved_mono dated.sound transition)
    (listings_subset transition)
  cases transition with
  | stamp index id change ordinal found =>
      apply calculations.morePuts
      intro other stamp upTo member
      rcases List.mem_append.mp member with before | new
      · exact before
      · cases List.mem_singleton.mp new
  | putChange index id ordinal stamp found =>
      apply calculations.morePuts
      intro other newStamp upTo member
      exact List.mem_of_mem_eraseIdx member
  | putCalculated index id stamp upTo found => exact calculations.putCalculated found
  | finishRun index id start upTo found =>
      refine ⟨calculations.stored, ?_⟩
      intro other stamp seen member
      rcases List.mem_append.mp member with before | new
      · exact calculations.pending other stamp seen before
      · cases List.mem_singleton.mp new
        obtain ⟨saved, listed⟩ := dated.sound.runs index id _ found
        exact ⟨listed, saved⟩
  | _ => exact grown

theorem RelevanceServer.Dated.step (dated : server.Dated) (apart : StampsApart server action)
    (transition : Transition server action next) : next.Dated where
  sound := dated.sound.step transition
  requested := changes_requested_step dated.requested transition
  later := by
    have grown : EachStamp (LaterThanMissed next.listings) server.requests :=
      dated.later.mono fun request member _ later =>
        later_than_missed_step later (dated.requested.past request member) transition
    apply each_stamp_step grown transition
    intro index id change ordinal same found
    subst same
    have known : ordinal < (server.history id).length :=
      dated.requested.past _ (List.mem_of_getElem? found)
    apply later_than_missed_step _ known transition
    intro listing listed sameId missed
    have began := (dated.sound.past listing listed).1
    exact Nat.lt_of_le_of_ne began (apart _ found listing listed sameId missed)
  calculations := calculations_stamped_step dated transition

theorem up_to_date_stamps {centroidExists : Bool} {calculated changed : Option Nat} {change : Nat}
    (current : isCentroidUpToDate centroidExists calculated changed = .ok true)
    (known : changed = some change) : ∃ calculation, calculated = some calculation ∧
      change ≤ calculation := by
  subst known
  cases calculated with
  | none => cases current
  | some calculation =>
      refine ⟨calculation, rfl, ?_⟩
      simpa [isCentroidUpToDate] using current

omit [DecidableEq T] [DecidableEq D] in
theorem seen_of_start {listings : List (Listing T)} {id : T} {ordinal changed calculated upTo : Nat}
    (later : LaterThanMissed listings id ordinal changed) (current : changed ≤ calculated)
    (listed : ⟨id, calculated, upTo⟩ ∈ listings) : ordinal < upTo := by
  by_contra missed
  have began : calculated < changed := later _ listed rfl (Nat.not_lt.mp missed)
  omega

end Steps

end Relevanced.Server

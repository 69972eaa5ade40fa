import Relevanced.Server.Runs

/-!
# No member change is left out for good

Every committed change triggers an update of its centroid through the debouncer. The
update is lost when it comes while a run that has already listed the members is still
in progress: it finds its centroid in `updatingSet_` and goes away. In runs where that
happens only when nothing is missed, the saved vectors have seen every change once the
queue and the worker are idle.
-/

namespace Relevanced.Server

open Foundation
open CentroidUpdate
open Util (Moment World Write CallPending Tracked)

set_option autoImplicit false

/-- The call of `update` has yet to list the members. -/
def isAhead : Stage RunProgress → Bool
  | .called => true
  | .queued => true
  | .guarded shouldUpdate => shouldUpdate
  | .admitted => true
  | .running none => true
  | .running (some (.started _)) => true
  | _ => false

/-- When `triggerUpdate` was called for the request. -/
def RequestStage.written : RequestStage → Option Moment
  | .acknowledged (some _) written => written
  | _ => none

def ServerAction.undisturbed {T D : Type} : ServerAction T D → Bool
  | .stop => false
  | .returnException _ _ => false
  | .throwException _ => false
  | _ => true

section Served

variable {T D : Type}

def Seen (listings : List (Listing T)) (id : T) (ordinal : Nat) : Prop :=
  ∃ listing ∈ listings, listing.id = id ∧ ordinal < listing.upTo

/-- Every change triggered up to the moment has been seen, or a call for it is pending. -/
def Answered (timers : List (Util.Timer T)) (requests : List (Request T D))
    (listings : List (Listing T)) (id : T) (moment : Moment) : Prop :=
  ∀ request ∈ requests, request.id = id → ∀ written, request.stage.written = some written →
    written ≤ moment → Seen listings id request.ordinal ∨ CallPending timers id written

/-- What the calls of `onValueCb_(id)` up to the moment have achieved. -/
def Served (queue : World T) (attempts : List (Attempt T RunProgress))
    (requests : List (Request T D)) (listings : List (Listing T)) (id : T) (moment : Moment) :
    Prop :=
  moment.seq ≤ queue.now.seq ∧
    (Attempted (fun stage => isAhead stage = true) id attempts ∨
      Answered queue.timers requests listings id moment)

variable {queue after : World T} {attempts moved : List (Attempt T RunProgress)}
  {requests known : List (Request T D)} {listings more : List (Listing T)} {id : T}
  {moment earlier : Moment}

theorem Seen.mono {ordinal : Nat} (seen : Seen listings id ordinal) (grows : listings ⊆ more) :
    Seen more id ordinal := by
  obtain ⟨listing, member, facts⟩ := seen
  exact ⟨listing, grows member, facts⟩

theorem Answered.mono {timers later : List (Util.Timer T)}
    (answered : Answered timers requests listings id moment)
    (old : ∀ request ∈ known, ∀ written, request.stage.written = some written →
      written ≤ moment → request ∈ requests)
    (grows : listings ⊆ more)
    (pending : ∀ written, CallPending timers id written → CallPending later id written) :
    Answered later known more id moment := by
  intro request member sameId written isWritten before
  have present := old request member written isWritten before
  rcases answered request present sameId written isWritten before with seen | waiting
  · exact Or.inl (seen.mono grows)
  · exact Or.inr (pending written waiting)

theorem served_antitone (before : earlier ≤ moment)
    (served : Served queue attempts requests listings id moment) :
    Served queue attempts requests listings id earlier := by
  refine ⟨Nat.le_trans before.1 served.1, served.2.imp_right ?_⟩
  intro answered request member sameId written isWritten past
  exact answered request member sameId written isWritten (Moment.le_trans past before)

end Served

section Queue

variable {T D : Type} {queue after : World T} {attempts moved : List (Attempt T RunProgress)}
  {requests known : List (Request T D)} {listings more : List (Listing T)}

theorem tracked_of_attempts (tracked : Tracked (Served queue attempts requests listings) queue)
    (ahead : ∀ id moment, Attempted (fun stage => isAhead stage = true) id attempts →
      Attempted (fun stage => isAhead stage = true) id moved ∨
        Answered queue.timers requests more id moment)
    (grows : listings ⊆ more) : Tracked (Served queue moved requests more) queue := by
  apply tracked.mono
  intro id moment served
  refine ⟨served.1, ?_⟩
  rcases served.2 with attempted | answered
  · exact ahead id moment attempted
  · exact Or.inr (answered.mono (fun _ member _ _ _ => member) grows fun _ waiting => waiting)

theorem tracked_of_requests (tracked : Tracked (Served queue attempts requests listings) queue)
    (old : ∀ request ∈ known, ∀ written, request.stage.written = some written →
      request ∈ requests) : Tracked (Served queue attempts known listings) queue := by
  apply tracked.mono
  intro id moment served
  refine ⟨served.1, served.2.imp_right ?_⟩
  intro answered
  exact answered.mono
    (fun request member written isWritten _ => old request member written isWritten)
    (List.Subset.refl _) fun _ waiting => waiting

variable [DecidableEq T]

omit [DecidableEq T] in
theorem calling_of_firing (running : queue.debouncer.stopping = false) {action : Util.Action T}
    {fired : Util.Timer T} {value : T} (fires : queue.firing action = some fired)
    (task : fired.task = .onValue value) :
    RelevanceServer.calling queue action = some value := by
  cases fired with
  | mk firedTask created due =>
      cases task
      simp [RelevanceServer.calling, fires, running]

theorem tracked_of_fire (tracked : Tracked (Served queue attempts requests listings) queue)
    {index time : Nat} (stepped : queue.step (.fire index time) = some after)
    (kept : ∀ id, Attempted (fun stage => isAhead stage = true) id attempts →
      Attempted (fun stage => isAhead stage = true) id moved)
    (called : ∀ id, RelevanceServer.calling queue (.fire index time) = some id →
      Attempted (fun stage => isAhead stage = true) id moved) :
    Tracked (Served after moved requests listings) after := by
  have step := Util.stepped_of_step stepped
  have later : queue.now.seq ≤ after.now.seq := by
    rw [step.now]
    exact Nat.le_succ _
  apply tracked.step _ _ stepped
  · intro stopTime same
    cases same
  · intro fired value fires task moment before
    have member : fired ∈ queue.timers := List.mem_of_getElem? (Util.firing_spec fires).1
    have past := Moment.le_trans before (tracked.created fired member)
    exact ⟨Nat.le_trans past.1 later,
      Or.inl (called value (calling_of_firing tracked.running fires task))⟩
  · intro value moment served
    refine ⟨Nat.le_trans served.1 later, ?_⟩
    rcases served.2 with attempted | answered
    · exact Or.inl (kept value attempted)
    · by_cases calls : RelevanceServer.calling queue (.fire index time) = some value
      · exact Or.inl (called value calls)
      · right
        apply answered.mono (fun _ member _ _ _ => member) (List.Subset.refl _)
        intro written waiting
        rcases Util.call_pending_of_step stepped waiting with stays | ⟨fired, fires, task, _⟩
        · exact stays
        · exact absurd (calling_of_firing tracked.running fires task) calls
  · intro value earlier moment before served
    exact served_antitone before served

/-- A call of `triggerUpdate` comes after every moment anything is owed to. -/
theorem tracked_of_write (tracked : Tracked (Served queue attempts requests listings) queue)
    {id : T} {time : Nat} (stepped : queue.step (.write id time) = some after)
    (old : ∀ request ∈ known, ∀ written, request.stage.written = some written →
      request ∈ requests ∨ written = after.now) :
    Tracked (Served after attempts known listings) after := by
  have step := Util.stepped_of_step stepped
  have later : queue.now.seq < after.now.seq := by
    rw [step.now]
    exact Nat.lt_succ_self _
  apply tracked.step _ _ stepped
  · intro stopTime same
    cases same
  · intro fired value fires
    cases fires
  · intro value moment served
    refine ⟨Nat.le_trans served.1 (Nat.le_of_lt later), served.2.imp_right ?_⟩
    intro answered
    apply answered.mono _ (List.Subset.refl _)
    · intro written waiting
      rcases Util.call_pending_of_step stepped waiting with stays | ⟨fired, fires, _⟩
      · exact stays
      · cases fires
    · intro request member written isWritten before
      rcases old request member written isWritten with present | new
      · exact present
      · rw [new] at before
        have bounded := Nat.le_trans before.1 served.1
        omega
  · intro value earlier moment before served
    exact served_antitone before served

end Queue

section Scheduled

variable {T D : Type}

/-- A triggered request has its write on record. -/
def WrittenFact (writes : List (Write T)) (id : T) : RequestStage → Prop
  | .acknowledged (some _) none => False
  | .acknowledged (some _) (some moment) => ⟨id, moment⟩ ∈ writes
  | _ => True

/-- Every listing has been saved, or will be by the run that made it. -/
def ListingsSaved (saved : T → Nat) (listings : List (Listing T))
    (attempts : List (Attempt T RunProgress)) : Prop :=
  ∀ listing ∈ listings, listing.upTo ≤ saved listing.id ∨
    Attempted (fun stage =>
      stage.progress = some (.listed listing.startTimestamp listing.upTo)) listing.id attempts

structure RelevanceServer.Scheduled (server : RelevanceServer T D) : Prop where
  sound : server.Sound
  requested : ChangesRequested server.history server.requests
  running : server.updateWorker.stopping = false
  queue : Tracked (Served server.updateQueue server.updateWorker.attempts server.requests
    server.listings) server.updateQueue
  written : ∀ request ∈ server.requests,
    WrittenFact server.updateQueue.writes request.id request.stage
  saved : ListingsSaved server.saved server.listings server.updateWorker.attempts

theorem written_fact_mono {writes more : List (Write T)} {id : T} {stage : RequestStage}
    (fact : WrittenFact writes id stage) (grows : writes ⊆ more) : WrittenFact more id stage := by
  cases stage with
  | committed => trivial
  | stamped stamp => trivial
  | acknowledged stamp written =>
      cases stamp with
      | none => trivial
      | some stamp =>
          cases written with
          | none => exact fact
          | some moment => exact grows fact

theorem scheduled_initial : (RelevanceServer.initial : RelevanceServer T D).Scheduled where
  sound := sound_initial
  requested := changes_requested_initial
  running := rfl
  queue := Util.tracked_initial _ 5000 30000
  written request member := by cases member
  saved listing member := by cases member

/-- A call of `update` that finds its id in `updatingSet_` leaves nothing behind: another call for
the id has yet to list the members, or each triggered change has been seen by a listing or has
a call of `onValueCb_` pending since it was triggered. -/
def SkipsMissNothing (server : RelevanceServer T D) : ServerAction T D → Prop
  | .proceed index => ∀ id, server.updateWorker.attempts[index]? = some ⟨id, .queued⟩ →
      id ∈ server.updateWorker.updatingSet →
      AttemptedElsewhere (fun stage => isAhead stage = true) index id
          server.updateWorker.attempts ∨
        ∀ request ∈ server.requests, request.id = id →
          ∀ written, request.stage.written = some written →
            Seen server.listings id request.ordinal ∨
              CallPending server.updateQueue.timers id written
  | _ => True

/-- No timer of the debouncer is pending, and no call of `update` is queued, running or in the
delay after its run. -/
structure RelevanceServer.Idle (server : RelevanceServer T D) : Prop where
  timers : server.updateQueue.timers = []
  attempts : ∀ attempt ∈ server.updateWorker.attempts, attempt.stage.outstanding = false

/-- Once nothing is going on, the vector of a changed centroid was computed from a listing made
after its last change, unless a request for it has yet to call `triggerUpdate`. -/
def NothingMissed (server : RelevanceServer T D) : Prop :=
  server.Idle → ∀ id, server.history id ≠ [] →
    (∀ request ∈ server.requests, request.id = id → request.stage.inFlight = false) →
    server.saved id = (server.history id).length

theorem outstanding_of_ahead (stage : Stage RunProgress) (ahead : isAhead stage = true) :
    stage.outstanding = true := by
  cases stage with
  | called => rfl
  | queued => rfl
  | guarded shouldUpdate => exact ahead
  | admitted => rfl
  | running progress => rfl
  | _ => cases ahead

theorem outstanding_of_progress {stage : Stage RunProgress} {progress : RunProgress}
    (known : stage.progress = some progress) : stage.outstanding = true :=
  outstanding_of_holding stage (holding_of_progress known)

theorem nothing_missed_of_scheduled {server : RelevanceServer T D} (scheduled : server.Scheduled) :
    NothingMissed server := by
  intro idle id changed triggered
  have nobody : ∀ {P : Stage RunProgress → Prop}, (∀ stage, P stage → stage.outstanding = true) →
      ¬Attempted P id server.updateWorker.attempts := by
    intro P busy attempted
    obtain ⟨index, attempt, found, _, property⟩ := attempted
    have quiet := idle.attempts attempt (List.mem_of_getElem? found)
    rw [busy attempt.stage property] at quiet
    cases quiet
  have notAbove := scheduled.sound.bounded id
  have positive := List.length_pos_of_ne_nil changed
  obtain ⟨request, member, sameId, sameOrdinal, committing⟩ :=
    scheduled.requested.requested id ((server.history id).length - 1) (by omega)
  have fact := scheduled.written request member
  have settled := triggered request member sameId
  have written : ∃ moment, request.stage.written = some moment ∧
      ⟨id, moment⟩ ∈ server.updateQueue.writes := by
    subst sameId
    cases stage : request.stage with
    | committed =>
        rw [stage] at settled
        cases settled
    | stamped stamp =>
        rw [stage] at settled
        cases settled
    | acknowledged stamp written =>
        rw [stage] at fact committing
        cases stamp with
        | none => cases committing
        | some stamp =>
            cases written with
            | none => cases fact
            | some moment => exact ⟨moment, rfl, fact⟩
  obtain ⟨moment, isWritten, recorded⟩ := written
  have covered := scheduled.queue.written _ recorded
  rw [idle.timers] at covered
  rcases covered with (⟨timer, pending, _⟩ | served) | ⟨timer, pending, _⟩
  · cases pending
  · rcases served.2 with attempted | answered
    · exact absurd attempted (nobody outstanding_of_ahead)
    · rw [idle.timers] at answered
      rcases answered request member sameId moment isWritten (Moment.le_refl _) with
        ⟨listing, listed, listedId, seen⟩ | ⟨timer, pending, _⟩
      · change listing.id = id at listedId
        rcases scheduled.saved listing listed with isSaved | attempted
        · rw [listedId] at isSaved
          omega
        · rw [listedId] at attempted
          exact absurd attempted (nobody fun _ known => outstanding_of_progress known)
      · cases pending
  · cases pending

end Scheduled

section Steps

variable {T D : Type} [DecidableEq T] [DecidableEq D] {server next : RelevanceServer T D}
  {action : ServerAction T D}

theorem running_step (running : server.updateWorker.stopping = false)
    (undisturbed : action.undisturbed = true) (transition : Transition server action next) :
    next.updateWorker.stopping = false := by
  cases transition with
  | proceed index id stage worker reloads found advanced echoed =>
      exact (advance_stopping advanced).trans running
  | stop => cases undisturbed
  | _ => exact running

theorem written_step (scheduled : server.Scheduled) (undisturbed : action.undisturbed = true)
    (transition : Transition server action next) :
    ∀ request ∈ next.requests, WrittenFact next.updateQueue.writes request.id request.stage := by
  have written := scheduled.written
  have replaced : ∀ {index : Nat} {writes : List (Write T)} {changed : Request T D},
      server.updateQueue.writes ⊆ writes → WrittenFact writes changed.id changed.stage →
      ∀ request ∈ server.requests.set index changed,
        WrittenFact writes request.id request.stage := by
    intro index writes changed grows fact request member
    rcases List.mem_or_eq_of_mem_set member with before | same
    · exact written_fact_mono (written request before) grows
    · subst same
      exact fact
  have added : ∀ {changed : Request T D},
      WrittenFact server.updateQueue.writes changed.id changed.stage →
      ∀ request ∈ server.requests ++ [changed],
        WrittenFact server.updateQueue.writes request.id request.stage := by
    intro changed fact request member
    rcases List.mem_append.mp member with before | new
    · exact written request before
    · cases List.mem_singleton.mp new
      exact fact
  cases transition with
  | commit id change ignoring absent => exact added trivial
  | confirm id docId ordinal present => exact added trivial
  | stamp index id change ordinal found => exact replaced (List.Subset.refl _) trivial
  | trigger index time id change ordinal stamp queue found running stepped =>
      have step := Util.stepped_of_step stepped
      exact replaced step.writes (step.recorded id time rfl)
  | refuse index time id change ordinal stamp found stopped =>
      rw [scheduled.running] at stopped
      cases stopped
  | fire index time queue stepped silent =>
      intro request member
      exact written_fact_mono (written request member) (Util.stepped_of_step stepped).writes
  | call index time queue id stepped calls =>
      intro request member
      exact written_fact_mono (written request member) (Util.stepped_of_step stepped).writes
  | stop => cases undisturbed
  | _ => exact written

theorem advance_keeps_ahead {worker changed : Worker T RunProgress} {index : Nat} {id : T}
    {stage : Stage RunProgress} (running : worker.stopping = false)
    (advanced : Advance worker index id stage changed) :
    (stage = .queued ∧ id ∈ worker.updatingSet ∧
        changed.attempts = worker.attempts.set index ⟨id, .guarded false⟩) ∨
      ∃ later, changed.attempts = worker.attempts.set index ⟨id, later⟩ ∧
        (isAhead stage = true → isAhead later = true) := by
  cases advanced with
  | skip held => exact Or.inl ⟨rfl, held, rfl⟩
  | quiet stage later numInProgress moves =>
      rw [running] at moves
      refine Or.inr ⟨later, rfl, ?_⟩
      intro ahead
      cases moves with
      | refuse stopped => cases stopped
      | withdraw stopped => cases stopped
      | abandon stopped result => cases stopped
      | interrupt stopped forCentroidCbs result => cases stopped
      | enqueue running => rfl
      | letIn running => rfl
      | start => rfl
      | _ => cases ahead
  | guard free => exact Or.inr ⟨_, rfl, fun _ => rfl⟩
  | release result => exact Or.inr ⟨_, rfl, fun ahead => by cases ahead⟩
  | echo value => exact Or.inr ⟨_, rfl, fun ahead => by cases ahead⟩
  | collect result => exact Or.inr ⟨_, rfl, fun ahead => by cases ahead⟩
  | invoke callback rest result => exact Or.inr ⟨_, rfl, fun ahead => by cases ahead⟩

theorem saved_step (scheduled : server.Scheduled) (undisturbed : action.undisturbed = true)
    (transition : Transition server action next) :
    ListingsSaved next.saved next.listings next.updateWorker.attempts := by
  have saved := scheduled.saved
  have grown := saved_mono scheduled.sound transition
  have appended : ∀ added : Attempt T RunProgress,
      ListingsSaved server.saved server.listings (server.updateWorker.attempts ++ [added]) := by
    intro added listing member
    exact (saved listing member).imp_right fun attempted => attempted_append attempted added
  -- a call that is not about to save moves
  have moved : ∀ {index : Nat} {id : T} {stage later : Stage RunProgress},
      server.updateWorker.attempts[index]? = some ⟨id, stage⟩ →
      (∀ start upTo, stage.progress ≠ some (.listed start upTo)) →
      ListingsSaved server.saved server.listings
        (server.updateWorker.attempts.set index ⟨id, later⟩) := by
    intro index id stage later found idle listing member
    refine (saved listing member).imp_right fun attempted => attempted.move found ?_
    intro _ known
    exact absurd known (idle _ _)
  cases transition with
  | call index time queue id stepped calls => exact appended _
  | update id => exact appended _
  | joinUpdate index id expects lastCalculated lastChanged found outdated => exact appended _
  | proceed index id stage worker reloads found advanced echoed =>
      obtain ⟨later, attempts, noProgress, _⟩ := advance_attempts advanced
      change ListingsSaved server.saved server.listings worker.attempts
      rw [attempts]
      apply moved found
      intro start upTo known
      rw [noProgress] at known
      cases known
  | readClock index id found =>
      apply moved found
      intro start upTo known
      cases known
  | listMembers index id start found =>
      intro listing member
      rcases List.mem_cons.mp member with same | before
      · subst same
        exact Or.inr ((attempted_set found).mpr (Or.inl ⟨rfl, rfl⟩))
      · apply moved found _ listing before
        intro began upTo known
        cases known
  | saveCentroid index id start upTo found =>
      intro listing member
      rcases saved listing member with isSaved | attempted
      · exact Or.inl (Nat.le_trans isSaved (grown listing.id))
      · rcases (attempted_iff_at found).mp attempted with ⟨sameId, known⟩ | elsewhere
        · left
          cases known
          rw [← sameId]
          have placed : Function.update server.saved id listing.upTo id = listing.upTo :=
            Function.update_self _ _ _
          exact Nat.le_of_eq placed.symm
        · exact Or.inr ((attempted_set found).mpr (Or.inr elsewhere))
  | finishRun index id start upTo found =>
      apply moved found
      intro began seen known
      cases known
  | returnException index id progress exception found => cases undisturbed
  | throwException index id progress found => cases undisturbed
  | stop => cases undisturbed
  | _ => exact saved

omit [DecidableEq T] [DecidableEq D] in
theorem answered_of_listing (requested : ChangesRequested server.history server.requests) (id : T)
    (start : Nat) (timers : List (Util.Timer T)) (moment : Moment) :
    Answered timers server.requests (⟨id, start, (server.history id).length⟩ :: server.listings)
      id moment := by
  intro request member sameId written isWritten before
  have seen := requested.past request member
  rw [sameId] at seen
  exact Or.inl ⟨_, List.mem_cons_self, rfl, seen⟩

theorem queue_step (scheduled : server.Scheduled) (undisturbed : action.undisturbed = true)
    (guarded : SkipsMissNothing server action) (transition : Transition server action next) :
    Tracked (Served next.updateQueue next.updateWorker.attempts next.requests next.listings)
      next.updateQueue := by
  have queue := scheduled.queue
  have added : ∀ {request : Request T D}, request.stage.written = none →
      Tracked (Served server.updateQueue server.updateWorker.attempts
        (server.requests ++ [request]) server.listings) server.updateQueue := by
    intro added unwritten
    apply tracked_of_requests queue
    intro request member written isWritten
    rcases List.mem_append.mp member with before | new
    · exact before
    · cases List.mem_singleton.mp new
      rw [unwritten] at isWritten
      cases isWritten
  have appended : ∀ attempt : Attempt T RunProgress,
      Tracked (Served server.updateQueue (server.updateWorker.attempts ++ [attempt])
        server.requests server.listings) server.updateQueue := by
    intro attempt
    apply tracked_of_attempts queue _ (List.Subset.refl _)
    intro id moment attempted
    exact Or.inl (attempted_append attempted attempt)
  have moved : ∀ {index : Nat} {id : T} {stage later : Stage RunProgress},
      server.updateWorker.attempts[index]? = some ⟨id, stage⟩ →
      (isAhead stage = true → isAhead later = true) →
      Tracked (Served server.updateQueue (server.updateWorker.attempts.set index ⟨id, later⟩)
        server.requests server.listings) server.updateQueue := by
    intro index id stage later found keeps
    apply tracked_of_attempts queue _ (List.Subset.refl _)
    intro other moment attempted
    exact Or.inl (attempted.move found fun _ => keeps)
  cases transition with
  | commit id change ignoring absent => exact added rfl
  | confirm id docId ordinal present => exact added rfl
  | stamp index id change ordinal found =>
      apply tracked_of_requests queue
      intro request member written isWritten
      rcases List.mem_or_eq_of_mem_set member with before | same
      · exact before
      · subst same
        cases isWritten
  | trigger index time id change ordinal stamp queue found running stepped =>
      apply tracked_of_write scheduled.queue stepped
      intro request member written isWritten
      rcases List.mem_or_eq_of_mem_set member with before | same
      · exact Or.inl before
      · subst same
        exact Or.inr (Option.some.inj isWritten).symm
  | refuse index time id change ordinal stamp found stopped =>
      rw [scheduled.running] at stopped
      cases stopped
  | fire index time queue stepped silent =>
      apply tracked_of_fire scheduled.queue stepped (fun _ attempted => attempted)
      intro id calls
      rw [silent] at calls
      cases calls
  | call index time queue id stepped calls =>
      apply tracked_of_fire scheduled.queue stepped
      · intro other attempted
        exact attempted_append attempted _
      · intro other otherCalls
        cases calls.symm.trans otherCalls
        exact attempted_last ⟨id, .called⟩ rfl
  | update id => exact appended _
  | joinUpdate index id expects lastCalculated lastChanged found outdated => exact appended _
  | proceed index id stage worker reloads found advanced echoed =>
      change Tracked (Served server.updateQueue worker.attempts server.requests server.listings)
        server.updateQueue
      rcases advance_keeps_ahead scheduled.running advanced with ⟨isQueued, held, attempts⟩ | kept
      · rw [attempts]
        subst isQueued
        apply tracked_of_attempts queue _ (List.Subset.refl _)
        intro other moment attempted
        by_cases same : other = id
        · subst same
          rcases guarded other found held with elsewhere | answered
          · exact Or.inl ((attempted_set found).mpr (Or.inr elsewhere))
          · right
            intro request member sameId written isWritten _
            exact answered request member sameId written isWritten
        · exact Or.inl (attempted.move found fun sameId => absurd sameId same)
      · obtain ⟨later, attempts, keeps⟩ := kept
        rw [attempts]
        exact moved found keeps
  | readClock index id found => exact moved found fun _ => rfl
  | listMembers index id start found =>
      apply tracked_of_attempts queue _ (List.subset_cons_self _ _)
      intro other moment attempted
      by_cases same : other = id
      · subst same
        exact Or.inr (answered_of_listing scheduled.requested other start _ moment)
      · exact Or.inl (attempted.move found fun sameId => absurd sameId same)
  | saveCentroid index id start upTo found => exact moved found fun ahead => by cases ahead
  | finishRun index id start upTo found => exact moved found fun ahead => by cases ahead
  | returnException index id progress exception found => cases undisturbed
  | throwException index id progress found => cases undisturbed
  | stop => cases undisturbed
  | _ => exact queue

theorem RelevanceServer.Scheduled.step (scheduled : server.Scheduled)
    (undisturbed : action.undisturbed = true) (guarded : SkipsMissNothing server action)
    (transition : Transition server action next) : next.Scheduled where
  sound := scheduled.sound.step transition
  requested := changes_requested_step scheduled.requested transition
  running := running_step scheduled.running undisturbed transition
  queue := queue_step scheduled undisturbed guarded transition
  written := written_step scheduled undisturbed transition
  saved := saved_step scheduled undisturbed transition

/-- In every run without `stop()` and failing runs, in which calls of `update` go away only when
nothing is missed, no member change is left out of the saved vectors. -/
theorem nothing_missed_of_harmless_skips (actions : List (ServerAction T D))
    (undisturbed : ∀ action ∈ actions, action.undisturbed = true)
    (harmless : (serverMachine T D).Guarded SkipsMissNothing actions .initial) :
    (serverMachine T D).Along NothingMissed actions .initial := by
  have preserved : ∀ (server : RelevanceServer T D) (action : ServerAction T D)
      (next : RelevanceServer T D), server.Scheduled → action.undisturbed = true →
      SkipsMissNothing server action → (serverMachine T D).step server action = some next →
      next.Scheduled :=
    fun server action next scheduled allowed guarded stepped =>
      scheduled.step allowed guarded (step_cases stepped)
  exact Machine.along_of_guarded preserved
    (fun _ scheduled => nothing_missed_of_scheduled scheduled) actions undisturbed
    scheduled_initial harmless

def NobodySkips (server : RelevanceServer T D) : ServerAction T D → Prop
  | .proceed index => ∀ attempt ∈ server.updateWorker.attempts[index]?,
      attempt.stage.isQueued = true → attempt.id ∉ server.updateWorker.updatingSet
  | _ => True

instance (server : RelevanceServer T D) (action : ServerAction T D) :
    Decidable (NobodySkips server action) := by
  induction action using ServerAction.casesOn with
  | proceed index =>
      exact inferInstanceAs (Decidable (∀ attempt ∈ server.updateWorker.attempts[index]?,
        attempt.stage.isQueued = true → attempt.id ∉ server.updateWorker.updatingSet))
  | _ => exact isTrue trivial

omit [DecidableEq T] [DecidableEq D] in
theorem skips_miss_nothing_of_nobody_skips (server : RelevanceServer T D)
    (action : ServerAction T D) (nobody : NobodySkips server action) :
    SkipsMissNothing server action := by
  cases action with
  | proceed index =>
      intro id found held
      exact absurd held (nobody _ found rfl)
  | _ => trivial

end Steps

/-- Two additions a minute apart, each followed by a run that comes to its end. -/
def addedAMinuteApart : List (ServerAction Nat Nat) :=
  [.request 7 (.add 1) false, .stampRequest 0, .triggerUpdate 0 0, .fire 0 5000, .proceed 0,
    .proceed 0, .proceed 0, .proceed 0, .readClock 0, .listMembers 0, .saveCentroid 0,
    .finishRun 0, .proceed 0, .proceed 0, .proceed 0, .proceed 0, .fire 0 30000,
    .request 7 (.add 2) false, .stampRequest 1, .triggerUpdate 1 60000, .fire 0 65000,
    .proceed 1, .proceed 1, .proceed 1, .proceed 1, .readClock 1, .listMembers 1,
    .saveCentroid 1, .finishRun 1, .proceed 1, .proceed 1, .proceed 1, .proceed 1,
    .fire 0 90000]

theorem added_a_minute_apart_misses_nothing :
    (serverMachine Nat Nat).Along NothingMissed addedAMinuteApart .initial :=
  nothing_missed_of_harmless_skips addedAMinuteApart (by decide)
    (Machine.Guarded.mono
      (by decide +kernel : (serverMachine Nat Nat).Guarded NobodySkips addedAMinuteApart .initial)
      skips_miss_nothing_of_nobody_skips)

/-- A run lists the members and then takes over half a minute to save its vector; the update for
a document added in between comes and goes while the run is in progress. -/
def addedDuringALongRun : List (ServerAction Nat Nat) :=
  [.request 7 (.add 1) false, .stampRequest 0, .triggerUpdate 0 0, .fire 0 5000, .proceed 0,
    .proceed 0, .proceed 0, .proceed 0, .readClock 0, .listMembers 0, .fire 0 30000,
    .request 7 (.add 2) false, .stampRequest 1, .triggerUpdate 1 31000, .fire 0 36000,
    .proceed 1, .proceed 1, .proceed 1, .saveCentroid 0, .finishRun 0, .proceed 0, .proceed 0,
    .proceed 0, .proceed 0, .fire 0 61000]

theorem added_during_a_long_run_is_missed :
    (∀ action ∈ addedDuringALongRun, action.undisturbed = true) ∧
      ∃ server, (serverMachine Nat Nat).exec addedDuringALongRun .initial = some server ∧
        server.Idle ∧ server.history 7 ≠ [] ∧
        (∀ request ∈ server.requests, request.stage.inFlight = false) ∧
        server.saved 7 ≠ (server.history 7).length := by
  refine ⟨by decide, _, rfl, ⟨?_, ?_⟩, ?_, ?_, ?_⟩
  · rfl
  · decide
  · decide
  · decide
  · decide

end Relevanced.Server

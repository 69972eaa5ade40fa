import Relevanced.CentroidUpdate.Callbacks
import Relevanced.Persistence.Listings
import Relevanced.Server.Stamps

/-!
# What a join guarantees

A join of a centroid is to return only when the score worker holds a vector computed
with every document whose addition had been acknowledged before the join was called.
The additions are acknowledged before their stamps are written, a join reads its two
stamps apart from each other, and a run under way may answer it, so this holds in runs
where none of these comes at the wrong moment. The ids are those without a colon: a listing
cuts what it shows of others, and records of others may share a key.
-/

namespace Relevanced.Server

open Foundation
open CentroidUpdate
open Persistence (Try colon)
open Persistence.SyncPersistence (listedId listed_id_of_free)

set_option autoImplicit false

/-- The call of `update` will not collect callbacks after a run that missed the change. -/
def WillCover (saved ordinal : Nat) : Stage RunProgress → Prop
  | .running (some (.listed _ upTo)) => ordinal < upTo
  | .running (some (.saved _ _)) => ordinal < saved
  | .ran (.ok _) => ordinal < saved
  | .delayed (.ok _) => ordinal < saved
  | .released (.ok _) => ordinal < saved
  | .broadcast _ => ordinal < saved
  | _ => True

def HeldSeen (held : Option Nat) (ordinal : Nat) : Prop :=
  ∃ upTo ∈ held, ordinal < upTo

/-- The join is about to return with what the score worker holds. -/
def JoinStage.settling {T : Type} (reloads : List (Reload T)) : JoinStage → Bool
  | .answered (.ok _) => true
  | .reloading reload =>
      match reloads[reload]? with
      | some ⟨_, .inserted _⟩ => true
      | _ => false
  | _ => false

section Guards

variable {T D : Type}

/-- When a join decides: if it takes the centroid to be up to date, the score worker has been
given the vector of a run with the `lastCalculated` stamp it has read, or a later one; if not, no
call of `update` is about to answer it after a run that missed the change. -/
def DecidesInTime (server : RelevanceServer T D) (id : T) (ordinal : Nat) : JoinStage → Prop
  | .reading (some lastCalculated) (some lastChanged) =>
      if isCentroidUpToDate true lastCalculated lastChanged = .ok true then
        ∀ stamp ∈ lastCalculated, ∃ listing ∈ server.listings, listing.id = id ∧
          listing.startTimestamp = stamp ∧ ∃ upTo ∈ server.held id, listing.upTo ≤ upTo
      else ∀ attempt ∈ server.updateWorker.attempts, attempt.id = id →
        WillCover (server.saved id) ordinal attempt.stage
  | _ => True

/-- When a join reads `lastDocumentChange`, the stored stamp is not below that of the change. -/
def StampVisible (lastDocumentChange : Option Nat) (stage : RequestStage) : Prop :=
  ∃ stamp ∈ stage.stamp, ∃ stored ∈ lastDocumentChange, stamp ≤ stored

/-- The vector a reload is about to put in the place of another has seen the change. -/
def InsertsSeen (ordinal : Nat) : ReloadStage → Prop
  | .updating upTo => ordinal < upTo
  | _ => True

/-- A vector that has been added since the reload's look-up, and stays, has seen the change. -/
def KeepsSeen (held : Option Nat) (ordinal : Nat) : ReloadStage → Prop
  | .adding _ => ∀ upTo ∈ held, ordinal < upTo
  | _ => True

def JoinStage.awaits (reload : Nat) : JoinStage → Bool
  | .reloading other => other == reload
  | _ => false

/-- The conditions on the steps of a run under which joins see acknowledged additions. -/
def JoinsInTime (server : RelevanceServer T D) (action : ServerAction T D) : Prop :=
  StampsApart server action ∧
    match action with
    | .readLastDocumentChange index => ∀ join ∈ server.joins[index]?, ∀ expected ∈ join.expects,
        ∀ request ∈ server.requests, request.id = join.id → request.ordinal = expected.2 →
          request.stage.committing = true →
          StampVisible (server.lastDocumentChange join.id) request.stage
    | .stepJoin index => ∀ join ∈ server.joins[index]?, ∀ expected ∈ join.expects,
        DecidesInTime server join.id expected.2 join.stage
    | .stepReload index => ∀ reload ∈ server.reloads[index]?, ∀ join ∈ server.joins,
        join.id = reload.id → ∀ expected ∈ join.expects,
          (join.stage.settling server.reloads = true → InsertsSeen expected.2 reload.stage) ∧
            (join.stage.awaits index = true →
              KeepsSeen (server.held reload.id) expected.2 reload.stage)
    | _ => True

/-- Neither the centroid nor the document of the request has a colon in its id. -/
def ServerAction.ColonFree : ServerAction Bytes Bytes → Prop
  | .request id (.add docId) _ => colon ∉ id ∧ colon ∉ docId
  | .request id (.remove docId) _ => colon ∉ id ∧ colon ∉ docId
  | .joinCentroid id => colon ∉ id
  | _ => True

/-- The conditions together. -/
def ReadsInTime (server : RelevanceServer Bytes Bytes) (action : ServerAction Bytes Bytes) : Prop :=
  action.ColonFree ∧ JoinsInTime server action

instance (saved ordinal : Nat) (stage : Stage RunProgress) :
    Decidable (WillCover saved ordinal stage) := by
  unfold WillCover
  split <;> infer_instance

instance (ordinal : Nat) (stage : ReloadStage) : Decidable (InsertsSeen ordinal stage) := by
  unfold InsertsSeen
  split <;> infer_instance

instance (held : Option Nat) (ordinal : Nat) (stage : ReloadStage) :
    Decidable (KeepsSeen held ordinal stage) := by
  unfold KeepsSeen
  split <;> infer_instance

instance (lastDocumentChange : Option Nat) (stage : RequestStage) :
    Decidable (StampVisible lastDocumentChange stage) :=
  inferInstanceAs (Decidable (∃ stamp ∈ stage.stamp, ∃ stored ∈ lastDocumentChange, stamp ≤ stored))

instance [DecidableEq T] (server : RelevanceServer T D) (id : T) (ordinal : Nat)
    (stage : JoinStage) : Decidable (DecidesInTime server id ordinal stage) := by
  unfold DecidesInTime
  split <;> infer_instance

instance [DecidableEq T] (server : RelevanceServer T D) (action : ServerAction T D) :
    Decidable (JoinsInTime server action) := by
  unfold JoinsInTime
  have apart : Decidable (StampsApart server action) := inferInstance
  induction action using ServerAction.casesOn <;> infer_instance

instance ServerAction.decidableColonFree (action : ServerAction Bytes Bytes) :
    Decidable action.ColonFree := by
  cases action with
  | request id change ignoring => cases change <;> exact inferInstanceAs (Decidable (_ ∧ _))
  | joinCentroid id => exact inferInstanceAs (Decidable (colon ∉ id))
  | _ => exact isTrue trivial

instance (server : RelevanceServer Bytes Bytes) (action : ServerAction Bytes Bytes) :
    Decidable (ReadsInTime server action) :=
  inferInstanceAs (Decidable (_ ∧ _))

end Guards

section Facts

variable {T D : Type}

/-- What a reload that a join waits for has read and inserted. -/
def ReloadFact (held : Option Nat) (ordinal : Nat) : ReloadStage → Prop
  | .submitted => True
  | .read upTo => ordinal < upTo
  | .updating upTo => ordinal < upTo
  | .adding upTo => ordinal < upTo
  | .inserted _ => HeldSeen held ordinal

/-- No call of `update` for the centroid is about to collect callbacks after a run that missed
the change. -/
def Covering (saved : T → Nat) (attempts : List (Attempt T RunProgress)) (id : T)
    (ordinal : Nat) : Prop :=
  Each (fun other stage => other = id → WillCover (saved id) ordinal stage) attempts

/-- What the stage of a join says about a change that the join must see. -/
def JoinFact (server : RelevanceServer T D) (id : T) (ordinal : Nat) : JoinStage → Prop
  | .reading lastCalculated lastChanged =>
      (∀ stamp, lastCalculated = some (some stamp) →
        ∃ upTo, ⟨id, stamp, upTo⟩ ∈ server.listings ∧ upTo ≤ server.saved id) ∧
      ∀ changed, lastChanged = some changed →
        ∃ stamp, changed = some stamp ∧ LaterThanMissed server.listings id ordinal stamp
  | .waiting callback =>
      CallbackOwed server.updateWorker (ordinal < server.saved id) id callback ∧
        Covering server.saved server.updateWorker.attempts id ordinal
  | .reloading reload =>
      ordinal < server.saved id ∧
        ∃ stage, server.reloads[reload]? = some ⟨id, stage⟩ ∧
          ReloadFact (server.held id) ordinal stage
  | .answered (.ok _) => HeldSeen (server.held id) ordinal
  | .answered (.error _) => True
  | .returned (.ok _) held => HeldSeen held ordinal
  | .returned (.error _) _ => True

/-- The property holds of every change a join must see. -/
def EachJoin (Q : T → Nat → JoinStage → Prop) (joins : List (Join T D)) : Prop :=
  ∀ join ∈ joins, ∀ expected ∈ join.expects, Q join.id expected.2 join.stage

/-- The stamps agree with the runs, and every join with what it must see. -/
structure RelevanceServer.Joined (server : RelevanceServer T D) : Prop where
  dated : server.Dated
  callbacks : CallbacksKnown server.updateWorker
  known : EachJoin (fun id ordinal _ => ordinal < (server.history id).length) server.joins
  joins : EachJoin (JoinFact server) server.joins

variable {Q : T → Nat → JoinStage → Prop} {joins : List (Join T D)} {index : Nat} {id : T}
  {expects : List (D × Nat)} {stage later : JoinStage}

theorem EachJoin.add (each : EachJoin Q joins) (join : Join T D)
    (new : ∀ expected ∈ join.expects, Q join.id expected.2 join.stage) :
    EachJoin Q (joins ++ [join]) := by
  intro other member
  rcases List.mem_append.mp member with before | added
  · exact each other before
  · cases List.mem_singleton.mp added
    exact new

theorem EachJoin.set (each : EachJoin Q joins)
    (new : ∀ expected ∈ expects, Q id expected.2 later) :
    EachJoin Q (joins.set index ⟨id, expects, later⟩) := by
  intro other member
  rcases List.mem_or_eq_of_mem_set member with before | same
  · exact each other before
  · subst same
    exact new

theorem EachJoin.at (each : EachJoin Q joins)
    (found : joins[index]? = some ⟨id, expects, stage⟩) :
    ∀ expected ∈ expects, Q id expected.2 stage :=
  each _ (List.mem_of_getElem? found)

end Facts

section Covering

variable {T D : Type}

theorem WillCover.mono {saved newer ordinal : Nat} {stage : Stage RunProgress}
    (covers : WillCover saved ordinal stage) (grows : saved ≤ newer) :
    WillCover newer ordinal stage := by
  have raised : ordinal < saved → ordinal < newer := fun seen => Nat.lt_of_lt_of_le seen grows
  cases stage with
  | running progress =>
      cases progress with
      | none => trivial
      | some reached =>
          cases reached with
          | started start => trivial
          | listed start upTo => exact covers
          | saved start upTo => exact raised covers
  | ran result =>
      cases result with
      | ok value => exact raised covers
      | error exception => trivial
  | delayed result =>
      cases result with
      | ok value => exact raised covers
      | error exception => trivial
  | released result =>
      cases result with
      | ok value => exact raised covers
      | error exception => trivial
  | broadcast result => exact raised covers
  | _ => trivial

theorem quiet_will_cover {stopping : Bool} {stage later : Stage RunProgress}
    (quiet : Quiet stopping stage later) {saved ordinal : Nat}
    (covers : WillCover saved ordinal stage) : WillCover saved ordinal later := by
  cases quiet with
  | delay running result =>
      cases result with
      | ok value => exact covers
      | error exception => trivial
  | _ => trivial

theorem advance_will_cover [DecidableEq T] {worker changed : Worker T RunProgress} {index : Nat}
    {id : T} {stage : Stage RunProgress} (advanced : Advance worker index id stage changed)
    {saved ordinal : Nat} (covers : WillCover saved ordinal stage) :
    ∃ later, changed.attempts = worker.attempts.set index ⟨id, later⟩ ∧
      WillCover saved ordinal later := by
  cases advanced with
  | guard free => exact ⟨_, rfl, trivial⟩
  | skip held => exact ⟨_, rfl, trivial⟩
  | release result =>
      cases result with
      | ok value => exact ⟨_, rfl, covers⟩
      | error exception => exact ⟨_, rfl, trivial⟩
  | echo value => exact ⟨_, rfl, covers⟩
  | collect result => exact ⟨_, rfl, trivial⟩
  | invoke callback rest result => exact ⟨_, rfl, trivial⟩
  | quiet stage later numInProgress moves => exact ⟨later, rfl, quiet_will_cover moves covers⟩

variable [DecidableEq T] [DecidableEq D] {server next : RelevanceServer T D}
  {action : ServerAction T D}

theorem covering_step (sound : server.Sound) {id : T} {ordinal : Nat}
    (known : ordinal < (server.history id).length)
    (covering : Covering server.saved server.updateWorker.attempts id ordinal)
    (transition : Transition server action next) :
    Covering next.saved next.updateWorker.attempts id ordinal := by
  have grows := saved_mono sound transition id
  have grown : Covering next.saved server.updateWorker.attempts id ordinal :=
    covering.mono fun _ _ covers same => (covers same).mono grows
  cases transition with
  | call index time queue called stepped calls => exact grown.append fun _ => trivial
  | update called => exact grown.append fun _ => trivial
  | joinUpdate index joined expects lastCalculated lastChanged found outdated =>
      exact grown.append fun _ => trivial
  | proceed index moving stage worker reloads found advanced echoed =>
      by_cases same : moving = id
      · obtain ⟨later, attempts, covers⟩ :=
          advance_will_cover advanced (grown index moving stage found same)
        change Covering server.saved worker.attempts id ordinal
        rw [attempts]
        exact grown.set fun _ => covers
      · obtain ⟨later, attempts, _⟩ := advance_attempts advanced
        change Covering server.saved worker.attempts id ordinal
        rw [attempts]
        exact grown.set fun sameId => absurd sameId same
  | readClock index moving found => exact grown.set fun _ => trivial
  | listMembers index moving start found =>
      apply grown.set
      intro same
      subst same
      exact known
  | saveCentroid index moving start upTo found =>
      apply grown.set
      intro same
      subst same
      have listed : ordinal < upTo := covering index moving _ found rfl
      change ordinal < Function.update server.saved moving upTo moving
      rw [Function.update_self]
      exact listed
  | finishRun index moving start upTo found =>
      apply grown.set
      intro same
      have covers := grown index moving _ found same
      exact covers
  | returnException index moving progress exception found => exact grown.set fun _ => trivial
  | throwException index moving progress found => exact grown.set fun _ => trivial
  | _ => exact grown

end Covering

section Frames

variable {T D : Type} [DecidableEq T] [DecidableEq D] {server next : RelevanceServer T D}
  {action : ServerAction T D} {id : T} {ordinal : Nat}

/-- Any vector the step puts in the place of another has seen the change. -/
def InsertionsSee (server : RelevanceServer T D) (action : ServerAction T D) (id : T)
    (ordinal : Nat) : Prop :=
  ∀ index upTo, action = .stepReload index →
    server.reloads[index]? = some ⟨id, .updating upTo⟩ → ordinal < upTo

/-- Any vector that the reload leaves there has seen the change. -/
def KeptSees (server : RelevanceServer T D) (action : ServerAction T D) (id : T)
    (ordinal reload : Nat) : Prop :=
  ∀ upTo other, action = .stepReload reload →
    server.reloads[reload]? = some ⟨id, .adding upTo⟩ → server.held id = some other →
      ordinal < other

theorem held_seen_step (seen : HeldSeen (server.held id) ordinal)
    (inserts : InsertionsSee server action id ordinal)
    (transition : Transition server action next) : HeldSeen (next.held id) ordinal := by
  cases transition with
  | setValue index inserted upTo found =>
      by_cases same : id = inserted
      · subst same
        exact ⟨upTo, Function.update_self _ _ _, inserts index upTo rfl found⟩
      · change HeldSeen (Function.update server.held inserted (some upTo) id) ordinal
        rw [Function.update_of_ne same]
        exact seen
  | addData index inserted upTo found absent =>
      obtain ⟨other, isHeld, seesOther⟩ := seen
      have different : id ≠ inserted := by
        rintro rfl
        rw [absent] at isHeld
        cases isHeld
      change HeldSeen (Function.update server.held inserted (some upTo) id) ordinal
      rw [Function.update_of_ne different]
      exact ⟨other, isHeld, seesOther⟩
  | _ => exact seen

theorem reading_step (dated : server.Dated) (known : ordinal < (server.history id).length)
    {lastCalculated lastChanged : Option (Option Nat)}
    (fact : JoinFact server id ordinal (.reading lastCalculated lastChanged))
    (transition : Transition server action next) :
    JoinFact next id ordinal (.reading lastCalculated lastChanged) := by
  refine ⟨?_, ?_⟩
  · intro stamp isRead
    obtain ⟨upTo, listed, saved⟩ := fact.1 stamp isRead
    exact ⟨upTo, listings_subset transition listed,
      Nat.le_trans saved (saved_mono dated.sound transition id)⟩
  · intro changed isRead
    obtain ⟨stamp, same, later⟩ := fact.2 changed isRead
    exact ⟨stamp, same, later_than_missed_step later known transition⟩

theorem waiting_step (sound : server.Sound) (known : ordinal < (server.history id).length)
    {callback : Nat} (fact : JoinFact server id ordinal (.waiting callback))
    (transition : Transition server action next) :
    JoinFact next id ordinal (.waiting callback) := by
  obtain ⟨owed, covering⟩ := fact
  refine ⟨?_, covering_step sound known covering transition⟩
  have grows := saved_mono sound transition id
  have kept : CallbackOwed server.updateWorker (ordinal < next.saved id) id callback :=
    owed.mono fun seen => Nat.lt_of_lt_of_le seen grows
  cases transition with
  | call index time queue called stepped calls => exact kept.update called
  | update called => exact kept.update called
  | joinUpdate index joined expects lastCalculated lastChanged found outdated =>
      exact kept.joinUpdate joined
  | proceed index moving stage worker reloads found advanced echoed =>
      apply kept.advance found advanced
      intro same broadcast
      subst same
      have covers := covering index moving stage found rfl
      cases stage with
      | broadcast result => exact covers
      | _ => cases broadcast
  | readClock index moving found => exact kept.move rfl
  | listMembers index moving start found => exact kept.move rfl
  | saveCentroid index moving start upTo found => exact kept.move rfl
  | finishRun index moving start upTo found => exact kept.move rfl
  | returnException index moving progress exception found => exact kept.move rfl
  | throwException index moving progress found => exact kept.move rfl
  | stop =>
      exact ⟨kept.registered, ⟨kept.places.pending, kept.places.collected, kept.places.invoked⟩⟩
  | _ => exact kept

theorem reload_fact_step (seen : ordinal < server.saved id) {reload : Nat} {stage : ReloadStage}
    (found : server.reloads[reload]? = some ⟨id, stage⟩)
    (fact : ReloadFact (server.held id) ordinal stage)
    (inserts : (JoinStage.reloading reload).settling server.reloads = true →
      InsertionsSee server action id ordinal)
    (keeps : KeptSees server action id ordinal reload)
    (transition : Transition server action next) :
    ∃ later, next.reloads[reload]? = some ⟨id, later⟩ ∧
      ReloadFact (next.held id) ordinal later := by
  have appended : ∀ added : Reload T, (server.reloads ++ [added])[reload]? = some ⟨id, stage⟩ := by
    intro added
    rw [List.getElem?_append_left (List.getElem?_eq_some_iff.mp found).1]
    exact found
  have own (later : ReloadStage) :
      (server.reloads.set reload ⟨id, later⟩)[reload]? = some ⟨id, later⟩ :=
    List.getElem?_set_self (List.getElem?_eq_some_iff.mp found).1
  -- the reload the join waits for stays where it is while another one moves
  have other {index : Nat} (moved : Reload T) (different : index ≠ reload)
      (isMove : next.reloads = server.reloads.set index moved) :
      ∃ later, next.reloads[reload]? = some ⟨id, later⟩ ∧
        ReloadFact (next.held id) ordinal later := by
    refine ⟨stage, ?_, ?_⟩
    · rw [isMove]
      exact (List.getElem?_set_ne different).trans found
    · cases stage with
      | submitted => trivial
      | read upTo => exact fact
      | updating upTo => exact fact
      | adding upTo => exact fact
      | inserted upTo =>
          have settles : (JoinStage.reloading reload).settling server.reloads = true := by
            simp [JoinStage.settling, found]
          exact held_seen_step fact (inserts settles) transition
  cases transition with
  | proceed index moving moved worker reloads foundAttempt advanced echoed =>
      rcases echoed with same | more
      · subst same
        exact ⟨stage, found, fact⟩
      · subst more
        exact ⟨stage, appended _, fact⟩
  | reloadCentroid index joined expects callback foundJoin invoked =>
      exact ⟨stage, appended _, fact⟩
  | readStored index reloaded submitted =>
      by_cases same : index = reload
      · subst same
        rw [found] at submitted
        cases submitted
        exact ⟨_, own _, seen⟩
      · exact other _ same rfl
  | findNone index reloaded upTo read =>
      by_cases same : index = reload
      · subst same
        rw [found] at read
        cases read
        exact ⟨_, own _, fact⟩
      · exact other _ same rfl
  | find index reloaded upTo read =>
      by_cases same : index = reload
      · subst same
        rw [found] at read
        cases read
        exact ⟨_, own _, fact⟩
      · exact other _ same rfl
  | setValue index reloaded upTo updating =>
      by_cases same : index = reload
      · subst same
        rw [found] at updating
        cases updating
        exact ⟨_, own _, upTo, Function.update_self _ _ _, fact⟩
      · exact other _ same rfl
  | addData index reloaded upTo adding absent =>
      by_cases same : index = reload
      · subst same
        rw [found] at adding
        cases adding
        exact ⟨_, own _, upTo, Function.update_self _ _ _, fact⟩
      · exact other _ same rfl
  | getData index reloaded upTo added adding isHeld =>
      by_cases same : index = reload
      · subst same
        rw [found] at adding
        cases adding
        exact ⟨_, own _, added, isHeld, keeps upTo added rfl found isHeld⟩
      · exact other _ same rfl
  | _ => exact ⟨stage, found, fact⟩

/-- What a join has been promised outlasts every step that inserts nothing older. -/
theorem join_fact_step (dated : server.Dated) (known : ordinal < (server.history id).length)
    {stage : JoinStage} (fact : JoinFact server id ordinal stage)
    (inserts : stage.settling server.reloads = true → InsertionsSee server action id ordinal)
    (keeps : ∀ reload, stage.awaits reload = true → KeptSees server action id ordinal reload)
    (transition : Transition server action next) : JoinFact next id ordinal stage := by
  cases stage with
  | reading lastCalculated lastChanged => exact reading_step dated known fact transition
  | waiting callback => exact waiting_step dated.sound known fact transition
  | reloading reload =>
      obtain ⟨seen, reloadStage, found, reloadFact⟩ := fact
      exact ⟨Nat.lt_of_lt_of_le seen (saved_mono dated.sound transition id),
        reload_fact_step seen found reloadFact inserts (keeps reload (beq_self_eq_true reload))
          transition⟩
  | answered result =>
      cases result with
      | ok recomputed => exact held_seen_step fact (inserts rfl) transition
      | error exception => trivial
  | returned result held =>
      cases result with
      | ok recomputed => exact fact
      | error exception => trivial

end Frames

section Steps

variable {T D : Type} [DecidableEq T] [DecidableEq D] {server next : RelevanceServer T D}
  {action : ServerAction T D}

omit [DecidableEq D] in
theorem acknowledged_requested {id : T} {expected : D × Nat}
    (member : expected ∈ server.acknowledged id) :
    ∃ request ∈ server.requests, request.id = id ∧ request.ordinal = expected.2 := by
  obtain ⟨request, present, selected⟩ := List.mem_filterMap.mp member
  refine ⟨request, present, ?_⟩
  split at selected
  · split at selected
    · rename_i same
      cases selected
      exact ⟨same, rfl⟩
    · cases selected
  · cases selected

theorem callbacks_known_step (known : CallbacksKnown server.updateWorker)
    (transition : Transition server action next) : CallbacksKnown next.updateWorker := by
  cases transition with
  | call index time queue id stepped calls => exact CallbacksSatisfy.update known id
  | update id => exact CallbacksSatisfy.update known id
  | joinUpdate index id expects lastCalculated lastChanged found outdated =>
      exact known.joinUpdate id
  | proceed index id stage worker reloads found advanced echoed =>
      exact known.advance found advanced
  | readClock index id found => exact CallbacksSatisfy.move known rfl
  | listMembers index id start found => exact CallbacksSatisfy.move known rfl
  | saveCentroid index id start upTo found => exact CallbacksSatisfy.move known rfl
  | finishRun index id start upTo found => exact CallbacksSatisfy.move known rfl
  | returnException index id progress exception found => exact CallbacksSatisfy.move known rfl
  | throwException index id progress found => exact CallbacksSatisfy.move known rfl
  | stop => exact ⟨known.pending, known.collected, known.invoked⟩
  | _ => exact known

theorem each_join_step {Q : T → Nat → Prop}
    (framed : EachJoin (fun id ordinal _ => Q id ordinal) server.joins)
    (new : ∀ id, action = .joinCentroid id → ∀ expected ∈ server.acknowledged id, Q id expected.2)
    (transition : Transition server action next) :
    EachJoin (fun id ordinal _ => Q id ordinal) next.joins := by
  cases transition with
  | joinCentroid id => exact framed.add _ (new id rfl)
  | readLastCalculated index id expects lastChanged found => exact framed.set (framed.at found)
  | readLastDocumentChange index id expects lastCalculated found =>
      exact framed.set (framed.at found)
  | answerCurrent index id expects lastCalculated lastChanged found current =>
      exact framed.set (framed.at found)
  | answerException index id expects lastCalculated lastChanged exception found =>
      exact framed.set (framed.at found)
  | answerReloaded index id expects reload reloaded upTo found inserted =>
      exact framed.set (framed.at found)
  | joinUpdate index id expects lastCalculated lastChanged found outdated =>
      exact framed.set (framed.at found)
  | reloadCentroid index id expects callback found invoked => exact framed.set (framed.at found)
  | returnJoin index id expects result found => exact framed.set (framed.at found)
  | _ => exact framed

theorem known_step (joined : server.Joined) (transition : Transition server action next) :
    EachJoin (fun id ordinal _ => ordinal < (next.history id).length) next.joins := by
  have grown : EachJoin (fun id ordinal _ => ordinal < (next.history id).length) server.joins := by
    intro join member expected must
    exact Nat.lt_of_lt_of_le (joined.known join member expected must)
      (history_grows transition join.id)
  apply each_join_step grown _ transition
  intro id _ expected member
  obtain ⟨request, present, sameId, sameOrdinal⟩ := acknowledged_requested member
  have past := joined.dated.requested.past request present
  rw [sameId, sameOrdinal] at past
  exact Nat.lt_of_lt_of_le past (history_grows transition id)

omit [DecidableEq T] [DecidableEq D] in
theorem read_stamp_later (joined : server.Joined) {index : Nat} {id : T}
    {expects : List (D × Nat)} {stage : JoinStage}
    (found : server.joins[index]? = some ⟨id, expects, stage⟩)
    (guarded : JoinsInTime server (.readLastDocumentChange index)) {expected : D × Nat}
    (must : expected ∈ expects) :
    ∃ stamp, server.lastDocumentChange id = some stamp ∧
      LaterThanMissed server.listings id expected.2 stamp := by
  have known : expected.2 < (server.history id).length := joined.known.at found expected must
  obtain ⟨request, member, sameId, sameOrdinal, committing⟩ :=
    joined.dated.requested.requested id expected.2 known
  obtain ⟨stamp, isStamp, stored, isStored, notBelow⟩ :=
    guarded.2 _ found expected must request member sameId sameOrdinal committing
  refine ⟨stored, isStored, ?_⟩
  intro listing listed sameListing missed
  have later := joined.dated.later request member stamp isStamp
  rw [sameId, sameOrdinal] at later
  exact Nat.lt_of_lt_of_le (later listing listed sameListing missed) notBelow

omit [DecidableEq T] [DecidableEq D] in
theorem current_seen {id : T} {ordinal : Nat} {lastCalculated lastChanged : Option Nat}
    (fact : JoinFact server id ordinal (.reading (some lastCalculated) (some lastChanged)))
    (current : isCentroidUpToDate true lastCalculated lastChanged = .ok true)
    (decides : DecidesInTime server id ordinal
      (.reading (some lastCalculated) (some lastChanged))) :
    HeldSeen (server.held id) ordinal := by
  obtain ⟨stamp, isChange, later⟩ := fact.2 lastChanged rfl
  obtain ⟨calculated, isCalculated, reached⟩ := up_to_date_stamps current isChange
  simp only [DecidesInTime, if_pos current] at decides
  obtain ⟨listing, listed, sameId, sameStart, upTo, isHeld, notBelow⟩ :=
    decides calculated isCalculated
  subst sameId
  subst sameStart
  have sees := seen_of_start later reached listed
  exact ⟨upTo, isHeld, Nat.lt_of_lt_of_le sees notBelow⟩

omit [DecidableEq T] [DecidableEq D] in
theorem outdated_covers {id : T} {ordinal : Nat} {lastCalculated lastChanged : Option Nat}
    (outdated : isCentroidUpToDate true lastCalculated lastChanged = .ok false)
    (decides : DecidesInTime server id ordinal
      (.reading (some lastCalculated) (some lastChanged))) :
    ∀ attempt ∈ server.updateWorker.attempts, attempt.id = id →
      WillCover (server.saved id) ordinal attempt.stage := by
  have notCurrent : isCentroidUpToDate true lastCalculated lastChanged ≠ .ok true := by
    rw [outdated]
    exact nofun
  simp only [DecidesInTime, if_neg notCurrent] at decides
  exact decides

theorem joins_step (joined : server.Joined) (guarded : JoinsInTime server action)
    (transition : Transition server action next) : EachJoin (JoinFact next) next.joins := by
  have framed : EachJoin (JoinFact next) server.joins := by
    intro join member expected must
    refine join_fact_step joined.dated (joined.known join member expected must)
      (joined.joins join member expected must) ?_ ?_ transition
    · intro settles index upTo same found
      subst same
      exact (guarded.2 _ found join member rfl expected must).1 settles
    · intro reload awaits upTo other same found isHeld
      subst same
      exact (guarded.2 _ found join member rfl expected must).2 awaits other isHeld
  cases transition with
  | joinCentroid id =>
      apply framed.add
      intro expected member
      refine ⟨?_, ?_⟩
      · intro stamp isRead
        cases isRead
      · intro changed isRead
        cases isRead
  | readLastCalculated index id expects lastChanged found =>
      apply framed.set
      intro expected must
      have fact := framed.at found expected must
      refine ⟨?_, fact.2⟩
      intro stamp isRead
      exact joined.dated.calculations.stored id stamp (Option.some.inj isRead)
  | readLastDocumentChange index id expects lastCalculated found =>
      apply framed.set
      intro expected must
      have fact := framed.at found expected must
      refine ⟨fact.1, ?_⟩
      intro changed isRead
      cases isRead
      exact read_stamp_later joined found guarded must
  | answerCurrent index id expects lastCalculated lastChanged found current =>
      apply framed.set
      intro expected must
      exact current_seen (joined.joins.at found expected must) current
        (guarded.2 _ found expected must)
  | answerException index id expects lastCalculated lastChanged exception found =>
      exact framed.set fun _ _ => trivial
  | answerReloaded index id expects reload reloaded upTo found inserted =>
      apply framed.set
      intro expected must
      obtain ⟨_, stage, isReload, fact⟩ := joined.joins.at found expected must
      rw [inserted] at isReload
      cases isReload
      exact fact
  | joinUpdate index id expects lastCalculated lastChanged found outdated =>
      apply framed.set
      intro expected must
      refine ⟨callback_owed_of_join joined.callbacks _ id, ?_⟩
      have decides : DecidesInTime server id expected.2
          (.reading (some lastCalculated) (some lastChanged)) :=
        guarded.2 _ found expected must
      have covering : Covering server.saved server.updateWorker.attempts id expected.2 := by
        intro position other stage foundAttempt same
        exact outdated_covers outdated decides _ (List.mem_of_getElem? foundAttempt) same
      exact covering.append fun _ => trivial
  | reloadCentroid index id expects callback found invoked =>
      apply framed.set
      intro expected must
      obtain ⟨owed, _⟩ := joined.joins.at found expected must
      exact ⟨owed.places.invoked callback invoked rfl, .submitted, List.getElem?_concat_length,
        trivial⟩
  | returnJoin index id expects result found =>
      apply framed.set
      intro expected must
      have fact := joined.joins.at found expected must
      cases result with
      | ok recomputed => exact fact
      | error exception => trivial
  | _ => exact framed

theorem RelevanceServer.Joined.step (joined : server.Joined)
    (guarded : JoinsInTime server action) (transition : Transition server action next) :
    next.Joined where
  dated := joined.dated.step guarded.1 transition
  callbacks := callbacks_known_step joined.callbacks transition
  known := known_step joined transition
  joins := joins_step joined guarded transition

end Steps

section Listings

variable {server next : RelevanceServer Bytes Bytes} {action : ServerAction Bytes Bytes}

/-- The ids of joins have no colon. -/
structure ReadableJoins (server : RelevanceServer Bytes Bytes) : Prop where
  joined : server.Joined
  free : EachJoin (fun id _ _ => colon ∉ id) server.joins

theorem ReadableJoins.step (readable : ReadableJoins server) (guarded : ReadsInTime server action)
    (transition : Transition server action next) : ReadableJoins next where
  joined := readable.joined.step guarded.2 transition
  free := by
    apply each_join_step readable.free _ transition
    rintro id rfl expected _
    exact guarded.1

end Listings

end Relevanced.Server

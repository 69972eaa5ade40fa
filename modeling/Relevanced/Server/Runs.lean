import Relevanced.CentroidUpdate.Exclusion
import Relevanced.Server.Requests

/-!
# Listings and saved vectors

Runs of one centroid do not overlap, so the vectors saved for it are computed from
listings in the order the listings were made, and a saved vector is never replaced by
one that has seen fewer changes.
-/

namespace Relevanced.Server

open Foundation
open CentroidUpdate
open Persistence (Try ProtocolException)

set_option autoImplicit false

variable {T D : Type}

/-- What the progress of a run says about its centroid. -/
def RunFact (clock : Nat) (saved : T → Nat) (listings : List (Listing T)) (id : T) :
    Option RunProgress → Prop
  | none => True
  | some (.started start) => start ≤ clock
  | some (.listed start upTo) => saved id ≤ upTo ∧ ⟨id, start, upTo⟩ ∈ listings
  | some (.saved start upTo) => upTo ≤ saved id ∧ ⟨id, start, upTo⟩ ∈ listings

theorem run_fact_mono {clock later : Nat} {saved : T → Nat} {listings more : List (Listing T)}
    {id : T} {progress : Option RunProgress} (fact : RunFact clock saved listings id progress)
    (forward : clock ≤ later) (grows : listings ⊆ more) :
    RunFact later saved more id progress := by
  cases progress with
  | none => trivial
  | some reached =>
      cases reached with
      | started start => exact Nat.le_trans fact forward
      | listed start upTo => exact ⟨fact.1, grows fact.2⟩
      | saved start upTo => exact ⟨fact.1, grows fact.2⟩

/-- The listings made, the vectors saved and the runs in progress agree with each other. -/
structure RunsSound (worker : Worker T RunProgress) (clock : Nat)
    (history : T → List (Change D)) (saved : T → Nat) (listings : List (Listing T)) : Prop where
  exclusive : Exclusive worker
  runs : Each (fun id stage => RunFact clock saved listings id stage.progress) worker.attempts
  past : ∀ listing ∈ listings, listing.startTimestamp ≤ clock ∧
    listing.upTo ≤ (history listing.id).length
  bounded : ∀ id, saved id ≤ (history id).length

def RelevanceServer.Sound (server : RelevanceServer T D) : Prop :=
  RunsSound server.updateWorker server.clock server.history server.saved server.listings

theorem sound_initial : (RelevanceServer.initial : RelevanceServer T D).Sound where
  exclusive := exclusive_initial
  runs index id stage found := by cases found
  past listing member := by cases member
  bounded id := Nat.le_refl 0

variable {worker changed : Worker T RunProgress} {clock : Nat} {history : T → List (Change D)}
  {saved : T → Nat} {listings : List (Listing T)} {index : Nat} {id : T}
  {stage later : Stage RunProgress}

theorem RunsSound.grow (sound : RunsSound worker clock history saved listings) {now : Nat}
    (forward : clock ≤ now) {longer : T → List (Change D)}
    (grows : ∀ id, (history id).length ≤ (longer id).length) :
    RunsSound worker now longer saved listings where
  exclusive := sound.exclusive
  runs := sound.runs.mono fun _ _ fact => run_fact_mono fact forward (List.Subset.refl _)
  past listing member := by
    obtain ⟨started, listed⟩ := sound.past listing member
    exact ⟨Nat.le_trans started forward, Nat.le_trans listed (grows listing.id)⟩
  bounded id := Nat.le_trans (sound.bounded id) (grows id)

theorem RunsSound.update (sound : RunsSound worker clock history saved listings) (id : T) :
    RunsSound (worker.update id) clock history saved listings where
  exclusive := sound.exclusive.update id
  runs := sound.runs.append trivial
  past := sound.past
  bounded := sound.bounded

theorem RunsSound.joinUpdate [DecidableEq T]
    (sound : RunsSound worker clock history saved listings) (id : T) :
    RunsSound (worker.joinUpdate id) clock history saved listings where
  exclusive := sound.exclusive.joinUpdate id
  runs := sound.runs.append trivial
  past := sound.past
  bounded := sound.bounded

theorem RunsSound.stop (sound : RunsSound worker clock history saved listings) :
    RunsSound worker.stop clock history saved listings where
  exclusive := ⟨sound.exclusive.listed, sound.exclusive.alone⟩
  runs := sound.runs
  past := sound.past
  bounded := sound.bounded

theorem RunsSound.advance [DecidableEq T]
    (sound : RunsSound worker clock history saved listings)
    (found : worker.attempts[index]? = some ⟨id, stage⟩)
    (advanced : Advance worker index id stage changed) :
    RunsSound changed clock history saved listings where
  exclusive := sound.exclusive.advance found advanced
  runs := by
    obtain ⟨later, moved, _, noProgress⟩ := advance_attempts advanced
    rw [moved]
    apply sound.runs.set
    rw [noProgress]
    trivial
  past := sound.past
  bounded := sound.bounded

theorem RunsSound.move (sound : RunsSound worker clock history saved listings)
    (found : worker.attempts[index]? = some ⟨id, stage⟩)
    (holder : later.holding = true → stage.holding = true)
    (fact : RunFact clock saved listings id later.progress) :
    RunsSound (worker.moveTo index id later) clock history saved listings where
  exclusive := sound.exclusive.keep found rfl rfl holder
  runs := sound.runs.set fact
  past := sound.past
  bounded := sound.bounded

theorem RunsSound.list (sound : RunsSound worker clock history saved listings) {start : Nat}
    (found : worker.attempts[index]? = some ⟨id, .running (some (.started start))⟩) :
    RunsSound
      (worker.moveTo index id (.running (some (.listed start (history id).length)))) clock history
      saved (⟨id, start, (history id).length⟩ :: listings) where
  exclusive := sound.exclusive.keep found rfl rfl fun holds => holds
  runs := by
    have kept : Each (fun centroidId stage => RunFact clock saved
        (⟨id, start, (history id).length⟩ :: listings) centroidId stage.progress)
        worker.attempts :=
      sound.runs.mono fun _ _ fact =>
        run_fact_mono fact (Nat.le_refl _) (List.subset_cons_self _ _)
    apply kept.set
    exact ⟨sound.bounded id, List.mem_cons_self⟩
  past listing member := by
    rcases List.mem_cons.mp member with rfl | before
    · exact ⟨sound.runs index id _ found, Nat.le_refl _⟩
    · exact sound.past listing before
  bounded := sound.bounded

theorem RunsSound.save [DecidableEq T] (sound : RunsSound worker clock history saved listings)
    {start upTo : Nat}
    (found : worker.attempts[index]? = some ⟨id, .running (some (.listed start upTo))⟩) :
    RunsSound (worker.moveTo index id (.running (some (.saved start upTo)))) clock history
      (Function.update saved id upTo) listings where
  exclusive := sound.exclusive.keep found rfl rfl fun holds => holds
  runs := by
    intro other otherId otherStage foundOther
    rcases found_set foundOther with ⟨_, same⟩ | ⟨different, before⟩
    · cases same
      refine ⟨?_, (sound.runs index id _ found).2⟩
      rw [Function.update_self]
    · cases known : otherStage.progress with
      | none => trivial
      | some progress =>
          have otherCentroid : otherId ≠ id := by
            intro same
            subst same
            exact different (sound.exclusive.alone other index otherId otherStage _ before found
              (holding_of_progress known) rfl)
          have fact : RunFact clock saved listings otherId otherStage.progress :=
            sound.runs other otherId otherStage before
          rw [known] at fact
          have unchanged : Function.update saved id upTo otherId = saved otherId :=
            Function.update_of_ne otherCentroid _ _
          cases progress with
          | started began => exact fact
          | listed began seen =>
              refine ⟨?_, fact.2⟩
              rw [unchanged]
              exact fact.1
          | saved began seen =>
              refine ⟨?_, fact.2⟩
              rw [unchanged]
              exact fact.1
  past := sound.past
  bounded other := by
    by_cases same : other = id
    · subst same
      rw [Function.update_self]
      exact (sound.past _ (sound.runs index other _ found).2).2
    · rw [Function.update_of_ne same]
      exact sound.bounded other

section Steps

variable [DecidableEq T] [DecidableEq D] {server next : RelevanceServer T D}
  {action : ServerAction T D}

theorem RelevanceServer.Sound.step (sound : server.Sound)
    (transition : Transition server action next) : next.Sound := by
  cases transition with
  | commit id change ignoring absent =>
      exact RunsSound.grow sound (Nat.le_refl _) (length_le_commit server.history id change)
  | tick seconds => exact RunsSound.grow sound (Nat.le_add_right _ _) fun _ => Nat.le_refl _
  | call index time queue id stepped calls => exact RunsSound.update sound id
  | update id => exact RunsSound.update sound id
  | proceed index id stage worker reloads found advanced echoed =>
      exact RunsSound.advance sound found advanced
  | readClock index id found =>
      exact RunsSound.move sound found (fun holds => holds) (Nat.le_refl _)
  | listMembers index id start found => exact RunsSound.list sound found
  | saveCentroid index id start upTo found => exact RunsSound.save sound found
  | finishRun index id start upTo found => exact RunsSound.move sound found (fun _ => rfl) trivial
  | returnException index id progress exception found =>
      exact RunsSound.move sound found (fun _ => rfl) trivial
  | throwException index id progress found =>
      exact RunsSound.move sound found (fun _ => rfl) trivial
  | joinUpdate index id expects lastCalculated lastChanged found outdated =>
      exact RunsSound.joinUpdate sound id
  | stop => exact RunsSound.stop sound
  | _ => exact sound

/-- A saved vector is only ever replaced by one that has seen at least as many changes. -/
theorem saved_mono (sound : server.Sound) (transition : Transition server action next) (id : T) :
    server.saved id ≤ next.saved id := by
  cases transition with
  | saveCentroid index saving start upTo found =>
      have newer := (sound.runs index saving _ found).1
      by_cases same : id = saving
      · subst same
        change server.saved id ≤ Function.update server.saved id upTo id
        rw [Function.update_self]
        exact newer
      · change server.saved id ≤ Function.update server.saved saving upTo id
        rw [Function.update_of_ne same]
  | _ => exact Nat.le_refl _

theorem listings_subset (transition : Transition server action next) :
    server.listings ⊆ next.listings := by
  cases transition with
  | listMembers index id start found => exact List.subset_cons_self _ _
  | _ => exact List.Subset.refl _

theorem history_grows (transition : Transition server action next) (id : T) :
    (server.history id).length ≤ (next.history id).length := by
  cases transition with
  | commit changed change ignoring absent =>
      exact length_le_commit server.history changed change id
  | _ => exact Nat.le_refl _

end Steps

end Relevanced.Server

import Relevanced.Server.Transitions

/-!
# Requests and the changes they have committed

Every member change in the history of a centroid was committed by a request, which is
still known with the place of its change in that history.
-/

namespace Relevanced.Server

set_option autoImplicit false

/-- The request has changed the members, and is not just a confirmed addition. -/
def RequestStage.committing : RequestStage → Bool
  | .acknowledged none _ => false
  | _ => true

def RequestStage.inFlight : RequestStage → Bool
  | .acknowledged _ _ => false
  | _ => true

def RequestStage.stamp : RequestStage → Option Nat
  | .committed => none
  | .stamped stamp => some stamp
  | .acknowledged stamp _ => stamp

theorem stamped_of_settled {stage : RequestStage} (committing : stage.committing = true)
    (settled : stage.inFlight = false) : ∃ stamp, stage.stamp = some stamp := by
  cases stage with
  | committed => cases settled
  | stamped stamp => cases settled
  | acknowledged stamp written =>
      cases stamp with
      | none => cases committing
      | some stamp => exact ⟨stamp, rfl⟩

section Lists

variable {A : Type} {list : List A} {index : Nat} {old new member : A}

theorem mem_set_or_eq (found : list[index]? = some old) (present : member ∈ list) :
    member = old ∨ member ∈ list.set index new := by
  obtain ⟨position, at_position⟩ := List.mem_iff_getElem?.mp present
  by_cases same : position = index
  · rw [same, found] at at_position
    exact Or.inl (Option.some.inj at_position).symm
  · right
    apply List.mem_iff_getElem?.mpr
    refine ⟨position, ?_⟩
    rw [List.getElem?_set_ne (Ne.symm same)]
    exact at_position

theorem mem_set_new (found : list[index]? = some old) : new ∈ list.set index new := by
  have within : index < list.length := (List.getElem?_eq_some_iff.mp found).1
  exact List.mem_iff_getElem?.mpr ⟨index, List.getElem?_set_self within⟩

theorem mem_eraseIdx_or_eq (found : list[index]? = some old) (present : member ∈ list) :
    member = old ∨ member ∈ list.eraseIdx index := by
  obtain ⟨position, at_position⟩ := List.mem_iff_getElem?.mp present
  by_cases same : position = index
  · rw [same, found] at at_position
    exact Or.inl (Option.some.inj at_position).symm
  · exact Or.inr (List.mem_eraseIdx_iff_getElem?.mpr ⟨position, same, at_position⟩)

end Lists

section Requested

variable {T D : Type}

/-- The history of every centroid is made of the changes of known requests. -/
structure ChangesRequested (history : T → List (Change D)) (requests : List (Request T D)) :
    Prop where
  requested : ∀ id ordinal, ordinal < (history id).length →
    ∃ request ∈ requests, request.id = id ∧ request.ordinal = ordinal ∧
      request.stage.committing = true
  past : ∀ request ∈ requests, request.ordinal < (history request.id).length

theorem changes_requested_initial :
    ChangesRequested (RelevanceServer.initial : RelevanceServer T D).history [] where
  requested id ordinal within := by cases within
  past request member := by cases member

variable {history : T → List (Change D)} {requests : List (Request T D)} {index : Nat} {id : T}

theorem ChangesRequested.add (requested : ChangesRequested history requests)
    (request : Request T D) (past : request.ordinal < (history request.id).length) :
    ChangesRequested history (requests ++ [request]) where
  requested id ordinal within := by
    obtain ⟨earlier, member, facts⟩ := requested.requested id ordinal within
    exact ⟨earlier, List.mem_append_left _ member, facts⟩
  past other member := by
    rcases List.mem_append.mp member with before | new
    · exact requested.past other before
    · cases List.mem_singleton.mp new
      exact past

theorem ChangesRequested.set (requested : ChangesRequested history requests) {change : Change D}
    {ordinal : Nat} {stage later : RequestStage}
    (found : requests[index]? = some ⟨id, change, ordinal, stage⟩)
    (committing : later.committing = true) :
    ChangesRequested history (requests.set index ⟨id, change, ordinal, later⟩) where
  requested wanted position within := by
    obtain ⟨request, member, sameId, sameOrdinal, committed⟩ :=
      requested.requested wanted position within
    rcases mem_set_or_eq found member with same | kept
    · subst same
      exact ⟨_, mem_set_new found, sameId, sameOrdinal, committing⟩
    · exact ⟨request, kept, sameId, sameOrdinal, committed⟩
  past request member := by
    rcases List.mem_or_eq_of_mem_set member with before | same
    · exact requested.past request before
    · have known : ordinal < (history id).length := requested.past _ (List.mem_of_getElem? found)
      subst same
      exact known

variable [DecidableEq T]

theorem length_le_commit (history : T → List (Change D)) (id : T) (change : Change D) (other : T) :
    (history other).length ≤
      (Function.update history id (change :: history id) other).length := by
  by_cases same : other = id
  · subst same
    rw [Function.update_self]
    exact Nat.le_succ _
  · rw [Function.update_of_ne same]

theorem ChangesRequested.commit (requested : ChangesRequested history requests) (id : T)
    (change : Change D) :
    ChangesRequested (Function.update history id (change :: history id))
      (requests ++ [⟨id, change, (history id).length, .committed⟩]) where
  requested other ordinal within := by
    by_cases known : ordinal < (history other).length
    · obtain ⟨request, member, facts⟩ := requested.requested other ordinal known
      exact ⟨request, List.mem_append_left _ member, facts⟩
    · by_cases same : other = id
      · subst same
        rw [Function.update_self, List.length_cons] at within
        have last : ordinal = (history other).length := by omega
        exact ⟨_, List.mem_append_right _ (List.mem_singleton_self _), rfl, last.symm, rfl⟩
      · rw [Function.update_of_ne same] at within
        exact absurd within known
  past request member := by
    rcases List.mem_append.mp member with before | new
    · exact Nat.lt_of_lt_of_le (requested.past request before)
        (length_le_commit history id change _)
    · cases List.mem_singleton.mp new
      rw [Function.update_self]
      exact Nat.lt_succ_self _

end Requested

section EachStamp

variable {T D : Type} {Q Weaker : T → Nat → Nat → Prop} {requests : List (Request T D)}
    {index : Nat}
  {id : T}

/-- The property holds of every stamp a request has taken, with the centroid and the place of
the change it was taken for. -/
def EachStamp (Q : T → Nat → Nat → Prop) (requests : List (Request T D)) : Prop :=
  ∀ request ∈ requests, ∀ stamp, request.stage.stamp = some stamp →
    Q request.id request.ordinal stamp

theorem EachStamp.mono (each : EachStamp Q requests)
    (weaker : ∀ request ∈ requests, ∀ stamp, Q request.id request.ordinal stamp →
      Weaker request.id request.ordinal stamp) : EachStamp Weaker requests := by
  intro request member stamp stamped
  exact weaker request member stamp (each request member stamp stamped)

theorem EachStamp.add (each : EachStamp Q requests) (request : Request T D)
    (unstamped : request.stage.stamp = none) : EachStamp Q (requests ++ [request]) := by
  intro other member stamp stamped
  rcases List.mem_append.mp member with before | new
  · exact each other before stamp stamped
  · cases List.mem_singleton.mp new
    rw [unstamped] at stamped
    cases stamped

theorem EachStamp.set (each : EachStamp Q requests) {change : Change D} {ordinal : Nat}
    {later : RequestStage} (new : ∀ stamp, later.stamp = some stamp → Q id ordinal stamp) :
    EachStamp Q (requests.set index ⟨id, change, ordinal, later⟩) := by
  intro request member stamp stamped
  rcases List.mem_or_eq_of_mem_set member with before | same
  · exact each request before stamp stamped
  · subst same
    exact new stamp stamped

end EachStamp

section Steps

variable {T D : Type} [DecidableEq D]

theorem added_at_lt {docId : D} {history : List (Change D)} {ordinal : Nat}
    (added : addedAt docId history = some ordinal) : ordinal < history.length := by
  induction history with
  | nil => cases added
  | cons change earlier ih =>
      cases change with
      | add other =>
          rw [addedAt] at added
          split at added
          · cases added
            exact Nat.lt_succ_self _
          · exact Nat.lt_succ_of_lt (ih added)
      | remove other =>
          rw [addedAt] at added
          split at added
          · cases added
          · exact Nat.lt_succ_of_lt (ih added)

variable [DecidableEq T] {server next : RelevanceServer T D} {action : ServerAction T D}

theorem changes_requested_step (requested : ChangesRequested server.history server.requests)
    (transition : Transition server action next) :
    ChangesRequested next.history next.requests := by
  cases transition with
  | commit id change ignoring absent => exact requested.commit id change
  | confirm id docId ordinal present => exact requested.add _ (added_at_lt present)
  | stamp index id change ordinal found => exact requested.set found rfl
  | trigger index time id change ordinal stamp queue found running stepped =>
      exact requested.set found rfl
  | refuse index time id change ordinal stamp found stopped => exact requested.set found rfl
  | _ => exact requested

/-- A stamp is taken in one step only, and it is the second the clock shows. -/
theorem each_stamp_step {Q : T → Nat → Nat → Prop} (each : EachStamp Q server.requests)
    (transition : Transition server action next)
    (new : ∀ index id change ordinal, action = .stampRequest index →
      server.requests[index]? = some ⟨id, change, ordinal, .committed⟩ →
        Q id ordinal server.clock) :
    EachStamp Q next.requests := by
  cases transition with
  | commit id change ignoring absent => exact each.add _ rfl
  | confirm id docId ordinal present => exact each.add _ rfl
  | stamp index id change ordinal found =>
      apply each.set
      intro stamp taken
      cases taken
      exact new index id change ordinal rfl found
  | trigger index time id change ordinal stamp queue found running stepped =>
      apply each.set
      intro same taken
      exact each _ (List.mem_of_getElem? found) same taken
  | refuse index time id change ordinal stamp found stopped =>
      apply each.set
      intro same taken
      exact each _ (List.mem_of_getElem? found) same taken
  | _ => exact each

end Steps

end Relevanced.Server

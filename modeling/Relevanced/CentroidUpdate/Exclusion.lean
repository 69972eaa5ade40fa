import Relevanced.CentroidUpdate.CentroidUpdateWorker
import Relevanced.Foundation.Entries

/-!
# One run for a centroid at a time

`updatingSet_` contains the id of every call of `update` between its test of the set
and the erasure after its delay, and no two such calls have the same id.
-/

namespace Relevanced.CentroidUpdate

open Foundation
open Persistence (Try)

set_option autoImplicit false

section Each

variable {T R : Type} {P Q : T → Stage R → Prop} {attempts : List (Attempt T R)} {index : Nat}
  {id : T} {stage later : Stage R}

/-- Every call of `update` is for an id and at a stage with the property. -/
def Each (P : T → Stage R → Prop) (attempts : List (Attempt T R)) : Prop :=
  ∀ (index : Nat) (id : T) (stage : Stage R), attempts[index]? = some ⟨id, stage⟩ → P id stage

theorem Each.mono (each : Each P attempts) (implies : ∀ id stage, P id stage → Q id stage) :
    Each Q attempts := by
  intro index id stage found
  exact implies id stage (each index id stage found)

theorem Each.set (each : Each P attempts) (moved : P id later) :
    Each P (attempts.set index ⟨id, later⟩) := by
  intro other otherId otherStage found
  rcases found_set found with ⟨_, same⟩ | ⟨_, before⟩
  · cases same
    exact moved
  · exact each other otherId otherStage before

theorem Each.append (each : Each P attempts) (added : P id stage) :
    Each P (attempts ++ [⟨id, stage⟩]) := by
  intro other otherId otherStage found
  rcases found_append found with before | ⟨_, same⟩
  · exact each other otherId otherStage before
  · cases same
    exact added

end Each

section Exclusion

variable {T R : Type}

/-- The calls that hold an id are listed in `updatingSet_`, one for an id. -/
structure Exclusive (worker : Worker T R) : Prop where
  listed : Each (fun id stage => stage.holding = true → id ∈ worker.updatingSet) worker.attempts
  alone : ∀ (first second : Nat) (id : T) (stage other : Stage R),
    worker.attempts[first]? = some ⟨id, stage⟩ → worker.attempts[second]? = some ⟨id, other⟩ →
    stage.holding = true → other.holding = true → first = second

theorem exclusive_initial : Exclusive (Worker.initial : Worker T R) where
  listed index id stage found := by cases found
  alone first second id stage other found := by cases found

variable {worker changed next : Worker T R} {index : Nat} {id : T} {stage later : Stage R}

/-- A call moves: it may take a free id, keep its own, or let it go. -/
theorem Exclusive.move (exclusive : Exclusive worker)
    (found : worker.attempts[index]? = some ⟨id, stage⟩)
    (sameAttempts : changed.attempts = worker.attempts)
    (entitled : later.holding = true →
      id ∈ changed.updatingSet ∧ (stage.holding = true ∨ id ∉ worker.updatingSet))
    (kept : ∀ other ∈ worker.updatingSet,
      other ∈ changed.updatingSet ∨ (other = id ∧ stage.holding = true)) :
    Exclusive (changed.moveTo index id later) := by
  -- no other call holds the id of a call that now holds it
  have sole : ∀ (other : Nat) (otherStage : Stage R), later.holding = true → other ≠ index →
      worker.attempts[other]? = some ⟨id, otherStage⟩ → otherStage.holding = false := by
    intro other otherStage holds different foundOther
    cases otherHolds : otherStage.holding with
    | false => rfl
    | true =>
        rcases (entitled holds).2 with held | free
        · exact absurd (exclusive.alone other index id otherStage stage foundOther found otherHolds
            held) different
        · exact absurd (exclusive.listed other id otherStage foundOther otherHolds) free
  have listed : Each (fun id stage => stage.holding = true → id ∈ changed.updatingSet)
      (worker.attempts.set index ⟨id, later⟩) := by
    intro other otherId otherStage foundOther holds
    rcases found_set foundOther with ⟨_, same⟩ | ⟨different, before⟩
    · cases same
      exact (entitled holds).1
    · rcases kept otherId (exclusive.listed other otherId otherStage before holds) with
        stays | ⟨same, held⟩
      · exact stays
      · subst same
        exact absurd (exclusive.alone other index otherId otherStage stage before found holds held)
          different
  refine ⟨?_, ?_⟩
  · unfold Worker.moveTo
    rw [sameAttempts]
    exact listed
  · unfold Worker.moveTo
    rw [sameAttempts]
    intro first second heldId firstStage secondStage foundFirst foundSecond firstHolds secondHolds
    rcases found_set foundFirst with ⟨atFirst, sameFirst⟩ | ⟨otherFirst, beforeFirst⟩
    · cases sameFirst
      rcases found_set foundSecond with ⟨atSecond, _⟩ | ⟨otherSecond, beforeSecond⟩
      · exact atFirst.trans atSecond.symm
      · rw [sole second secondStage firstHolds otherSecond beforeSecond] at secondHolds
        cases secondHolds
    · rcases found_set foundSecond with ⟨atSecond, sameSecond⟩ | ⟨_, beforeSecond⟩
      · cases sameSecond
        rw [sole first firstStage secondHolds otherFirst beforeFirst] at firstHolds
        cases firstHolds
      · exact exclusive.alone first second heldId firstStage secondStage beforeFirst beforeSecond
          firstHolds secondHolds

theorem Exclusive.keep (exclusive : Exclusive worker)
    (found : worker.attempts[index]? = some ⟨id, stage⟩)
    (sameAttempts : changed.attempts = worker.attempts)
    (sameSet : changed.updatingSet = worker.updatingSet)
    (holder : later.holding = true → stage.holding = true) :
    Exclusive (changed.moveTo index id later) := by
  apply exclusive.move found sameAttempts
  · intro holds
    rw [sameSet]
    exact ⟨exclusive.listed index id stage found (holder holds), Or.inl (holder holds)⟩
  · intro other member
    rw [sameSet]
    exact Or.inl member

theorem Exclusive.update (exclusive : Exclusive worker) (id : T) :
    Exclusive (worker.update id) := by
  refine ⟨exclusive.listed.append (fun holds => by cases holds), ?_⟩
  intro first second heldId stage other foundFirst foundSecond holds otherHolds
  rcases found_append foundFirst with beforeFirst | ⟨_, sameFirst⟩
  · rcases found_append foundSecond with beforeSecond | ⟨_, sameSecond⟩
    · exact exclusive.alone first second heldId stage other beforeFirst beforeSecond holds
        otherHolds
    · cases sameSecond
      cases otherHolds
  · cases sameFirst
    cases holds

theorem Exclusive.joinUpdate [DecidableEq T] (exclusive : Exclusive worker) (id : T) :
    Exclusive (worker.joinUpdate id) := by
  have registered : Exclusive (worker.onUpdateSpecificOnce id) :=
    ⟨exclusive.listed, exclusive.alone⟩
  exact registered.update id

theorem Exclusive.advance [DecidableEq T] (exclusive : Exclusive worker)
    (found : worker.attempts[index]? = some ⟨id, stage⟩)
    (advanced : Advance worker index id stage next) : Exclusive next := by
  cases advanced with
  | guard free =>
      refine exclusive.move found ?_ ?_ ?_
      · rfl
      · intro _
        exact ⟨Finset.mem_insert_self id _, Or.inr free⟩
      · intro other member
        exact Or.inl (Finset.mem_insert_of_mem member)
  | skip held => exact exclusive.keep found rfl rfl fun holds => by cases holds
  | release result =>
      refine exclusive.move found ?_ ?_ ?_
      · rfl
      · intro holds
        cases holds
      · intro other member
        by_cases same : other = id
        · exact Or.inr ⟨same, rfl⟩
        · exact Or.inl (Finset.mem_erase.mpr ⟨same, member⟩)
  | echo value => exact exclusive.keep found rfl rfl fun holds => by cases holds
  | collect result => exact exclusive.keep found rfl rfl fun holds => by cases holds
  | invoke callback rest result => exact exclusive.keep found rfl rfl fun holds => by cases holds
  | quiet stage later numInProgress moves =>
      exact exclusive.keep found rfl rfl moves.holding_of_later

end Exclusion

end Relevanced.CentroidUpdate

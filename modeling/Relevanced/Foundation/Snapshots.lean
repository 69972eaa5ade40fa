import Relevanced.Foundation.Linearization

/-!
# Snapshots

A group of calls that change nothing, in a history that can be linearized. Where every call
that changes something is over before the group is made, or is made when the group is over,
the whole group is answered from one state.
-/

namespace Foundation

set_option autoImplicit false

variable {σ Op Result : Type} {object : SequentialObject σ Op Result} {start : σ}

namespace SequentialObject

def Reads (object : SequentialObject σ Op Result) (op : Op) : Prop :=
  ∀ state, (object.apply op state).2 = state

theorem run_of_reads {outcomes : List (Op × Result)}
    (reading : ∀ outcome ∈ outcomes, object.Reads outcome.1) (state : σ) :
    object.run outcomes state = state := by
  induction outcomes with
  | nil => rfl
  | cons outcome rest ih =>
      obtain ⟨first, later⟩ := List.forall_mem_cons.mp reading
      rw [run, List.foldl_cons, first state]
      exact ih later

theorem answer_of_legal {before behind : List (Op × Result)} {outcome : Op × Result} {state : σ}
    (legal : object.Legal (before ++ outcome :: behind) state) :
    outcome.2 = (object.apply outcome.1 (object.run before state)).1 := by
  rw [legal_append] at legal
  exact legal.2.1.symm

end SequentialObject

/-- Calls of the history that have returned and change nothing. -/
def ReadGroup (object : SequentialObject σ Op Result) (history : List (CallRecord Op Result))
    (group : List Nat) : Prop :=
  ∀ index ∈ group, ∃ record, history[index]? = some record ∧ object.Reads record.op ∧
    ∃ time result, record.returned = some (time, result)

def OverBefore (history : List (CallRecord Op Result)) (group : List Nat)
    (call : CallRecord Op Result) : Prop :=
  ∃ time result, call.returned = some (time, result) ∧
    ∀ index ∈ group, ∀ read, history[index]? = some read → time < read.invoked

def MadeAfter (history : List (CallRecord Op Result)) (group : List Nat)
    (call : CallRecord Op Result) : Prop :=
  ∀ index ∈ group, ∀ read, history[index]? = some read →
    ∀ time result, read.returned = some (time, result) → time < call.invoked

def Undisturbed (object : SequentialObject σ Op Result) (history : List (CallRecord Op Result))
    (group : List Nat) : Prop :=
  ∀ (index : Nat) (call : CallRecord Op Result), history[index]? = some call →
    object.Reads call.op ∨ OverBefore history group call ∨ MadeAfter history group call

open SequentialObject

namespace Linearizes

variable {history : List (CallRecord Op Result)} {order : List (Nat × Op × Result)}
  {group : List Nat}

theorem not_after_group (linearizes : Linearizes object start history order)
    {before between behind : List (Nat × Op × Result)} {read entry : Nat × Op × Result}
    (split : order = before ++ read :: (between ++ entry :: behind)) (isRead : read.1 ∈ group)
    {call : CallRecord Op Result} (known : history[entry.1]? = some call) :
    ¬ OverBefore history group call := by
  rintro ⟨time, result, returned, earlier⟩
  have realTime := linearizes.realTime
  have inOrder : read ∈ order := by simp [split]
  obtain ⟨record, readKnown, _⟩ := linearizes.called read inOrder
  rw [split] at realTime
  have afterRead := (List.pairwise_cons.mp (List.pairwise_append.mp realTime).2.1).1
  have ordered := afterRead entry (List.mem_append_right _ List.mem_cons_self) record call readKnown
    known time result returned
  exact absurd (earlier read.1 isRead record readKnown) (Nat.not_lt.mpr ordered)

theorem not_before_group (linearizes : Linearizes object start history order)
    (reads : ReadGroup object history group)
    {before between behind : List (Nat × Op × Result)} {read entry : Nat × Op × Result}
    (split : order = before ++ entry :: (between ++ read :: behind)) (isRead : read.1 ∈ group)
    {call : CallRecord Op Result} (known : history[entry.1]? = some call) :
    ¬ MadeAfter history group call := by
  intro later
  have realTime := linearizes.realTime
  obtain ⟨record, readKnown, _, time, result, returned⟩ := reads read.1 isRead
  rw [split] at realTime
  have afterEntry := (List.pairwise_cons.mp (List.pairwise_append.mp realTime).2.1).1
  have ordered := afterEntry read (List.mem_append_right _ List.mem_cons_self) call record known
    readKnown time result returned
  exact absurd (later read.1 isRead record readKnown time result returned) (Nat.not_lt.mpr ordered)

/-- Between two calls of the group there is none that changes anything. -/
theorem reads_between (linearizes : Linearizes object start history order)
    (reads : ReadGroup object history group) (undisturbed : Undisturbed object history group)
    {before between behind : List (Nat × Op × Result)} {first second : Nat × Op × Result}
    (split : order = before ++ first :: (between ++ second :: behind)) (isFirst : first.1 ∈ group)
    (isSecond : second.1 ∈ group) : ∀ entry ∈ between, object.Reads entry.2.1 := by
  intro entry member
  obtain ⟨left, right, rfl⟩ := List.append_of_mem member
  have inOrder : entry ∈ order := by simp [split]
  obtain ⟨call, known, sameOp⟩ := linearizes.called entry inOrder
  rw [← sameOp]
  rcases undisturbed entry.1 call known with reading | isOver | later
  · exact reading
  · rw [List.append_assoc, List.cons_append] at split
    exact absurd isOver (linearizes.not_after_group split isFirst known)
  · have regrouped : order = (before ++ first :: left) ++ entry :: (right ++ second :: behind) := by
      rw [split]
      simp
    exact absurd later (linearizes.not_before_group reads regrouped isSecond known)

theorem first_of_group (linearizes : Linearizes object start history order)
    (reads : ReadGroup object history group) (nonempty : group ≠ []) :
    ∃ before first behind, order = before ++ first :: behind ∧ first.1 ∈ group ∧
      ∀ entry ∈ before, entry.1 ∉ group := by
  obtain ⟨index, inGroup⟩ := List.exists_mem_of_ne_nil group nonempty
  obtain ⟨record, known, _, time, result, returned⟩ := reads index inGroup
  have placed := linearizes.complete index record time result known returned
  cases searched : order.find? fun entry => entry.1 ∈ group with
  | none =>
      have absent := List.find?_eq_none.mp searched _ placed
      exact absurd inGroup (by simpa using absent)
  | some first =>
      obtain ⟨isFirst, before, behind, split, earlier⟩ := List.find?_eq_some_iff_append.mp searched
      refine ⟨before, first, behind, split, by simpa using isFirst, ?_⟩
      intro entry member
      simpa using earlier entry member

/-- An undisturbed group is answered from one state. It is left by calls among which those that
change anything were over before. -/
theorem snapshot (linearizes : Linearizes object start history order)
    (reads : ReadGroup object history group) (undisturbed : Undisturbed object history group)
    (nonempty : group ≠ []) :
    ∃ before behind, order = before ++ behind ∧
      (∀ index ∈ group, ∀ record, history[index]? = some record →
        ∀ time result, record.returned = some (time, result) →
          result = (object.apply record.op (object.run (before.map Prod.snd) start)).1) ∧
      ∀ index record, history[index]? = some record → ¬ object.Reads record.op →
        ((∃ entry ∈ before, entry.1 = index) ↔ OverBefore history group record) := by
  obtain ⟨before, first, behind, split, isFirst, earlier⟩ :=
    linearizes.first_of_group reads nonempty
  have legal := linearizes.legal
  refine ⟨before, first :: behind, split, ?_, ?_⟩
  · intro index inGroup record known time result returned
    have placed := linearizes.complete index record time result known returned
    rw [split] at placed
    rcases List.mem_append.mp placed with isBefore | rest
    · exact absurd inGroup (earlier _ isBefore)
    · rcases List.mem_cons.mp rest with rfl | isBehind
      · rw [split, List.map_append, List.map_cons] at legal
        exact answer_of_legal legal
      · obtain ⟨between, later, rfl⟩ := List.append_of_mem isBehind
        have unchanged := linearizes.reads_between reads undisturbed split isFirst inGroup
        have firstReads : object.Reads first.2.1 := by
          obtain ⟨firstRecord, firstKnown, reading, _⟩ := reads first.1 isFirst
          obtain ⟨sameRecord, alsoKnown, sameOp⟩ := linearizes.called first (by simp [split])
          rw [firstKnown] at alsoKnown
          cases alsoKnown
          rw [← sameOp]
          exact reading
        have skipped : ∀ outcome ∈ (first :: between).map Prod.snd, object.Reads outcome.1 := by
          rw [List.forall_mem_map]
          exact List.forall_mem_cons.mpr ⟨firstReads, unchanged⟩
        have regrouped : order.map Prod.snd = (before.map Prod.snd ++
            (first :: between).map Prod.snd) ++ (record.op, result) :: later.map Prod.snd := by
          rw [split]
          simp
        rw [regrouped] at legal
        have answer := answer_of_legal legal
        rw [run_append, run_of_reads skipped] at answer
        exact answer
  · intro index record known changes
    constructor
    · rintro ⟨entry, isBefore, rfl⟩
      obtain ⟨left, right, rfl⟩ := List.append_of_mem isBefore
      have regrouped : order = left ++ entry :: (right ++ first :: behind) := by
        rw [split, List.append_assoc, List.cons_append]
      rcases undisturbed entry.1 record known with reading | isOver | later
      · exact absurd reading changes
      · exact isOver
      · exact absurd later (linearizes.not_before_group reads regrouped isFirst known)
    · intro isOver
      obtain ⟨time, result, returned, _⟩ := id isOver
      have placed := linearizes.complete index record time result known returned
      rw [split] at placed
      rcases List.mem_append.mp placed with isBefore | rest
      · exact ⟨_, isBefore, rfl⟩
      · rcases List.mem_cons.mp rest with same | isBehind
        · obtain ⟨firstRecord, firstKnown, reading, _⟩ := reads first.1 isFirst
          rw [← same, known] at firstKnown
          cases firstKnown
          exact absurd reading changes
        · obtain ⟨between, later, rfl⟩ := List.append_of_mem isBehind
          exact absurd isOver (linearizes.not_after_group split isFirst known)

end Linearizes

end Foundation

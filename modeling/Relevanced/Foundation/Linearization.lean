import Mathlib.Data.List.Nodup

/-!
# Linearization

A history of concurrent calls on one object is linearizable when its calls can be put in
an order that agrees with real time and in which the sequential object gives the same
results. An order is built while a run goes on: a call is put at the end when it takes
effect, or right before an effect that makes up for it.
-/

namespace Foundation

set_option autoImplicit false

/-- What each operation answers and how it changes the object when no other one is under way. -/
structure SequentialObject (σ Op Result : Type) where
  apply : Op → σ → Result × σ

/-- One call as its caller knows it: when it was made, and when it returned with which result. -/
structure CallRecord (Op Result : Type) where
  op : Op
  invoked : Nat
  returned : Option (Nat × Result)

/-- The operations one after another, each with the result that goes with it. -/
def SequentialObject.Legal {σ Op Result : Type} (object : SequentialObject σ Op Result) :
    List (Op × Result) → σ → Prop
  | [], _ => True
  | (op, result) :: rest, state =>
      (object.apply op state).1 = result ∧ object.Legal rest (object.apply op state).2

/-- An order of calls, each known by its place in the history, that explains the history. -/
structure Linearizes {σ Op Result : Type} (object : SequentialObject σ Op Result) (start : σ)
    (history : List (CallRecord Op Result)) (order : List (Nat × Op × Result)) : Prop where
  legal : object.Legal (order.map Prod.snd) start
  once : (order.map Prod.fst).Nodup
  called : ∀ entry ∈ order, ∃ record, history[entry.1]? = some record ∧ record.op = entry.2.1
  complete : ∀ index record time result, history[index]? = some record →
    record.returned = some (time, result) → (index, record.op, result) ∈ order
  realTime : order.Pairwise fun earlier later => ∀ first second, history[earlier.1]? = some first →
    history[later.1]? = some second → ∀ time result, second.returned = some (time, result) →
      first.invoked ≤ time

def Linearizable {σ Op Result : Type} (object : SequentialObject σ Op Result) (start : σ)
    (history : List (CallRecord Op Result)) : Prop :=
  ∃ order, Linearizes object start history order

theorem Linearizes.split {σ Op Result : Type} {object : SequentialObject σ Op Result} {start : σ}
    {history : List (CallRecord Op Result)} {order : List (Nat × Op × Result)}
    (linearizes : Linearizes object start history order) {earlier later : Nat × Op × Result}
    {first second : CallRecord Op Result} {time : Nat} {result : Result}
    (isEarlier : earlier ∈ order) (isLater : later ∈ order)
    (firstKnown : history[earlier.1]? = some first) (secondKnown : history[later.1]? = some second)
    (returned : first.returned = some (time, result)) (apart : time < second.invoked)
    (different : earlier ≠ later) :
    ∃ before middle behind, order = before ++ earlier :: (middle ++ later :: behind) := by
  obtain ⟨ahead, behind, split⟩ := List.append_of_mem isLater
  have realTime := linearizes.realTime
  rw [split] at isEarlier realTime
  rcases List.mem_append.mp isEarlier with isAhead | isBehind
  · obtain ⟨before, middle, aheadSplit⟩ := List.append_of_mem isAhead
    exact ⟨before, middle, behind, by rw [split, aheadSplit, List.append_assoc, List.cons_append]⟩
  · rcases List.mem_cons.mp isBehind with same | after
    · exact absurd same different
    · have turned := (List.pairwise_cons.mp (List.pairwise_append.mp realTime).2.1).1 earlier after
      have ordered := turned second first secondKnown firstKnown time result returned
      exact absurd apart (Nat.not_lt.mpr ordered)

/-- A call that has taken effect, with the moment it was put in the order. The effects that other
calls may be put before bear a mark. -/
structure Effect (Op Result M : Type) where
  call : Nat
  op : Op
  result : Result
  invoked : Nat
  placed : Nat
  mark : Option M

namespace Effect

variable {Op Result M : Type}

/-- The earlier effect was called before the later one took effect, and nothing is put behind a
marked effect that was there before it. -/
def Before (earlier later : Effect Op Result M) : Prop :=
  earlier.invoked ≤ later.placed ∧ (earlier.mark.isSome → earlier.placed ≤ later.placed)

def outcome (effect : Effect Op Result M) : Op × Result := (effect.op, effect.result)

def entry (effect : Effect Op Result M) : Nat × Op × Result := (effect.call, effect.outcome)

end Effect

namespace SequentialObject

variable {σ Op Result M : Type} (object : SequentialObject σ Op Result)

def run (outcomes : List (Op × Result)) (start : σ) : σ :=
  outcomes.foldl (fun state outcome => (object.apply outcome.1 state).2) start

theorem run_append (first second : List (Op × Result)) (start : σ) :
    object.run (first ++ second) start = object.run second (object.run first start) :=
  List.foldl_append

theorem legal_append {first second : List (Op × Result)} {start : σ} :
    object.Legal (first ++ second) start ↔
      object.Legal first start ∧ object.Legal second (object.run first start) := by
  induction first generalizing start with
  | nil => simp [Legal, run]
  | cons outcome rest ih =>
      rw [List.cons_append, Legal, Legal, ih, and_assoc]
      rfl

def after (effects : List (Effect Op Result M)) (start : σ) : σ :=
  object.run (effects.map Effect.outcome) start

theorem after_append (first second : List (Effect Op Result M)) (start : σ) :
    object.after (first ++ second) start = object.after second (object.after first start) := by
  rw [after, List.map_append, run_append]
  rfl

theorem after_cons (effect : Effect Op Result M) (rest : List (Effect Op Result M)) (start : σ) :
    object.after (effect :: rest) start = object.after rest (object.apply effect.op start).2 := rfl

def Explains (effects : List (Effect Op Result M)) (start : σ) : Prop :=
  object.Legal (effects.map Effect.outcome) start

variable {object}

theorem explains_append {first second : List (Effect Op Result M)} {start : σ} :
    object.Explains (first ++ second) start ↔
      object.Explains first start ∧ object.Explains second (object.after first start) := by
  rw [Explains, List.map_append, legal_append]
  rfl

/-- The effect is in the order, and the object is in that state before it. -/
def Anchored (object : SequentialObject σ Op Result) (start : σ)
    (effects : List (Effect Op Result M)) (effect : Effect Op Result M) (state : σ) : Prop :=
  ∃ before behind, effects = before ++ effect :: behind ∧ object.after before start = state

section Anchors

variable {start state : σ} {effects : List (Effect Op Result M)} {effect other : Effect Op Result M}

theorem Anchored.mem (anchored : object.Anchored start effects effect state) :
    effect ∈ effects := by
  obtain ⟨before, behind, split, _⟩ := anchored
  rw [split]
  exact List.mem_append_right _ List.mem_cons_self

theorem Anchored.append (anchored : object.Anchored start effects effect state)
    (new : Effect Op Result M) : object.Anchored start (effects ++ [new]) effect state := by
  obtain ⟨before, behind, split, reached⟩ := anchored
  refine ⟨before, behind ++ [new], ?_, reached⟩
  rw [split, List.append_assoc, List.cons_append]

theorem anchored_last (effects : List (Effect Op Result M)) (new : Effect Op Result M) :
    object.Anchored start (effects ++ [new]) new (object.after effects start) :=
  ⟨effects, [], rfl, rfl⟩

/-- An effect put before another one that makes up for it is not noticed elsewhere. -/
theorem Anchored.insert {before behind : List (Effect Op Result M)}
    {new anchor : Effect Op Result M}
    (anchored : object.Anchored start (before ++ anchor :: behind) effect state)
    (different : effect ≠ anchor)
    (absorbed : object.apply anchor.op (object.apply new.op (object.after before start)).2 =
      object.apply anchor.op (object.after before start)) :
    object.Anchored start (before ++ new :: anchor :: behind) effect state := by
  obtain ⟨first, last, split, reached⟩ := anchored
  rcases List.append_eq_append_iff.mp split with ⟨middle, isFirst, rest⟩ | ⟨middle, isBefore, rest⟩
  · cases middle with
    | nil =>
        rw [List.nil_append] at rest
        exact absurd (List.cons.inj rest).1.symm different
    | cons next middle =>
        obtain ⟨same, isBehind⟩ := List.cons.inj rest
        subst same
        refine ⟨before ++ new :: anchor :: middle, last, ?_, ?_⟩
        · rw [isBehind]
          simp
        · rw [isFirst, after_append, after_cons] at reached
          rw [after_append, after_cons, after_cons, absorbed]
          exact reached
  · cases middle with
    | nil =>
        rw [List.nil_append] at rest
        exact absurd (List.cons.inj rest).1 different
    | cons next middle =>
        obtain ⟨same, isLast⟩ := List.cons.inj rest
        subst same
        refine ⟨first, middle ++ new :: anchor :: behind, ?_, reached⟩
        rw [isBefore]
        simp

end Anchors

end SequentialObject

open SequentialObject

/-- An order that explains the history so far and leaves the object in the given state. -/
structure Scheduled {σ Op Result M : Type} (object : SequentialObject σ Op Result) (start : σ)
    (now : Nat) (history : List (CallRecord Op Result)) (effects : List (Effect Op Result M))
    (state : σ) : Prop where
  explains : object.Explains effects start
  reaches : object.after effects start = state
  once : (effects.map Effect.call).Nodup
  called : ∀ effect ∈ effects, ∃ record, history[effect.call]? = some record ∧
    record.op = effect.op ∧ record.invoked = effect.invoked ∧
      ∀ time result, record.returned = some (time, result) →
        effect.placed ≤ time ∧ effect.result = result
  complete : ∀ index record time result, history[index]? = some record →
    record.returned = some (time, result) → ∃ effect ∈ effects, effect.call = index
  ordered : effects.Pairwise Effect.Before
  past : ∀ effect ∈ effects, effect.invoked ≤ effect.placed ∧ effect.placed ≤ now

namespace Scheduled

variable {σ Op Result M : Type} {object : SequentialObject σ Op Result} {start state : σ}
  {now : Nat} {history : List (CallRecord Op Result)} {effects : List (Effect Op Result M)}

theorem linearizes (scheduled : Scheduled object start now history effects state) :
    Linearizes object start history (effects.map Effect.entry) where
  legal := by
    rw [List.map_map]
    exact scheduled.explains
  once := by
    rw [List.map_map]
    exact scheduled.once
  called := by
    intro entry member
    obtain ⟨effect, isEffect, rfl⟩ := List.mem_map.mp member
    obtain ⟨record, known, sameOp, _⟩ := scheduled.called effect isEffect
    exact ⟨record, known, sameOp⟩
  complete := by
    intro index record time result known returned
    obtain ⟨effect, isEffect, rfl⟩ := scheduled.complete index record time result known returned
    obtain ⟨same, alsoKnown, sameOp, _, facts⟩ := scheduled.called effect isEffect
    rw [known] at alsoKnown
    cases alsoKnown
    refine List.mem_map.mpr ⟨effect, isEffect, ?_⟩
    rw [Effect.entry, Effect.outcome, sameOp, (facts time result returned).2]
  realTime := by
    apply List.pairwise_map.mpr
    apply scheduled.ordered.imp_of_mem
    intro earlier later isEarlier isLater before first second firstKnown secondKnown time result
      returned
    obtain ⟨firstRecord, firstAgain, _, firstInvoked, _⟩ := scheduled.called earlier isEarlier
    obtain ⟨secondRecord, secondAgain, _, _, facts⟩ := scheduled.called later isLater
    have sameFirst := Option.some.inj (firstKnown.symm.trans firstAgain)
    have sameSecond := Option.some.inj (secondKnown.symm.trans secondAgain)
    rw [sameFirst, firstInvoked]
    exact Nat.le_trans before.1 (facts time result (sameSecond ▸ returned)).1

theorem nothing (object : SequentialObject σ Op Result) (start : σ) :
    Scheduled object start 0 [] ([] : List (Effect Op Result M)) start where
  explains := trivial
  reaches := rfl
  once := List.nodup_nil
  called effect member := by cases member
  complete index record time result known := by cases known
  ordered := List.Pairwise.nil
  past effect member := by cases member

theorem later (scheduled : Scheduled object start now history effects state) {moment : Nat}
    (reached : now ≤ moment) : Scheduled object start moment history effects state :=
  { scheduled with
    past := fun effect member =>
      ⟨(scheduled.past effect member).1,
        Nat.le_trans (scheduled.past effect member).2 reached⟩ }

theorem invoke (scheduled : Scheduled object start now history effects state) (op : Op) :
    Scheduled object start now (history ++ [⟨op, now, none⟩]) effects state :=
  { scheduled with
    called := by
      intro effect member
      obtain ⟨record, known, facts⟩ := scheduled.called effect member
      refine ⟨record, ?_, facts⟩
      rw [List.getElem?_append_left (List.getElem?_eq_some_iff.mp known).1]
      exact known
    complete := by
      intro index record time result known returned
      by_cases within : index < history.length
      · rw [List.getElem?_append_left within] at known
        exact scheduled.complete index record time result known returned
      · rw [List.getElem?_append_right (Nat.le_of_not_lt within)] at known
        cases List.mem_singleton.mp (List.mem_of_getElem? known)
        cases returned }

theorem respond (scheduled : Scheduled object start now history effects state) {index : Nat}
    {op : Op} {invoked : Nat} {effect : Effect Op Result M}
    (known : history[index]? = some ⟨op, invoked, none⟩) (member : effect ∈ effects)
    (own : effect.call = index) :
    Scheduled object start now (history.set index ⟨op, invoked, some (now, effect.result)⟩) effects
      state :=
  { scheduled with
    called := by
      intro other isEffect
      obtain ⟨record, otherKnown, sameOp, sameInvoked, facts⟩ := scheduled.called other isEffect
      by_cases same : other.call = index
      · have sameEffect : other = effect :=
          List.inj_on_of_nodup_map scheduled.once isEffect member (same.trans own.symm)
        rw [same, known] at otherKnown
        cases otherKnown
        refine ⟨⟨op, invoked, some (now, effect.result)⟩, ?_, sameOp, sameInvoked, ?_⟩
        · rw [same]
          exact List.getElem?_set_self (List.getElem?_eq_some_iff.mp known).1
        · intro time result returned
          cases returned
          exact ⟨(scheduled.past other isEffect).2, by rw [sameEffect]⟩
      · refine ⟨record, ?_, sameOp, sameInvoked, facts⟩
        rw [List.getElem?_set_ne (Ne.symm same)]
        exact otherKnown
    complete := by
      intro place record time result placeKnown returned
      by_cases same : index = place
      · exact ⟨effect, member, own.trans same⟩
      · rw [List.getElem?_set_ne same] at placeKnown
        exact scheduled.complete place record time result placeKnown returned }

section Placing

variable {new : Effect Op Result M}

/-- A call that is under way and has not taken effect. -/
structure Pending (history : List (CallRecord Op Result)) (effects : List (Effect Op Result M))
    (new : Effect Op Result M) : Prop where
  known : history[new.call]? = some ⟨new.op, new.invoked, none⟩
  unplaced : ∀ effect ∈ effects, effect.call ≠ new.call

theorem Pending.called (pending : Pending history effects new) :
    ∃ record, history[new.call]? = some record ∧ record.op = new.op ∧
      record.invoked = new.invoked ∧ ∀ time result, record.returned = some (time, result) →
        new.placed ≤ time ∧ new.result = result := by
  refine ⟨_, pending.known, rfl, rfl, ?_⟩
  intro time result returned
  cases returned

theorem append (scheduled : Scheduled object start now history effects state)
    (pending : Pending history effects new) (earlier : new.invoked ≤ now)
    (placed : new.placed = now)
    (answers : (object.apply new.op state).1 = new.result) :
    Scheduled object start now history (effects ++ [new]) (object.apply new.op state).2 where
  explains := by
    rw [explains_append, scheduled.reaches]
    exact ⟨scheduled.explains, answers, trivial⟩
  reaches := by
    rw [after_append, scheduled.reaches]
    rfl
  once := by
    rw [List.map_append, List.nodup_append]
    refine ⟨scheduled.once, List.nodup_singleton _, ?_⟩
    intro call member other isNew
    obtain ⟨effect, isEffect, rfl⟩ := List.mem_map.mp member
    rw [List.map_singleton, List.mem_singleton] at isNew
    rw [isNew]
    exact pending.unplaced effect isEffect
  called := by
    intro effect member
    rcases List.mem_append.mp member with before | isNew
    · exact scheduled.called effect before
    · rw [List.mem_singleton.mp isNew]
      exact pending.called
  complete := by
    intro index record time result known returned
    obtain ⟨effect, member, own⟩ := scheduled.complete index record time result known returned
    exact ⟨effect, List.mem_append_left _ member, own⟩
  ordered := by
    rw [List.pairwise_append]
    refine ⟨scheduled.ordered, List.pairwise_singleton _ _, ?_⟩
    intro effect member other isNew
    rw [List.mem_singleton.mp isNew, Effect.Before, placed]
    obtain ⟨called, past⟩ := scheduled.past effect member
    exact ⟨Nat.le_trans called past, fun _ => past⟩
  past := by
    intro effect member
    rcases List.mem_append.mp member with before | isNew
    · exact scheduled.past effect before
    · rw [List.mem_singleton.mp isNew, placed]
      exact ⟨earlier, Nat.le_refl _⟩

/-- A call takes effect right before a marked effect that makes up for it. -/
theorem insert (scheduled : Scheduled object start now history effects state)
    (pending : Pending history effects new) (unmarked : new.mark = none) (placed : new.placed = now)
    {anchor : Effect Op Result M} {found : σ}
    (anchored : object.Anchored start effects anchor found)
    (marked : anchor.mark.isSome) (inTime : new.invoked ≤ anchor.placed)
    (answers : (object.apply new.op found).1 = new.result)
    (absorbed :
      object.apply anchor.op (object.apply new.op found).2 = object.apply anchor.op found) :
    ∃ placedEffects, Scheduled object start now history placedEffects state ∧
      (∀ effect, effect ∈ placedEffects ↔ effect = new ∨ effect ∈ effects) ∧
      object.Anchored start placedEffects anchor (object.apply new.op found).2 ∧
      ∀ effect reached, effect ≠ anchor → object.Anchored start effects effect reached →
        object.Anchored start placedEffects effect reached := by
  have anchorPast := (scheduled.past anchor anchored.mem).2
  obtain ⟨before, behind, rfl, rfl⟩ := anchored
  obtain ⟨explainsBefore, anchorAnswers, explainsBehind⟩ := explains_append.mp scheduled.explains
  have mem_iff (effect : Effect Op Result M) :
      effect ∈ before ++ new :: anchor :: behind ↔
        effect = new ∨ effect ∈ before ++ anchor :: behind := by
    simp only [List.mem_append, List.mem_cons]
    tauto
  refine ⟨before ++ new :: anchor :: behind, ?_, mem_iff, ?_, ?_⟩
  · constructor
    · rw [explains_append]
      refine ⟨explainsBefore, answers, ?_⟩
      rw [List.map_cons, Legal, Effect.outcome, absorbed]
      exact ⟨anchorAnswers, explainsBehind⟩
    · have reaches := scheduled.reaches
      rw [after_append, after_cons] at reaches
      rw [after_append, after_cons, after_cons, absorbed]
      exact reaches
    · have once := scheduled.once
      rw [List.map_append] at once ⊢
      rw [List.map_cons, List.nodup_middle, List.nodup_cons, ← List.map_append]
      refine ⟨?_, by rw [List.map_append]; exact once⟩
      intro member
      obtain ⟨effect, isEffect, same⟩ := List.mem_map.mp member
      exact pending.unplaced effect isEffect same
    · intro effect member
      rcases (mem_iff effect).mp member with rfl | isEffect
      · exact pending.called
      · exact scheduled.called effect isEffect
    · intro index record time result known returned
      obtain ⟨effect, member, own⟩ := scheduled.complete index record time result known returned
      exact ⟨effect, (mem_iff effect).mpr (Or.inr member), own⟩
    · have beforeNew : ∀ effect ∈ before, effect.Before new := by
        intro effect member
        obtain ⟨called, past⟩ := scheduled.past effect (List.mem_append_left _ member)
        rw [Effect.Before, placed]
        exact ⟨Nat.le_trans called past, fun _ => past⟩
      have newBefore : ∀ effect ∈ anchor :: behind, new.Before effect := by
        have behindAnchor :=
          (List.pairwise_cons.mp (List.pairwise_append.mp scheduled.ordered).2.1).1
        intro effect member
        refine ⟨?_, fun isMarked => by rw [unmarked] at isMarked; cases isMarked⟩
        rcases List.mem_cons.mp member with rfl | isBehind
        · exact inTime
        · exact Nat.le_trans inTime ((behindAnchor effect isBehind).2 marked)
      obtain ⟨orderedBefore, orderedBehind, across⟩ := List.pairwise_append.mp scheduled.ordered
      rw [List.pairwise_append]
      refine ⟨orderedBefore, List.pairwise_cons.mpr ⟨newBefore, orderedBehind⟩, ?_⟩
      intro effect isBefore other member
      rcases List.mem_cons.mp member with rfl | isOld
      · exact beforeNew effect isBefore
      · exact across effect isBefore other isOld
    · intro effect member
      rcases (mem_iff effect).mp member with rfl | isEffect
      · rw [placed]
        exact ⟨Nat.le_trans inTime anchorPast, Nat.le_refl _⟩
      · exact scheduled.past effect isEffect
  · refine ⟨before ++ [new], behind, by simp, ?_⟩
    rw [after_append]
    rfl
  · intro effect reached different isAnchored
    exact isAnchored.insert different absorbed

end Placing

end Scheduled

end Foundation

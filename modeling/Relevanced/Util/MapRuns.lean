import Relevanced.Util.MapRefinement

/-!
# Runs of a ConcurrentMap

The calls of every run can be put in one order, as long as no step has touched a version that was
deleted before. Each step is one of the pointers in the items, or makes new ones that no other
thread has seen, so that none does under the condition under which versions are safe at all.
-/

namespace Relevanced.Util

open Foundation
open SequentialObject

set_option autoImplicit false

namespace Pointers

variable {pointers : Pointers}

theorem refs_publish (pointers : Pointers) (index : Nat) :
    (pointers.publish.counts index).refs = (pointers.counts index).refs +
      (refers index (some pointers.versions.length) +
        refers index (some pointers.versions.length)) := by
  simp [counts, publish]

theorem Sound.publish (sound : pointers.Sound) : pointers.publish.Sound := by
  refine ⟨sound.faultless, ?_⟩
  intro index
  have accounted := sound.accounted index
  have refs := refs_publish pointers index
  change Accounted (pointers.versions ++ [⟨2, true, false, 0, 0⟩])[index]? _
  by_cases isNew : index = pointers.versions.length
  · subst isNew
    rw [List.getElem?_eq_none (Nat.le_refl _)] at accounted
    rw [List.getElem?_concat_length]
    rw [refers, if_pos rfl] at refs
    cases accounted with
    | unallocated counts unused empties deletes =>
        obtain ⟨unreferred, installs, increments, reads, decrements⟩ := unused
        rw [unreferred] at refs
        refine .counted _ _ rfl ⟨by decide, ?_, empties, deletes, rfl, rfl, ?_, ?_⟩
        · change 2 + (pointers.counts pointers.versions.length).increments =
            _ + (pointers.counts pointers.versions.length).decrements
          rw [refs, increments, decrements]
        · intro _
          dsimp only
          omega
        · exact fun isFresh => by cases isFresh
  · rw [refers, if_neg fun same => isNew (Option.some.inj same).symm] at refs
    have same : pointers.publish.counts index = pointers.counts index :=
      congrArg (fun refs => { pointers.counts index with refs := refs }) refs
    rw [same, get_of_append isNew]
    exact accounted

theorem Sound.enter (sound : pointers.Sound) : pointers.enter.Sound := by
  refine ⟨sound.faultless, ?_⟩
  intro index
  have same : pointers.enter.counts index = pointers.counts index := by
    simp [counts, Pointers.enter, ProxyStage.installs, ProxyStage.increments, ProxyStage.reads,
      ProxyStage.decrements, ProxyStage.empties, ProxyStage.deletes]
  rw [same]
  exact sound.accounted index

end Pointers

variable {TKey TVal : Type} [DecidableEq TKey] {skipList : SkipList TKey}
  {map next : ConcurrentMap skipList TVal}

/-- Each `fetch_sub` that could bring a count to zero comes in time. -/
def MapCountsInTime (map : ConcurrentMap skipList TVal) : MapAction TKey TVal → Prop
  | .advance call => CountsInTime map.pointers (.advance call)
  | _ => True

instance decidableMapCountsInTime (map : ConcurrentMap skipList TVal) :
    ∀ action, Decidable (MapCountsInTime map action)
  | .advance call => inferInstanceAs (Decidable (CountsInTime map.pointers (.advance call)))
  | .invoke _ => isTrue trivial
  | .use _ => isTrue trivial
  | .recycle _ _ => isTrue trivial

section Memory

omit [DecidableEq TKey] in
theorem sound_of_proceed (sound : map.pointers.Sound) {index : Nat} {call : MapCall TKey TVal}
    (coherent : map.Coherent index call .idle) (stepped : map.proceed index call = some next) :
    next.pointers.Sound := by
  unfold ConcurrentMap.proceed at stepped
  split at stepped
  · cases stepped
    exact sound
  · cases stepped
    unfold ConcurrentMap.find
    split <;> exact sound
  · obtain ⟨known, _, stepped⟩ := Option.bind_eq_some_iff.mp stepped
    obtain ⟨pointers, started, isNext⟩ := Option.bind_eq_some_iff.mp stepped
    cases isNext
    exact sound.reset started
  · obtain ⟨known, _, stepped⟩ := Option.bind_eq_some_iff.mp stepped
    obtain ⟨pointers, started, isNext⟩ := Option.bind_eq_some_iff.mp stepped
    cases isNext
    refine sound.step ?_ started
    exact trivial
  · cases stepped
    unfold ConcurrentMap.addOrGetData
    split
    · exact sound
    · exact sound.publish
  · cases stepped
    exact sound
  · rename_i action left result isStage
    obtain ⟨pointers, started, rfl⟩ := Option.map_eq_some_iff.mp stepped
    unfold ConcurrentMap.Coherent at coherent
    rw [isStage] at coherent
    have leaves := coherent.2 action List.mem_cons_self
    refine sound.step ?_ started
    cases action with
    | advance thread => exact leaves.elim
    | _ => exact trivial
  · cases stepped

omit [DecidableEq TKey] in
theorem sound_of_access (sound : map.pointers.Sound) {index : Nat} {call : MapCall TKey TVal}
    {stage : ProxyStage} (inMethod : map.pointers.threads[index]? = some stage)
    (inTime : CountsInTime map.pointers (.advance index))
    (stepped : map.access index call stage = some next) : next.pointers.Sound := by
  obtain ⟨pointers, advanced, isNext⟩ := Option.map_eq_some_iff.mp stepped
  have stillSound := sound.advance inMethod inTime advanced
  dsimp only at isNext
  split at isNext
  · split at isNext <;> cases isNext <;> exact stillSound
  · cases isNext
    exact stillSound
  · cases isNext
    exact stillSound

theorem sound_of_step (wellFormed : map.WellFormed) (sound : map.pointers.Sound)
    {action : MapAction TKey TVal} (inTime : MapCountsInTime map action)
    (stepped : (mapMachine skipList TVal).step map action = some next) : next.pointers.Sound := by
  cases map_step_of_step stepped with
  | invoke op => exact sound.enter
  | proceed called idle proceeded =>
      exact sound_of_proceed sound (wellFormed.coherent _ _ .idle called idle) proceeded
  | access called inMethod accessed => exact sound_of_access sound inMethod inTime accessed
  | @use action pointers usable used =>
      refine sound.step ?_ used
      cases action with
      | advance thread => cases usable
      | _ => exact trivial
  | recycle called located notDestroyed unheld erased started =>
      refine sound.step ?_ started
      exact trivial

end Memory

section Calls

omit [DecidableEq TKey]

/-- A step of a call, or none of any. What has been returned stays. -/
structure GoesOn (map next : ConcurrentMap skipList TVal) : Prop where
  clock : map.now ≤ next.now
  calls : next.calls = map.calls ∨ ∃ index call stage, map.calls[index]? = some call ∧
    call.stage.outcome = none ∧ next.calls = (map.moveTo index call stage).calls

variable {index : Nat} {call : MapCall TKey TVal} (called : map.calls[index]? = some call)

include called

theorem goes_on_of_proceed (stepped : map.proceed index call = some next) : GoesOn map next := by
  unfold ConcurrentMap.proceed at stepped
  split at stepped
  · rename_i isStage _
    cases stepped
    exact ⟨Nat.le_succ _, Or.inr ⟨index, call, _, called, by rw [isStage]; rfl, rfl⟩⟩
  · rename_i isStage _
    cases stepped
    unfold ConcurrentMap.find
    split <;> exact ⟨Nat.le_succ _, Or.inr ⟨index, call, _, called, by rw [isStage]; rfl, rfl⟩⟩
  · rename_i isStage _
    obtain ⟨known, _, stepped⟩ := Option.bind_eq_some_iff.mp stepped
    obtain ⟨pointers, _, isNext⟩ := Option.bind_eq_some_iff.mp stepped
    cases isNext
    exact ⟨Nat.le_refl _, Or.inr ⟨index, call, _, called, by rw [isStage]; rfl, rfl⟩⟩
  · rename_i isStage _
    obtain ⟨known, _, stepped⟩ := Option.bind_eq_some_iff.mp stepped
    obtain ⟨pointers, _, isNext⟩ := Option.bind_eq_some_iff.mp stepped
    cases isNext
    exact ⟨Nat.le_refl _, Or.inr ⟨index, call, _, called, by rw [isStage]; rfl, rfl⟩⟩
  · rename_i isStage _
    cases stepped
    unfold ConcurrentMap.addOrGetData
    split <;> exact ⟨Nat.le_succ _, Or.inr ⟨index, call, _, called, by rw [isStage]; rfl, rfl⟩⟩
  · rename_i isStage
    cases stepped
    exact ⟨Nat.le_succ _, Or.inr ⟨index, call, _, called, by rw [isStage]; rfl, rfl⟩⟩
  · rename_i isStage
    obtain ⟨pointers, _, rfl⟩ := Option.map_eq_some_iff.mp stepped
    exact ⟨Nat.le_refl _, Or.inr ⟨index, call, _, called, by rw [isStage]; rfl, rfl⟩⟩
  · cases stepped

theorem goes_on_of_access {stage : ProxyStage} (stepped : map.access index call stage = some next) :
    GoesOn map next := by
  obtain ⟨pointers, _, isNext⟩ := Option.map_eq_some_iff.mp stepped
  dsimp only at isNext
  split at isNext
  · rename_i isStage _
    split at isNext <;> cases isNext
    · exact ⟨Nat.le_refl _, Or.inl rfl⟩
    · exact ⟨Nat.le_succ _, Or.inr ⟨index, call, _, called, by rw [isStage]; rfl, rfl⟩⟩
  · rename_i isStage _
    cases isNext
    exact ⟨Nat.le_succ _, Or.inr ⟨index, call, _, called, by rw [isStage]; rfl, rfl⟩⟩
  · cases isNext
    exact ⟨Nat.le_refl _, Or.inl rfl⟩

end Calls

theorem goes_on_of_step (action : MapAction TKey TVal) (notMade : ∀ op, action ≠ .invoke op)
    (stepped : (mapMachine skipList TVal).step map action = some next) : GoesOn map next := by
  cases map_step_of_step stepped with
  | invoke op => exact absurd rfl (notMade op)
  | proceed called idle proceeded => exact goes_on_of_proceed called proceeded
  | access called inMethod accessed => exact goes_on_of_access called accessed
  | use usable used => exact ⟨Nat.le_refl _, Or.inl rfl⟩
  | recycle called located notDestroyed unheld erased started =>
      exact ⟨Nat.le_refl _, Or.inl rfl⟩

/-- Calls keep their operation, the time they were made at, and their result. -/
def Continues (history later : List (MapRecord TKey TVal)) : Prop :=
  ∀ (index : Nat) (record : MapRecord TKey TVal), history[index]? = some record →
    ∃ after, later[index]? = some after ∧ after.op = record.op ∧ after.invoked = record.invoked ∧
      ∀ outcome, record.returned = some outcome → after.returned = some outcome

omit [DecidableEq TKey] in
theorem continues_of_invoke (op : MapOp TKey TVal) :
    Continues map.history (map.invoke op).history := by
  intro index record known
  refine ⟨record, ?_, rfl, rfl, fun _ => id⟩
  change ((map.calls ++ [_]).map MapCall.record)[index]? = _
  rw [List.map_append]
  exact (List.getElem?_append_left (List.getElem?_eq_some_iff.mp known).1).trans known

omit [DecidableEq TKey] in
theorem GoesOn.continues (goesOn : GoesOn map next) : Continues map.history next.history := by
  intro index record known
  rcases goesOn.calls with calls | ⟨place, call, stage, called, unfinished, calls⟩
  · refine ⟨record, ?_, rfl, rfl, fun _ => id⟩
    rw [ConcurrentMap.history, calls]
    exact known
  · rw [ConcurrentMap.history, calls]
    change ∃ after, ((map.calls.set place _).map MapCall.record)[index]? = some after ∧ _
    rw [List.map_set]
    by_cases same : place = index
    · subst same
      have isRecord : call.record = record := by
        rw [ConcurrentMap.history, List.getElem?_map, called] at known
        exact Option.some.inj known
      refine ⟨_, List.getElem?_set_self (List.getElem?_eq_some_iff.mp known).1, ?_, ?_, ?_⟩
      · rw [← isRecord]
        rfl
      · rw [← isRecord]
        rfl
      · intro outcome returned
        rw [← isRecord] at returned
        cases unfinished.symm.trans returned
    · exact ⟨record, (List.getElem?_set_ne same).trans known, rfl, rfl, fun _ => id⟩

omit [DecidableEq TKey] in
theorem GoesOn.same_ops (goesOn : GoesOn map next) :
    ∀ record ∈ next.history, ∃ before ∈ map.history, before.op = record.op := by
  intro record member
  obtain ⟨made, isCall, rfl⟩ := List.mem_map.mp member
  rcases goesOn.calls with calls | ⟨place, call, stage, called, _, calls⟩
  · rw [calls] at isCall
    exact ⟨made.record, List.mem_map_of_mem isCall, rfl⟩
  · rw [calls] at isCall
    rcases List.mem_or_eq_of_mem_set isCall with before | rfl
    · exact ⟨made.record, List.mem_map_of_mem before, rfl⟩
    · exact ⟨call.record, List.mem_map_of_mem (List.mem_of_getElem? called), rfl⟩

/-- The calls of the map are those of an atomic one, which can be put in one order. -/
def Ordered (map : ConcurrentMap skipList TVal) : Prop :=
  ∃ atomic : AtomicMap TKey TVal, Represents map atomic ∧
    ∃ effects contents, Explained atomic effects contents

theorem ordered_initial (documented : skipList.Documented) :
    Ordered (.initial : ConcurrentMap skipList TVal) :=
  ⟨.initial, ⟨ConcurrentMap.well_formed_initial documented, refines_initial⟩, [], emptyMap,
    explained_initial⟩

theorem Ordered.step (ordered : Ordered map) (documented : skipList.Documented)
    (action : MapAction TKey TVal)
    (stepped : (mapMachine skipList TVal).step map action = some next) :
    Ordered next := by
  have simulates (atomic : AtomicMap TKey TVal) (represents : Represents map atomic) :
      Follows atomic next :=
    follows_of_step documented represents.wellFormed represents.refines stepped
  exact Machine.simulated_of_step simulates explained_of_step ordered

theorem ordered_along (documented : skipList.Documented) (actions : List (MapAction TKey TVal)) :
    (mapMachine skipList TVal).Along Ordered actions .initial :=
  Machine.along_of_preserved (fun _ action _ ordered => ordered.step documented action) actions
    (ordered_initial documented)

theorem Ordered.linearizes (ordered : Ordered map) :
    ∃ order, Linearizes (sequentialMap TKey TVal) emptyMap map.history order := by
  obtain ⟨atomic, ⟨_, refines⟩, effects, contents, explained⟩ := ordered
  rw [refines.history]
  exact ⟨_, explained.linearizes⟩

theorem Ordered.timed (ordered : Ordered map) : Timed map.history := by
  obtain ⟨atomic, ⟨_, refines⟩, effects, contents, explained⟩ := ordered
  rw [refines.history]
  exact explained.timed

theorem faultless_of_counts_in_time (documented : skipList.Documented)
    (actions : List (MapAction TKey TVal))
    (inTime : (mapMachine skipList TVal).Guarded MapCountsInTime actions .initial) :
    (mapMachine skipList TVal).Along ConcurrentMap.Faultless actions .initial := by
  have preserved : ∀ (map : ConcurrentMap skipList TVal) (action : MapAction TKey TVal)
      (next : ConcurrentMap skipList TVal), Ordered map ∧ map.pointers.Sound → True →
      MapCountsInTime map action → (mapMachine skipList TVal).step map action = some next →
      Ordered next ∧ next.pointers.Sound := by
    rintro map action next ⟨ordered, sound⟩ _ guarded stepped
    obtain ⟨atomic, ⟨wellFormed, _⟩, _⟩ := id ordered
    exact ⟨ordered.step documented action stepped, sound_of_step wellFormed sound guarded stepped⟩
  exact Machine.along_of_guarded preserved (fun _ both => both.2.faultless) actions
    (fun _ _ => trivial) ⟨ordered_initial documented, Pointers.sound_initial 0⟩ inTime

/-- A list that is looked up by a function. -/
def listedBy (TKey : Type) [DecidableEq TKey] : SkipList TKey where
  State := TKey → Option Nat
  empty _ := none
  find list key := list key
  addOrGetData list key item := Function.update list key (some ((list key).getD item))
  erase list key := (Function.update list key none, if (list key).isSome then 1 else 0)

theorem listed_by_documented : (listedBy TKey).Documented where
  find_empty _ := rfl
  find_added _ _ _ _ := Function.update_apply _ _ _ _
  find_erased _ _ _ := Function.update_apply _ _ _ _
  erased _ _ := rfl

/-- In every run the calls of the map, which overlap as they like, can be put in one order that
keeps their order in time and in which each returns what it is to return, as long as no step has
touched a version that was deleted before; and no step has where counts are changed in time. -/
theorem concurrent_map_linearizable (documented : skipList.Documented)
    (actions : List (MapAction TKey TVal)) :
    (mapMachine skipList TVal).Along
        (fun map => map.Faultless → Linearizable (sequentialMap TKey TVal) emptyMap map.history)
        actions .initial ∧
      ((mapMachine skipList TVal).Guarded MapCountsInTime actions .initial →
        (mapMachine skipList TVal).Along ConcurrentMap.Faultless actions .initial) := by
  refine ⟨?_, faultless_of_counts_in_time documented actions⟩
  apply (ordered_along documented actions).mono
  intro map ordered _
  exact ordered.linearizes

/-- A value is stored under a key, and another one while the first one is being read: the read has
counted itself by then, and its caller reads through the pointer afterwards. -/
def updatedWhileRead : List (MapAction Nat Nat) :=
  List.flatten [.invoke (.insertOrUpdate 1 10) :: List.replicate 6 (.advance 0),
    .invoke (.getOption 1) :: List.replicate 6 (.advance 1),
    .invoke (.insertOrUpdate 1 20) :: List.replicate 7 (.advance 2),
    List.replicate 9 (.advance 1), .use (.read 1 3) :: List.replicate 3 (.advance 1),
    .use (.destroy 1 3) :: List.replicate 4 (.advance 1)]

/-- The key is erased, and its item destroyed. -/
def erasedAfterwards : List (MapAction Nat Nat) :=
  .invoke (.erase 1) :: .advance 3 :: .recycle 3 0 :: List.replicate 5 (.advance 3)

theorem updated_while_read_linearizes :
    ∃ map, (mapMachine (listedBy Nat) Nat).exec (updatedWhileRead ++ erasedAfterwards) .initial =
        some map ∧ map.Faultless ∧
      Linearizable (sequentialMap Nat Nat) emptyMap map.history := by
  have runs : ((mapMachine (listedBy Nat) Nat).exec (updatedWhileRead ++ erasedAfterwards)
      .initial).isSome := by decide +kernel
  obtain ⟨map, executed⟩ := Option.isSome_iff_exists.mp runs
  have linearizable :=
    concurrent_map_linearizable listed_by_documented (updatedWhileRead ++ erasedAfterwards)
  have faultless := Machine.along_last (linearizable.2 (by decide +kernel)) executed
  exact ⟨map, executed, faultless, Machine.along_last linearizable.1 executed faultless⟩

/-- In every run, what `getOption` reads is never older than a value whose `insertOrUpdate` had
returned before, as long as no step has touched a version that was deleted before. -/
theorem reads_always_fresh (documented : skipList.Documented)
    (actions : List (MapAction TKey TVal)) :
    (mapMachine skipList TVal).Along (fun map => map.Faultless → ReadsFresh map.history)
      actions .initial := by
  apply (ordered_along documented actions).mono
  intro map ordered _
  obtain ⟨order, linearizes⟩ := ordered.linearizes
  exact reads_fresh linearizes ordered.timed

theorem updated_while_read_fresh :
    ∃ map, (mapMachine (listedBy Nat) Nat).exec updatedWhileRead .initial = some map ∧
      map.Faultless ∧ ReadsFresh map.history := by
  have runs : ((mapMachine (listedBy Nat) Nat).exec updatedWhileRead .initial).isSome := by
    decide +kernel
  obtain ⟨map, executed⟩ := Option.isSome_iff_exists.mp runs
  have faultless := Machine.along_last
    (faultless_of_counts_in_time listed_by_documented updatedWhileRead (by decide +kernel)) executed
  exact ⟨map, executed, faultless,
    Machine.along_last
      (reads_always_fresh listed_by_documented updatedWhileRead) executed faultless⟩

end Relevanced.Util

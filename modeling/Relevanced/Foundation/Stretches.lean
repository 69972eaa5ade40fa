import Mathlib.Algebra.BigOperators.Group.List.Basic
import Mathlib.Algebra.GroupWithZero.Nat
import Mathlib.Data.List.Basic
import Mathlib.Data.List.Sort

/-!
# Stretches of marked items

The maximal runs of marked items in a list that have more than a given number of items.
Each item has a width, and a run is known by the widths of what lies before it and of
the run itself. A scan that keeps the size and the start of the current run finds them
all, in order.
-/

namespace Foundation

set_option autoImplicit false

/-- A run, with what follows it in the list. -/
@[ext]
structure Stretch (α : Type) where
  start : Nat
  finish : Nat
  after : List α

section Stretches

variable {α : Type} (marked : α → Bool) (width : α → Nat) (least : Nat)

def totalWidth (items : List α) : Nat := (items.map width).sum

@[simp] theorem total_width_nil : totalWidth width [] = 0 := rfl

@[simp] theorem total_width_cons (item : α) (items : List α) :
    totalWidth width (item :: items) = width item + totalWidth width items := by
  simp [totalWidth]

@[simp] theorem total_width_append (first second : List α) :
    totalWidth width (first ++ second) = totalWidth width first + totalWidth width second := by
  simp [totalWidth]

theorem length_le_total_width {width : α → Nat} (positive : ∀ item, 0 < width item)
    (items : List α) : items.length ≤ totalWidth width items := by
  induction items with
  | nil => exact Nat.zero_le _
  | cons item items ih =>
      have advance := positive item
      rw [List.length_cons, total_width_cons]
      omega

/-- The run lies between items that are not marked, or ends of the list that begins at the
offset, and has more than the least number of items. -/
structure IsStretch (offset : Nat) (items : List α) (stretch : Stretch α) (before run : List α) :
    Prop where
  split : items = before ++ (run ++ stretch.after)
  start : stretch.start = offset + totalWidth width before
  finish : stretch.finish = stretch.start + totalWidth width run
  long : least < run.length
  inside : ∀ item ∈ run, marked item = true
  leftEnd : ∀ item ∈ before.getLast?, marked item = false
  rightEnd : ∀ item ∈ stretch.after.head?, marked item = false

/-- The scan, with the size and the start of the current run, and its own position. -/
def stretches : List α → Nat → Nat → Nat → List (Stretch α)
  | [], size, start, position => if least < size then [⟨start, position, []⟩] else []
  | item :: items, size, start, position =>
      if marked item then stretches items (size + 1) start (position + width item)
      else if least < size then
        ⟨start, position, item :: items⟩ ::
          stretches items 0 (position + width item) (position + width item)
      else stretches items 0 (position + width item) (position + width item)

variable {marked width least}

theorem nil_of_last_unmarked {items : List α} (allMarked : ∀ item ∈ items, marked item = true)
    (last : ∀ item ∈ items.getLast?, marked item = false) : items = [] := by
  apply List.getLast?_eq_none_iff.mp
  apply Option.eq_none_iff_forall_not_mem.mpr
  intro item isLast
  have isMarked := allMarked item (List.mem_of_getLast? isLast)
  rw [last item isLast] at isMarked
  cases isMarked

theorem head_not_marked {item : α} {run items : List α}
    (unmarked : ∀ first ∈ (item :: items).head?, marked first = false)
    (allMarked : ∀ inside ∈ run, marked inside = true) : item ∉ run := by
  intro member
  have isMarked := allMarked item member
  rw [unmarked item rfl] at isMarked
  cases isMarked

theorem first_run_unique {run other after rest : List α}
    (runMarked : ∀ item ∈ run, marked item = true)
    (afterUnmarked : ∀ item ∈ after.head?, marked item = false)
    (otherMarked : ∀ item ∈ other, marked item = true)
    (restUnmarked : ∀ item ∈ rest.head?, marked item = false)
    (same : run ++ after = other ++ rest) : run = other ∧ after = rest := by
  induction run generalizing other with
  | nil =>
      cases other with
      | nil => exact ⟨rfl, same⟩
      | cons head tail =>
          rw [List.nil_append, List.cons_append] at same
          rw [same] at afterUnmarked
          exact absurd List.mem_cons_self (head_not_marked afterUnmarked otherMarked)
  | cons item run ih =>
      cases other with
      | nil =>
          rw [List.nil_append, List.cons_append] at same
          rw [← same] at restUnmarked
          exact absurd List.mem_cons_self (head_not_marked restUnmarked runMarked)
      | cons head tail =>
          rw [List.cons_append, List.cons_append, List.cons.injEq] at same
          have tails :=
            ih (List.forall_mem_cons.mp runMarked).2 (List.forall_mem_cons.mp otherMarked).2
            same.2
          exact ⟨by rw [same.1, tails.1], tails.2⟩

theorem is_stretch_first_iff {pending rest : List α}
    (allMarked : ∀ item ∈ pending, marked item = true)
    (restUnmarked : ∀ item ∈ rest.head?, marked item = false) {start : Nat} {stretch : Stretch α} :
    (∃ run, IsStretch marked width least start (pending ++ rest) stretch [] run) ↔
      least < pending.length ∧ stretch = ⟨start, start + totalWidth width pending, rest⟩ := by
  constructor
  · rintro ⟨run, isStretch⟩
    obtain ⟨isRun, isAfter⟩ := first_run_unique isStretch.inside isStretch.rightEnd allMarked
      restUnmarked isStretch.split.symm
    have starts := isStretch.start
    have finishes := isStretch.finish
    rw [total_width_nil, Nat.add_zero] at starts
    rw [starts, isRun] at finishes
    exact ⟨isRun ▸ isStretch.long, Stretch.ext starts finishes isAfter⟩
  · rintro ⟨long, rfl⟩
    exact ⟨pending, rfl, rfl, rfl, long, allMarked, by simp, restUnmarked⟩

theorem is_stretch_whole_iff {pending : List α} (allMarked : ∀ item ∈ pending, marked item = true)
    {start : Nat} {stretch : Stretch α} :
    (∃ before run, IsStretch marked width least start pending stretch before run) ↔
      least < pending.length ∧ stretch = ⟨start, start + totalWidth width pending, []⟩ := by
  have first :=
    @is_stretch_first_iff α marked width least pending [] allMarked (by simp) start stretch
  rw [List.append_nil] at first
  rw [← first]
  constructor
  · rintro ⟨before, run, isStretch⟩
    have noBefore : before = [] := by
      apply nil_of_last_unmarked _ isStretch.leftEnd
      intro item member
      exact allMarked item (isStretch.split ▸ List.mem_append_left _ member)
    exact ⟨run, noBefore ▸ isStretch⟩
  · rintro ⟨run, isStretch⟩
    exact ⟨[], run, isStretch⟩

theorem is_stretch_beyond_iff {item : α} (cut : marked item = false) {pending items : List α}
    {start : Nat} {stretch : Stretch α} {before run : List α} :
    IsStretch marked width least start (pending ++ item :: items) stretch
        (pending ++ item :: before) run ↔
      IsStretch marked width least (start + totalWidth width pending + width item) items stretch
        before run := by
  have starts : start + totalWidth width (pending ++ item :: before) =
      start + totalWidth width pending + width item + totalWidth width before := by
    simp
    omega
  have ends : (∀ last ∈ (pending ++ item :: before).getLast?, marked last = false) ↔
      ∀ last ∈ before.getLast?, marked last = false := by
    rw [List.getLast?_append, List.getLast?_cons]
    cases before.getLast? with
    | none => simp [cut]
    | some last => simp
  constructor
  · intro isStretch
    exact ⟨by simpa using isStretch.split, starts ▸ isStretch.start, isStretch.finish,
      isStretch.long, isStretch.inside, ends.mp isStretch.leftEnd, isStretch.rightEnd⟩
  · intro isStretch
    exact ⟨by simp [isStretch.split], starts ▸ isStretch.start, isStretch.finish,
      isStretch.long, isStretch.inside, ends.mpr isStretch.leftEnd, isStretch.rightEnd⟩

/-- A run in a list of marked items, one that is not, and the rest: all the marked items, or a run
of the rest. -/
theorem is_stretch_cut_iff {pending : List α} (allMarked : ∀ item ∈ pending, marked item = true)
    {item : α} (cut : marked item = false) {items : List α} {start : Nat} {stretch : Stretch α} :
    (∃ before run,
        IsStretch marked width least start (pending ++ item :: items) stretch before run) ↔
      least < pending.length ∧
          stretch = ⟨start, start + totalWidth width pending, item :: items⟩ ∨
        ∃ before run, IsStretch marked width least
          (start + totalWidth width pending + width item) items stretch before run := by
  have restUnmarked : ∀ first ∈ (item :: items).head?, marked first = false := by
    intro first isFirst
    rw [← Option.some.inj isFirst]
    exact cut
  rw [← is_stretch_first_iff allMarked restUnmarked]
  constructor
  · rintro ⟨before, run, isStretch⟩
    rcases List.append_eq_append_iff.mp isStretch.split with
      ⟨more, isBefore, isRest⟩ | ⟨more, isPending, _⟩
    · cases more with
      | nil =>
          have nothing := (@first_run_unique α marked run [] stretch.after (item :: items)
            isStretch.inside isStretch.rightEnd (by simp) restUnmarked isRest.symm).1
          rw [nothing] at isStretch
          exact absurd isStretch.long (Nat.not_lt_zero least)
      | cons head more =>
          rw [List.cons_append, List.cons.injEq] at isRest
          rw [isBefore, ← isRest.1] at isStretch
          exact .inr ⟨more, run, (is_stretch_beyond_iff cut).mp isStretch⟩
    · have noBefore : before = [] := by
        apply nil_of_last_unmarked _ isStretch.leftEnd
        intro inside member
        exact allMarked inside (isPending ▸ List.mem_append_left _ member)
      exact .inl ⟨run, noBefore ▸ isStretch⟩
  · rintro (⟨run, isStretch⟩ | ⟨before, run, isStretch⟩)
    · exact ⟨[], run, isStretch⟩
    · exact ⟨pending ++ item :: before, run, (is_stretch_beyond_iff cut).mpr isStretch⟩

/-- The scan finds exactly the runs of what it has put aside and has not read. -/
theorem mem_stretches_iff {pending : List α} (allMarked : ∀ item ∈ pending, marked item = true)
    (items : List α) (start : Nat) (stretch : Stretch α) :
    stretch ∈ stretches marked width least items pending.length start
        (start + totalWidth width pending) ↔
      ∃ before run, IsStretch marked width least start (pending ++ items) stretch before run := by
  induction items generalizing pending start with
  | nil =>
      rw [List.append_nil, is_stretch_whole_iff allMarked, stretches]
      split
      · simp [*]
      · simp [*]
  | cons item items ih =>
      rw [stretches]
      cases isMarked : marked item with
      | true =>
          have grown : ∀ inside ∈ pending ++ [item], marked inside = true := by
            intro inside member
            rcases List.mem_append.mp member with old | new
            · exact allMarked inside old
            · rw [List.mem_singleton.mp new]
              exact isMarked
          have found := ih grown start
          simpa [Nat.add_assoc] using found
      | false =>
          rw [is_stretch_cut_iff allMarked isMarked]
          have found := @ih [] (by simp) (start + totalWidth width pending + width item)
          simp only [List.length_nil, total_width_nil, Nat.add_zero, List.nil_append] at found
          rw [← found, if_neg Bool.false_ne_true]
          split
          · simp [*]
          · simp [*]

theorem stretches_ascending (positive : ∀ item, 0 < width item) (items : List α)
    {size start position : Nat} (behind : start ≤ position) :
    (stretches marked width least items size start position).Pairwise
        (fun first second => first.start < second.start) ∧
      ∀ stretch ∈ stretches marked width least items size start position,
        start ≤ stretch.start := by
  induction items generalizing size start position with
  | nil =>
      rw [stretches]
      split
      · simp
      · simp
  | cons item items ih =>
      have advance := positive item
      rw [stretches]
      split
      · exact ih (by omega)
      · obtain ⟨ordered, later⟩ := @ih 0 _ _ (Nat.le_refl (position + width item))
        have further : ∀ stretch ∈ stretches marked width least items 0 (position + width item)
            (position + width item), start < stretch.start := by
          intro stretch member
          have bound := later stretch member
          omega
        split
        · refine ⟨List.pairwise_cons.mpr ⟨further, ordered⟩, ?_⟩
          intro stretch member
          rcases List.mem_cons.mp member with rfl | inRest
          · exact Nat.le_refl start
          · exact Nat.le_of_lt (further stretch inRest)
        · exact ⟨ordered, fun stretch member => Nat.le_of_lt (further stretch member)⟩

theorem stretches_map {change : α → α} (sameMark : ∀ item, marked (change item) = marked item)
    (sameWidth : ∀ item, width (change item) = width item) (items : List α)
    (size start position : Nat) :
    stretches marked width least (items.map change) size start position =
      (stretches marked width least items size start position).map fun stretch =>
        { stretch with after := stretch.after.map change } := by
  induction items generalizing size start position with
  | nil =>
      rw [List.map_nil, stretches]
      split
      · rfl
      · rfl
  | cons item items ih =>
      rw [List.map_cons, stretches, stretches, sameMark, sameWidth]
      split
      · exact ih _ _ _
      · split
        · rw [ih, List.map_cons, List.map_cons]
        · exact ih _ _ _

end Stretches

end Foundation

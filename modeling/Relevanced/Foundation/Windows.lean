import Mathlib.Algebra.BigOperators.Group.List.Basic
import Mathlib.Algebra.GroupWithZero.Nat
import Mathlib.Data.List.Nodup

/-!
# Overlapping windows

Pieces of a list that begin at every multiple of a stride and hold one element more than the
stride, so that neighbours share one element. How often an element comes when each window is
gone through in some way depends on its index alone.
-/

namespace Foundation

set_option autoImplicit false

variable {α : Type}

def window (stride : Nat) (xs : List α) (q : Nat) : List α :=
  (xs.drop (stride * q)).take (stride + 1)

def InWindow (stride q i : Nat) : Prop := stride * q ≤ i ∧ i < stride * q + (stride + 1)

instance (stride q i : Nat) : Decidable (InWindow stride q i) :=
  inferInstanceAs (Decidable (_ ∧ _))

/-- How often an index comes in the first `count` windows, each of which has its own indices so
many times: where it does not begin a window, and where it ends one. -/
def timesIn (stride count : Nat) (times : Nat → Nat) (i : Nat) : Nat :=
  (if i / stride < count then times (i % stride) else 0) +
    if stride ∣ i ∧ 0 < i ∧ i / stride ≤ count then times stride else 0

variable {xs : List α} {stride : Nat}

theorem mem_slice_iff (nodup : xs.Nodup) (start length : Nat) {i : Nat} (within : i < xs.length) :
    xs[i] ∈ (xs.drop start).take length ↔ start ≤ i ∧ i < start + length := by
  rw [List.mem_iff_getElem?]
  constructor
  · rintro ⟨j, found⟩
    rw [List.getElem?_take] at found
    split at found
    · rename_i inside
      rw [List.getElem?_drop] at found
      have same : i = start + j := (List.getElem?_inj within nodup).mp
        ((List.getElem?_eq_getElem within).trans found.symm)
      omega
    · cases found
  · rintro ⟨later, before⟩
    refine ⟨i - start, ?_⟩
    rw [List.getElem?_take, if_pos (by omega), List.getElem?_drop,
      show start + (i - start) = i by omega, List.getElem?_eq_getElem within]

theorem in_window_iff (positive : 0 < stride) (q i : Nat) :
    InWindow stride q i ↔ i / stride = q ∨ stride ∣ i ∧ i / stride = q + 1 := by
  have split := Nat.div_add_mod i stride
  have small := Nat.mod_lt i positive
  have next : stride * (q + 1) = stride * q + stride := Nat.mul_succ stride q
  rw [Nat.dvd_iff_mod_eq_zero]
  constructor
  · rintro ⟨later, before⟩
    rcases Nat.lt_or_ge i (stride * (q + 1)) with inside | atEnd
    · left
      have below : i / stride < q + 1 := by
        rw [Nat.div_lt_iff_lt_mul positive, Nat.mul_comm]
        exact inside
      have above : q ≤ i / stride := by
        rw [Nat.le_div_iff_mul_le positive, Nat.mul_comm]
        exact later
      omega
    · right
      have same : i = stride * (q + 1) := by omega
      rw [same, Nat.mul_div_cancel_left _ positive, Nat.mul_mod_right]
      exact ⟨rfl, rfl⟩
  · rintro (same | ⟨multiple, same⟩)
    · rw [same] at split
      exact ⟨by omega, by omega⟩
    · rw [same, multiple] at split
      exact ⟨by omega, by omega⟩

theorem times_in_succ (positive : 0 < stride) (count : Nat) (times : Nat → Nat) (i : Nat) :
    timesIn stride (count + 1) times i =
      timesIn stride count times i +
        if InWindow stride count i then times (i - stride * count) else 0 := by
  have split := Nat.div_add_mod i stride
  have inLast := in_window_iff positive count i
  by_cases here : i / stride = count
  · rw [here] at split
    have offset : i - stride * count = i % stride := by omega
    rw [timesIn, timesIn, if_pos (inLast.mpr (.inl here)), offset, here]
    simp [Nat.add_comm]
  · by_cases ends : stride ∣ i ∧ i / stride = count + 1
    · obtain ⟨multiple, atEnd⟩ := ends
      have next : stride * (count + 1) = stride * count + stride := Nat.mul_succ stride count
      rw [atEnd, (Nat.dvd_iff_mod_eq_zero).mp multiple] at split
      have offset : i - stride * count = stride := by omega
      have some : 0 < i := by omega
      have beyond : ¬ count + 1 < count := by omega
      have further : ¬ count + 1 ≤ count := by omega
      rw [timesIn, timesIn, if_pos (inLast.mpr (.inr ⟨multiple, atEnd⟩)), offset, atEnd]
      simp [multiple, some, beyond, further]
    · have outside : ¬ InWindow stride count i := by
        rw [inLast, not_or]
        exact ⟨here, ends⟩
      have first : i / stride < count + 1 ↔ i / stride < count := by omega
      have second : stride ∣ i ∧ 0 < i ∧ i / stride ≤ count + 1 ↔
          stride ∣ i ∧ 0 < i ∧ i / stride ≤ count := by
        constructor
        · rintro ⟨multiple, some, bound⟩
          have other : i / stride ≠ count + 1 := fun same => ends ⟨multiple, same⟩
          exact ⟨multiple, some, by omega⟩
        · rintro ⟨multiple, some, bound⟩
          exact ⟨multiple, some, by omega⟩
      simp only [timesIn, if_neg outside, Nat.add_zero, first, second]

theorem sum_of_windows (positive : 0 < stride) (count : Nat) (times : Nat → Nat) (i : Nat) :
    ((List.range count).map fun q =>
        if InWindow stride q i then times (i - stride * q) else 0).sum =
      timesIn stride count times i := by
  induction count with
  | zero =>
      have none : ¬ (stride ∣ i ∧ 0 < i ∧ i / stride ≤ 0) := by
        rintro ⟨⟨k, rfl⟩, some, small⟩
        rw [Nat.mul_div_cancel_left k positive] at small
        rw [Nat.le_zero.mp small, Nat.mul_zero] at some
        cases some
      rw [timesIn, if_neg none]
      simp
  | succ count ih =>
      rw [List.range_succ, List.map_append, List.sum_append, ih, times_in_succ positive]
      simp

/-- Windows that are gone through in some way in which an element comes as often as its index in
the window says. -/
theorem count_windows [BEq α] [LawfulBEq α] (positive : 0 < stride) {visit : List α → List α}
    {times : Nat → Nat} {i : Nat} (within : i < xs.length)
    (visited : ∀ q, (visit (window stride xs q)).count xs[i] =
      if InWindow stride q i then times (i - stride * q) else 0) (count : Nat) :
    ((List.range count).flatMap fun q => visit (window stride xs q)).count xs[i] =
      timesIn stride count times i := by
  rw [List.count_flatMap, ← sum_of_windows positive]
  exact congrArg List.sum (List.map_congr_left fun q _ => visited q)

theorem count_window [BEq α] [LawfulBEq α] (nodup : xs.Nodup) (q : Nat) {i : Nat}
    (within : i < xs.length) :
    (window stride xs q).count xs[i] = if InWindow stride q i then 1 else 0 := by
  have sublist : (window stride xs q).Sublist xs :=
    (List.take_sublist _ _).trans (List.drop_sublist _ _)
  rw [(sublist.nodup nodup).count]
  exact if_congr (mem_slice_iff nodup _ _ within) rfl rfl

end Foundation

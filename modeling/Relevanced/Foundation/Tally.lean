import Mathlib.Algebra.GroupWithZero.Nat
import Mathlib.Tactic.ByContra

/-!
# Tallies

The sum of a weight over the entries of a list, and what replacing one entry or
adding one does to it.
-/

namespace Foundation

set_option autoImplicit false

variable {α : Type}

def tally (weight : α → Nat) (items : List α) : Nat := (items.map weight).sum

variable {weight : α → Nat} {items : List α}

@[simp] theorem tally_nil : tally weight [] = 0 := rfl

@[simp] theorem tally_cons (item : α) :
    tally weight (item :: items) = weight item + tally weight items := by
  simp [tally]

@[simp] theorem tally_append (more : List α) :
    tally weight (items ++ more) = tally weight items + tally weight more := by
  simp [tally]

theorem tally_set {index : Nat} {old new : α} (found : items[index]? = some old) :
    tally weight (items.set index new) + weight old = tally weight items + weight new := by
  induction items generalizing index with
  | nil => cases found
  | cons head tail ih =>
      cases index with
      | zero =>
          cases found
          simp only [tally, List.set_cons_zero, List.map_cons, List.sum_cons]
          omega
      | succ position =>
          have inTail := ih (List.getElem?_cons_succ ▸ found)
          simp only [tally, List.set_cons_succ, List.map_cons, List.sum_cons] at inTail ⊢
          omega

theorem tally_congr {other : α → Nat} (same : ∀ item ∈ items, weight item = other item) :
    tally weight items = tally other items := by
  rw [tally, List.map_congr_left same]
  rfl

theorem weight_le_tally {item : α} (member : item ∈ items) : weight item ≤ tally weight items := by
  induction items with
  | nil => cases member
  | cons head tail ih =>
      simp only [tally, List.map_cons, List.sum_cons] at ih ⊢
      rcases List.mem_cons.mp member with rfl | inTail
      · omega
      · have below := ih inTail
        omega

theorem tally_eq_zero (weightless : ∀ item ∈ items, weight item = 0) : tally weight items = 0 := by
  induction items with
  | nil => rfl
  | cons head tail ih =>
      have atHead := weightless head List.mem_cons_self
      have inTail := ih fun item member => weightless item (List.mem_cons_of_mem head member)
      simp only [tally, List.map_cons, List.sum_cons] at inTail ⊢
      omega

theorem exists_of_tally_ne_zero (weighs : tally weight items ≠ 0) :
    ∃ item ∈ items, weight item ≠ 0 := by
  by_contra none
  apply weighs
  apply tally_eq_zero
  intro item member
  by_contra heavy
  exact none ⟨item, member, heavy⟩

end Foundation

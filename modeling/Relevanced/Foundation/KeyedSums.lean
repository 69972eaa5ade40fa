import Mathlib.Algebra.BigOperators.Group.List.Basic
import Relevanced.Foundation.OrderedMap

/-!
# Sums under keys

A map to which entries are added one after the other: the value under a key is the sum
of the values that have been added under it, in whatever order.
-/

namespace Foundation

set_option autoImplicit false

variable {κ ν : Type} [LinearOrder κ]

/-- A first entry is inserted, and a later one added to what is there. -/
def addAt [Add ν] (sums : OrderedMap κ ν) (entry : κ × ν) : OrderedMap κ ν :=
  match sums[entry.1]? with
  | none => sums.insert entry.1 entry.2
  | some sum => sums.insert entry.1 (sum + entry.2)

def addEach [Add ν] (sums : OrderedMap κ ν) (entries : List (κ × ν)) : OrderedMap κ ν :=
  entries.foldl addAt sums

def amount [AddCommMonoid ν] (entries : List (κ × ν)) (key : κ) : ν :=
  (entries.map fun entry => if entry.1 = key then entry.2 else 0).sum

theorem mem_addAt_iff [Add ν] {sums : OrderedMap κ ν} {entry : κ × ν} {key : κ} :
    key ∈ addAt sums entry ↔ entry.1 = key ∨ key ∈ sums := by
  rw [addAt]
  split <;> simp

theorem mem_addEach_iff [Add ν] {sums : OrderedMap κ ν} {entries : List (κ × ν)} {key : κ} :
    key ∈ addEach sums entries ↔ key ∈ entries.map Prod.fst ∨ key ∈ sums := by
  induction entries generalizing sums with
  | nil => simp [addEach]
  | cons entry entries ih =>
      have first : addEach sums (entry :: entries) = addEach (addAt sums entry) entries := by
        simp [addEach]
      rw [first, ih, mem_addAt_iff]
      simp [or_assoc, or_left_comm, eq_comm]

section Sums

variable [AddCommMonoid ν]

theorem getElem?_addAt (sums : OrderedMap κ ν) (entry : κ × ν) (key : κ) :
    (addAt sums entry)[key]? =
      if entry.1 = key then some (sums[key]?.getD 0 + entry.2) else sums[key]? := by
  by_cases same : entry.1 = key
  · rw [if_pos same, addAt, ← same]
    split
    · rename_i absent
      simp [absent]
    · rename_i sum stored
      simp [stored]
  · rw [if_neg same, addAt]
    split
    · exact OrderedMap.getElem?_insert_of_ne (Ne.symm same)
    · exact OrderedMap.getElem?_insert_of_ne (Ne.symm same)

theorem getD_addEach (sums : OrderedMap κ ν) (entries : List (κ × ν)) (key : κ) :
    (addEach sums entries)[key]?.getD 0 = sums[key]?.getD 0 + amount entries key := by
  induction entries generalizing sums with
  | nil => simp [addEach, amount]
  | cons entry entries ih =>
      have first : addEach sums (entry :: entries) = addEach (addAt sums entry) entries := by
        simp [addEach]
      rw [first, ih, getElem?_addAt, amount, amount, List.map_cons, List.sum_cons, ← add_assoc]
      split <;> simp

theorem addAt_comm (sums : OrderedMap κ ν) (first second : κ × ν) :
    addAt (addAt sums first) second = addAt (addAt sums second) first := by
  apply Std.ExtTreeMap.ext_getElem?
  intro key
  simp only [getElem?_addAt]
  by_cases atFirst : first.1 = key
  · by_cases atSecond : second.1 = key
    · simp [atFirst, atSecond, add_assoc, add_comm first.2]
    · simp [atFirst, atSecond]
  · simp [atFirst]

theorem addEach_perm {first second : List (κ × ν)} (perm : first.Perm second)
    (sums : OrderedMap κ ν) : addEach sums first = addEach sums second := by
  apply perm.foldl_eq'
  intro left _ right _ current
  exact addAt_comm current left right

end Sums

end Foundation

import Mathlib.Init

/-!
# Entries of a list

What stands at a place of a list once an entry has been added at its end or replaced.
-/

namespace Foundation

set_option autoImplicit false

variable {α : Type} {items : List α} {index place : Nat} {added moved item : α}

theorem found_set (found : (items.set index moved)[place]? = some item) :
    (place = index ∧ item = moved) ∨ (place ≠ index ∧ items[place]? = some item) := by
  by_cases same : place = index
  · subst same
    rw [List.getElem?_set_self'] at found
    obtain ⟨_, _, placed⟩ := Option.map_eq_some_iff.mp found
    exact Or.inl ⟨rfl, placed.symm⟩
  · rw [List.getElem?_set_ne (Ne.symm same)] at found
    exact Or.inr ⟨same, found⟩

theorem get_of_append (isOther : place ≠ items.length) :
    (items ++ [added])[place]? = items[place]? := by
  by_cases before : place < items.length
  · exact List.getElem?_append_left before
  · have past : items.length + 1 ≤ place := by omega
    rw [List.getElem?_eq_none (Nat.le_of_succ_le past), List.getElem?_eq_none]
    rw [List.length_append]
    exact past

theorem found_append (found : (items ++ [added])[place]? = some item) :
    items[place]? = some item ∨ (place = items.length ∧ item = added) := by
  by_cases isNew : place = items.length
  · subst isNew
    rw [List.getElem?_concat_length] at found
    exact Or.inr ⟨rfl, (Option.some.inj found).symm⟩
  · rw [get_of_append isNew] at found
    exact Or.inl found

end Foundation

import Mathlib.Data.List.Basic

/-!
# Images of entries

The images that a partial function has on the entries of a list, and what erasing one entry
does to them.
-/

namespace Foundation

set_option autoImplicit false

variable {α β : Type} {f : α → Option β} {items : List α} {index : Nat} {item : α}

/-- The place that the image of an entry has among the images. -/
def placeAmong (f : α → Option β) (items : List α) (index : Nat) : Nat :=
  ((items.take index).filterMap f).length

theorem images_at {image : β} (found : items[index]? = some item) (imaged : f item = some image) :
    (items.filterMap f)[placeAmong f items index]? = some image ∧
      (items.eraseIdx index).filterMap f =
        (items.filterMap f).eraseIdx (placeAmong f items index) := by
  induction items generalizing index with
  | nil => cases found
  | cons head tail ih =>
      cases index with
      | zero =>
          cases found
          simp [placeAmong, imaged]
      | succ position =>
          obtain ⟨placed, erased⟩ := ih (List.getElem?_cons_succ ▸ found)
          cases atHead : f head with
          | none => simpa [placeAmong, atHead] using ⟨placed, erased⟩
          | some first => simpa [placeAmong, atHead] using ⟨placed, erased⟩

theorem images_without (found : items[index]? = some item) (missing : f item = none) :
    (items.eraseIdx index).filterMap f = items.filterMap f := by
  induction items generalizing index with
  | nil => cases found
  | cons head tail ih =>
      cases index with
      | zero =>
          cases found
          simp [missing]
      | succ position =>
          have erased := ih (List.getElem?_cons_succ ▸ found)
          simp [List.filterMap_cons, erased]

theorem exists_preimage_at {place : Nat} {image : β}
    (found : (items.filterMap f)[place]? = some image) :
    ∃ index item, items[index]? = some item ∧ f item = some image ∧
      placeAmong f items index = place := by
  induction items generalizing place with
  | nil => cases found
  | cons head tail ih =>
      cases atHead : f head with
      | none =>
          rw [List.filterMap_cons, atHead] at found
          obtain ⟨index, item, foundTail, imaged, placed⟩ := ih found
          exact ⟨index + 1, item, foundTail, imaged, by simpa [placeAmong, atHead] using placed⟩
      | some first =>
          rw [List.filterMap_cons, atHead] at found
          cases place with
          | zero =>
              cases found
              exact ⟨0, head, rfl, atHead, rfl⟩
          | succ position =>
              obtain ⟨index, item, foundTail, imaged, placed⟩ := ih found
              exact ⟨index + 1, item, foundTail, imaged, by simpa [placeAmong, atHead] using placed⟩

end Foundation

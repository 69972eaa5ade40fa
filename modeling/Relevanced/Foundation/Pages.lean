import Mathlib.Data.List.Sort
import Mathlib.Order.Basic

/-!
# Pages of an ascending list

A list can be read page by page, by position or from an item on. A client that knows only
the pages walks the list by asking for the page that begins with the last item it has been
given, and drops that item.
-/

namespace Foundation

set_option autoImplicit false

section Positions

variable {α : Type}

def pageAt (items : List α) (offset count : Nat) : List α := (items.drop offset).take count

/-- The pages at 0, `count`, 2 `count` and so on, one behind the other. -/
def joinedPages (page : Nat → List α) (count pages : Nat) : List α :=
  (List.range pages).flatMap fun index => page (index * count)

theorem joined_pages_eq_take (items : List α) (count pages : Nat) :
    joinedPages (pageAt items · count) count pages = items.take (pages * count) := by
  induction pages with
  | zero => simp [joinedPages]
  | succ pages ih =>
      rw [joinedPages] at ih
      rw [joinedPages, List.range_succ, List.flatMap_append, ih, List.flatMap_singleton, pageAt,
        Nat.succ_mul, List.take_add]

theorem joined_pages_eq (items : List α) {count pages : Nat}
    (enough : items.length ≤ pages * count) :
    joinedPages (pageAt items · count) count pages = items := by
  rw [joined_pages_eq_take, List.take_of_length_le enough]

end Positions

section Items

variable {α : Type} [LinearOrder α]

/-- The page of `count` items from an item on, whether or not the item is listed. -/
def pageFrom (items : List α) (start : α) (count : Nat) : List α :=
  (items.filter (start ≤ ·)).take count

/-- Pages that begin with the last item received, which is dropped; `none` when the fuel runs
out before a page brings nothing new. -/
def walkOn (page : α → List α) : Nat → α → Option (List α)
  | 0, _ => none
  | fuel + 1, last =>
      match ((page last).drop 1).getLast? with
      | none => some []
      | some next => (walkOn page fuel next).map ((page last).drop 1 ++ ·)

/-- A walk that begins with the page from `start`. -/
def walkFrom (page : α → List α) (fuel : Nat) (start : α) : Option (List α) :=
  match (page start).getLast? with
  | none => some []
  | some last => (walkOn page fuel last).map (page start ++ ·)

variable {before after items : List α} {start : α}

omit [LinearOrder α] in
theorem split_at_last {count : Nat} {last : α}
    (received : (items.take count).getLast? = some last) :
    ∃ taken, items = taken ++ last :: items.drop count := by
  obtain ⟨taken, shape⟩ := List.getLast?_eq_some_iff.mp received
  refine ⟨taken, ?_⟩
  calc items = items.take count ++ items.drop count := (List.take_append_drop count items).symm
    _ = taken ++ [last] ++ items.drop count := by rw [shape]
    _ = taken ++ last :: items.drop count := List.append_cons taken last _ |>.symm

theorem not_le_before (ascending : (before ++ start :: after).Pairwise (· < ·)) :
    before.filter (start ≤ ·) = [] := by
  obtain ⟨_, _, below⟩ := List.pairwise_append.mp ascending
  rw [List.filter_eq_nil_iff]
  intro item member above
  have isBelow := below item member start List.mem_cons_self
  exact absurd (of_decide_eq_true above) (not_le.mpr isBelow)

theorem filter_from_item (ascending : (before ++ start :: after).Pairwise (· < ·)) :
    (before ++ start :: after).filter (start ≤ ·) = start :: after := by
  have behind : after.filter (start ≤ ·) = after := by
    rw [List.filter_eq_self]
    intro item member
    have tail := (List.pairwise_append.mp ascending).2.1
    exact decide_eq_true (le_of_lt (List.rel_of_pairwise_cons tail member))
  rw [List.filter_append, not_le_before ascending, List.nil_append,
    List.filter_cons_of_pos (by simp), behind]

/-- Every page but the last one brings something new, so a walk from a listed item ends with all
that stands behind it. -/
theorem walk_on_eq {count : Nat} (atLeastTwo : 2 ≤ count) {page : α → List α}
    (pages : ∀ start, page start = pageFrom items start count) (ascending : items.Pairwise (· < ·))
    {fuel : Nat} (split : items = before ++ start :: after) (enough : after.length < fuel) :
    walkOn page fuel start = some after := by
  induction fuel generalizing before start after with
  | zero => exact absurd enough (Nat.not_lt_zero _)
  | succ fuel ih =>
      obtain ⟨more, rfl⟩ : ∃ more, count = more + 2 := Nat.exists_eq_add_of_le' atLeastTwo
      have fresh : (page start).drop 1 = after.take (more + 1) := by
        rw [pages, pageFrom, split, filter_from_item (split ▸ ascending), List.take_succ_cons,
          List.drop_one, List.tail_cons]
      rw [walkOn, fresh]
      cases received : (after.take (more + 1)).getLast? with
      | none =>
          have nothing := List.getLast?_eq_none_iff.mp received
          rw [List.take_eq_nil_iff] at nothing
          rcases nothing with absurdly | isEmpty
          · exact absurd absurdly (Nat.succ_ne_zero more)
          · rw [isEmpty]
      | some next =>
          obtain ⟨taken, whole⟩ := split_at_last received
          have later : items = (before ++ start :: taken) ++ next :: after.drop (more + 1) := by
            rw [split, List.append_assoc, List.cons_append, ← whole]
          have shorter : (after.drop (more + 1)).length < fuel := by
            have lengths := congrArg List.length whole
            simp only [List.length_append, List.length_cons] at lengths
            omega
          simp only [ih later shorter, Option.map_some, List.take_append_drop]

/-- A walk from before the first item enumerates the list. -/
theorem walk_from_eq {count : Nat} (atLeastTwo : 2 ≤ count) {page : α → List α}
    (pages : ∀ start, page start = pageFrom items start count) (ascending : items.Pairwise (· < ·))
    (first : ∀ item ∈ items, start ≤ item) {fuel : Nat} (enough : items.length < fuel) :
    walkFrom page fuel start = some items := by
  have opening : page start = items.take count := by
    rw [pages, pageFrom,
      List.filter_eq_self.mpr fun item member => decide_eq_true (first item member)]
  rw [walkFrom, opening]
  cases received : (items.take count).getLast? with
  | none =>
      have nothing := List.getLast?_eq_none_iff.mp received
      rw [List.take_eq_nil_iff] at nothing
      rcases nothing with absurdly | isEmpty
      · exact absurd absurdly (by omega)
      · rw [isEmpty]
  | some last =>
      obtain ⟨taken, whole⟩ := split_at_last received
      have shorter : (items.drop count).length < fuel := by
        rw [List.length_drop]
        omega
      simp only [walk_on_eq atLeastTwo pages ascending whole shorter, Option.map_some,
        List.take_append_drop]

theorem le_of_index_le (ascending : items.Pairwise (· < ·)) {left right : Nat} {low high : α}
    (foundLow : items[left]? = some low) (foundHigh : items[right]? = some high)
    (ordered : left ≤ right) : low ≤ high := by
  obtain ⟨_, rfl⟩ := List.getElem?_eq_some_iff.mp foundLow
  obtain ⟨within, rfl⟩ := List.getElem?_eq_some_iff.mp foundHigh
  rcases Nat.lt_or_eq_of_le ordered with less | rfl
  · exact (List.pairwise_iff_getElem.mp ascending left right _ within less).le
  · exact le_refl _

theorem le_of_sublist {picked : List α} (ascending : items.Pairwise (· < ·))
    (sublist : picked.Sublist items) {index : Nat} {item : α} (found : picked[index]? = some item) :
    ∃ earlier, items[index]? = some earlier ∧ earlier ≤ item := by
  induction sublist generalizing index with
  | slnil => cases found
  | cons skipped sublist ih =>
      rename_i picked items
      obtain ⟨above, ascendingRest⟩ := List.pairwise_cons.mp ascending
      obtain ⟨earlier, isThere, atMost⟩ := ih ascendingRest found
      cases index with
      | zero => exact ⟨skipped, rfl, (above earlier (List.mem_of_getElem? isThere)).le.trans atMost⟩
      | succ index =>
          obtain ⟨within, rfl⟩ := List.getElem?_eq_some_iff.mp isThere
          have before : index < items.length := by omega
          have less := List.pairwise_iff_getElem.mp ascendingRest index (index + 1) before within
            (Nat.lt_succ_self index)
          exact ⟨items[index], List.getElem?_eq_getElem before, less.le.trans atMost⟩
  | cons_cons kept sublist ih =>
      cases index with
      | zero => exact ⟨kept, rfl, (Option.some.inj found).le⟩
      | succ index => exact ih (List.pairwise_cons.mp ascending).2 found

theorem sublist_behind {picked : List α} (ascending : items.Pairwise (· < ·))
    (sublist : picked.Sublist items) {index : Nat} {item : α} (found : items[index]? = some item)
    (above : ∀ other ∈ picked, item < other) : picked.Sublist (items.drop (index + 1)) := by
  rw [← List.take_append_drop (index + 1) items, List.sublist_append_iff] at sublist
  obtain ⟨front, back, rfl, inFront, inBack⟩ := sublist
  cases front with
  | nil => exact inBack
  | cons other front =>
      have aboveIt := above other List.mem_cons_self
      obtain ⟨position, at_position⟩ := List.mem_iff_getElem?.mp (inFront.subset List.mem_cons_self)
      rw [List.getElem?_take] at at_position
      split at at_position
      · rename_i early
        have notAbove := le_of_index_le ascending at_position found (Nat.le_of_lt_succ early)
        exact absurd aboveIt (not_lt.mpr notAbove)
      · cases at_position

end Items

end Foundation

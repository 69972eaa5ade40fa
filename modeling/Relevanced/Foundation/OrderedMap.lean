import Mathlib.Order.Compare
import Mathlib.Data.List.Sort

/-!
# Ranges of ordered maps

A finite map over a linear order, read in ascending key order. An iterator that
seeks to a start key and walks until a stop key sees exactly the half-open range
between them, and erasing the keys of a range erases the range.
-/

namespace Foundation

set_option autoImplicit false

instance keysTransCmp {κ : Type} [LinearOrder κ] : Std.TransCmp (@compare κ LinearOrder.toOrd) :=
  inferInstance

abbrev OrderedMap (κ ν : Type) [LinearOrder κ] := Std.ExtTreeMap κ ν compare

/-- On a list along which `keep` never turns back on, taking while it holds is filtering. -/
theorem takeWhile_eq_filter {α : Type} {keep : α → Bool} {items : List α}
    (downward : items.Pairwise fun left right => keep right → keep left) :
    items.takeWhile keep = items.filter keep := by
  induction items with
  | nil => rfl
  | cons head tail ih =>
      obtain ⟨headDownward, tailDownward⟩ := List.pairwise_cons.mp downward
      by_cases kept : keep head
      · simp [kept, ih tailDownward]
      · have noneKept : tail.filter keep = [] :=
          List.filter_eq_nil_iff.mpr fun item member held =>
            kept (headDownward item member held)
        simp [kept, noneKept]

theorem dropWhile_eq_filter {α : Type} {skip : α → Bool} {items : List α}
    (downward : items.Pairwise fun left right => skip right → skip left) :
    items.dropWhile skip = items.filter (fun item => !skip item) := by
  induction items with
  | nil => rfl
  | cons head tail ih =>
      obtain ⟨headDownward, tailDownward⟩ := List.pairwise_cons.mp downward
      by_cases skipped : skip head
      · simp [skipped, ih tailDownward]
      · have allKept : tail.filter (fun item => !skip item) = tail :=
          List.filter_eq_self.mpr fun item member => by
            simpa using fun held => skipped (headDownward item member held)
        simp [skipped, allKept]

namespace OrderedMap

variable {κ ν : Type} [LinearOrder κ]

theorem toList_ascending (map : OrderedMap κ ν) :
    map.toList.Pairwise fun left right => left.1 < right.1 := by
  simpa [compare_lt_iff_lt] using Std.ExtTreeMap.ordered_keys_toList (t := map)

def ofEntries (entries : List (κ × ν)) : OrderedMap κ ν := Std.ExtTreeMap.ofList entries compare

theorem ofEntries_toList (map : OrderedMap κ ν) : ofEntries map.toList = map := by
  apply Std.ExtTreeMap.ext_getElem?
  intro key
  cases stored : map[key]? with
  | none =>
      apply Std.ExtTreeMap.getElem?_ofList_of_contains_eq_false
      rw [← Bool.not_eq_true, List.contains_iff_mem]
      intro member
      obtain ⟨⟨found, value⟩, isEntry, rfl⟩ := List.mem_map.mp member
      rw [Std.ExtTreeMap.mem_toList_iff_getElem?_eq_some.mp isEntry] at stored
      cases stored
  | some value =>
      apply Std.ExtTreeMap.getElem?_ofList_of_mem (k := key)
      · simp
      · apply (toList_ascending map).imp
        intro left right ascending same
        rw [compare_eq_iff_eq.mp same] at ascending
        exact lt_irrefl _ ascending
      · exact Std.ExtTreeMap.mem_toList_iff_getElem?_eq_some.mpr stored

theorem mem_ofEntries_iff {entries : List (κ × ν)} {key : κ} :
    key ∈ ofEntries entries ↔ key ∈ entries.map Prod.fst := by
  rw [ofEntries, Std.ExtTreeMap.mem_ofList, List.contains_iff_mem]

/-- The entries whose keys lie in the half-open range from `start` to `stop`. -/
def range (map : OrderedMap κ ν) (start stop : κ) : List (κ × ν) :=
  map.toList.filter fun entry => start ≤ entry.1 ∧ entry.1 < stop

theorem mem_range_iff {map : OrderedMap κ ν} {start stop key : κ} {value : ν} :
    (key, value) ∈ range map start stop ↔
      start ≤ key ∧ key < stop ∧ map[key]? = some value := by
  rw [range, List.mem_filter, Std.ExtTreeMap.mem_toList_iff_getElem?_eq_some]
  simp [and_assoc, and_comm]

theorem range_ascending (map : OrderedMap κ ν) (start stop : κ) :
    (range map start stop).Pairwise fun left right => left.1 < right.1 :=
  (toList_ascending map).filter _

theorem mem_range_keys_iff {map : OrderedMap κ ν} {start stop key : κ} :
    key ∈ (range map start stop).map Prod.fst ↔ start ≤ key ∧ key < stop ∧ key ∈ map := by
  rw [List.mem_map, Std.ExtTreeMap.mem_iff_isSome_getElem?, Option.isSome_iff_exists]
  constructor
  · rintro ⟨⟨found, value⟩, member, rfl⟩
    obtain ⟨above, below, stored⟩ := mem_range_iff.mp member
    exact ⟨above, below, value, stored⟩
  · rintro ⟨above, below, value, stored⟩
    exact ⟨(key, value), mem_range_iff.mpr ⟨above, below, stored⟩, rfl⟩

theorem range_keys_ascending (map : OrderedMap κ ν) (start stop : κ) :
    ((range map start stop).map Prod.fst).Pairwise (· < ·) :=
  List.pairwise_map.mpr (range_ascending map start stop)

theorem range_of_le {map : OrderedMap κ ν} {low start stop : κ} (later : low ≤ start) :
    range map start stop = (range map low stop).filter fun entry => start ≤ entry.1 := by
  rw [range, range, List.filter_filter]
  apply List.filter_congr
  intro entry _
  have implied : start ≤ entry.1 → low ≤ entry.1 := later.trans
  by_cases above : start ≤ entry.1 <;> simp [above, implied]

theorem range_sublist {left right : OrderedMap κ ν} {start stop : κ}
    (kept : ∀ key value, start ≤ key → key < stop → left[key]? = some value →
      right[key]? = some value) :
    (range left start stop).Sublist (range right start stop) := by
  have irreflexive : Std.Irrefl fun first second : κ × ν => first.1 < second.1 :=
    ⟨fun entry => lt_irrefl entry.1⟩
  have antisymmetric : Std.Antisymm fun first second : κ × ν => first.1 < second.1 :=
    ⟨fun _ _ less greater => absurd (less.trans greater) (lt_irrefl _)⟩
  apply List.sublist_of_subperm_of_pairwise _ (range_ascending left start stop)
    (range_ascending right start stop)
  apply List.subperm_of_subset (range_ascending left start stop).nodup
  intro entry member
  obtain ⟨above, below, stored⟩ := mem_range_iff.mp member
  exact mem_range_iff.mpr ⟨above, below, kept _ _ above below stored⟩

theorem range_congr {left right : OrderedMap κ ν} {start stop : κ}
    (agree : ∀ key, start ≤ key → key < stop → left[key]? = right[key]?) :
    range left start stop = range right start stop := by
  apply List.Sublist.antisymm
  · apply range_sublist
    intro key value above below stored
    rw [← agree key above below, stored]
  · apply range_sublist
    intro key value above below stored
    rw [agree key above below, stored]

/-- Seeking to `start` and walking while the key is below `stop` visits the range. -/
theorem seek_then_walk (map : OrderedMap κ ν) (start stop : κ) :
    (map.toList.dropWhile fun entry => entry.1 < start).takeWhile (fun entry => entry.1 < stop) =
      range map start stop := by
  have ascending := toList_ascending map
  have skipped : map.toList.Pairwise fun left right =>
      decide (right.1 < start) → decide (left.1 < start) :=
    ascending.imp fun less below => by
      simp only [decide_eq_true_eq] at below ⊢
      exact less.trans below
  rw [dropWhile_eq_filter skipped, takeWhile_eq_filter]
  · rw [range, List.filter_filter]
    exact List.filter_congr fun entry _ => by
      simp [← not_lt, Bool.and_comm]
  · exact (ascending.filter _).imp fun less below => by
      simp only [decide_eq_true_eq] at below ⊢
      exact less.trans below

theorem mem_insert_iff {map : OrderedMap κ ν} {key inserted : κ} {value : ν} :
    key ∈ map.insert inserted value ↔ key = inserted ∨ key ∈ map := by
  rw [Std.ExtTreeMap.mem_insert, compare_eq_iff_eq, eq_comm]

theorem mem_erase_iff {map : OrderedMap κ ν} {key erased : κ} :
    key ∈ map.erase erased ↔ key ≠ erased ∧ key ∈ map := by
  rw [Std.ExtTreeMap.mem_erase, ne_eq, compare_eq_iff_eq, ne_comm]

theorem getElem?_erase_of_ne {map : OrderedMap κ ν} {key erased : κ} (other : key ≠ erased) :
    (map.erase erased)[key]? = map[key]? := by
  rw [Std.ExtTreeMap.getElem?_erase, if_neg]
  rw [compare_eq_iff_eq]
  exact Ne.symm other

theorem getElem?_insert_of_ne {map : OrderedMap κ ν} {key inserted : κ} {value : ν}
    (other : key ≠ inserted) : (map.insert inserted value)[key]? = map[key]? := by
  rw [Std.ExtTreeMap.getElem?_insert, if_neg]
  rw [compare_eq_iff_eq]
  exact Ne.symm other

theorem erase_of_absent {map : OrderedMap κ ν} {key : κ} (absent : key ∉ map) :
    map.erase key = map := by
  apply Std.ExtTreeMap.ext_getElem?
  intro other
  rw [Std.ExtTreeMap.getElem?_erase]
  by_cases same : key = other
  · subst same
    simp [Std.ExtTreeMap.getElem?_eq_none absent]
  · simp [same]

theorem insert_of_stored {map : OrderedMap κ ν} {key : κ} {value : ν}
    (stored : map[key]? = some value) : map.insert key value = map := by
  apply Std.ExtTreeMap.ext_getElem?
  intro other
  rw [Std.ExtTreeMap.getElem?_insert]
  split
  · rename_i same
    rw [← compare_eq_iff_eq.mp same, stored]
  · rfl

def losesKey (before after : OrderedMap κ ν) : Bool :=
  before.keys.any fun key => !after.contains key

theorem loses_key_iff {before after : OrderedMap κ ν} :
    losesKey before after = true ↔ ∃ key ∈ before, key ∉ after := by
  simp only [losesKey, List.any_eq_true, Std.ExtTreeMap.mem_keys, Bool.not_eq_true',
    ← Std.ExtTreeMap.contains_iff_mem, Bool.not_eq_true]

theorem getElem?_erase_all (keys : List κ) (map : OrderedMap κ ν) (key : κ) :
    (keys.foldl (fun current erased => current.erase erased) map)[key]? =
      if key ∈ keys then none else map[key]? := by
  induction keys generalizing map with
  | nil => simp
  | cons head tail ih =>
      rw [List.foldl_cons, ih, Std.ExtTreeMap.getElem?_erase]
      by_cases inTail : key ∈ tail
      · simp [inTail]
      · by_cases same : head = key
        · simp [same]
        · simp [inTail, same, Ne.symm same]

def eraseRange (map : OrderedMap κ ν) (start stop : κ) : OrderedMap κ ν :=
  ((range map start stop).map Prod.fst).foldl (fun current erased => current.erase erased) map

theorem getElem?_eraseRange (map : OrderedMap κ ν) (start stop key : κ) :
    (eraseRange map start stop)[key]? =
      if start ≤ key ∧ key < stop then none else map[key]? := by
  rw [eraseRange, getElem?_erase_all]
  by_cases inside : start ≤ key ∧ key < stop
  · rw [if_pos inside, ite_eq_left_iff, mem_range_keys_iff]
    intro absent
    exact Std.ExtTreeMap.getElem?_eq_none fun member => absent ⟨inside.1, inside.2, member⟩
  · have outside : key ∉ (range map start stop).map Prod.fst := fun member =>
      inside ⟨(mem_range_keys_iff.mp member).1, (mem_range_keys_iff.mp member).2.1⟩
    rw [if_neg inside, if_neg outside]

end OrderedMap

end Foundation

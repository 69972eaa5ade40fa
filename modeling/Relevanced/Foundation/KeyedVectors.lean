import Mathlib.Algebra.BigOperators.Ring.List
import Mathlib.Algebra.Order.BigOperators.Group.List
import Mathlib.Algebra.Order.BigOperators.Ring.Finset
import Mathlib.Data.Real.Basic
import Mathlib.Tactic.Linarith
import Relevanced.Foundation.KeyedSums

/-!
# Vectors as lists of entries

A list of values under keys stands for the vector whose component under a key is the sum
of the values there. Taken entry by entry, its product with another vector is the product
of the two vectors. Its sum of squares is that of the vector only as long as no two
entries have one key; positive entries under one key make it too small.
-/

namespace Foundation

set_option autoImplicit false

variable {κ : Type} [LinearOrder κ]

/-- The product of a list of entries with a vector, entry by entry. -/
def pairing (entries : List (κ × ℝ)) (weights : κ → ℝ) : ℝ :=
  (entries.map fun entry => entry.2 * weights entry.1).sum

def squares (entries : List (κ × ℝ)) : ℝ :=
  (entries.map fun entry => entry.2 * entry.2).sum

def weight (sums : OrderedMap κ ℝ) (key : κ) : ℝ := sums[key]?.getD 0

variable {entries : List (κ × ℝ)}

@[simp] theorem amount_cons (entry : κ × ℝ) (entries : List (κ × ℝ)) (key : κ) :
    amount (entry :: entries) key =
      (if entry.1 = key then entry.2 else 0) + amount entries key := by
  simp [amount]

@[simp] theorem amount_append (first second : List (κ × ℝ)) (key : κ) :
    amount (first ++ second) key = amount first key + amount second key := by
  simp [amount]

theorem amount_of_absent {key : κ} (absent : key ∉ entries.map Prod.fst) :
    amount entries key = 0 := by
  induction entries with
  | nil => simp [amount]
  | cons entry entries ih =>
      rw [List.map_cons, List.mem_cons, not_or] at absent
      simp [Ne.symm absent.1, ih absent.2]

theorem pairing_eq_sum {keys : Finset κ} (inside : ∀ entry ∈ entries, entry.1 ∈ keys)
    (weights : κ → ℝ) :
    pairing entries weights = ∑ key ∈ keys, amount entries key * weights key := by
  induction entries with
  | nil => simp [pairing, amount]
  | cons entry entries ih =>
      obtain ⟨isKey, others⟩ := List.forall_mem_cons.mp inside
      have rest := ih others
      simp only [pairing] at rest
      simp only [pairing, List.map_cons, List.sum_cons, rest, amount_cons, add_mul,
        Finset.sum_add_distrib, ite_mul, zero_mul, Finset.sum_ite_eq, if_pos isKey]

theorem amount_of_distinct (distinct : (entries.map Prod.fst).Nodup) {key : κ} {value : ℝ}
    (member : (key, value) ∈ entries) : amount entries key = value := by
  induction entries with
  | nil => simp at member
  | cons entry entries ih =>
      rw [List.map_cons, List.nodup_cons] at distinct
      rcases List.mem_cons.mp member with rfl | later
      · simp [amount_of_absent distinct.1]
      · have different : entry.1 ≠ key := by
          intro same
          apply distinct.1
          rw [same]
          exact List.mem_map_of_mem later
        simp [different, ih distinct.2 later]

theorem squares_of_distinct (distinct : (entries.map Prod.fst).Nodup) :
    squares entries = pairing entries (amount entries) := by
  apply congrArg List.sum
  apply List.map_congr_left
  intro entry member
  rw [amount_of_distinct distinct member]

theorem pairing_sq_le_sum (distinct : (entries.map Prod.fst).Nodup) {keys : Finset κ}
    (inside : ∀ entry ∈ entries, entry.1 ∈ keys) (weights : κ → ℝ) :
    pairing entries weights ^ 2 ≤ squares entries * ∑ key ∈ keys, weights key * weights key := by
  have own : squares entries = ∑ key ∈ keys, amount entries key ^ 2 := by
    rw [squares_of_distinct distinct, pairing_eq_sum inside]
    simp only [pow_two]
  have other : ∑ key ∈ keys, weights key * weights key = ∑ key ∈ keys, weights key ^ 2 := by
    simp only [pow_two]
  rw [pairing_eq_sum inside, own, other]
  exact Finset.sum_mul_sq_le_sq_mul_sq keys (amount entries) weights

section Maps

variable (sums : OrderedMap κ ℝ)

theorem keys_distinct : (sums.toList.map Prod.fst).Nodup := by
  have ascending := OrderedMap.toList_ascending sums
  rw [List.Nodup, List.pairwise_map]
  exact ascending.imp fun below => ne_of_lt below

theorem amount_toList (key : κ) : amount sums.toList key = weight sums key := by
  cases stored : sums[key]? with
  | none =>
      rw [weight, stored]
      apply amount_of_absent
      intro member
      obtain ⟨⟨found, value⟩, isEntry, rfl⟩ := List.mem_map.mp member
      rw [Std.ExtTreeMap.mem_toList_iff_getElem?_eq_some.mp isEntry] at stored
      cases stored
  | some value =>
      rw [weight, stored]
      exact amount_of_distinct (keys_distinct sums)
        (Std.ExtTreeMap.mem_toList_iff_getElem?_eq_some.mpr stored)

theorem squares_toList {keys : Finset κ} (inside : ∀ entry ∈ sums.toList, entry.1 ∈ keys) :
    squares sums.toList = ∑ key ∈ keys, weight sums key * weight sums key := by
  rw [squares_of_distinct (keys_distinct sums), pairing_eq_sum inside]
  simp only [amount_toList]

theorem pairing_toList {keys : Finset κ} (inside : ∀ entry ∈ sums.toList, entry.1 ∈ keys)
    (other : OrderedMap κ ℝ) :
    pairing sums.toList (weight other) = ∑ key ∈ keys, weight sums key * weight other key := by
  rw [pairing_eq_sum inside]
  simp only [amount_toList]

theorem squares_eq_pairing : squares sums.toList = pairing sums.toList (weight sums) := by
  rw [squares_of_distinct (keys_distinct sums), funext (amount_toList sums)]

theorem squares_insert {key : κ} (absent : key ∉ sums) (value : ℝ) :
    squares (sums.insert key value).toList = squares sums.toList + value * value := by
  let keys := (sums.toList.map Prod.fst).toFinset
  have inside : ∀ entry ∈ sums.toList, entry.1 ∈ keys := by
    intro entry member
    exact List.mem_toFinset.mpr (List.mem_map_of_mem member)
  have isNew : key ∉ keys := by
    intro member
    obtain ⟨entry, isEntry, rfl⟩ := List.mem_map.mp (List.mem_toFinset.mp member)
    have stored := Std.ExtTreeMap.mem_toList_iff_getElem?_eq_some.mp isEntry
    exact absent (Std.ExtTreeMap.mem_iff_isSome_getElem?.mpr (stored ▸ rfl))
  have weightOther {other : κ} (different : other ≠ key) :
      weight (sums.insert key value) other = weight sums other := by
    rw [weight, weight, Std.ExtTreeMap.getElem?_insert, if_neg]
    rw [compare_eq_iff_eq]
    exact different.symm
  have insideInserted : ∀ entry ∈ (sums.insert key value).toList, entry.1 ∈ insert key keys := by
    intro entry member
    have stored := Std.ExtTreeMap.mem_toList_iff_getElem?_eq_some.mp member
    rw [Std.ExtTreeMap.getElem?_insert] at stored
    split at stored
    · rename_i same
      exact Finset.mem_insert.mpr (Or.inl (compare_eq_iff_eq.mp same).symm)
    · apply Finset.mem_insert_of_mem
      exact inside entry (Std.ExtTreeMap.mem_toList_iff_getElem?_eq_some.mpr stored)
  have own : weight (sums.insert key value) key = value := by
    rw [weight, Std.ExtTreeMap.getElem?_insert_self, Option.getD_some]
  rw [squares_toList _ insideInserted, squares_toList sums inside, Finset.sum_insert isNew, own,
    add_comm]
  congr 1
  apply Finset.sum_congr rfl
  intro other isOther
  rw [weightOther fun same => isNew (same ▸ isOther)]

theorem pairing_comm (other : OrderedMap κ ℝ) :
    pairing sums.toList (weight other) = pairing other.toList (weight sums) := by
  let keys := (sums.toList.map Prod.fst ++ other.toList.map Prod.fst).toFinset
  have ofSums : ∀ entry ∈ sums.toList, entry.1 ∈ keys := by
    intro entry member
    exact List.mem_toFinset.mpr (List.mem_append_left _ (List.mem_map_of_mem member))
  have ofOther : ∀ entry ∈ other.toList, entry.1 ∈ keys := by
    intro entry member
    exact List.mem_toFinset.mpr (List.mem_append_right _ (List.mem_map_of_mem member))
  rw [pairing_toList sums ofSums, pairing_toList other ofOther]
  apply Finset.sum_congr rfl
  intro key _
  exact mul_comm _ _

theorem pairing_eq_zero_iff {other : OrderedMap κ ℝ} (nonneg : ∀ key, 0 ≤ weight sums key)
    (otherNonneg : ∀ key, 0 ≤ weight other key) :
    pairing sums.toList (weight other) = 0 ↔
      ∀ key, ¬ (0 < weight sums key ∧ 0 < weight other key) := by
  let keys := (sums.toList.map Prod.fst).toFinset
  have inside : ∀ entry ∈ sums.toList, entry.1 ∈ keys := by
    intro entry member
    exact List.mem_toFinset.mpr (List.mem_map_of_mem member)
  rw [pairing_toList sums inside, Finset.sum_eq_zero_iff_of_nonneg
    fun key _ => mul_nonneg (nonneg key) (otherNonneg key)]
  constructor
  · intro vanish key both
    have isKey : key ∈ keys := by
      by_contra absent
      have none : amount sums.toList key = 0 :=
        amount_of_absent fun member => absent (List.mem_toFinset.mpr member)
      rw [amount_toList] at none
      exact absurd none (ne_of_gt both.1)
    exact absurd (vanish key isKey) (ne_of_gt (mul_pos both.1 both.2))
  · intro disjoint key _
    rcases (nonneg key).eq_or_lt with zero | positive
    · rw [← zero, zero_mul]
    · have otherZero : weight other key = 0 :=
        le_antisymm (not_lt.mp fun otherPositive => disjoint key ⟨positive, otherPositive⟩)
          (otherNonneg key)
      rw [otherZero, mul_zero]

theorem pairing_sq_le (distinct : (entries.map Prod.fst).Nodup) :
    pairing entries (weight sums) ^ 2 ≤ squares entries * squares sums.toList := by
  let keys := (entries.map Prod.fst ++ sums.toList.map Prod.fst).toFinset
  have ofEntries : ∀ entry ∈ entries, entry.1 ∈ keys := by
    intro entry member
    exact List.mem_toFinset.mpr (List.mem_append_left _ (List.mem_map_of_mem member))
  have ofSums : ∀ entry ∈ sums.toList, entry.1 ∈ keys := by
    intro entry member
    exact List.mem_toFinset.mpr (List.mem_append_right _ (List.mem_map_of_mem member))
  rw [squares_toList sums ofSums]
  exact pairing_sq_le_sum distinct ofEntries (weight sums)

end Maps

theorem weight_addEach (entries : List (κ × ℝ)) (key : κ) :
    weight (addEach ∅ entries) key = amount entries key := by
  rw [weight, getD_addEach]
  simp

theorem squares_addEach (entries : List (κ × ℝ)) :
    squares (addEach ∅ entries : OrderedMap κ ℝ).toList = pairing entries (amount entries) := by
  let keys := (entries.map Prod.fst).toFinset
  have ofEntries : ∀ entry ∈ entries, entry.1 ∈ keys := by
    intro entry member
    exact List.mem_toFinset.mpr (List.mem_map_of_mem member)
  have ofSums : ∀ entry ∈ (addEach ∅ entries : OrderedMap κ ℝ).toList, entry.1 ∈ keys := by
    intro entry member
    have stored := Std.ExtTreeMap.mem_toList_iff_getElem?_eq_some.mp member
    have isKey : entry.1 ∈ (addEach ∅ entries : OrderedMap κ ℝ) := by
      rw [← Std.ExtTreeMap.isSome_getElem?_iff_mem, stored]
      rfl
    rcases mem_addEach_iff.mp isKey with isEntry | absurdly
    · exact List.mem_toFinset.mpr isEntry
    · simp at absurdly
  rw [squares_toList _ ofSums, pairing_eq_sum ofEntries]
  simp only [weight_addEach]

section Positive

theorem amount_nonneg (positive : ∀ entry ∈ entries, 0 < entry.2) (key : κ) :
    0 ≤ amount entries key := by
  apply List.sum_nonneg
  intro value member
  obtain ⟨entry, isEntry, rfl⟩ := List.mem_map.mp member
  split
  · exact le_of_lt (positive entry isEntry)
  · exact le_refl 0

omit [LinearOrder κ] in
theorem positive_after {before after : List (κ × ℝ)} {entry : κ × ℝ}
    (positive : ∀ other ∈ before ++ entry :: after, 0 < other.2) : ∀ other ∈ after, 0 < other.2 :=
  fun other isOther => positive other (List.mem_append_right _ (List.mem_cons_of_mem _ isOther))

theorem le_amount {before after : List (κ × ℝ)} {entry : κ × ℝ}
    (positive : ∀ other ∈ before ++ entry :: after, 0 < other.2) :
    entry.2 + amount after entry.1 ≤ amount (before ++ entry :: after) entry.1 := by
  have front := amount_nonneg
    (fun other isOther => positive other (List.mem_append_left _ isOther)) entry.1
  simp only [amount_append, amount_cons, if_true]
  linarith

theorem value_le_amount (positive : ∀ entry ∈ entries, 0 < entry.2) {entry : κ × ℝ}
    (member : entry ∈ entries) : entry.2 ≤ amount entries entry.1 := by
  obtain ⟨before, after, rfl⟩ := List.append_of_mem member
  have back := amount_nonneg (positive_after positive) entry.1
  have total := le_amount positive
  linarith

theorem amount_pos (positive : ∀ entry ∈ entries, 0 < entry.2) {key : κ}
    (member : key ∈ entries.map Prod.fst) : 0 < amount entries key := by
  obtain ⟨entry, isEntry, rfl⟩ := List.mem_map.mp member
  exact lt_of_lt_of_le (positive entry isEntry) (value_le_amount positive isEntry)

theorem exists_repeated (repeated : ¬ (entries.map Prod.fst).Nodup) :
    ∃ before entry after, entries = before ++ entry :: after ∧ entry.1 ∈ after.map Prod.fst := by
  induction entries with
  | nil => simp at repeated
  | cons entry entries ih =>
      by_cases again : entry.1 ∈ entries.map Prod.fst
      · exact ⟨[], entry, entries, rfl, again⟩
      · have inTail : ¬ (entries.map Prod.fst).Nodup := by
          intro distinct
          exact repeated (List.nodup_cons.mpr ⟨again, distinct⟩)
        obtain ⟨before, other, after, split, isLater⟩ := ih inTail
        exact ⟨entry :: before, other, after, by rw [split, List.cons_append], isLater⟩

theorem squares_lt_pairing (positive : ∀ entry ∈ entries, 0 < entry.2)
    (repeated : ¬ (entries.map Prod.fst).Nodup) :
    squares entries < pairing entries (amount entries) := by
  apply List.sum_lt_sum
  · intro entry member
    have above := value_le_amount positive member
    exact mul_le_mul_of_nonneg_left above (le_of_lt (positive entry member))
  · obtain ⟨before, entry, after, rfl, again⟩ := exists_repeated repeated
    have member : entry ∈ before ++ entry :: after := by simp
    have later := amount_pos (positive_after positive) again
    have total := le_amount positive
    refine ⟨entry, member, ?_⟩
    apply mul_lt_mul_of_pos_left _ (positive entry member)
    linarith

omit [LinearOrder κ] in
theorem squares_pos (positive : ∀ entry ∈ entries, 0 < entry.2) (some : entries ≠ []) :
    0 < squares entries := by
  apply List.sum_pos
  · intro square member
    obtain ⟨entry, isEntry, rfl⟩ := List.mem_map.mp member
    exact mul_pos (positive entry isEntry) (positive entry isEntry)
  · intro empty
    exact some (List.map_eq_nil_iff.mp empty)

omit [LinearOrder κ] in
theorem pairing_nonneg (positive : ∀ entry ∈ entries, 0 < entry.2) {weights : κ → ℝ}
    (nonneg : ∀ key, 0 ≤ weights key) : 0 ≤ pairing entries weights := by
  apply List.sum_nonneg
  intro value member
  obtain ⟨entry, isEntry, rfl⟩ := List.mem_map.mp member
  exact mul_nonneg (le_of_lt (positive entry isEntry)) (nonneg entry.1)

theorem positive_addEach (positive : ∀ entry ∈ entries, 0 < entry.2) :
    ∀ entry ∈ (addEach (∅ : OrderedMap κ ℝ) entries).toList, 0 < entry.2 := by
  rintro ⟨key, value⟩ member
  have stored := Std.ExtTreeMap.mem_toList_iff_getElem?_eq_some.mp member
  have isKey : key ∈ addEach (∅ : OrderedMap κ ℝ) entries := by
    rw [Std.ExtTreeMap.mem_iff_isSome_getElem?, stored]
    rfl
  have added : key ∈ entries.map Prod.fst := by
    rw [mem_addEach_iff] at isKey
    simpa using isKey
  have total : value = amount entries key := by
    rw [← weight_addEach, weight, stored]
    rfl
  rw [total]
  exact amount_pos positive added

end Positive

section Measured

/-- The entries are positive, and the square of the magnitude is the sum of their squares. -/
structure Measured (entries : List (κ × ℝ)) (magnitude : ℝ) : Prop where
  positive : ∀ entry ∈ entries, 0 < entry.2
  magnitude : magnitude ^ 2 = squares entries

variable {magnitude : ℝ}

omit [LinearOrder κ] in
theorem Measured.magnitude_ne_zero_iff (measured : Measured entries magnitude) :
    magnitude ≠ 0 ↔ entries ≠ [] := by
  constructor
  · rintro nonzero rfl
    have square := measured.magnitude
    rw [squares, List.map_nil, List.sum_nil] at square
    exact nonzero (pow_eq_zero_iff two_ne_zero |>.mp square)
  · intro some zero
    have square := measured.magnitude
    rw [zero, zero_pow two_ne_zero] at square
    exact absurd square (ne_of_lt (squares_pos measured.positive some))

theorem measured_empty : Measured (∅ : OrderedMap κ ℝ).toList 0 where
  positive := by simp
  magnitude := by
    have none : (∅ : OrderedMap κ ℝ).toList = [] :=
      List.isEmpty_iff.mp (Std.ExtTreeMap.isEmpty_toList.trans Std.ExtTreeMap.isEmpty_empty)
    simp [squares, none]

end Measured

end Foundation

import Mathlib.Algebra.GroupWithZero.Nat
import Mathlib.Algebra.Ring.Int.Defs
import Mathlib.Data.List.Lex
import Mathlib.Order.Compare
import Mathlib.Order.Fin.Basic
import Mathlib.Order.Cover

/-!
# Delimited byte strings

Strings over a linearly ordered alphabet under the lexicographic order: a label
without the delimiter followed by the delimiter and a free remainder. The two
facts everything else rests on are that such a string determines its label and
its remainder, and that the half-open range between `label ++ [low]` and
`label ++ [high]` is exactly the set of strings that begin with `label ++ [low]`
when `high` is the next letter after `low`.
-/

namespace Foundation

set_option autoImplicit false

abbrev Byte := Fin 256

abbrev Bytes := List Byte

instance byteNeZero : NeZero (256 : Nat) := ⟨by decide⟩

/-- Byte strings are compared by the lexicographic linear order and by nothing else. -/
instance : LT Bytes := Preorder.toLT

instance : DecidableLT Bytes := LinearOrder.toDecidableLT

instance (priority := high) bytesTransCmp : Std.TransCmp (@compare Bytes LinearOrder.toOrd) :=
  inferInstance

/-- The bytes of a text all of whose characters are below 256. -/
def ascii (text : String) : Bytes :=
  text.toList.map fun letter => Fin.ofNat 256 letter.toNat

section Delimited

variable {α : Type} (delimiter : α)

def join (label rest : List α) : List α := label ++ delimiter :: rest

variable [DecidableEq α]

/-- The text after the first delimiter, and the whole text when there is none. -/
def afterFirst (text : List α) : List α :=
  match text.findIdx? (· = delimiter) with
  | some offset => text.drop (offset + 1)
  | none => text

theorem find_delimiter_join {label : List α} (free : delimiter ∉ label) (rest : List α) :
    (join delimiter label rest).findIdx? (· = delimiter) = some label.length := by
  induction label with
  | nil => simp [join, List.findIdx?_cons]
  | cons head tail ih =>
      have headFree : head ≠ delimiter := fun same => free (by simp [same])
      have tailFree : delimiter ∉ tail := fun member => free (by simp [member])
      simp only [join, List.cons_append, List.findIdx?_cons, headFree, decide_false,
        Bool.false_eq_true, if_false, List.length_cons]
      simpa [join] using ih tailFree

theorem after_first_join {label : List α} (free : delimiter ∉ label) (rest : List α) :
    afterFirst delimiter (join delimiter label rest) = rest := by
  rw [afterFirst, find_delimiter_join delimiter free]
  simp [join]

theorem join_eq_join_iff {left right : List α} (leftFree : delimiter ∉ left)
    (rightFree : delimiter ∉ right) (leftRest rightRest : List α) :
    join delimiter left leftRest = join delimiter right rightRest ↔
      left = right ∧ leftRest = rightRest := by
  constructor
  · intro same
    have lengths : left.length = right.length := by
      have located := find_delimiter_join delimiter leftFree leftRest
      rw [same, find_delimiter_join delimiter rightFree] at located
      exact (Option.some.inj located).symm
    obtain ⟨labels, rests⟩ := List.append_inj same lengths
    exact ⟨labels, (List.cons.inj rests).2⟩
  · rintro ⟨rfl, rfl⟩
    rfl

end Delimited

theorem delimited_of_append {α : Type} {delimiter : α} {label text extension : List α}
    (free : delimiter ∉ extension)
    (begins : label ++ [delimiter] <+: text ++ extension) : label ++ [delimiter] <+: text := by
  rcases List.prefix_or_prefix_of_prefix begins (List.prefix_append text extension) with
    inside | ⟨rest, split⟩
  · exact inside
  · rw [← split] at begins
    have within := (List.prefix_append_right_inj text).mp begins
    rcases rest.eq_nil_or_concat with rfl | ⟨inner, last, rfl⟩
    · exact ⟨[], by simpa using split.symm⟩
    · rw [List.concat_eq_append] at split within
      rw [← List.append_assoc] at split
      have same : last = delimiter := List.singleton_inj.mp (List.append_inj' split rfl).2
      exact absurd (within.subset (by simp [same])) free

section Lexicographic

variable {α : Type} [LinearOrder α]

theorem append_lt_append_iff (label left right : List α) :
    label ++ left < label ++ right ↔ left < right := by
  induction label with
  | nil => rfl
  | cons head tail ih => simpa [List.cons_lt_cons_iff] using ih

theorem append_le_append_iff (label left right : List α) :
    label ++ left ≤ label ++ right ↔ left ≤ right := by
  rw [← not_lt, ← not_lt, append_lt_append_iff]

theorem le_of_prefix {left right : List α} (begins : left <+: right) : left ≤ right := by
  obtain ⟨rest, rfl⟩ := begins
  rw [← not_lt]
  induction left with
  | nil => simp
  | cons head tail ih => simpa [List.cons_lt_cons_iff] using ih

/-- Between a letter and the next one there is room only for what the first one begins. -/
theorem singleton_range_iff {low high : α} (next : low ⋖ high) (text : List α) :
    [low] ≤ text ∧ text < [high] ↔ [low] <+: text := by
  cases text with
  | nil => simp [← not_lt]
  | cons head tail =>
      have lower : [low] ≤ head :: tail ↔ low ≤ head := by
        rw [← not_lt, ← not_lt, List.cons_lt_cons_iff]
        simp
      have upper : head :: tail < [high] ↔ head < high := by
        rw [List.cons_lt_cons_iff]
        simp
      have between : low ≤ head ∧ head < high ↔ head = low := by
        constructor
        · rintro ⟨above, below⟩
          by_contra different
          exact next.2 (lt_of_le_of_ne above (Ne.symm different)) below
        · rintro rfl
          exact ⟨le_refl _, next.1⟩
      rw [lower, upper, between, List.prefix_cons_iff]
      simp [eq_comm]

theorem label_of_between {label text left right : List α} (above : label ++ left ≤ text)
    (below : text < label ++ right) : label <+: text := by
  induction label generalizing text with
  | nil => exact List.nil_prefix
  | cons head tail ih =>
      cases text with
      | nil => exact absurd above (by simp [← not_lt])
      | cons first rest =>
          rw [List.cons_append, ← not_lt, List.cons_lt_cons_iff, not_or] at above
          rw [List.cons_append, List.cons_lt_cons_iff] at below
          have same : first = head := by
            rcases below with strictly | ⟨equal, _⟩
            · exact absurd strictly above.1
            · exact equal
          subst same
          have restAbove : tail ++ left ≤ rest :=
            not_lt.mp fun lower => above.2 ⟨rfl, lower⟩
          have restBelow : rest < tail ++ right := by
            rcases below with strictly | ⟨_, lower⟩
            · exact absurd strictly (lt_irrefl _)
            · exact lower
          exact List.cons_prefix_cons.mpr ⟨rfl, ih restAbove restBelow⟩

theorem prefix_range_iff {low high : α} (next : low ⋖ high) (label text : List α) :
    label ++ [low] ≤ text ∧ text < label ++ [high] ↔ label ++ [low] <+: text := by
  by_cases begins : label <+: text
  · obtain ⟨rest, rfl⟩ := begins
    rw [append_le_append_iff, append_lt_append_iff, singleton_range_iff next,
      List.prefix_append_right_inj]
  · have noRange : ¬ (label ++ [low] ≤ text ∧ text < label ++ [high]) :=
      fun between => begins (label_of_between between.1 between.2)
    have noPrefix : ¬ label ++ [low] <+: text :=
      fun longer => begins ((List.prefix_append label [low]).trans longer)
    exact iff_of_false noRange noPrefix

end Lexicographic

end Foundation

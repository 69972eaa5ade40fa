import Mathlib.Data.List.TakeWhile
import Relevanced.CentroidUpdate.DocumentAccumulator

/-!
# Scored words and views of a text

A word is kept in a buffer of 24 bytes: the C string of at most 22 bytes, and in the
last byte the length it was given, which is at most 23. Memory is read from a pointer
on; behind what is listed of it stands a NUL.
-/

namespace Relevanced.TextUtil

open Foundation
open Models

set_option autoImplicit false

def cString (memory : Bytes) : Bytes := memory.takeWhile (· ≠ 0)

def strncpy {size : Nat} (target : Vector Byte size) (source : Bytes) (count : Nat) :
    Vector Byte size :=
  Vector.ofFn fun index =>
    if index.val < count then (cString source)[index.val]?.getD 0 else target[index]

/-- Whether `strncmp` of so many characters is 0. -/
def strncmpEqual (left right : Bytes) (count : Nat) : Bool :=
  (cString left).take count = (cString right).take count

def assignWord (word : Vector Byte 24) (wordSource : Bytes) (length : Byte) : Vector Byte 24 :=
  let length : Byte := if length > 23 then 23 else length
  let word := strncpy word wordSource length
  let word := if length > 22 then word.set 22 0 else word.setIfInBounds length 0
  word.set 23 length

structure StringView where
  base : Bytes
  len : Nat

/-- The bytes that are hashed. -/
def StringView.word (view : StringView) : Bytes := view.base.take view.len

/-- `operator==`: the comparison leaves out the last byte of the first view, and knows no other
length. -/
def StringView.equal (sv1 sv2 : StringView) : Bool :=
  strncmpEqual sv1.base sv2.base ((sv1.len + (2 ^ 64 - 1)) % 2 ^ 64)

/-- The views whose bytes are memory, of which there are fewer than `size_t` counts. -/
structure StringView.InMemory (view : StringView) : Prop where
  positive : 0 < view.len
  counted : view.len < 2 ^ 64
  inside : view.len ≤ view.base.length

theorem c_string_take (memory : Bytes) (count : Nat) :
    cString (memory.take count) = (cString memory).take count := by
  induction memory generalizing count with
  | nil => simp [cString]
  | cons head tail ih =>
      cases count with
      | zero => simp [cString]
      | succ count =>
          simp only [cString, List.take_succ_cons, List.takeWhile_cons] at ih ⊢
          split
          · rw [ih, List.take_succ_cons]
          · rw [List.take_nil]

theorem c_string_of_free {memory : Bytes} (free : 0 ∉ memory) : cString memory = memory := by
  apply List.takeWhile_eq_self_iff.mpr
  intro byte member
  exact decide_eq_true fun same => free (same ▸ member)

theorem c_string_free (memory : Bytes) : 0 ∉ cString memory := by
  intro member
  simpa using List.mem_takeWhile_imp member

theorem c_string_of_terminated {memory text : Bytes} (free : 0 ∉ text)
    (copied : ∀ index < text.length, memory[index]? = text[index]?)
    (terminated : memory[text.length]? = some 0) : cString memory = text := by
  have front : memory.take text.length = text := by
    apply List.ext_getElem?
    intro index
    rw [List.getElem?_take]
    split
    · rename_i inside
      exact copied index inside
    · rename_i outside
      exact (List.getElem?_eq_none (Nat.le_of_not_lt outside)).symm
  have split : memory = text ++ 0 :: memory.drop (text.length + 1) := by
    obtain ⟨inside, isZero⟩ := List.getElem?_eq_some_iff.mp terminated
    calc memory = memory.take text.length ++ memory.drop text.length :=
          (List.take_append_drop _ _).symm
      _ = _ := by rw [front, List.drop_eq_getElem_cons inside, isZero]
  rw [split, cString, List.takeWhile_append_of_pos]
  · simp
  · intro byte member
    exact decide_eq_true fun same => free (same ▸ member)

theorem assign_word_at (word : Vector Byte 24) (wordSource : Bytes) (length : Byte) {index : Nat}
    (inside : index < 24) :
    (assignWord word wordSource length)[index] =
      if index = 23 then min length 23
      else if index = min length.val 22 then 0
      else if index < min length.val 23 then (cString wordSource)[index]?.getD 0
      else word[index] := by
  have capped : (if length > 23 then 23 else length) = min length 23 := by
    by_cases above : length > 23
    · rw [if_pos above, min_eq_right (le_of_lt above)]
    · rw [if_neg above, min_eq_left (not_lt.mp above)]
  have value : (min length 23).val = min length.val 23 := Fin.coe_min length 23
  rw [assignWord, capped, Vector.getElem_set]
  by_cases last : index = 23
  · rw [if_pos last, if_pos last.symm]
  · rw [if_neg last, if_neg (Ne.symm last)]
    by_cases above : min length 23 > 22
    · have long : min length.val 23 > 22 := value ▸ above
      simp only [above, if_true, Vector.getElem_set, strncpy, Vector.getElem_ofFn, value]
      have place : (22 = index) = (index = min length.val 22) := propext (by omega)
      simp only [place]
      rfl
    · have short : ¬ min length.val 23 > 22 := value ▸ above
      simp only [above, if_false, Vector.getElem_setIfInBounds, strncpy, Vector.getElem_ofFn, value]
      have place : (min length.val 23 = index) = (index = min length.val 22) := propext (by omega)
      simp only [place]
      rfl

theorem c_string_assign_word (word : Vector Byte 24) (wordSource : Bytes) (length : Byte) :
    cString (assignWord word wordSource length).toList =
      (cString wordSource).take (min length.val 22) := by
  have atIndex : ∀ index < 23, (assignWord word wordSource length).toList[index]? =
      some (if index = min length.val 22 then 0
        else if index < min length.val 23 then (cString wordSource)[index]?.getD 0
        else word.toList[index]?.getD 0) := by
    intro index inside
    have inVector : index < 24 := by omega
    have notLast : index ≠ 23 := by omega
    rw [Vector.getElem?_toList, Vector.getElem?_eq_getElem inVector, assign_word_at, if_neg notLast,
      Vector.getElem?_toList, Vector.getElem?_eq_getElem inVector]
    rfl
  apply c_string_of_terminated
  · exact fun member => c_string_free wordSource (List.mem_of_mem_take member)
  · intro index inside
    rw [List.length_take] at inside
    have beforeEnd : index ≠ min length.val 22 := by omega
    have copied : index < min length.val 23 := by omega
    rw [atIndex index (by omega), if_neg beforeEnd, if_pos copied, List.getElem?_take,
      if_pos (by omega), List.getElem?_eq_getElem (by omega)]
    rfl
  · rw [List.length_take, atIndex _ (by omega)]
    by_cases cut : min length.val 22 ≤ (cString wordSource).length
    · rw [min_eq_left cut, if_pos rfl]
    · have shorter : (cString wordSource).length < min length.val 22 := Nat.lt_of_not_le cut
      have notEnd : (cString wordSource).length ≠ min length.val 22 := by omega
      have copied : (cString wordSource).length < min length.val 23 := by omega
      rw [min_eq_right (le_of_lt shorter), if_neg notEnd, if_pos copied,
        List.getElem?_eq_none (Nat.le_refl _)]
      rfl

namespace StringView

variable {view other : StringView}

theorem InMemory.length_word (inMemory : view.InMemory) : view.word.length = view.len := by
  rw [word, List.length_take, min_eq_left inMemory.inside]

theorem equal_of_same_word (inMemory : view.InMemory) (otherInMemory : other.InMemory)
    (same : view.word = other.word) : view.equal other = true := by
  have sameLength : view.len = other.len := by
    rw [← inMemory.length_word, ← otherInMemory.length_word, same]
  have positive := inMemory.positive
  have counted := inMemory.counted
  have count : (view.len + (2 ^ 64 - 1)) % 2 ^ 64 = min (view.len - 1) view.len := by omega
  rw [equal, strncmpEqual, count]
  apply decide_eq_true
  rw [← c_string_take, ← c_string_take, ← List.take_take, ← List.take_take]
  change cString (List.take _ view.word) = cString (List.take _ (other.base.take view.len))
  rw [same, sameLength]
  rfl

end StringView

end Relevanced.TextUtil

namespace Relevanced.Models

open Foundation
open TextUtil

variable {F : Type}

/-- The constructor with a score. The buffer is not initialised before the word is assigned. -/
def ScoredWord.scored (wordSource : Bytes) (length : Byte) (score : F) : ScoredWord F where
  word := assignWord (Vector.replicate 24 0) wordSource length
  score := score

/-- The constructor without a score, which is then 1. -/
def ScoredWord.new [One F] (wordSource : Bytes) (length : Byte) : ScoredWord F :=
  .scored wordSource length 1

def ScoredWord.getSize (scored : ScoredWord F) : Nat := scored.word[23].val

theorem key_scored (wordSource : Bytes) (length : Byte) (score : F) :
    (ScoredWord.scored wordSource length score).key =
      (cString wordSource).take (min length.val 22) :=
  c_string_assign_word _ wordSource length

theorem get_size_scored (wordSource : Bytes) (length : Byte) (score : F) :
    (ScoredWord.scored wordSource length score).getSize = min length.val 23 := by
  rw [ScoredWord.getSize, ScoredWord.scored, assign_word_at, if_pos rfl]
  exact Fin.coe_min length 23

/-- A long word is cut to 22 bytes, and its size says 23. -/
example : let word : ScoredWord Nat := .new (ascii "fish|fish|fish|fish|fish|") 25
    word.key = ascii "fish|fish|fish|fish|fi" ∧ word.getSize = 23 := by
  decide +kernel

end Relevanced.Models

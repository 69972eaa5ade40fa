import Mathlib.Data.Set.Insert
import Relevanced.TextUtil.TermFrequencies

/-!
# Views as keys

`unordered_map` wants an `operator==` that is an equivalence relation and a hash that equal keys
agree on. The comparison of views counts the bytes of the first view without the last, and
does not look at the length of the second.
-/

namespace Relevanced.TextUtil

open Foundation

set_option autoImplicit false

/-- `operator==` tells the views apart by length and bytes, is an equivalence relation on them, and
equal views have equal hashes. -/
structure LawfulKeys (hash : Bytes → UInt64) (views : Set StringView) : Prop where
  same : ∀ view ∈ views, ∀ other ∈ views,
    view.equal other = true ↔ view.len = other.len ∧ view.word = other.word
  refl : ∀ view ∈ views, view.equal view = true
  symm : ∀ view ∈ views, ∀ other ∈ views, view.equal other = true → other.equal view = true
  trans : ∀ view ∈ views, ∀ other ∈ views, ∀ last ∈ views,
    view.equal other = true → other.equal last = true → view.equal last = true
  hashed : ∀ view ∈ views, ∀ other ∈ views, view.equal other = true →
    hash view.word = hash other.word

/-- Where all bytes of a view but the last stand at the base of another view, the two have the same
bytes. -/
def PrefixesApart (views : Set StringView) : Prop :=
  ∀ view ∈ views, ∀ other ∈ views, view.word.dropLast <+: other.base → view.word = other.word

namespace StringView

variable {view other : StringView}

theorem equal_iff (inMemory : view.InMemory) (free : 0 ∉ view.base) (otherFree : 0 ∉ other.base) :
    view.equal other = true ↔ view.word.dropLast <+: other.base := by
  have positive := inMemory.positive
  have counted := inMemory.counted
  have inside := inMemory.inside
  have count : (view.len + (2 ^ 64 - 1)) % 2 ^ 64 = view.len - 1 := by omega
  have front : view.word.dropLast = view.base.take (view.len - 1) := by
    rw [List.dropLast_eq_take, inMemory.length_word, word, List.take_take,
      min_eq_left (Nat.sub_le _ _)]
  have length : (view.base.take (view.len - 1)).length = view.len - 1 := by
    rw [List.length_take]
    omega
  rw [equal, strncmpEqual, count, c_string_of_free free, c_string_of_free otherFree, front,
    decide_eq_true_iff, List.prefix_iff_eq_take, length]

theorem same_length (inMemory : view.InMemory) (otherInMemory : other.InMemory)
    (same : view.word = other.word) : view.len = other.len := by
  rw [← inMemory.length_word, ← otherInMemory.length_word, same]

end StringView

variable {views : Set StringView}

/-- Over buffers without a NUL the views are lawful keys, whatever the hash of their bytes, exactly
when no view looks like another but for its last byte and its length. -/
theorem lawful_keys_iff (hash : Bytes → UInt64) (inMemory : ∀ view ∈ views, view.InMemory)
    (free : ∀ view ∈ views, 0 ∉ view.base) : LawfulKeys hash views ↔ PrefixesApart views := by
  constructor
  · intro lawful view isView other isOther before
    have equal := (StringView.equal_iff (inMemory view isView) (free view isView)
      (free other isOther)).mpr before
    exact ((lawful.same view isView other isOther).mp equal).2
  · intro apart
    have sameWord (view : StringView) (isView : view ∈ views) (other : StringView)
        (isOther : other ∈ views) : view.equal other = true ↔ view.word = other.word := by
      constructor
      · intro equal
        exact apart view isView other isOther
          ((StringView.equal_iff (inMemory view isView) (free view isView)
            (free other isOther)).mp equal)
      · exact StringView.equal_of_same_word (inMemory view isView) (inMemory other isOther)
    constructor
    · intro view isView other isOther
      rw [sameWord view isView other isOther]
      exact ⟨fun same =>
        ⟨StringView.same_length (inMemory view isView) (inMemory other isOther) same,
        same⟩, And.right⟩
    · intro view isView
      exact (sameWord view isView view isView).mpr rfl
    · intro view isView other isOther equal
      exact (sameWord other isOther view isView).mpr
        ((sameWord view isView other isOther).mp equal).symm
    · intro view isView other isOther last isLast first second
      exact (sameWord view isView last isLast).mpr
        (((sameWord view isView other isOther).mp first).trans
          ((sameWord other isOther last isLast).mp second))
    · intro view isView other isOther equal
      rw [(sameWord view isView other isOther).mp equal]

def dogAndFish : Set StringView := {⟨ascii "dog", 3⟩, ⟨ascii "fish", 4⟩}

theorem dog_and_fish_lawful : LawfulKeys fnv64 dogAndFish ↔ PrefixesApart dogAndFish := by
  apply lawful_keys_iff fnv64
  · rintro view (rfl | rfl)
    · exact ⟨by decide, by decide, by decide⟩
    · exact ⟨by decide, by decide, by decide⟩
  · rintro view (rfl | rfl) <;> decide

/-- "dog" and "dot" are equal with different bytes and hashes, and "a" is equal to "xyz", but not
the other way round. -/
theorem dog_equals_dot :
    let dog : StringView := ⟨ascii "dog", 3⟩
    let dot : StringView := ⟨ascii "dot", 3⟩
    let a : StringView := ⟨ascii "a", 1⟩
    let xyz : StringView := ⟨ascii "xyz", 3⟩
    dog.equal dot = true ∧ dog.word ≠ dot.word ∧ fnv64 dog.word ≠ fnv64 dot.word ∧
      a.equal xyz = true ∧ xyz.equal a = false ∧ ¬ LawfulKeys fnv64 {dog, dot} ∧
      ¬ LawfulKeys fnv64 {a, xyz} := by
  intro dog dot a xyz
  have equal : dog.equal dot = true := by decide
  have apart : dog.word ≠ dot.word := by decide
  have oneWay : a.equal xyz = true := by decide
  have notBack : xyz.equal a = false := by decide
  refine ⟨equal, apart, by decide, oneWay, notBack, ?_, ?_⟩
  · intro lawful
    exact apart ((lawful.same dog (Or.inl rfl) dot (Or.inr rfl)).mp equal).2
  · intro lawful
    have back := lawful.symm a (Or.inl rfl) xyz (Or.inr rfl) oneWay
    rw [notBack] at back
    cases back

end Relevanced.TextUtil

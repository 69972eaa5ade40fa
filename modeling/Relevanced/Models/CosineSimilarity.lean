import Relevanced.Foundation.KeyedVectors
import Relevanced.Models.WordVector

/-!
# The score of two centroids

In exact arithmetic the loop of `score` computes the inner product of two vectors: it makes
no difference which of them is walked, nor in which order. With magnitudes that are those of
the scores the quotient is a cosine.
-/

namespace Relevanced.Models

open Foundation

set_option autoImplicit false

namespace WordVector

theorem add_product_eq (vector : WordVector ℝ) (dotProd : ℝ) (key : Bytes) (score : ℝ) :
    vector.addProduct dotProd key score = dotProd + score * weight vector.scores key := by
  rw [addProduct, weight]
  cases vector.scores[key]? with
  | none => simp
  | some selfScore => rfl

theorem dot_product_visiting_eq (vector : WordVector ℝ) (visited : List (Bytes × ℝ)) :
    vector.dotProductVisiting visited = pairing visited (weight vector.scores) := by
  have general : ∀ (elems : List (Bytes × ℝ)) (start : ℝ),
      elems.foldl (fun dotProd elem => vector.addProduct dotProd elem.1 elem.2) start =
        start + pairing elems (weight vector.scores) := by
    intro elems
    induction elems with
    | nil => simp [pairing]
    | cons elem elems ih =>
        intro start
        rw [List.foldl_cons, ih, add_product_eq, pairing, pairing, List.map_cons, List.sum_cons,
          add_assoc]
  rw [dotProductVisiting, general, zero_add]

theorem dot_product_eq (vector : WordVector ℝ) (otherScores : OrderedMap Bytes ℝ) :
    vector.dotProduct otherScores = pairing otherScores.toList (weight vector.scores) :=
  dot_product_visiting_eq vector otherScores.toList

theorem dot_product_of_perm (vector : WordVector ℝ) {otherScores : OrderedMap Bytes ℝ}
    {visited : List (Bytes × ℝ)} (perm : visited.Perm otherScores.toList) :
    vector.dotProductVisiting visited = vector.dotProduct otherScores := by
  rw [dot_product_visiting_eq, dot_product_eq, pairing, pairing]
  exact (perm.map _).sum_eq

/-- The squared magnitude is the sum of the squared scores, and not 0. -/
structure Normalized (vector : WordVector ℝ) : Prop where
  magnitude : vector.magnitude ^ 2 = squares vector.scores.toList
  nonzero : vector.magnitude ^ 2 ≠ 0

def SharesWord (vector other : WordVector ℝ) : Prop :=
  ∃ (word : Bytes) (selfScore otherScore : ℝ), vector.scores[word]? = some selfScore ∧
    other.scores[word]? = some otherScore ∧ 0 < selfScore ∧ 0 < otherScore

def Nonnegative (vector : WordVector ℝ) : Prop :=
  ∀ (word : Bytes) (score : ℝ), vector.scores[word]? = some score → 0 ≤ score

variable {vector other : WordVector ℝ}

theorem weight_nonneg (nonnegative : Nonnegative vector) (word : Bytes) :
    0 ≤ weight vector.scores word := by
  rw [weight]
  cases stored : vector.scores[word]? with
  | none => simp
  | some score => exact nonnegative word score stored

theorem weight_pos_iff (word : Bytes) :
    0 < weight vector.scores word ↔ ∃ score, vector.scores[word]? = some score ∧ 0 < score := by
  rw [weight]
  cases vector.scores[word]? with
  | none => simp
  | some score => simp

theorem shares_word_iff :
    SharesWord vector other ↔
      ∃ word, 0 < weight vector.scores word ∧ 0 < weight other.scores word := by
  constructor
  · rintro ⟨word, selfScore, otherScore, found, foundOther, positive, otherPositive⟩
    exact ⟨word, (weight_pos_iff word).mpr ⟨selfScore, found, positive⟩,
      (weight_pos_iff word).mpr ⟨otherScore, foundOther, otherPositive⟩⟩
  · rintro ⟨word, positive, otherPositive⟩
    obtain ⟨selfScore, found, isPositive⟩ := (weight_pos_iff word).mp positive
    obtain ⟨otherScore, foundOther, otherIsPositive⟩ := (weight_pos_iff word).mp otherPositive
    exact ⟨word, selfScore, otherScore, found, foundOther, isPositive, otherIsPositive⟩

theorem dot_product_comm (vector other : WordVector ℝ) :
    vector.dotProduct other.scores = other.dotProduct vector.scores := by
  rw [dot_product_eq, dot_product_eq, pairing_comm]

theorem score_comm (vector other : WordVector ℝ) : vector.score other = other.score vector := by
  rw [score, score, scoreAgainst, scoreAgainst, dot_product_comm, mul_comm other.magnitude]

theorem dot_product_sq_le (normalized : Normalized vector) (otherNormalized : Normalized other) :
    vector.dotProduct other.scores ^ 2 ≤ vector.magnitude ^ 2 * other.magnitude ^ 2 := by
  rw [dot_product_eq, normalized.magnitude, otherNormalized.magnitude, mul_comm]
  exact pairing_sq_le vector.scores (keys_distinct other.scores)

theorem score_self (normalized : Normalized vector) : vector.score vector = 1 := by
  rw [score, scoreAgainst, dot_product_eq, ← squares_eq_pairing, ← normalized.magnitude, ← pow_two]
  exact div_self normalized.nonzero

theorem magnitude_ne_zero (normalized : Normalized vector) : vector.magnitude ≠ 0 := by
  intro zero
  exact normalized.nonzero (by rw [zero, pow_two, mul_zero])

theorem score_eq_zero_iff (normalized : Normalized vector) (otherNormalized : Normalized other)
    (nonnegative : Nonnegative vector) (otherNonnegative : Nonnegative other) :
    vector.score other = 0 ↔ ¬ SharesWord vector other := by
  have denominator : vector.magnitude * other.magnitude ≠ 0 :=
    mul_ne_zero (magnitude_ne_zero normalized) (magnitude_ne_zero otherNormalized)
  have vanishes := pairing_eq_zero_iff other.scores (weight_nonneg otherNonnegative)
    (weight_nonneg nonnegative)
  rw [score, scoreAgainst, div_eq_zero_iff, or_iff_left denominator, dot_product_eq, vanishes,
    shares_word_iff, not_exists]
  apply forall_congr'
  intro word
  rw [and_comm]

end WordVector

/-- The score of two centroids is a cosine, in whatever orders their hash tables are walked. -/
theorem centroid_score_is_cosine {vector other : WordVector ℝ} (normalized : vector.Normalized)
    (otherNormalized : other.Normalized) :
    (∀ visited, visited.Perm other.scores.toList →
        vector.dotProductVisiting visited = vector.dotProduct other.scores) ∧
      vector.score other = other.score vector ∧
      vector.dotProduct other.scores ^ 2 ≤ vector.magnitude ^ 2 * other.magnitude ^ 2 ∧
      vector.score vector = 1 ∧
      (vector.Nonnegative → other.Nonnegative →
        (vector.score other = 0 ↔ ¬ vector.SharesWord other)) := by
  refine ⟨?_, ?_, ?_, ?_, ?_⟩
  · intro visited perm
    exact vector.dot_product_of_perm perm
  · exact WordVector.score_comm vector other
  · exact WordVector.dot_product_sq_le normalized otherNormalized
  · exact WordVector.score_self normalized
  · exact WordVector.score_eq_zero_iff normalized otherNormalized

def twoWords (first second : Bytes) : WordVector ℝ where
  scores := ((∅ : OrderedMap Bytes ℝ).insert first 3).insert second 4
  magnitude := 5
  documentWeight := 1

theorem two_words_normalized {first second : Bytes} (different : first ≠ second) :
    (twoWords first second).Normalized where
  magnitude := by
    have absent : second ∉ (∅ : OrderedMap Bytes ℝ).insert first 3 := by
      rw [Std.ExtTreeMap.mem_insert, compare_eq_iff_eq]
      simp [different]
    change (5 : ℝ) ^ 2 = squares (((∅ : OrderedMap Bytes ℝ).insert first 3).insert second 4).toList
    have none : (∅ : OrderedMap Bytes ℝ).toList = [] := rfl
    rw [squares_insert _ absent, squares_insert _ Std.ExtTreeMap.not_mem_empty, none]
    norm_num [squares]
  nonzero := by norm_num [twoWords]

theorem two_words_score (first second word : Bytes) : (twoWords first second).scores[word]? =
    if second = word then some 4 else if first = word then some 3 else none := by
  change (((∅ : OrderedMap Bytes ℝ).insert first 3).insert second 4)[word]? = _
  rw [Std.ExtTreeMap.getElem?_insert, Std.ExtTreeMap.getElem?_insert, Std.ExtTreeMap.getElem?_empty]
  simp only [compare_eq_iff_eq]

theorem two_words_nonnegative (first second : Bytes) : (twoWords first second).Nonnegative := by
  intro word score stored
  rw [two_words_score] at stored
  split at stored
  · cases stored
    norm_num
  · split at stored
    · cases stored
      norm_num
    · cases stored

/-- One has the words "cat" and "dog", the other one "dog" and "fish". -/
theorem cats_and_fish_cosine :
    let cats := twoWords (ascii "cat") (ascii "dog")
    let fish := twoWords (ascii "dog") (ascii "fish")
    (∀ visited, visited.Perm fish.scores.toList →
        cats.dotProductVisiting visited = cats.dotProduct fish.scores) ∧
      cats.score fish = fish.score cats ∧
      cats.dotProduct fish.scores ^ 2 ≤ cats.magnitude ^ 2 * fish.magnitude ^ 2 ∧
      cats.score cats = 1 ∧ cats.score fish ≠ 0 := by
  intro cats fish
  have catsNormalized : cats.Normalized := two_words_normalized (by decide)
  have fishNormalized : fish.Normalized := two_words_normalized (by decide)
  obtain ⟨order, symmetric, bounded, self, vanishes⟩ :=
    centroid_score_is_cosine catsNormalized fishNormalized
  have shares : cats.SharesWord fish := by
    refine ⟨ascii "dog", 4, 3, ?_, ?_, by norm_num, by norm_num⟩
    · rw [two_words_score, if_pos rfl]
    · rw [two_words_score, if_neg (by decide), if_pos rfl]
  refine ⟨order, symmetric, bounded, self, ?_⟩
  intro zero
  exact (vanishes (two_words_nonnegative _ _) (two_words_nonnegative _ _)).mp zero shares

end Relevanced.Models

import Mathlib.Algebra.Order.BigOperators.Group.List
import Mathlib.Analysis.Real.Sqrt
import Relevanced.TextUtil.ScoredWord

/-!
# WordAccumulator

The words of a text with the number of times each has been added, which `build`
divides by the number of all additions. What `unordered_map::find` answers depends on
hashes and comparisons: it is a parameter, and an entry it finds is one of the map.
-/

namespace Relevanced.TextUtil

open Foundation
open Models

set_option autoImplicit false

/-- An answer of `wordsByStr_.find`. -/
structure WordSearch where
  find : List (StringView × Nat) → StringView → Option (StringView × Nat)
  found : ∀ entries view entry, find entries view = some entry → entry ∈ entries

structure WordAccumulator (F : Type) where
  totalWords : Nat
  magnitude : F
  scoredWords : List (ScoredWord F)
  wordsByStr : List (StringView × Nat)

namespace WordAccumulator

variable {F : Type}

def new [Zero F] : WordAccumulator F where
  totalWords := 0
  magnitude := 0
  scoredWords := []
  wordsByStr := []

/-- `at` throws beyond the end. -/
def add [One F] [Add F] (search : WordSearch) (accumulator : WordAccumulator F)
    (word : StringView) : Option (WordAccumulator F) :=
  match search.find accumulator.wordsByStr word with
  | none =>
      let scoredWords :=
        accumulator.scoredWords ++ [ScoredWord.new word.base (Fin.ofNat 256 word.len)]
      some { accumulator with
        totalWords := accumulator.totalWords + 1
        scoredWords := scoredWords
        wordsByStr := accumulator.wordsByStr ++ [(word, scoredWords.length - 1)] }
  | some existingIndex =>
      accumulator.scoredWords[existingIndex.2]?.map fun existing =>
        { accumulator with
          totalWords := accumulator.totalWords + 1
          scoredWords := accumulator.scoredWords.set existingIndex.2
            { existing with score := existing.score + 1 } }

/-- The loop of `build`: the normalised words, and the sum of the squares of their scores. -/
def normalize [Add F] [Mul F] [Div F] (total : F) :
    List (ScoredWord F) → F → List (ScoredWord F) × F
  | [], magnitude => ([], magnitude)
  | elem :: rest, magnitude =>
      let normalized := elem.score / total
      let (rest, magnitude) := normalize total rest (magnitude + normalized * normalized)
      ({ elem with score := normalized } :: rest, magnitude)

def build [Zero F] [NatCast F] [Add F] [Mul F] [Div F] (sqrt : F → F)
    (accumulator : WordAccumulator F) : WordAccumulator F :=
  let (scoredWords, sum) := normalize (accumulator.totalWords : F) accumulator.scoredWords 0
  { accumulator with
    scoredWords := scoredWords
    magnitude := sqrt sum }

/-- The additions of some words, each with the answer the map gives. -/
def addAll [One F] [Add F] (accumulator : WordAccumulator F)
    (additions : List (WordSearch × StringView)) : Option (WordAccumulator F) :=
  additions.foldlM (fun accumulator addition => accumulator.add addition.1 addition.2) accumulator

/-- The map leads to words there are. -/
def Live (accumulator : WordAccumulator F) : Prop :=
  ∀ entry ∈ accumulator.wordsByStr, entry.2 < accumulator.scoredWords.length

theorem live_new [Zero F] : Live (new : WordAccumulator F) := by
  intro entry member
  simp [new] at member

theorem live_add [One F] [Add F] {accumulator : WordAccumulator F} (live : Live accumulator)
    (search : WordSearch) (word : StringView) :
    ∃ later, accumulator.add search word = some later ∧ Live later := by
  rw [add]
  cases answer : search.find accumulator.wordsByStr word with
  | none =>
      refine ⟨_, rfl, ?_⟩
      intro entry member
      rw [List.length_append, List.length_singleton]
      rcases List.mem_append.mp member with earlier | added
      · have inside := live entry earlier
        omega
      · rw [List.mem_singleton.mp added]
        simp
  | some existingIndex =>
      have inside : existingIndex.2 < accumulator.scoredWords.length :=
        live existingIndex (search.found _ _ _ answer)
      refine ⟨_, congrArg (Option.map _) (List.getElem?_eq_getElem inside), ?_⟩
      intro entry member
      rw [List.length_set]
      exact live entry member

theorem live_add_all [One F] [Add F] {accumulator : WordAccumulator F} (live : Live accumulator)
    (additions : List (WordSearch × StringView)) :
    ∃ later, accumulator.addAll additions = some later := by
  induction additions generalizing accumulator with
  | nil => exact ⟨accumulator, rfl⟩
  | cons addition additions ih =>
      obtain ⟨middle, added, liveMiddle⟩ := live_add live addition.1 addition.2
      obtain ⟨later, addedAll⟩ := ih liveMiddle
      refine ⟨later, ?_⟩
      rw [addAll, List.foldlM_cons, added]
      exact addedAll

/-- The scores count the additions. -/
structure Counted (accumulator : WordAccumulator ℝ) : Prop where
  total : (accumulator.scoredWords.map (·.score)).sum = accumulator.totalWords
  positive : ∀ elem ∈ accumulator.scoredWords, 1 ≤ elem.score

theorem counted_new : Counted new where
  total := by simp [new]
  positive := by simp [new]

theorem sum_scores_set {words : List (ScoredWord ℝ)} {index : Nat} (inside : index < words.length)
    (elem : ScoredWord ℝ) :
    ((words.set index elem).map (·.score)).sum =
      (words.map (·.score)).sum - words[index].score + elem.score := by
  have inScores : index < (words.map (·.score)).length := by
    rw [List.length_map]
    exact inside
  rw [List.map_set, List.sum_set', dif_pos inScores, List.getElem_map]
  ring

theorem counted_add {accumulator later : WordAccumulator ℝ} (counted : Counted accumulator)
    {search : WordSearch} {word : StringView} (added : accumulator.add search word = some later) :
    Counted later ∧ later.totalWords = accumulator.totalWords + 1 := by
  rw [add] at added
  cases answer : search.find accumulator.wordsByStr word with
  | none =>
      rw [answer] at added
      cases added
      refine ⟨?_, rfl⟩
      constructor
      · simp [counted.total, ScoredWord.new, ScoredWord.scored]
      · intro elem member
        rcases List.mem_append.mp member with earlier | isNew
        · exact counted.positive elem earlier
        · rw [List.mem_singleton.mp isNew]
          exact le_refl 1
  | some existingIndex =>
      rw [answer] at added
      obtain ⟨existing, found, rfl⟩ := Option.map_eq_some_iff.mp added
      obtain ⟨inside, rfl⟩ := List.getElem?_eq_some_iff.mp found
      refine ⟨?_, rfl⟩
      constructor
      · simp only [sum_scores_set inside, counted.total]
        push_cast
        ring
      · intro elem member
        rcases List.mem_or_eq_of_mem_set member with earlier | rfl
        · exact counted.positive elem earlier
        · have before := counted.positive _ (List.getElem_mem inside)
          change 1 ≤ _ + (1 : ℝ)
          linarith

theorem counted_add_all {accumulator later : WordAccumulator ℝ} (counted : Counted accumulator)
    {additions : List (WordSearch × StringView)}
    (added : accumulator.addAll additions = some later) :
    Counted later ∧ later.totalWords = accumulator.totalWords + additions.length := by
  induction additions generalizing accumulator with
  | nil =>
      cases added
      exact ⟨counted, rfl⟩
  | cons addition additions ih =>
      rw [addAll, List.foldlM_cons] at added
      obtain ⟨middle, addedOne, addedRest⟩ := Option.bind_eq_some_iff.mp added
      obtain ⟨countedMiddle, one⟩ := counted_add counted addedOne
      obtain ⟨countedLater, more⟩ := ih countedMiddle addedRest
      refine ⟨countedLater, ?_⟩
      rw [more, one, List.length_cons]
      omega

theorem normalize_eq (total : ℝ) (words : List (ScoredWord ℝ)) (magnitude : ℝ) :
    normalize total words magnitude =
      (words.map fun elem => { elem with score := elem.score / total },
        magnitude + (words.map fun elem => (elem.score / total) ^ 2).sum) := by
  induction words generalizing magnitude with
  | nil => simp [normalize]
  | cons elem rest ih =>
      rw [normalize, ih, List.map_cons, List.map_cons, List.sum_cons]
      apply Prod.ext
      · rfl
      · change _ + _ * _ + _ = _
        ring

theorem scores_built (accumulator : WordAccumulator ℝ) :
    (accumulator.build Real.sqrt).scoredWords.map (·.score) =
      (accumulator.scoredWords.map (·.score)).map (· / (accumulator.totalWords : ℝ)) := by
  rw [build, normalize_eq]
  simp

theorem magnitude_built (accumulator : WordAccumulator ℝ) :
    (accumulator.build Real.sqrt).magnitude ^ 2 =
      ((accumulator.build Real.sqrt).scoredWords.map fun elem => elem.score ^ 2).sum := by
  rw [build, normalize_eq]
  simp only [zero_add, List.map_map]
  apply Real.sq_sqrt
  apply List.sum_nonneg
  intro square member
  obtain ⟨elem, _, rfl⟩ := List.mem_map.mp member
  exact sq_nonneg _

theorem keys_built (accumulator : WordAccumulator ℝ) :
    (accumulator.build Real.sqrt).scoredWords.map (·.key) =
      accumulator.scoredWords.map (·.key) := by
  rw [build, normalize_eq, List.map_map]
  rfl

theorem positive_built {accumulator : WordAccumulator ℝ} (counted : Counted accumulator) :
    ∀ score ∈ (accumulator.build Real.sqrt).scoredWords.map (·.score), 0 < score := by
  rw [scores_built]
  intro score member
  obtain ⟨count, isCount, rfl⟩ := List.mem_map.mp member
  have atLeastOne : ∀ other ∈ accumulator.scoredWords.map (·.score), 1 ≤ other := by
    intro other isOther
    obtain ⟨elem, isElem, rfl⟩ := List.mem_map.mp isOther
    exact counted.positive elem isElem
  have positive : 0 < count := lt_of_lt_of_le one_pos (atLeastOne count isCount)
  have total : count ≤ accumulator.totalWords := by
    rw [← counted.total]
    apply List.single_le_sum _ count isCount
    exact fun other isOther => le_trans zero_le_one (atLeastOne other isOther)
  exact div_pos positive (lt_of_lt_of_le positive total)

theorem sum_squares_of_sum_one {scores : List ℝ} (sum : scores.sum = 1)
    (positive : ∀ score ∈ scores, 0 < score) (atMostOne : ∀ score ∈ scores, score ≤ 1) :
    0 < (scores.map (· ^ 2)).sum ∧ (scores.map (· ^ 2)).sum ≤ 1 := by
  constructor
  · apply List.sum_pos
    · intro square member
      obtain ⟨score, isScore, rfl⟩ := List.mem_map.mp member
      exact pow_pos (positive score isScore) 2
    · rintro empty
      rw [List.map_eq_nil_iff.mp empty] at sum
      simp at sum
  · calc (scores.map (· ^ 2)).sum ≤ (scores.map id).sum := by
          apply List.sum_le_sum
          intro score isScore
          have above := positive score isScore
          have below := atMostOne score isScore
          change score ^ 2 ≤ score
          nlinarith only [above, below]
      _ = 1 := by rw [List.map_id, sum]

/-- Whatever the map answers, the additions succeed. The scores of at least one addition are then
normalised; without additions there is nothing to divide. -/
theorem document_vector_normalized (additions : List (WordSearch × StringView)) :
    ∃ accumulator, new.addAll additions = some accumulator ∧
      (additions ≠ [] →
        ((accumulator.build Real.sqrt).scoredWords.map (·.score)).sum = 1 ∧
        (∀ elem ∈ (accumulator.build Real.sqrt).scoredWords, 0 < elem.score ∧ elem.score ≤ 1) ∧
        (accumulator.build Real.sqrt).magnitude ^ 2 =
          ((accumulator.build Real.sqrt).scoredWords.map fun elem => elem.score ^ 2).sum ∧
        0 < (accumulator.build Real.sqrt).magnitude ^ 2 ∧
        (accumulator.build Real.sqrt).magnitude ^ 2 ≤ 1) ∧
      (additions = [] → ∀ division : Div ℝ,
        (@build ℝ _ _ _ _ division Real.sqrt accumulator).scoredWords = [] ∧
        (@build ℝ _ _ _ _ division Real.sqrt accumulator).magnitude = 0) := by
  obtain ⟨accumulator, added⟩ := live_add_all (F := ℝ) live_new additions
  obtain ⟨counted, total⟩ := counted_add_all counted_new added
  refine ⟨accumulator, added, ?_, ?_⟩
  · intro some
    have positive : (0 : ℝ) < accumulator.totalWords := by
      rw [total]
      exact_mod_cast Nat.add_pos_right _ (List.length_pos_iff.mpr some)
    have sum : ((accumulator.build Real.sqrt).scoredWords.map (·.score)).sum = 1 := by
      simp only [scores_built, div_eq_mul_inv]
      rw [List.sum_map_mul_right, List.map_id', counted.total]
      exact mul_inv_cancel₀ (ne_of_gt positive)
    have isPositive := positive_built counted
    have atMostOne : ∀ score ∈ (accumulator.build Real.sqrt).scoredWords.map (·.score),
        score ≤ 1 := by
      intro score member
      rw [← sum]
      exact List.single_le_sum (fun other isOther => le_of_lt (isPositive other isOther)) score
        member
    have squares := sum_squares_of_sum_one sum isPositive atMostOne
    rw [List.map_map] at squares
    have magnitude := magnitude_built accumulator
    refine ⟨sum, ?_, magnitude, magnitude ▸ squares.1, magnitude ▸ squares.2⟩
    intro elem member
    have isScore := List.mem_map_of_mem (f := (·.score)) member
    exact ⟨isPositive _ isScore, atMostOne _ isScore⟩
  · intro none division
    subst none
    cases added
    exact ⟨rfl, Real.sqrt_zero⟩

end WordAccumulator

end Relevanced.TextUtil

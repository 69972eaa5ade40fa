import Relevanced.Tokenizer.DestructiveTokenIterator

/-!
# Ranges of tokens

The tokens of a text are its maximal runs of at least three letters. The iterator finds
each of them, and its start; where it says that a token ends depends on the separator
that follows.
-/

namespace Relevanced.Tokenizer

open Foundation
open Libunicode

set_option autoImplicit false

/-- The range of bytes of a maximal run of at least three letters, between what lies before and
after the run. -/
structure IsToken (points : List Nat) (range : Nat × Nat) (before run after : List Nat) :
    Prop where
  split : points = before ++ (run ++ after)
  start : range.1 = (Utf8.encodeAll before).length
  stop : range.2 = (Utf8.encodeAll (before ++ run)).length
  long : 3 ≤ run.length
  letters : ∀ point ∈ run, isTokenLetter point = true
  leftEnd : ∀ point ∈ before.getLast?, isTokenLetter point = false
  rightEnd : ∀ point ∈ after.head?, isTokenLetter point = false

/-- The ranges of all the tokens, in order and each once. -/
structure ExactRanges (points : List Nat) (ranges : List (Nat × Nat)) : Prop where
  ordered : ranges.Pairwise fun first second => first.1 < second.1
  tokens : ∀ range, range ∈ ranges ↔ ∃ before run after, IsToken points range before run after

/-- Whatever ends a token is a separator of one byte, and not the last code point of the text. -/
def SingleByteSeparators (points : List Nat) : Prop :=
  ∀ range before run separator after, IsToken points range before run (separator :: after) →
    Utf8.width separator = 1 ∧ after ≠ []

namespace DestructiveTokenIterator

theorem is_token_of_stretch {points before run : List Nat} {stretch : Stretch Nat}
    (isStretch : IsStretch isTokenLetter Utf8.width 2 0 points stretch before run) :
    IsToken points (stretch.start, stretch.finish) before run stretch.after where
  split := isStretch.split
  start := by
    rw [length_encode_all, isStretch.start, Nat.zero_add]
  stop := by
    rw [length_encode_all, total_width_append, isStretch.finish, isStretch.start, Nat.zero_add]
  long := isStretch.long
  letters := isStretch.inside
  leftEnd := isStretch.leftEnd
  rightEnd := isStretch.rightEnd

theorem stretch_of_is_token {points before run after : List Nat} {range : Nat × Nat}
    (isToken : IsToken points range before run after) :
    IsStretch isTokenLetter Utf8.width 2 0 points ⟨range.1, range.2, after⟩ before run where
  split := isToken.split
  start := by
    rw [isToken.start, length_encode_all, Nat.zero_add]
  finish := by
    rw [isToken.stop, isToken.start, length_encode_all, length_encode_all, total_width_append]
  long := isToken.long
  inside := isToken.letters
  leftEnd := isToken.leftEnd
  rightEnd := isToken.rightEnd

theorem mem_words_iff (points : List Nat) (stretch : Stretch Nat) :
    stretch ∈ words points 0 0 0 ↔
      ∃ before run, IsToken points (stretch.start, stretch.finish) before run stretch.after := by
  have found : stretch ∈ stretches isTokenLetter Utf8.width 2 points ([] : List Nat).length 0
      (0 + totalWidth Utf8.width []) ↔ _ := mem_stretches_iff (by simp) points 0 stretch
  simp only [List.length_nil, total_width_nil, Nat.add_zero, List.nil_append] at found
  rw [words, found]
  constructor
  · rintro ⟨before, run, isStretch⟩
    exact ⟨before, run, is_token_of_stretch isStretch⟩
  · rintro ⟨before, run, isToken⟩
    exact ⟨before, run, stretch_of_is_token isToken⟩

theorem words_exact (points : List Nat) :
    ExactRanges points
      ((words points 0 0 0).map fun stretch => (stretch.start, stretch.finish)) := by
  constructor
  · apply List.pairwise_map.mpr
    exact (stretches_ascending Utf8.width_pos points (Nat.le_refl 0)).1
  · intro range
    rw [List.mem_map]
    constructor
    · rintro ⟨stretch, member, rfl⟩
      obtain ⟨before, run, isToken⟩ := (mem_words_iff points stretch).mp member
      exact ⟨before, run, stretch.after, isToken⟩
    · rintro ⟨before, run, after, isToken⟩
      exact ⟨⟨range.1, range.2, after⟩, (mem_words_iff points _).mpr ⟨before, run, isToken⟩, rfl⟩

theorem exact_ranges_unique {points : List Nat} {left right : List (Nat × Nat)}
    (leftExact : ExactRanges points left) (rightExact : ExactRanges points right) :
    left = right := by
  have irreflexive : Std.Irrefl fun first second : Nat × Nat => first.1 < second.1 :=
    ⟨fun range => Nat.lt_irrefl range.1⟩
  have antisymmetric : Std.Antisymm fun first second : Nat × Nat => first.1 < second.1 :=
    ⟨fun _ _ before after => absurd before (Nat.lt_asymm after)⟩
  apply leftExact.ordered.eq_of_mem_iff rightExact.ordered
  intro range
  rw [leftExact.tokens, rightExact.tokens]

theorem yielded_finish_eq_iff (stretch : Stretch Nat) :
    yieldedFinish stretch = stretch.finish ↔
      ∀ separator after, stretch.after = separator :: after →
        Utf8.width separator = 1 ∧ after ≠ [] := by
  obtain ⟨start, finish, after⟩ := stretch
  cases after with
  | nil => simp [yieldedFinish]
  | cons separator after =>
      have positive := Utf8.width_pos separator
      cases after with
      | nil =>
          simp only [yieldedFinish]
          constructor
          · intro same
            omega
          · intro all
            exact absurd rfl (all separator [] rfl).2
      | cons other after =>
          simp only [yieldedFinish]
          constructor
          · intro same later rest isAfter
            cases isAfter
            exact ⟨by omega, List.cons_ne_nil other after⟩
          · intro all
            have single := (all separator (other :: after) rfl).1
            omega

/-- The iterator yields the exact ranges of the tokens of a text when, and only when, every token
is ended by a separator of one byte before the last code point, or by the end of the text. -/
theorem exact_ranges_iff {utf8 : Utf8.Library} (standard : utf8.Standard) (points : List Nat)
    (scalar : ∀ point ∈ points, IsScalar point) :
    ∃ yielded it, tokenize utf8 (Utf8.encodeAll points) = some (yielded, it) ∧
      (ExactRanges points yielded ↔ SingleByteSeparators points) := by
  refine ⟨_, _, tokenize_encoded standard scalar, ?_⟩
  have exactly : ExactRanges points
      ((words points 0 0 0).map fun stretch => (stretch.start, yieldedFinish stretch)) ↔
        ∀ stretch ∈ words points 0 0 0, yieldedFinish stretch = stretch.finish := by
    constructor
    · intro exact stretch member
      have same :=
        List.map_inj_left.mp (exact_ranges_unique exact (words_exact points)) stretch member
      exact congrArg Prod.snd same
    · intro all
      have same : ((words points 0 0 0).map fun stretch => (stretch.start, yieldedFinish stretch)) =
          (words points 0 0 0).map fun stretch => (stretch.start, stretch.finish) := by
        apply List.map_congr_left
        intro stretch member
        rw [all stretch member]
      rw [same]
      exact words_exact points
  rw [exactly]
  constructor
  · intro all range before run separator after isToken
    have member := (mem_words_iff points ⟨range.1, range.2, separator :: after⟩).mpr
      ⟨before, run, isToken⟩
    exact (yielded_finish_eq_iff _).mp (all _ member) separator after rfl
  · intro single stretch member
    obtain ⟨before, run, isToken⟩ := (mem_words_iff points stretch).mp member
    apply (yielded_finish_eq_iff stretch).mpr
    intro separator after isAfter
    rw [isAfter] at isToken
    exact single _ before run separator after isToken

/-- Two words and a space between them. -/
theorem two_words_exact :
    ∃ yielded it, tokenize Utf8.library (Utf8.encodeAll [116, 104, 101, 32, 100, 111, 103]) =
        some (yielded, it) ∧
      (ExactRanges [116, 104, 101, 32, 100, 111, 103] yielded ↔
        SingleByteSeparators [116, 104, 101, 32, 100, 111, 103]) :=
  exact_ranges_iff Utf8.library_standard [116, 104, 101, 32, 100, 111, 103] (by decide)

/-- The space that ends the text is counted to the word before it. -/
theorem final_separator_in_token :
    ∃ it, tokenize Utf8.library (Utf8.encodeAll [116, 104, 101, 32]) = some ([(0, 4)], it) ∧
      ¬ ExactRanges [116, 104, 101, 32] [(0, 4)] := by
  refine ⟨_, tokenize_encoded Utf8.library_standard (by decide), ?_⟩
  intro exact
  have same := exact_ranges_unique exact (words_exact [116, 104, 101, 32])
  revert same
  decide

end DestructiveTokenIterator

end Relevanced.Tokenizer

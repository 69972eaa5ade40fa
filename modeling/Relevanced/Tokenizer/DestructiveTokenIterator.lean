import Relevanced.Foundation.Stretches
import Relevanced.Libunicode.CodePointSupport

/-!
# DestructiveTokenIterator

The iterator decodes a text one code point at a time, writes each back normalised
into the buffer it reads from, and yields the byte ranges of words. The two functions
of the UTF-8 library are a parameter. Writing never overtakes reading, since
normalisation keeps the width of a code point.
-/

namespace Relevanced.Tokenizer

open Foundation
open Libunicode

set_option autoImplicit false

/-- The pointers are offsets from the first byte of the text. -/
structure DestructiveTokenIterator where
  text : Bytes
  inputIter : Nat
  inputEnd : Nat
  outputIter : Nat

/-- Bytes written into a buffer. -/
def overwrite (buffer : Bytes) (offset : Nat) (bytes : Bytes) : Bytes :=
  buffer.take offset ++ (bytes ++ buffer.drop (offset + bytes.length))

theorem overwrite_middle {front old new rest : Bytes} (sameLength : new.length = old.length) :
    overwrite (front ++ (old ++ rest)) front.length new = front ++ (new ++ rest) := by
  rw [overwrite, List.take_left, sameLength, ← List.append_assoc, ← List.append_assoc,
    ← List.length_append, List.drop_left, List.append_assoc]

namespace DestructiveTokenIterator

def new (text : Bytes) : DestructiveTokenIterator where
  text := text
  inputIter := 0
  inputEnd := text.length
  outputIter := 0

variable (utf8 : Utf8.Library)

/-- What the loop does with one code point, and whether it is a letter; nothing where the library
throws. -/
def handle (it : DestructiveTokenIterator) : Option (Bool × DestructiveTokenIterator) := do
  let (codePoint, size) ← utf8.next ((it.text.take it.inputEnd).drop it.inputIter)
  let block := getUnicodeBlock codePoint
  let normalized := normalizeCodePointIn codePoint block
  let written := utf8.append normalized
  pure (isLetterPointIn normalized block,
    { it with
      text := overwrite it.text it.outputIter written
      inputIter := it.inputIter + size
      outputIter := it.outputIter + written.length })

/-- The `while` loop of `next`, for at most so many code points: the size and the start of the word
it ends with. -/
def readWord : Nat → Nat → Nat → DestructiveTokenIterator →
    Option (Nat × Nat × DestructiveTokenIterator)
  | 0, currentSize, currentStart, it =>
      if it.inputIter ≠ it.inputEnd then none else some (currentSize, currentStart, it)
  | points + 1, currentSize, currentStart, it =>
      if it.inputIter ≠ it.inputEnd then do
        let (isLetter, it) ← it.handle utf8
        if isLetter then readWord points (currentSize + 1) currentStart it
        else if currentSize > 2 then some (currentSize, currentStart, it)
        else readWord points 0 it.inputIter it
      else some (currentSize, currentStart, it)

/-- The tuple that is filled in: its first component is also what `next` returns. -/
def next (it : DestructiveTokenIterator) :
    Option ((Bool × Nat × Nat) × DestructiveTokenIterator) :=
  if it.inputIter ≠ it.inputEnd then do
    let (currentSize, currentStart, it) ←
      readWord utf8 (it.inputEnd - it.inputIter) 0 it.inputIter it
    if currentSize > 2 then
      let endChar := if it.inputIter ≠ it.inputEnd then it.inputIter - 1 else it.inputIter
      pure ((true, currentStart, endChar), it)
    else pure ((false, 0, 0), it)
  else pure ((false, 0, 0), it)

/-- `next` until it returns false, at most so many times: the ranges it has yielded. -/
def ranges : Nat → DestructiveTokenIterator → Option (List (Nat × Nat) × DestructiveTokenIterator)
  | 0, _ => none
  | calls + 1, it => do
      let ((found, start, stop), it) ← it.next utf8
      if found then
        let (later, it) ← ranges calls it
        pure ((start, stop) :: later, it)
      else pure ([], it)

/-- A whole text; each call but the last reads at least one byte. -/
def tokenize (text : Bytes) : Option (List (Nat × Nat) × DestructiveTokenIterator) :=
  ranges utf8 (text.length + 1) (new text)

/-- The states of an iterator after each code point it handles. -/
inductive Handled (start : DestructiveTokenIterator) : DestructiveTokenIterator → Prop where
  | start : Handled start start
  | handle (it later : DestructiveTokenIterator) (isLetter : Bool) (handled : Handled start it)
      (more : it.inputIter ≠ it.inputEnd) (step : it.handle utf8 = some (isLetter, later)) :
      Handled start later

/-- The state when some code points have been handled, and some bytes not. -/
def readUpTo (done : List Nat) (rest : Bytes) : DestructiveTokenIterator where
  text := Utf8.encodeAll (done.map normalizeCodePoint) ++ rest
  inputIter := totalWidth Utf8.width done
  inputEnd := totalWidth Utf8.width done + rest.length
  outputIter := totalWidth Utf8.width done

/-- The state when some code points of a text have been handled and the rest have not. -/
def between (done rest : List Nat) : DestructiveTokenIterator where
  text := Utf8.encodeAll (done.map normalizeCodePoint) ++ Utf8.encodeAll rest
  inputIter := totalWidth Utf8.width done
  inputEnd := totalWidth Utf8.width (done ++ rest)
  outputIter := totalWidth Utf8.width done

theorem length_encode_all (points : List Nat) :
    (Utf8.encodeAll points).length = totalWidth Utf8.width points := by
  induction points with
  | nil => rfl
  | cons point points ih =>
      rw [Utf8.encode_all_cons, List.length_append, ih, total_width_cons]
      rfl

theorem total_width_normalized (points : List Nat) :
    totalWidth Utf8.width (points.map normalizeCodePoint) = totalWidth Utf8.width points := by
  induction points with
  | nil => rfl
  | cons point points ih => simp [ih, width_normalized]

theorem new_eq_read_up_to (text : Bytes) : new text = readUpTo [] text := by
  simp [new, readUpTo]

theorem between_eq_read_up_to (done rest : List Nat) :
    between done rest = readUpTo done (Utf8.encodeAll rest) := by
  rw [between, readUpTo, length_encode_all, total_width_append]

theorem new_eq_between (points : List Nat) : new (Utf8.encodeAll points) = between [] points := by
  rw [new_eq_read_up_to, between_eq_read_up_to]

theorem length_normalized (points : List Nat) :
    (Utf8.encodeAll (points.map normalizeCodePoint)).length = totalWidth Utf8.width points := by
  rw [length_encode_all, total_width_normalized]

theorem unread (done rest : List Nat) :
    (between done rest).text.drop (between done rest).inputIter = Utf8.encodeAll rest := by
  change List.drop (totalWidth Utf8.width done)
    (Utf8.encodeAll (done.map normalizeCodePoint) ++ Utf8.encodeAll rest) = _
  rw [← length_normalized, List.drop_left]

theorem unread_of_read_up_to (done : List Nat) (rest : Bytes) :
    ((readUpTo done rest).text.take (readUpTo done rest).inputEnd).drop
      (readUpTo done rest).inputIter = rest := by
  change List.drop (totalWidth Utf8.width done)
    (List.take (totalWidth Utf8.width done + rest.length)
    (Utf8.encodeAll (done.map normalizeCodePoint) ++ rest)) = rest
  rw [← length_normalized, ← List.length_append, List.take_length, List.drop_left]

theorem at_end_iff (done rest : List Nat) :
    (between done rest).inputIter = (between done rest).inputEnd ↔ rest = [] := by
  change totalWidth Utf8.width done = totalWidth Utf8.width (done ++ rest) ↔ rest = []
  rw [total_width_append]
  cases rest with
  | nil => simp
  | cons point points =>
      have positive := Utf8.width_pos point
      rw [total_width_cons]
      simp
      omega

theorem read_word_at_end (points currentSize currentStart : Nat) (done : List Nat) :
    readWord utf8 points currentSize currentStart (between done []) =
      some (currentSize, currentStart, between done []) := by
  have ended : ¬ (between done []).inputIter ≠ (between done []).inputEnd :=
    not_not.mpr ((at_end_iff done []).mpr rfl)
  cases points with
  | zero => rw [readWord, if_neg ended]
  | succ points => rw [readWord, if_neg ended]

/-- Where `next` says a word ends: at the last word of the text, behind what follows it; otherwise
one byte before the end of what follows it. -/
def yieldedFinish (stretch : Stretch Nat) : Nat :=
  match stretch.after with
  | [] => stretch.finish
  | [separator] => stretch.finish + Utf8.width separator
  | separator :: _ :: _ => stretch.finish + Utf8.width separator - 1

/-- The words of what is left, from the size and the start of the current one. -/
abbrev words (rest : List Nat) (currentSize currentStart position : Nat) : List (Stretch Nat) :=
  stretches isTokenLetter Utf8.width 2 rest currentSize currentStart position

/-- What the loop of `next` leaves: the rest of the text after some more code points, of which it
has read all or found the first word. -/
inductive WordRead (done rest : List Nat) (currentSize currentStart size : Nat) :
    Nat → DestructiveTokenIterator → Prop where
  | none (start : Nat) (short : size ≤ 2)
      (noWords : words rest currentSize currentStart (totalWidth Utf8.width done) = []) :
      WordRead done rest currentSize currentStart size start (between (done ++ rest) [])
  | word (more left : List Nat) (stretch : Stretch Nat) (long : size > 2)
      (split : rest = more ++ left) (progress : left.length ≤ rest.length - 1)
      (first : words rest currentSize currentStart (totalWidth Utf8.width done) =
        stretch :: words left 0 (totalWidth Utf8.width (done ++ more))
          (totalWidth Utf8.width (done ++ more)))
      (finish : yieldedFinish stretch = if left ≠ [] then totalWidth Utf8.width (done ++ more) - 1
        else totalWidth Utf8.width (done ++ more)) :
      WordRead done rest currentSize currentStart size stretch.start (between (done ++ more) left)

theorem WordRead.cons {done rest : List Nat} {point size start currentSize currentStart : Nat}
    {laterSize laterStart : Nat} {it : DestructiveTokenIterator}
    (read : WordRead (done ++ [point]) rest laterSize laterStart size start it)
    (same : words (point :: rest) currentSize currentStart (totalWidth Utf8.width done) =
      words rest laterSize laterStart (totalWidth Utf8.width (done ++ [point]))) :
    WordRead done (point :: rest) currentSize currentStart size start it := by
  cases read with
  | none start short noWords =>
      rw [List.append_assoc, List.singleton_append]
      exact .none start short (same.trans noWords)
  | word more left stretch long split progress first finish =>
      rw [List.append_assoc, List.singleton_append] at first finish
      rw [List.append_assoc, List.singleton_append]
      apply WordRead.word (point :: more) left stretch long
      · rw [split, List.cons_append]
      · rw [List.length_cons]
        omega
      · exact same.trans first
      · exact finish

theorem word_read_at_end (done : List Nat) (currentSize currentStart : Nat) :
    WordRead done [] currentSize currentStart currentSize currentStart (between done []) := by
  have noMore : between done [] = between (done ++ []) [] := by
    rw [List.append_nil]
  rw [noMore]
  by_cases long : currentSize > 2
  · have found : words [] currentSize currentStart (totalWidth Utf8.width done) =
        [⟨currentStart, totalWidth Utf8.width done, []⟩] := if_pos long
    apply WordRead.word [] [] ⟨currentStart, totalWidth Utf8.width done, []⟩ long rfl
    · exact Nat.zero_le _
    · rw [List.append_nil, found]
      rfl
    · rw [List.append_nil]
      rfl
  · exact .none currentStart (Nat.le_of_not_lt long) (if_neg long)

theorem word_read_at_separator {point : Nat} (separator : isTokenLetter point = false)
    (done rest : List Nat) {currentSize : Nat} (long : currentSize > 2) (currentStart : Nat) :
    WordRead done (point :: rest) currentSize currentStart currentSize currentStart
      (between (done ++ [point]) rest) := by
  have forward : totalWidth Utf8.width done + Utf8.width point =
      totalWidth Utf8.width (done ++ [point]) := by
    simp
  apply WordRead.word [point] rest
    ⟨currentStart, totalWidth Utf8.width done, point :: rest⟩ long rfl
  · exact Nat.le_refl rest.length
  · change stretches isTokenLetter Utf8.width 2 (point :: rest) _ _ _ = _
    rw [stretches, separator, if_neg Bool.false_ne_true, if_pos long, forward]
  · rw [← forward]
    cases rest with
    | nil => rfl
    | cons other rest => rfl

section Standard

variable {utf8} (standard : utf8.Standard)

include standard

theorem handle_code_point {point : Nat} (scalar : IsScalar point) {left : Bytes}
    (read : utf8.next (Utf8.encode point ++ left) = some (point, Utf8.width point))
    (done : List Nat) :
    (readUpTo done (Utf8.encode point ++ left)).handle utf8 =
      some (isTokenLetter point, readUpTo (done ++ [point]) left) := by
  have written : utf8.append (normalizeCodePointIn point (getUnicodeBlock point)) =
      Utf8.encode (normalizeCodePoint point) :=
    standard.append _ (scalar_normalized scalar)
  have width : (Utf8.encode (normalizeCodePoint point)).length = Utf8.width point :=
    width_normalized point
  have text : overwrite (readUpTo done (Utf8.encode point ++ left)).text
      (readUpTo done (Utf8.encode point ++ left)).outputIter
        (Utf8.encode (normalizeCodePoint point)) = (readUpTo (done ++ [point]) left).text := by
    change overwrite (Utf8.encodeAll (done.map normalizeCodePoint) ++ (Utf8.encode point ++ left))
      (totalWidth Utf8.width done) _ = _
    rw [← length_normalized, overwrite_middle width]
    simp [readUpTo]
  have forward : totalWidth Utf8.width done + Utf8.width point =
      totalWidth Utf8.width (done ++ [point]) := by
    simp
  have bound : (readUpTo done (Utf8.encode point ++ left)).inputEnd =
      (readUpTo (done ++ [point]) left).inputEnd := by
    change _ + (Utf8.encode point ++ left).length = totalWidth Utf8.width (done ++ [point]) + _
    rw [List.length_append, ← forward, Nat.add_assoc]
    rfl
  rw [handle, unread_of_read_up_to, read]
  simp only [Option.bind_eq_bind, Option.bind_some, Option.pure_def, written, width, text, bound]
  change some (_, DestructiveTokenIterator.mk _ (totalWidth Utf8.width done + Utf8.width point) _
    (totalWidth Utf8.width done + Utf8.width point)) = _
  rw [forward]
  rfl

theorem handle_between {point : Nat} (scalar : IsScalar point) (done rest : List Nat) :
    (between done (point :: rest)).handle utf8 =
      some (isTokenLetter point, between (done ++ [point]) rest) := by
  rw [between_eq_read_up_to, between_eq_read_up_to, Utf8.encode_all_cons]
  exact handle_code_point standard scalar (standard.next point (Utf8.encodeAll rest) scalar) done

theorem read_word_between {rest : List Nat} (scalar : ∀ point ∈ rest, IsScalar point)
    {points : Nat} (enough : rest.length ≤ points) (done : List Nat)
    (currentSize currentStart : Nat) :
    ∃ size start it, readWord utf8 points currentSize currentStart (between done rest) =
        some (size, start, it) ∧ WordRead done rest currentSize currentStart size start it := by
  induction rest generalizing points done currentSize currentStart with
  | nil =>
      rw [read_word_at_end]
      exact ⟨_, _, _, rfl, word_read_at_end done currentSize currentStart⟩
  | cons point rest ih =>
      obtain ⟨isScalar, scalars⟩ := List.forall_mem_cons.mp scalar
      have more : (between done (point :: rest)).inputIter ≠
          (between done (point :: rest)).inputEnd := by
        intro ended
        cases (at_end_iff done (point :: rest)).mp ended
      cases points with
      | zero => exact absurd enough (Nat.not_succ_le_zero rest.length)
      | succ points =>
          have enoughLeft := Nat.le_of_succ_le_succ enough
          rw [readWord, if_pos more, handle_between standard isScalar]
          simp only [Option.bind_eq_bind, Option.bind_some]
          have forward : totalWidth Utf8.width done + Utf8.width point =
              totalWidth Utf8.width (done ++ [point]) := by
            simp
          cases isLetter : isTokenLetter point with
          | true =>
              rw [if_pos rfl]
              obtain ⟨size, start, it, read, wordRead⟩ :=
                ih scalars enoughLeft (done ++ [point]) (currentSize + 1) currentStart
              refine ⟨size, start, it, read, wordRead.cons ?_⟩
              rw [words, stretches, isLetter, if_pos rfl, forward]
          | false =>
              rw [if_neg Bool.false_ne_true]
              by_cases long : currentSize > 2
              · rw [if_pos long]
                exact ⟨currentSize, currentStart, _, rfl,
                  word_read_at_separator isLetter done rest long currentStart⟩
              · rw [if_neg long]
                obtain ⟨size, start, it, read, wordRead⟩ :=
                  ih scalars enoughLeft (done ++ [point]) 0
                  (between (done ++ [point]) rest).inputIter
                refine ⟨size, start, it, read, wordRead.cons ?_⟩
                rw [words, stretches, isLetter, if_neg Bool.false_ne_true, if_neg long, forward]
                rfl

/-- What a call of `next` yields: the first word of what is left. -/
theorem next_between {rest : List Nat} (scalar : ∀ point ∈ rest, IsScalar point) (done : List Nat) :
    (words rest 0 (totalWidth Utf8.width done) (totalWidth Utf8.width done) = [] ∧
        (between done rest).next utf8 = some ((false, 0, 0), between (done ++ rest) [])) ∨
      ∃ more left stretch, rest = more ++ left ∧ left.length < rest.length ∧
        words rest 0 (totalWidth Utf8.width done) (totalWidth Utf8.width done) =
          stretch :: words left 0 (totalWidth Utf8.width (done ++ more))
            (totalWidth Utf8.width (done ++ more)) ∧
        (between done rest).next utf8 =
          some ((true, stretch.start, yieldedFinish stretch), between (done ++ more) left) := by
  by_cases nothing : rest = []
  · left
    subst nothing
    refine ⟨rfl, ?_⟩
    rw [next, if_neg (not_not.mpr ((at_end_iff done []).mpr rfl)), List.append_nil]
    rfl
  · have more : (between done rest).inputIter ≠ (between done rest).inputEnd :=
      fun ended => nothing ((at_end_iff done rest).mp ended)
    have enough : rest.length ≤ (between done rest).inputEnd - (between done rest).inputIter := by
      change rest.length ≤ totalWidth Utf8.width (done ++ rest) - totalWidth Utf8.width done
      rw [total_width_append, Nat.add_sub_cancel_left]
      exact length_le_total_width Utf8.width_pos rest
    obtain ⟨size, start, it, read, wordRead⟩ := read_word_between standard scalar enough done 0
      (between done rest).inputIter
    rw [next, if_pos more, read]
    simp only [Option.bind_eq_bind, Option.bind_some]
    cases wordRead with
    | none start short noWords =>
        left
        refine ⟨noWords, ?_⟩
        rw [if_neg (Nat.not_lt.mpr short)]
        rfl
    | word more left stretch long split progress first finish =>
        right
        refine ⟨more, left, stretch, split, ?_, first, ?_⟩
        · have nonempty := List.length_pos_iff.mpr nothing
          omega
        · rw [if_pos long, finish]
          simp only [ne_eq, at_end_iff]
          rfl

theorem ranges_between {rest : List Nat} (scalar : ∀ point ∈ rest, IsScalar point) {calls : Nat}
    (enough : rest.length < calls) (done : List Nat) :
    ranges utf8 calls (between done rest) =
      some ((words rest 0 (totalWidth Utf8.width done) (totalWidth Utf8.width done)).map
        fun stretch => (stretch.start, yieldedFinish stretch), between (done ++ rest) []) := by
  induction calls generalizing done rest with
  | zero => exact absurd enough (Nat.not_lt_zero _)
  | succ calls ih =>
      rw [ranges]
      rcases next_between standard scalar done with
        ⟨noWords, ended⟩ | ⟨more, left, stretch, split, shorter, first, yielded⟩
      · rw [ended, noWords]
        rfl
      · have later := @ih left
          (fun point member => scalar point (split ▸ List.mem_append_right more member))
          (by omega) (done ++ more)
        rw [yielded, first]
        simp only [Option.bind_eq_bind, Option.bind_some, if_true, later]
        rw [split, List.append_assoc]
        rfl

/-- What the iterator makes of a text: the ranges of its words, and the normalised text. -/
theorem tokenize_encoded {points : List Nat} (scalar : ∀ point ∈ points, IsScalar point) :
    tokenize utf8 (Utf8.encodeAll points) =
      some ((words points 0 0 0).map fun stretch => (stretch.start, yieldedFinish stretch),
        between points []) := by
  have enough : points.length < (Utf8.encodeAll points).length + 1 := by
    rw [length_encode_all]
    exact Nat.lt_succ_of_le (length_le_total_width Utf8.width_pos points)
  rw [tokenize, new_eq_between]
  exact ranges_between standard scalar enough []

end Standard

section Handling

variable {utf8} {start it later : DestructiveTokenIterator}

theorem Handled.trans (first : Handled utf8 start it) (second : Handled utf8 it later) :
    Handled utf8 start later := by
  induction second with
  | start => exact first
  | handle middle next isLetter handled more step ih =>
      exact .handle middle next isLetter ih more step

theorem handled_of_read_word {points currentSize currentStart : Nat} {size wordStart : Nat}
    (read : readWord utf8 points currentSize currentStart it = some (size, wordStart, later)) :
    Handled utf8 it later ∧ (¬ size > 2 → later.inputIter = later.inputEnd) := by
  induction points generalizing it currentSize currentStart with
  | zero =>
      rw [readWord] at read
      split at read
      · cases read
      · rename_i atEnd
        cases read
        exact ⟨.start, fun _ => not_not.mp atEnd⟩
  | succ points ih =>
      rw [readWord] at read
      split at read
      · rename_i more
        obtain ⟨⟨isLetter, middle⟩, step, remaining⟩ := Option.bind_eq_some_iff.mp read
        have one : Handled utf8 it middle := .handle it middle isLetter .start more step
        dsimp only at remaining
        split at remaining
        · obtain ⟨handled, ended⟩ := ih remaining
          exact ⟨one.trans handled, ended⟩
        · split at remaining
          · rename_i long
            cases remaining
            exact ⟨one, fun short => absurd long short⟩
          · obtain ⟨handled, ended⟩ := ih remaining
            exact ⟨one.trans handled, ended⟩
      · rename_i atEnd
        cases read
        exact ⟨.start, fun _ => not_not.mp atEnd⟩

theorem handled_of_next {range : Bool × Nat × Nat} (stepped : it.next utf8 = some (range, later)) :
    Handled utf8 it later ∧ (range.1 = false → later.inputIter = later.inputEnd) := by
  rw [next] at stepped
  split at stepped
  · obtain ⟨⟨size, wordStart, middle⟩, read, remaining⟩ := Option.bind_eq_some_iff.mp stepped
    obtain ⟨handled, ended⟩ := handled_of_read_word read
    dsimp only at remaining
    split at remaining
    · cases remaining
      exact ⟨handled, fun found => absurd found (Bool.noConfusion)⟩
    · rename_i short
      cases remaining
      exact ⟨handled, fun _ => ended short⟩
  · rename_i atEnd
    cases stepped
    exact ⟨.start, fun _ => not_not.mp atEnd⟩

theorem handled_of_ranges {calls : Nat} {yielded : List (Nat × Nat)}
    (ran : ranges utf8 calls it = some (yielded, later)) :
    Handled utf8 it later ∧ later.inputIter = later.inputEnd := by
  induction calls generalizing it yielded with
  | zero => cases ran
  | succ calls ih =>
      rw [ranges] at ran
      obtain ⟨⟨⟨found, range⟩, middle⟩, stepped, remaining⟩ := Option.bind_eq_some_iff.mp ran
      obtain ⟨handled, ended⟩ := handled_of_next stepped
      dsimp only at remaining
      split at remaining
      · obtain ⟨⟨rest, last⟩, ranLater, isLast⟩ := Option.bind_eq_some_iff.mp remaining
        cases isLast
        obtain ⟨handledLater, endedLater⟩ := ih ranLater
        exact ⟨handled.trans handledLater, endedLater⟩
      · rename_i notFound
        cases remaining
        exact ⟨handled, ended (Bool.eq_false_of_not_eq_true notFound)⟩

/-- The code points handled so far have been normalised, and the others are as they were. -/
theorem between_of_handled (standard : utf8.Standard) {points : List Nat}
    (scalar : ∀ point ∈ points, IsScalar point)
    (handled : Handled utf8 (new (Utf8.encodeAll points)) it) :
    ∃ done rest, points = done ++ rest ∧ it = between done rest := by
  induction handled with
  | start => exact ⟨[], points, rfl, new_eq_between points⟩
  | handle middle next isLetter handled more step ih =>
      obtain ⟨done, rest, split, rfl⟩ := ih
      cases rest with
      | nil => exact absurd ((at_end_iff done []).mpr rfl) more
      | cons point rest =>
          rw [handle_between standard (scalar point (by simp [split]))] at step
          cases step
          exact ⟨done ++ [point], rest, by simp [split], rfl⟩

end Handling

theorem yielded_finish_map {change : Nat → Nat}
    (sameWidth : ∀ point, Utf8.width (change point) = Utf8.width point) (stretch : Stretch Nat) :
    yieldedFinish { stretch with after := stretch.after.map change } = yieldedFinish stretch := by
  obtain ⟨start, finish, after⟩ := stretch
  cases after with
  | nil => rfl
  | cons separator after =>
      cases after with
      | nil => simp [yieldedFinish, sameWidth]
      | cons other after => simp [yieldedFinish, sameWidth]

/-- The iterator never writes beyond what it has read; a text of code points is left normalised, and
then stays as it is, with the same ranges. -/
theorem normalized_in_place {utf8 : Utf8.Library} (standard : utf8.Standard) (points : List Nat)
    (scalar : ∀ point ∈ points, IsScalar point) :
    (∀ it, Handled utf8 (new (Utf8.encodeAll points)) it →
      it.outputIter = it.inputIter ∧
        it.text.drop it.inputIter = (Utf8.encodeAll points).drop it.inputIter) ∧
      ∃ yielded it, tokenize utf8 (Utf8.encodeAll points) = some (yielded, it) ∧
        Handled utf8 (new (Utf8.encodeAll points)) it ∧
        it.text.length = (Utf8.encodeAll points).length ∧
        it.text = Utf8.encodeAll (points.map normalizeCodePoint) ∧
        ∃ again, tokenize utf8 it.text = some (yielded, again) ∧ again.text = it.text := by
  constructor
  · intro it handled
    obtain ⟨done, rest, split, rfl⟩ := between_of_handled standard scalar handled
    refine ⟨rfl, ?_⟩
    rw [unread, split, Utf8.encode_all_append]
    change _ = List.drop (totalWidth Utf8.width done) _
    rw [← length_encode_all, List.drop_left]
  · have tokenized := tokenize_encoded standard scalar
    have text : (between points []).text = Utf8.encodeAll (points.map normalizeCodePoint) := by
      simp [between]
    have alsoScalar : ∀ point ∈ points.map normalizeCodePoint, IsScalar point := by
      intro point member
      obtain ⟨original, isThere, rfl⟩ := List.mem_map.mp member
      exact scalar_normalized (scalar original isThere)
    have again := tokenize_encoded standard alsoScalar
    have sameRanges : (words (points.map normalizeCodePoint) 0 0 0).map
        (fun stretch => (stretch.start, yieldedFinish stretch)) =
          (words points 0 0 0).map fun stretch => (stretch.start, yieldedFinish stretch) := by
      rw [words, stretches_map is_token_letter_normalized width_normalized, List.map_map]
      apply List.map_congr_left
      intro stretch _
      exact Prod.ext rfl (yielded_finish_map width_normalized stretch)
    refine ⟨_, _, tokenized, (handled_of_ranges tokenized).1, ?_, text,
      between (points.map normalizeCodePoint) [], ?_, ?_⟩
    · rw [text, length_normalized, length_encode_all]
    · rw [text, again, sameRanges]
    · rw [text]
      have twice : (points.map normalizeCodePoint).map normalizeCodePoint =
          points.map normalizeCodePoint := by
        rw [List.map_map]
        apply List.map_congr_left
        intro point _
        exact normalize_idempotent point
      simp [between, twice]

/-- Capitals of one and of two bytes, with a sign of three bytes between them. -/
theorem capitals_normalized_in_place :
    ∃ yielded it, tokenize Utf8.library (Utf8.encodeAll [0x54, 0xC4, 0x100, 0x2026, 0x41]) =
        some (yielded, it) ∧
      it.text = Utf8.encodeAll [0x74, 0xE4, 0x101, 0x2026, 0x61] := by
  obtain ⟨_, yielded, it, tokenized, _, _, text, _⟩ := normalized_in_place Utf8.library_standard
    [0x54, 0xC4, 0x100, 0x2026, 0x41] (by decide)
  exact ⟨yielded, it, tokenized, text.trans (by decide)⟩

end DestructiveTokenIterator

end Relevanced.Tokenizer

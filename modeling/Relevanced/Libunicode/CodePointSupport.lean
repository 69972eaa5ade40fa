import Relevanced.Foundation.Utf8

/-!
# Code points

`libunicode`: which block a code point lies in, how the tokenizer normalises it, and
which points it takes for letters. The blocks that no rule names are told apart by
nothing, and are one block here.
-/

namespace Relevanced.Libunicode

open Foundation

set_option autoImplicit false

/-- The blocks the rules name; any other block is `other`. -/
inductive UnicodeBlock where
  | basicLatin | latin1Supplement | latinExtendedA | latinExtendedB | latinExtendedC
  | latinExtendedD | latinExtendedE | latinExtendedAdditional | generalPunctuation | arrows
  | blockElements | boxDrawing | braillePatterns | combiningDiacriticalMarks
  | combiningDiacriticalMarksExtended | controlPictures | dingbats | dominoTiles | emoticons
  | enclosedAlphanumerics | geometricShapes | ipaExtensions | mathematicalOperators
  | miscellaneousMathematicalSymbolsA | miscellaneousMathematicalSymbolsB | miscellaneousSymbols
  | miscellaneousSymbolsAndArrows | miscellaneousTechnical | musicalSymbols | numberForms
  | spacingModifierLetters | superscriptsAndSubscripts | supplementalMathematicalOperators
  | supplementalPunctuation | other
  deriving DecidableEq

/-- The last code point of each block, in the order of the comparisons that lead to it. -/
def blockEnds : List (Nat × UnicodeBlock) :=
  [ (127, .basicLatin), (255, .latin1Supplement), (383, .latinExtendedA), (591, .latinExtendedB),
    (687, .ipaExtensions), (767, .spacingModifierLetters), (879, .combiningDiacriticalMarks),
    (6831, .other), (6911, .combiningDiacriticalMarksExtended), (7679, .other),
    (7935, .latinExtendedAdditional), (8191, .other), (8303, .generalPunctuation),
    (8351, .superscriptsAndSubscripts), (8527, .other), (8591, .numberForms), (8703, .arrows),
    (8959, .mathematicalOperators), (9215, .miscellaneousTechnical), (9279, .controlPictures),
    (9311, .other), (9471, .enclosedAlphanumerics), (9599, .boxDrawing), (9631, .blockElements),
    (9727, .geometricShapes), (9983, .miscellaneousSymbols), (10175, .dingbats),
    (10223, .miscellaneousMathematicalSymbolsA), (10239, .other), (10495, .braillePatterns),
    (10623, .other), (10751, .miscellaneousMathematicalSymbolsB),
    (11007, .supplementalMathematicalOperators), (11263, .miscellaneousSymbolsAndArrows),
    (11359, .other), (11391, .latinExtendedC), (11775, .other),
    (11903, .supplementalPunctuation), (42783, .other), (43007, .latinExtendedD),
    (43823, .other), (43887, .latinExtendedE), (119039, .other), (119295, .musicalSymbols),
    (127023, .other), (127135, .dominoTiles), (128511, .other), (128591, .emoticons),
    (1114111, .other)]

def getUnicodeBlock (codePoint : Nat) : UnicodeBlock :=
  match blockEnds.find? fun blockEnd => decide (codePoint ≤ blockEnd.1) with
  | some blockEnd => blockEnd.2
  | none => .other

def normalizeBasicLatinCodePoint (codePoint : Nat) : Nat :=
  if codePoint ≥ 65 ∧ codePoint ≤ 90 then codePoint + 32 else codePoint

def normalizeLatin1SupplementCodePoint (codePoint : Nat) : Nat :=
  if codePoint ≥ 192 ∧ codePoint ≤ 214 ∨ codePoint ≥ 216 ∧ codePoint ≤ 221 then codePoint + 32
  else codePoint

/-- Up to 311 the capitals are the even code points. -/
def normalizeLatinExtendedACodePoint (codePoint : Nat) : Nat :=
  if codePoint = 383 then codePoint
  else if codePoint < 311 then
    if codePoint % 2 = 0 then codePoint + 1 else codePoint
  else codePoint

def normalizeCodePointIn (codePoint : Nat) : UnicodeBlock → Nat
  | .basicLatin => normalizeBasicLatinCodePoint codePoint
  | .latin1Supplement => normalizeLatin1SupplementCodePoint codePoint
  | .latinExtendedA => normalizeLatinExtendedACodePoint codePoint
  | _ => codePoint

def normalizeCodePoint (codePoint : Nat) : Nat :=
  normalizeCodePointIn codePoint (getUnicodeBlock codePoint)

def isBasicLatinLetter (cp : Nat) : Bool :=
  if cp ≤ 64 then false
  else if cp ≤ 96 ∧ cp > 90 then false
  else if cp > 122 then false
  else true

def isLatin1SupplementLetter (cp : Nat) : Bool :=
  if cp ≤ 191 then false
  else if cp = 215 ∨ cp = 247 then false
  else true

def isLetterPointIn (cp : Nat) : UnicodeBlock → Bool
  | .basicLatin => isBasicLatinLetter cp
  | .latin1Supplement => isLatin1SupplementLetter cp
  | .generalPunctuation | .arrows | .blockElements | .boxDrawing | .braillePatterns
  | .combiningDiacriticalMarks | .combiningDiacriticalMarksExtended | .controlPictures
  | .dingbats | .dominoTiles | .emoticons | .enclosedAlphanumerics | .geometricShapes
  | .ipaExtensions | .mathematicalOperators | .miscellaneousMathematicalSymbolsA
  | .miscellaneousMathematicalSymbolsB | .miscellaneousSymbols
  | .miscellaneousSymbolsAndArrows | .miscellaneousTechnical | .musicalSymbols
  | .numberForms | .spacingModifierLetters | .superscriptsAndSubscripts
  | .supplementalMathematicalOperators | .supplementalPunctuation => false
  | _ => true

/-- The test of the tokenizer: the normalised point, with the block of the original. -/
def isTokenLetter (codePoint : Nat) : Bool :=
  isLetterPointIn (normalizeCodePoint codePoint) (getUnicodeBlock codePoint)

section Blocks

theorem later_block {codePoint : Nat} (later : 383 < codePoint) (block : UnicodeBlock)
    (first : block = .basicLatin ∨ block = .latin1Supplement ∨ block = .latinExtendedA) :
    getUnicodeBlock codePoint ≠ block := by
  have others : ∀ blockEnd ∈ blockEnds, blockEnd.1 ≤ 383 ∨ blockEnd.2 ≠ .basicLatin ∧
      blockEnd.2 ≠ .latin1Supplement ∧ blockEnd.2 ≠ .latinExtendedA := by
    decide
  unfold getUnicodeBlock
  split
  · rename_i blockEnd found
    have bound : codePoint ≤ blockEnd.1 := by simpa using List.find?_some found
    have named := (others blockEnd (List.mem_of_find?_eq_some found)).resolve_left (by omega)
    rcases first with rfl | rfl | rfl
    · exact named.1
    · exact named.2.1
    · exact named.2.2
  · rcases first with rfl | rfl | rfl <;> simp

theorem block_of_basic_latin {codePoint : Nat} (bound : codePoint ≤ 127) :
    getUnicodeBlock codePoint = .basicLatin := by
  simp [getUnicodeBlock, blockEnds, bound]

theorem block_of_latin1_supplement {codePoint : Nat} (above : 127 < codePoint)
    (bound : codePoint ≤ 255) : getUnicodeBlock codePoint = .latin1Supplement := by
  simp [getUnicodeBlock, blockEnds, bound, Nat.not_le.mpr above]

theorem block_of_latin_extended_a {codePoint : Nat} (above : 255 < codePoint)
    (bound : codePoint ≤ 383) : getUnicodeBlock codePoint = .latinExtendedA := by
  have beyond : ¬ codePoint ≤ 127 := by omega
  simp [getUnicodeBlock, blockEnds, bound, beyond, Nat.not_le.mpr above]

end Blocks

section Normalization

variable (codePoint : Nat)

theorem normalize_of_later {codePoint : Nat} (later : 383 < codePoint) :
    normalizeCodePoint codePoint = codePoint := by
  unfold normalizeCodePoint normalizeCodePointIn
  split
  · rename_i isBlock
    exact absurd isBlock (later_block later _ (.inl rfl))
  · rename_i isBlock
    exact absurd isBlock (later_block later _ (.inr (.inl rfl)))
  · rename_i isBlock
    exact absurd isBlock (later_block later _ (.inr (.inr rfl)))
  · rfl

theorem normalize_ranges :
    codePoint ≤ 127 ∧ normalizeCodePoint codePoint ≤ 127 ∨
      (127 < codePoint ∧ codePoint ≤ 255) ∧
        127 < normalizeCodePoint codePoint ∧ normalizeCodePoint codePoint ≤ 255 ∨
      (255 < codePoint ∧ codePoint ≤ 383) ∧
        255 < normalizeCodePoint codePoint ∧ normalizeCodePoint codePoint ≤ 383 ∨
      383 < codePoint ∧ normalizeCodePoint codePoint = codePoint := by
  by_cases basic : codePoint ≤ 127
  · rw [normalizeCodePoint, block_of_basic_latin basic, normalizeCodePointIn,
      normalizeBasicLatinCodePoint]
    split <;> omega
  · by_cases supplement : codePoint ≤ 255
    · rw [normalizeCodePoint, block_of_latin1_supplement (by omega) supplement,
        normalizeCodePointIn, normalizeLatin1SupplementCodePoint]
      split <;> omega
    · by_cases extended : codePoint ≤ 383
      · rw [normalizeCodePoint, block_of_latin_extended_a (by omega) extended,
          normalizeCodePointIn, normalizeLatinExtendedACodePoint]
        split
        · omega
        · split
          · split <;> omega
          · omega
      · exact .inr (.inr (.inr ⟨by omega, normalize_of_later (by omega)⟩))

theorem block_normalized :
    getUnicodeBlock (normalizeCodePoint codePoint) = getUnicodeBlock codePoint := by
  rcases normalize_ranges codePoint with
    ⟨before, after⟩ | ⟨before, after⟩ | ⟨before, after⟩ | ⟨before, after⟩
  · rw [block_of_basic_latin before, block_of_basic_latin after]
  · rw [block_of_latin1_supplement before.1 before.2, block_of_latin1_supplement after.1 after.2]
  · rw [block_of_latin_extended_a before.1 before.2, block_of_latin_extended_a after.1 after.2]
  · rw [after]

theorem normalize_in_idempotent (block : UnicodeBlock) :
    normalizeCodePointIn (normalizeCodePointIn codePoint block) block =
      normalizeCodePointIn codePoint block := by
  cases block with
  | basicLatin =>
      change normalizeBasicLatinCodePoint (normalizeBasicLatinCodePoint codePoint) =
        normalizeBasicLatinCodePoint codePoint
      unfold normalizeBasicLatinCodePoint
      split_ifs <;> omega
  | latin1Supplement =>
      change normalizeLatin1SupplementCodePoint (normalizeLatin1SupplementCodePoint codePoint) =
        normalizeLatin1SupplementCodePoint codePoint
      unfold normalizeLatin1SupplementCodePoint
      split_ifs <;> omega
  | latinExtendedA =>
      change normalizeLatinExtendedACodePoint (normalizeLatinExtendedACodePoint codePoint) =
        normalizeLatinExtendedACodePoint codePoint
      unfold normalizeLatinExtendedACodePoint
      split_ifs <;> omega
  | _ => rfl

theorem normalize_idempotent :
    normalizeCodePoint (normalizeCodePoint codePoint) = normalizeCodePoint codePoint := by
  rw [normalizeCodePoint, block_normalized]
  exact normalize_in_idempotent codePoint (getUnicodeBlock codePoint)

theorem is_token_letter_normalized :
    isTokenLetter (normalizeCodePoint codePoint) = isTokenLetter codePoint := by
  rw [isTokenLetter, normalize_idempotent, block_normalized]
  rfl

theorem scalar_normalized {codePoint : Nat} (scalar : IsScalar codePoint) :
    IsScalar (normalizeCodePoint codePoint) := by
  unfold IsScalar at scalar ⊢
  rcases normalize_ranges codePoint with
    ⟨before, after⟩ | ⟨before, after⟩ | ⟨before, after⟩ | ⟨before, after⟩
  · omega
  · omega
  · omega
  · omega

theorem width_normalized :
    Utf8.width (normalizeCodePoint codePoint) = Utf8.width codePoint := by
  rcases normalize_ranges codePoint with
    ⟨before, after⟩ | ⟨before, after⟩ | ⟨before, after⟩ | ⟨before, after⟩
  · rw [(Utf8.width_eq_one_iff _).mpr (by omega), (Utf8.width_eq_one_iff _).mpr (by omega)]
  · rw [Utf8.width_of_two (by omega) (by omega), Utf8.width_of_two (by omega) (by omega)]
  · rw [Utf8.width_of_two (by omega) (by omega), Utf8.width_of_two (by omega) (by omega)]
  · rw [after]

end Normalization

end Relevanced.Libunicode

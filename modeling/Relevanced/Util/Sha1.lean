import Relevanced.Foundation.Hexadecimal

/-!
# util::sha1

The 20 bytes of a digest are printed one by one as hexadecimal numbers. A number below 16
has one digit, so a digest with such a byte has fewer than 40, and what is printed may be
that of another digest.
-/

namespace Relevanced.Util

open Foundation

set_option autoImplicit false

def hashLen : Nat := 20

/-- `hashBuff` with the digest in it. -/
@[ext] structure HashBuff where
  bytes : Bytes
  filled : bytes.length = hashLen
  deriving DecidableEq

/-- The loop over `hashBuff`: `output << std::hex << current`. -/
def writeHex : Bytes → Bytes → Bytes
  | output, [] => output
  | output, c :: hashBuff =>
      let current := c.val
      writeHex (output ++ hexadecimal current) hashBuff

def HashBuff.output (hashBuff : HashBuff) : Bytes := writeHex [] hashBuff.bytes

/-- `SHA1` is OpenSSL's. -/
def sha1 (SHA1 : Bytes → HashBuff) (input : Bytes) : Bytes := (SHA1 input).output

/-- 40 lower-case digits that tell the digest. -/
structure FaithfullyRendered (hashBuff : HashBuff) : Prop where
  length : hashBuff.output.length = 40
  digits : ∀ digit ∈ hashBuff.output, IsHexDigit digit
  recovered : readPairs hashBuff.output = some hashBuff.bytes
  alone : ∀ other : HashBuff, other.output = hashBuff.output → other = hashBuff

theorem write_hex_eq (output hashBuff : Bytes) :
    writeHex output hashBuff = output ++ hexadecimals hashBuff := by
  induction hashBuff generalizing output with
  | nil => exact (List.append_nil output).symm
  | cons c hashBuff ih =>
      rw [writeHex, ih, List.append_assoc]
      rfl

theorem output_eq (hashBuff : HashBuff) : hashBuff.output = hexadecimals hashBuff.bytes :=
  write_hex_eq [] hashBuff.bytes

theorem length_output_iff (hashBuff : HashBuff) :
    hashBuff.output.length = 40 ↔ ∀ c ∈ hashBuff.bytes, 16 ≤ c.val := by
  rw [← length_hexadecimals_iff, output_eq, hashBuff.filled]
  rfl

theorem eq_of_same_output {hashBuff other : HashBuff} (padded : ∀ c ∈ hashBuff.bytes, 16 ≤ c.val)
    (same : other.output = hashBuff.output) : other = hashBuff := by
  have length := (length_output_iff hashBuff).mpr padded
  rw [← same] at length
  have read := read_pairs_of_bytes ((length_output_iff other).mp length)
  rw [← output_eq, same, output_eq, read_pairs_of_bytes padded] at read
  exact HashBuff.ext (Option.some.inj read).symm

theorem ambiguous_bytes_iff (hashBuff : HashBuff) :
    Ambiguous hashBuff.bytes ↔
      ∃ other : HashBuff, other.output = hashBuff.output ∧ other ≠ hashBuff := by
  constructor
  · rintro ⟨others, lengths, printed, different⟩
    refine ⟨⟨others, lengths.trans hashBuff.filled⟩, ?_, fun same => different ?_⟩
    · rw [output_eq, output_eq]
      exact printed
    · exact congrArg HashBuff.bytes same
  · rintro ⟨other, same, different⟩
    rw [output_eq, output_eq] at same
    have lengths := other.filled.trans hashBuff.filled.symm
    exact ⟨other.bytes, lengths, same, fun bytes => different (HashBuff.ext bytes)⟩

/-- No other digest is rendered alike exactly when all of its bytes are below 16, or when each of
them that is comes behind a digit 0 or first, and is 0 or the last. -/
theorem alone_iff (hashBuff : HashBuff) :
    (∀ other : HashBuff, other.output = hashBuff.output → other = hashBuff) ↔
      (∀ c ∈ hashBuff.bytes, c.val < 16) ∨ Forced 0 hashBuff.bytes := by
  have ambiguous := ambiguous_bytes_iff hashBuff
  rw [ambiguous_iff] at ambiguous
  constructor
  · intro alone
    by_contra neither
    rw [not_or] at neither
    obtain ⟨notSmall, notForced⟩ := neither
    push Not at notSmall
    obtain ⟨other, same, different⟩ := ambiguous.mp ⟨notSmall, notForced⟩
    exact different (alone other same)
  · intro told other same
    by_contra different
    obtain ⟨⟨c, isThere, large⟩, notForced⟩ := ambiguous.mpr ⟨other, same, different⟩
    rcases told with small | forced
    · exact absurd large (not_le.mpr (small c isThere))
    · exact notForced forced

/-- A digest is rendered faithfully exactly when none of its bytes is below 16. -/
theorem faithfully_rendered_iff (hashBuff : HashBuff) :
    FaithfullyRendered hashBuff ↔ ∀ c ∈ hashBuff.bytes, 16 ≤ c.val := by
  constructor
  · intro faithful
    exact (length_output_iff hashBuff).mp faithful.length
  · intro padded
    constructor
    · exact (length_output_iff hashBuff).mpr padded
    · rw [output_eq]
      exact hex_digits_of_bytes hashBuff.bytes
    · rw [output_eq]
      exact read_pairs_of_bytes padded
    · intro other same
      exact eq_of_same_output padded same

/-- The digest 01 12 11 11 and so on, and the digest 11 02 11 11 and so on. -/
def split : HashBuff := ⟨[0x01, 0x12] ++ List.replicate 18 0x11, by decide⟩

def joined : HashBuff := ⟨[0x11, 0x02] ++ List.replicate 18 0x11, by decide⟩

/-- Both are rendered as 39 digits, all of them 1 but for the third. -/
theorem split_rendered_as_joined :
    split.output = joined.output ∧ split ≠ joined ∧ split.output.length = 39 ∧
      ¬ FaithfullyRendered split := by
  have same : split.output = joined.output := by decide
  have different : split ≠ joined := by decide
  refine ⟨same, different, by decide, ?_⟩
  intro faithful
  exact different (faithful.alone joined same.symm).symm

end Relevanced.Util

import Relevanced.Foundation.ByteString

/-!
# Decimal numbers

Reading a 64-bit signed number from its decimal digits, and the round trip with printing.
-/

namespace Foundation

set_option autoImplicit false

def digitValue (digit : Byte) : Option Nat :=
  if 48 ≤ digit.val ∧ digit.val ≤ 57 then some (digit.val - 48) else none

def readDigits : Bytes → Nat → Option Nat
  | [], number => some number
  | digit :: digits, number =>
      (digitValue digit).bind fun value => readDigits digits (10 * number + value)

def minus : Byte := 45

def readInteger : Bytes → Option Int
  | [] => none
  | first :: rest =>
      if first = minus then
        if rest = [] then none else (readDigits rest 0).map fun number => -number
      else (readDigits (first :: rest) 0).map fun number => number

/-- Numbers that do not fit are refused. -/
def readInt64 (text : Bytes) : Option Int64 :=
  (readInteger text).bind fun number =>
    if Int64.minValue.toInt ≤ number ∧ number ≤ Int64.maxValue.toInt then some (Int64.ofInt number)
    else none

/-- An unsigned number of 64 bits; a sign is no digit. -/
def readUInt64 (text : Bytes) : Option UInt64 :=
  if text = [] then none
  else (readDigits text 0).bind fun number =>
    if number < UInt64.size then some (UInt64.ofNat number) else none

section Printing

/-- The byte of a character of ASCII. -/
def letterByte (letter : Char) : Byte := Fin.ofNat 256 letter.toNat

theorem ascii_eq_map (text : String) : ascii text = text.toList.map letterByte := rfl

theorem digit_value_of_digit {letter : Char} (digit : letter.isDigit) :
    digitValue (letterByte letter) = some (letter.toNat - '0'.toNat) := by
  simp only [Char.isDigit, Bool.and_eq_true, decide_eq_true_eq, ge_iff_le,
    UInt32.le_iff_toNat_le] at digit
  change 48 ≤ letter.toNat ∧ letter.toNat ≤ 57 at digit
  obtain ⟨low, high⟩ := digit
  have small : letter.toNat % 256 = letter.toNat := Nat.mod_eq_of_lt (by omega)
  simp [digitValue, letterByte, Fin.ofNat, small, low, high]

theorem read_digits_map (letters : List Char) (digits : ∀ letter ∈ letters, letter.isDigit)
    (number : Nat) :
    readDigits (letters.map letterByte) number = some (Nat.ofDigitChars 10 letters number) := by
  induction letters generalizing number with
  | nil => rfl
  | cons letter letters ih =>
      rw [List.map_cons, readDigits, digit_value_of_digit (digits letter List.mem_cons_self),
        Option.bind_some, ih fun other member => digits other (List.mem_cons_of_mem letter member)]
      rfl

theorem ascii_of_nat (number : Nat) :
    ascii (toString number) = (Nat.toDigits 10 number).map letterByte := by
  rw [ascii_eq_map, Nat.toString_eq_repr, Nat.repr_eq_ofList_toDigits, String.toList_ofList]

theorem digit_of_mem {number : Nat} {letter : Char} (member : letter ∈ Nat.toDigits 10 number) :
    letter.isDigit := Nat.isDigit_of_mem_toDigits (by decide) (by decide) member

theorem read_digits_of_nat (number : Nat) :
    readDigits (ascii (toString number)) 0 = some number := by
  rw [ascii_of_nat, read_digits_map _ fun _ => digit_of_mem, Nat.ofDigitChars_ten_toDigits]

theorem first_digit_of_nat (number : Nat) :
    ∃ first rest, ascii (toString number) = first :: rest ∧ first ≠ minus := by
  rw [ascii_of_nat]
  cases letters : Nat.toDigits 10 number with
  | nil => exact absurd (congrArg List.length letters) (Nat.ne_of_gt Nat.length_toDigits_pos)
  | cons letter others =>
      refine ⟨letterByte letter, others.map letterByte, rfl, ?_⟩
      intro isMinus
      have value := digit_value_of_digit (digit_of_mem (letters ▸ List.mem_cons_self))
      rw [isMinus] at value
      cases value

theorem read_integer_of_printed (number : Int) :
    readInteger (ascii (toString number)) = some number := by
  cases number with
  | ofNat number =>
      obtain ⟨first, rest, printed, notMinus⟩ := first_digit_of_nat number
      have read := read_digits_of_nat number
      rw [printed] at read
      change readInteger (ascii (toString number)) = _
      rw [printed, readInteger, if_neg notMinus, read]
      rfl
  | negSucc number =>
      obtain ⟨first, rest, printed, _⟩ := first_digit_of_nat (number + 1)
      have read := read_digits_of_nat (number + 1)
      have signed : ascii (toString (Int.negSucc number)) =
          minus :: ascii (toString (number + 1)) := by
        change ascii ("-" ++ Nat.repr (number + 1)) = _
        rw [ascii_eq_map, String.toList_append, List.map_append]
        rfl
      rw [signed, readInteger, if_pos rfl, read, printed, if_neg (List.cons_ne_nil first rest)]
      rfl

theorem read_int64_of_printed (number : Int64) :
    readInt64 (ascii (toString number.toInt)) = some number := by
  rw [readInt64, read_integer_of_printed, Option.bind_some,
    if_pos ⟨number.minValue_le_toInt, number.toInt_le⟩, Int64.ofInt_toInt]

theorem read_uint64_of_printed (number : UInt64) :
    readUInt64 (ascii (toString number.toNat)) = some number := by
  obtain ⟨first, rest, printed, _⟩ := first_digit_of_nat number.toNat
  have read := read_digits_of_nat number.toNat
  have some : ascii (toString number.toNat) ≠ [] := by
    rw [printed]
    exact List.cons_ne_nil first rest
  rw [readUInt64, if_neg some, read, Option.bind_some, if_pos number.toNat_lt_size,
    UInt64.ofNat_toNat]

end Printing

end Foundation

import Mathlib.Algebra.Order.BigOperators.Group.List
import Mathlib.Algebra.Order.Ring.Nat
import Mathlib.Tactic.ByContra
import Relevanced.Foundation.Decimal

/-!
# Hexadecimal numbers

Printing a number in lower-case hexadecimal digits, with no zeros in front, and reading bytes
that have two digits each.
-/

namespace Foundation

set_option autoImplicit false

section Words

variable {α β : Type} {code : α → List β} {items : List α} {width : Nat}

theorem length_words_le (bounded : ∀ item ∈ items, (code item).length ≤ width) :
    (items.flatMap code).length ≤ items.length * width := by
  have each : ∀ length ∈ items.map fun item => (code item).length, length ≤ width := by
    intro length member
    obtain ⟨item, isThere, rfl⟩ := List.mem_map.mp member
    exact bounded item isThere
  have total := List.sum_le_card_nsmul _ width each
  rw [List.length_map, Nat.nsmul_eq_mul, ← List.length_flatMap] at total
  exact total

theorem length_words_eq_iff (bounded : ∀ item ∈ items, (code item).length ≤ width) :
    (items.flatMap code).length = items.length * width ↔
      ∀ item ∈ items, (code item).length = width := by
  induction items with
  | nil => simp
  | cons item items ih =>
      have here := bounded item List.mem_cons_self
      have boundedLater : ∀ other ∈ items, (code other).length ≤ width :=
        fun other member => bounded other (List.mem_cons_of_mem item member)
      have later := length_words_le boundedLater
      rw [List.forall_mem_cons, ← ih boundedLater, List.flatMap_cons, List.length_append,
        List.length_cons, Nat.succ_mul]
      omega

end Words

/-- The digits of a number, the first of which is a zero for the number 0 only. -/
def hexadecimal (number : Nat) : Bytes := (Nat.toDigits 16 number).map letterByte

/-- The digits of bytes one behind the other, with nothing between them. -/
def hexadecimals (bytes : Bytes) : Bytes := bytes.flatMap fun byte => hexadecimal byte.val

def hexDigit (value : Nat) : Byte := letterByte value.digitChar

/-- A digit from 0 to 9 or from a to f. -/
def IsHexDigit (digit : Byte) : Prop := 48 ≤ digit ∧ digit ≤ 57 ∨ 97 ≤ digit ∧ digit ≤ 102

instance (digit : Byte) : Decidable (IsHexDigit digit) :=
  inferInstanceAs (Decidable (_ ∨ _))

def hexDigitValue (digit : Byte) : Option Nat :=
  if 48 ≤ digit ∧ digit ≤ 57 then some (digit.val - 48)
  else if 97 ≤ digit ∧ digit ≤ 102 then some (digit.val - 87)
  else none

/-- The bytes whose digits are given, two for each. -/
def readPairs : Bytes → Option Bytes
  | [] => some []
  | [_] => none
  | first :: second :: digits => do
      let high ← hexDigitValue first
      let low ← hexDigitValue second
      let bytes ← readPairs digits
      some (Fin.ofNat 256 (16 * high + low) :: bytes)

section Digits

theorem is_hex_digit : ∀ value < 16, IsHexDigit (hexDigit value) := by decide

theorem value_of_hex_digit : ∀ value < 16, hexDigitValue (hexDigit value) = some value := by decide

variable {number : Nat}

theorem hexadecimal_of_lt (small : number < 16) : hexadecimal number = [hexDigit number] := by
  rw [hexadecimal, Nat.toDigits_of_lt_base small]
  rfl

theorem hexadecimal_of_le (large : 16 ≤ number) (inByte : number < 256) :
    hexadecimal number = [hexDigit (number / 16), hexDigit (number % 16)] := by
  rw [hexadecimal, Nat.toDigits_of_base_le (by decide) large,
    Nat.toDigits_of_lt_base (by omega : number / 16 < 16)]
  rfl

theorem length_hexadecimal_le (byte : Byte) : (hexadecimal byte.val).length ≤ 2 := by
  rw [hexadecimal, List.length_map, Nat.length_toDigits_le_iff (by decide) (by decide)]
  exact byte.isLt

theorem length_hexadecimal_eq_iff (byte : Byte) :
    (hexadecimal byte.val).length = 2 ↔ 16 ≤ byte.val := by
  by_cases large : 16 ≤ byte.val
  · rw [hexadecimal_of_le large byte.isLt]
    exact iff_of_true rfl large
  · rw [hexadecimal_of_lt (not_le.mp large)]
    exact iff_of_false (by simp) large

theorem hex_digits_of_byte (byte : Byte) : ∀ digit ∈ hexadecimal byte.val, IsHexDigit digit := by
  have inByte := byte.isLt
  intro digit member
  by_cases large : 16 ≤ byte.val
  · rw [hexadecimal_of_le large inByte] at member
    rcases List.mem_cons.mp member with rfl | isLow
    · exact is_hex_digit _ (by omega)
    · rw [List.mem_singleton.mp isLow]
      exact is_hex_digit _ (by omega)
  · rw [hexadecimal_of_lt (not_le.mp large)] at member
    rw [List.mem_singleton.mp member]
    exact is_hex_digit _ (not_le.mp large)

theorem read_pairs_byte {byte : Byte} (large : 16 ≤ byte.val) (digits : Bytes) :
    readPairs (hexadecimal byte.val ++ digits) = (readPairs digits).map (byte :: ·) := by
  have inByte := byte.isLt
  have whole : 16 * (byte.val / 16) + byte.val % 16 = byte.val := Nat.div_add_mod _ _
  rw [hexadecimal_of_le large inByte, List.cons_append, List.cons_append, List.nil_append,
    readPairs, value_of_hex_digit _ (by omega), value_of_hex_digit _ (by omega)]
  simp only [Option.bind_eq_bind, Option.bind_some, whole, Fin.ofNat_val_eq_self]
  cases readPairs digits with
  | none => rfl
  | some bytes => rfl

theorem read_pairs_of_bytes {bytes : Bytes} (large : ∀ byte ∈ bytes, 16 ≤ byte.val) :
    readPairs (hexadecimals bytes) = some bytes := by
  induction bytes with
  | nil => rfl
  | cons byte bytes ih =>
      rw [hexadecimals] at ih
      rw [hexadecimals, List.flatMap_cons, read_pairs_byte (large byte List.mem_cons_self),
        ih fun other member => large other (List.mem_cons_of_mem byte member)]
      rfl

theorem hex_digits_of_bytes (bytes : Bytes) : ∀ digit ∈ hexadecimals bytes, IsHexDigit digit := by
  intro digit member
  obtain ⟨byte, _, inByte⟩ := List.mem_flatMap.mp member
  exact hex_digits_of_byte byte digit inByte

theorem length_hexadecimals_iff (bytes : Bytes) :
    (hexadecimals bytes).length = bytes.length * 2 ↔ ∀ byte ∈ bytes, 16 ≤ byte.val := by
  rw [hexadecimals, length_words_eq_iff fun byte _ => length_hexadecimal_le byte]
  apply forall₂_congr
  intro byte _
  exact length_hexadecimal_eq_iff byte

end Digits

section Printed

variable {byte : Byte} {bytes others : Bytes}

theorem hex_digit_inj {left right : Nat} (leftSmall : left < 16) (rightSmall : right < 16)
    (same : hexDigit left = hexDigit right) : left = right := by
  have values := congrArg hexDigitValue same
  rw [value_of_hex_digit left leftSmall, value_of_hex_digit right rightSmall] at values
  exact Option.some.inj values

theorem hexadecimals_of_lt (small : byte.val < 16) :
    hexadecimals (byte :: bytes) = hexDigit byte.val :: hexadecimals bytes := by
  rw [hexadecimals, List.flatMap_cons, hexadecimal_of_lt small]
  rfl

theorem hexadecimals_of_le (large : 16 ≤ byte.val) :
    hexadecimals (byte :: bytes) =
      hexDigit (byte.val / 16) :: hexDigit (byte.val % 16) :: hexadecimals bytes := by
  rw [hexadecimals, List.flatMap_cons, hexadecimal_of_le large byte.isLt]
  rfl

theorem hexadecimals_ne_nil : hexadecimals (byte :: bytes) ≠ [] := by
  by_cases large : 16 ≤ byte.val
  · rw [hexadecimals_of_le large]
    exact List.cons_ne_nil _ _
  · rw [hexadecimals_of_lt (not_le.mp large)]
    exact List.cons_ne_nil _ _

/-- How the first bytes can differ when all digits are the same. -/
inductive SameDigits (other byte : Byte) (others bytes : Bytes) : Prop where
  | same (isByte : other = byte) (rest : hexadecimals others = hexadecimals bytes)
  | shorter (large : 16 ≤ byte.val)
      (rest : hexadecimals others = hexDigit (byte.val % 16) :: hexadecimals bytes)
  | longer (small : byte.val < 16) (notZero : byte.val ≠ 0)
      (rest : hexDigit (other.val % 16) :: hexadecimals others = hexadecimals bytes)

theorem same_digits_cases {other : Byte}
    (printed : hexadecimals (other :: others) = hexadecimals (byte :: bytes)) :
    SameDigits other byte others bytes := by
  have inByte := byte.isLt
  have inOther := other.isLt
  by_cases large : 16 ≤ byte.val
  · rw [hexadecimals_of_le large] at printed
    by_cases otherLarge : 16 ≤ other.val
    · rw [hexadecimals_of_le otherLarge] at printed
      obtain ⟨first, tail⟩ := List.cons.inj printed
      obtain ⟨second, rest⟩ := List.cons.inj tail
      have high := hex_digit_inj (by omega) (by omega) first
      have low := hex_digit_inj (by omega) (by omega) second
      exact .same (Fin.ext (by omega)) rest
    · rw [hexadecimals_of_lt (not_le.mp otherLarge)] at printed
      exact .shorter large (List.cons.inj printed).2
  · have small := not_le.mp large
    rw [hexadecimals_of_lt small] at printed
    by_cases otherLarge : 16 ≤ other.val
    · rw [hexadecimals_of_le otherLarge] at printed
      obtain ⟨first, rest⟩ := List.cons.inj printed
      have high := hex_digit_inj (by omega) small first
      exact .longer small (by omega) rest
    · rw [hexadecimals_of_lt (not_le.mp otherLarge)] at printed
      obtain ⟨first, rest⟩ := List.cons.inj printed
      exact .same (Fin.ext (hex_digit_inj (not_le.mp otherLarge) small first)) rest

/-- No more bytes than there are digits, and as many only with one digit each. -/
theorem eq_of_one_digit_each (small : ∀ byte ∈ bytes, byte.val < 16)
    (printed : hexadecimals others = hexadecimals bytes) (enough : bytes.length ≤ others.length) :
    others = bytes := by
  induction bytes generalizing others with
  | nil =>
      cases others with
      | nil => rfl
      | cons other others => exact absurd printed hexadecimals_ne_nil
  | cons byte bytes ih =>
      have later : ∀ later ∈ bytes, later.val < 16 :=
        fun later member => small later (List.mem_cons_of_mem byte member)
      cases others with
      | nil => exact absurd enough (Nat.not_succ_le_zero _)
      | cons other others =>
          rw [List.length_cons, List.length_cons] at enough
          cases same_digits_cases printed with
          | same isByte rest => rw [isByte, ih later rest (Nat.le_of_succ_le_succ enough)]
          | shorter large rest =>
              have here := small byte List.mem_cons_self
              omega
          | longer isSmall notZero rest =>
              -- the second digit would be a byte of its own, and one too many
              have low : other.val % 16 < 16 := Nat.mod_lt _ (by decide)
              have shifted : hexadecimals ((⟨other.val % 16, by omega⟩ : Byte) :: others) =
                  hexadecimals bytes := (hexadecimals_of_lt low).trans rest
              have lengths := congrArg List.length (ih later shifted (by simp; omega))
              rw [List.length_cons] at lengths
              omega

end Printed

section Fewest

/-- A byte of one digit comes behind a zero, and is a zero or the last one. -/
def Forced : Nat → Bytes → Prop
  | _, [] => True
  | low, byte :: bytes =>
      (16 ≤ byte.val ∨ low = 0 ∧ (byte.val = 0 ∨ bytes = [])) ∧ Forced (byte.val % 16) bytes

/-- Other bytes that are printed alike are more, and so are all that are printed with the digit in
front. -/
structure Fewest (low : Nat) (bytes : Bytes) : Prop where
  same : ∀ others, hexadecimals others = hexadecimals bytes →
    others = bytes ∨ bytes.length < others.length
  behind : ∀ others, hexadecimals others = hexDigit low :: hexadecimals bytes →
    bytes.length < others.length

variable {low : Nat} {byte : Byte} {bytes : Bytes}

theorem fewest_nil : Fewest low [] where
  same others printed := by
    cases others with
    | nil => exact Or.inl rfl
    | cons other others => exact absurd printed hexadecimals_ne_nil
  behind others printed := by
    cases others with
    | nil => cases printed
    | cons other others => exact Nat.succ_pos _

theorem same_of_later (forced : Forced low (byte :: bytes)) (later : Fewest (byte.val % 16) bytes)
    (others : Bytes) (printed : hexadecimals others = hexadecimals (byte :: bytes)) :
    others = byte :: bytes ∨ (byte :: bytes).length < others.length := by
  cases others with
  | nil => exact absurd printed.symm hexadecimals_ne_nil
  | cons other others =>
      cases same_digits_cases printed with
      | same isByte rest =>
          rw [isByte]
          exact (later.same others rest).imp (congrArg _) Nat.succ_lt_succ
      | shorter large rest => exact Or.inr (Nat.succ_lt_succ (later.behind others rest))
      | longer small notZero rest =>
          rcases (forced.1.resolve_left (not_le.mpr small)).2 with zero | rfl
          · exact absurd zero notZero
          · cases rest

theorem fewest_of_forced (isLow : low < 16) (forced : Forced low bytes) : Fewest low bytes := by
  induction bytes generalizing low with
  | nil => exact fewest_nil
  | cons byte bytes ih =>
      have later := ih (Nat.mod_lt byte.val (by decide)) forced.2
      have same := same_of_later forced later
      refine ⟨same, ?_⟩
      intro others printed
      have digit : hexadecimals ((⟨low, by omega⟩ : Byte) :: byte :: bytes) =
          hexDigit low :: hexadecimals (byte :: bytes) := hexadecimals_of_lt isLow
      cases others with
      | nil => cases printed
      | cons other others =>
          cases same_digits_cases (printed.trans digit.symm) with
          | same isByte rest =>
              rcases same others rest with rfl | more
              · exact Nat.lt_succ_self _
              · exact more.trans (Nat.lt_succ_self _)
          | shorter large rest => exact absurd isLow (not_lt.mpr large)
          | longer small notZero rest =>
              -- behind a digit that is no zero the byte has two, of which the other takes the first
              have large : 16 ≤ byte.val := forced.1.resolve_right fun free => notZero free.1
              rw [hexadecimals_of_le large] at rest
              exact Nat.succ_lt_succ (later.behind others (List.cons.inj rest).2)

end Fewest

section Collisions

/-- As many other bytes are printed alike. -/
def Ambiguous (bytes : Bytes) : Prop :=
  ∃ others, others.length = bytes.length ∧ hexadecimals others = hexadecimals bytes ∧ others ≠ bytes

/-- The second digit of the two bytes can go to either of them, or one byte can have both digits. -/
def Loose (first second : Byte) : Prop :=
  first.val ≠ 0 ∧ first.val < 16 ∨ first.val % 16 ≠ 0 ∧ second.val < 16

variable {bytes : Bytes}

theorem hexadecimals_append (front back : Bytes) :
    hexadecimals (front ++ back) = hexadecimals front ++ hexadecimals back := List.flatMap_append

/-- Two digits of one byte are printed as two bytes of one digit are. -/
theorem hexadecimals_halves {byte : Byte} (large : 16 ≤ byte.val) :
    hexadecimals [⟨byte.val / 16, by omega⟩, ⟨byte.val % 16, by omega⟩] = hexadecimals [byte] := by
  have inByte := byte.isLt
  have high : byte.val / 16 < 16 := by omega
  have low : byte.val % 16 < 16 := Nat.mod_lt _ (by decide)
  rw [hexadecimals_of_lt high, hexadecimals_of_lt low, hexadecimals_of_le large]

/-- The digit in the middle of three goes to the byte before it or to the one behind it. -/
theorem hexadecimals_shifted {first second : Byte} (notZero : first.val ≠ 0)
    (small : first.val < 16) (large : 16 ≤ second.val) :
    hexadecimals [⟨16 * first.val + second.val / 16, by omega⟩, ⟨second.val % 16, by omega⟩] =
      hexadecimals [first, second] := by
  have inByte := second.isLt
  have wide : 16 ≤ 16 * first.val + second.val / 16 := by omega
  have low : second.val % 16 < 16 := Nat.mod_lt _ (by decide)
  have high : (16 * first.val + second.val / 16) / 16 = first.val := by omega
  have middle : (16 * first.val + second.val / 16) % 16 = second.val / 16 := by omega
  rw [hexadecimals_of_le wide, hexadecimals_of_lt low, hexadecimals_of_lt small,
    hexadecimals_of_le large, high, middle]

theorem loose_of_not_forced {low : Nat} (free : ¬ Forced low bytes) :
    (low ≠ 0 ∧ ∃ byte rest, bytes = byte :: rest ∧ byte.val < 16) ∨
      ∃ front first second back, bytes = front ++ first :: second :: back ∧ Loose first second := by
  induction bytes generalizing low with
  | nil => exact absurd trivial free
  | cons byte bytes ih =>
      by_cases later : Forced (byte.val % 16) bytes
      · have here : ¬ (16 ≤ byte.val ∨ low = 0 ∧ (byte.val = 0 ∨ bytes = [])) :=
          fun held => free ⟨held, later⟩
        push Not at here
        obtain ⟨small, behind⟩ := here
        by_cases zero : low = 0
        · obtain ⟨notZero, more⟩ := behind zero
          obtain ⟨second, back, rfl⟩ := List.exists_cons_of_ne_nil more
          exact Or.inr ⟨[], byte, second, back, rfl, Or.inl ⟨notZero, small⟩⟩
        · exact Or.inl ⟨zero, byte, bytes, rfl, small⟩
      · rcases ih later with
          ⟨notZero, second, back, rfl, small⟩ | ⟨front, first, second, back, rfl, loose⟩
        · exact Or.inr ⟨[], byte, second, back, rfl, Or.inr ⟨notZero, small⟩⟩
        · exact Or.inr ⟨byte :: front, first, second, back, rfl, loose⟩

theorem ambiguous_of_middle (front back : Bytes) {middle others : Bytes}
    (printed : hexadecimals others = hexadecimals middle) (lengths : others.length = middle.length)
    (different : others ≠ middle) : Ambiguous (front ++ middle ++ back) := by
  refine ⟨front ++ others ++ back, ?_, ?_, ?_⟩
  · simp only [List.length_append, lengths]
  · simp only [hexadecimals_append, printed]
  · intro same
    exact different (List.append_cancel_left (List.append_cancel_right same))

theorem ambiguous_of_shift (front back : Bytes) {first second : Byte} (notZero : first.val ≠ 0)
    (small : first.val < 16) (large : 16 ≤ second.val) :
    Ambiguous (front ++ [first, second] ++ back) := by
  apply ambiguous_of_middle front back (hexadecimals_shifted notZero small large) rfl
  intro same
  have values := congrArg Fin.val (List.cons.inj same).1
  dsimp only at values
  omega

theorem ambiguous_of_shift_back (front back : Bytes) {first second : Byte}
    (large : 16 ≤ first.val) (notZero : first.val % 16 ≠ 0) (small : second.val < 16) :
    Ambiguous (front ++ [first, second] ++ back) := by
  have inByte := first.isLt
  let high : Byte := ⟨first.val / 16, by omega⟩
  let low : Byte := ⟨16 * (first.val % 16) + second.val, by omega⟩
  have isHigh : high.val = first.val / 16 := rfl
  have isLow : low.val = 16 * (first.val % 16) + second.val := rfl
  have printed : hexadecimals [⟨16 * high.val + low.val / 16, by omega⟩, ⟨low.val % 16, by omega⟩] =
      hexadecimals [high, low] := hexadecimals_shifted (by omega) (by omega) (by omega)
  have isFirst : (⟨16 * high.val + low.val / 16, by omega⟩ : Byte) = first :=
    Fin.ext (by dsimp only; omega)
  have isSecond : (⟨low.val % 16, by omega⟩ : Byte) = second := Fin.ext (by dsimp only; omega)
  rw [isFirst, isSecond] at printed
  apply ambiguous_of_middle front back printed.symm rfl
  intro same
  have values := congrArg Fin.val (List.cons.inj same).1
  omega

theorem ambiguous_of_merge (front back : Bytes) {first second cut : Byte} (notZero : first.val ≠ 0)
    (small : first.val < 16) (alsoSmall : second.val < 16) (large : 16 ≤ cut.val)
    (elsewhere : cut ∈ front ∨ cut ∈ back) : Ambiguous (front ++ [first, second] ++ back) := by
  let whole : Byte := ⟨16 * first.val + second.val, by omega⟩
  have isWhole : whole.val = 16 * first.val + second.val := rfl
  have merged := hexadecimals_halves (show 16 ≤ whole.val by omega)
  have isFirst : (⟨whole.val / 16, by omega⟩ : Byte) = first := Fin.ext (by dsimp only; omega)
  have isSecond : (⟨whole.val % 16, by omega⟩ : Byte) = second := Fin.ext (by dsimp only; omega)
  rw [isFirst, isSecond] at merged
  have halves := hexadecimals_halves large
  rcases elsewhere with inFront | inBack
  · obtain ⟨before, between, rfl⟩ := List.append_of_mem inFront
    have split : before ++ cut :: between ++ [first, second] ++ back =
        before ++ ([cut] ++ between ++ [first, second]) ++ back := by simp
    rw [split]
    have printed : hexadecimals ([⟨cut.val / 16, by omega⟩, ⟨cut.val % 16, by omega⟩] ++ between ++
        [whole]) = hexadecimals ([cut] ++ between ++ [first, second]) := by
      simp only [hexadecimals_append, merged, halves]
    apply ambiguous_of_middle before back printed
    · simp
    · intro same
      have values := congrArg Fin.val (List.cons.inj same).1
      dsimp only at values
      omega
  · obtain ⟨between, after, rfl⟩ := List.append_of_mem inBack
    have split : front ++ [first, second] ++ (between ++ cut :: after) =
        front ++ ([first, second] ++ between ++ [cut]) ++ after := by simp
    rw [split]
    have printed : hexadecimals ([whole] ++ between ++ [⟨cut.val / 16, by omega⟩,
        ⟨cut.val % 16, by omega⟩]) = hexadecimals ([first, second] ++ between ++ [cut]) := by
      simp only [hexadecimals_append, merged, halves]
    apply ambiguous_of_middle front after printed
    · simp
    · intro same
      have values := congrArg Fin.val (List.cons.inj same).1
      omega

/-- Bytes can be told from their digits exactly when each has one digit or when no boundary between
two of them can be moved. -/
theorem ambiguous_iff (bytes : Bytes) :
    Ambiguous bytes ↔ (∃ byte ∈ bytes, 16 ≤ byte.val) ∧ ¬ Forced 0 bytes := by
  constructor
  · rintro ⟨others, lengths, printed, different⟩
    constructor
    · by_contra none
      push Not at none
      exact different (eq_of_one_digit_each none printed lengths.ge)
    · intro forced
      rcases (fewest_of_forced (by decide) forced).same others printed with same | more
      · exact different same
      · omega
  · rintro ⟨⟨cut, isThere, large⟩, free⟩
    rcases loose_of_not_forced free with ⟨zero, _⟩ | ⟨front, first, second, back, rfl, loose⟩
    · exact absurd rfl zero
    · have split : front ++ first :: second :: back = front ++ [first, second] ++ back := by simp
      rw [split] at isThere ⊢
      by_cases firstLarge : 16 ≤ first.val
      · obtain ⟨notZero, small⟩ :=
          loose.resolve_left fun held => absurd held.2 (not_lt.mpr firstLarge)
        exact ambiguous_of_shift_back front back firstLarge notZero small
      · have notZero : first.val ≠ 0 := by
          rcases loose with ⟨notZero, _⟩ | ⟨notZero, _⟩ <;> omega
        by_cases secondLarge : 16 ≤ second.val
        · exact ambiguous_of_shift front back notZero (not_le.mp firstLarge) secondLarge
        · apply ambiguous_of_merge front back notZero (not_le.mp firstLarge) (not_le.mp secondLarge)
            large
          simp only [List.mem_append, List.mem_cons, List.not_mem_nil, or_false] at isThere
          rcases isThere with (inFront | rfl | rfl) | inBack
          · exact Or.inl inFront
          · exact absurd large firstLarge
          · exact absurd large secondLarge
          · exact Or.inr inBack

end Collisions

end Foundation

import Relevanced.Foundation.ByteString

/-!
# Wire formats

A way to write values as bytes such that a value is read back from the front of whatever
its bytes begin. Formats of parts are put together to formats of records and lists, which
are then lawful by construction.
-/

namespace Foundation

set_option autoImplicit false

structure WireFormat (α : Type) where
  write : α → Bytes
  read : Bytes → Option (α × Bytes)
  read_write : ∀ value rest, read (write value ++ rest) = some (value, rest)

namespace WireFormat

variable {α β : Type}

def byte : WireFormat Byte where
  write value := [value]
  read
    | [] => none
    | value :: rest => some (value, rest)
  read_write _ _ := rfl

def pair (first : WireFormat α) (second : WireFormat β) : WireFormat (α × β) where
  write pair := first.write pair.1 ++ second.write pair.2
  read bytes :=
    (first.read bytes).bind fun (left, rest) =>
      (second.read rest).map fun (right, rest) => ((left, right), rest)
  read_write := by
    intro pair rest
    simp [first.read_write, second.read_write]

/-- A record that is written as something else from which it can be recovered. -/
def as (format : WireFormat α) (pack : β → α) (unpack : α → β)
    (inverse : ∀ value, unpack (pack value) = value) : WireFormat β where
  write value := format.write (pack value)
  read bytes := (format.read bytes).map fun (value, rest) => (unpack value, rest)
  read_write := by
    intro value rest
    simp [format.read_write, inverse]

def readNumber : Bytes → Option (Nat × Bytes)
  | [] => none
  | byte :: rest =>
      if byte = 0 then some (0, rest)
      else (readNumber rest).map fun (number, rest) => (number + 1, rest)

theorem read_number_write (number : Nat) (rest : Bytes) :
    readNumber (List.replicate number 1 ++ [0] ++ rest) = some (number, rest) := by
  induction number with
  | zero => simp [readNumber]
  | succ number ih =>
      rw [List.replicate_succ, List.cons_append, List.cons_append, readNumber, ih]
      simp

/-- A number is written as that many ones and a zero. -/
def number : WireFormat Nat where
  write number := List.replicate number 1 ++ [0]
  read := readNumber
  read_write := read_number_write

def readMany (format : WireFormat α) : Nat → Bytes → Option (List α × Bytes)
  | 0, bytes => some ([], bytes)
  | count + 1, bytes =>
      (format.read bytes).bind fun (value, rest) =>
        (readMany format count rest).map fun (values, rest) => (value :: values, rest)

theorem read_many_write (format : WireFormat α) (values : List α) (rest : Bytes) :
    readMany format values.length (values.flatMap format.write ++ rest) = some (values, rest) := by
  induction values with
  | nil => rfl
  | cons value values ih =>
      rw [List.length_cons, readMany, List.flatMap_cons, List.append_assoc, format.read_write]
      simp [ih]

def list (format : WireFormat α) : WireFormat (List α) where
  write values := number.write values.length ++ values.flatMap format.write
  read bytes := (number.read bytes).bind fun (count, rest) => readMany format count rest
  read_write := by
    intro values rest
    rw [List.append_assoc, number.read_write]
    exact read_many_write format values rest

def bytes : WireFormat Bytes := byte.list

/-- A value that the bytes hold and nothing behind it. -/
def readWhole (format : WireFormat α) (bytes : Bytes) : Option α :=
  match format.read bytes with
  | some (value, []) => some value
  | _ => none

theorem read_whole_write (format : WireFormat α) (value : α) :
    format.readWhole (format.write value) = some value := by
  have read := format.read_write value []
  rw [List.append_nil] at read
  rw [readWhole, read]

end WireFormat

end Foundation

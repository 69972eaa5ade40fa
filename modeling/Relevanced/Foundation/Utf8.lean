import Relevanced.Foundation.ByteString

/-!
# UTF-8

The encoding of code points in one to four bytes, and what a library that reads and
writes it one code point at a time is documented to do. A reader is included that does it.
-/

namespace Foundation

set_option autoImplicit false

/-- What can be encoded: the code points that are not surrogates. -/
def IsScalar (point : Nat) : Prop := point < 0xD800 ∨ 0xDFFF < point ∧ point < 0x110000

instance (point : Nat) : Decidable (IsScalar point) := inferInstanceAs (Decidable (_ ∨ _))

namespace Utf8

def continuation (bits : Nat) : Byte := Fin.ofNat 256 (0x80 + bits % 64)

def encode (point : Nat) : Bytes :=
  if point < 0x80 then [Fin.ofNat 256 point]
  else if point < 0x800 then [Fin.ofNat 256 (0xC0 + point / 64), continuation point]
  else if point < 0x10000 then
    [Fin.ofNat 256 (0xE0 + point / 4096), continuation (point / 64), continuation point]
  else
    [Fin.ofNat 256 (0xF0 + point / 262144), continuation (point / 4096),
      continuation (point / 64), continuation point]

def width (point : Nat) : Nat := (encode point).length

theorem width_eq (point : Nat) :
    width point =
      if point < 0x80 then 1
      else if point < 0x800 then 2
      else if point < 0x10000 then 3
      else 4 := by
  unfold width encode
  split
  · rfl
  · split
    · rfl
    · split
      · rfl
      · rfl

theorem width_pos (point : Nat) : 0 < width point := by
  rw [width_eq]
  split
  · omega
  · split
    · omega
    · split <;> omega

theorem width_eq_one_iff (point : Nat) : width point = 1 ↔ point < 0x80 := by
  rw [width_eq]
  split
  · simp [*]
  · split
    · simp [*]
    · split <;> simp [*]

theorem width_of_two {point : Nat} (above : 0x80 ≤ point) (below : point < 0x800) :
    width point = 2 := by
  rw [width_eq, if_neg (by omega), if_pos below]

/-- The code point a lead byte and the bytes after it stand for. -/
def assemble : Bytes → Nat
  | [] => 0
  | lead :: rest =>
      let bits := rest.map fun byte => byte.val - 0x80
      if lead.val < 0x80 then lead.val
      else if lead.val < 0xE0 then (lead.val - 0xC0) * 64 + bits.getD 0 0
      else if lead.val < 0xF0 then
        (lead.val - 0xE0) * 4096 + bits.getD 0 0 * 64 + bits.getD 1 0
      else
        (lead.val - 0xF0) * 262144 + bits.getD 0 0 * 4096 + bits.getD 1 0 * 64 + bits.getD 2 0

theorem assemble_encode {point : Nat} (scalar : IsScalar point) (rest : Bytes) :
    assemble (encode point ++ rest) = point := by
  have bound : point < 0x110000 := by
    unfold IsScalar at scalar
    omega
  unfold encode
  split
  · simp only [assemble, Fin.ofNat, List.cons_append]
    rw [if_pos (by omega)]
    omega
  · split
    · simp only [assemble, Fin.ofNat, continuation, List.cons_append, List.map_cons,
        List.getD_cons_zero]
      rw [if_neg (by omega), if_pos (by omega)]
      omega
    · split
      · simp only [assemble, Fin.ofNat, continuation, List.cons_append, List.map_cons,
          List.getD_cons_zero, List.getD_cons_succ]
        rw [if_neg (by omega), if_neg (by omega), if_pos (by omega)]
        omega
      · simp only [assemble, Fin.ofNat, continuation, List.cons_append, List.map_cons,
          List.getD_cons_zero, List.getD_cons_succ]
        rw [if_neg (by omega), if_neg (by omega), if_neg (by omega)]
        omega

def decode (bytes : Bytes) : Option (Nat × Nat) :=
  let point := assemble bytes
  if IsScalar point ∧ encode point <+: bytes then some (point, width point) else none

theorem decode_encode {point : Nat} (scalar : IsScalar point) (rest : Bytes) :
    decode (encode point ++ rest) = some (point, width point) := by
  rw [decode, assemble_encode scalar]
  exact if_pos ⟨scalar, List.prefix_append _ _⟩

theorem encoded_of_decode {bytes : Bytes} {point size : Nat}
    (decoded : decode bytes = some (point, size)) :
    IsScalar point ∧ size = width point ∧ encode point <+: bytes := by
  rw [decode] at decoded
  split at decoded
  · rename_i found
    cases decoded
    exact ⟨found.1, rfl, found.2⟩
  · cases decoded

def encodeAll (points : List Nat) : Bytes := points.flatMap encode

def ofText (text : String) : Bytes :=
  text.toByteArray.data.toList.map fun byte => Fin.ofNat 256 byte.toNat

@[simp] theorem encode_all_nil : encodeAll [] = [] := rfl

@[simp] theorem encode_all_cons (point : Nat) (points : List Nat) :
    encodeAll (point :: points) = encode point ++ encodeAll points := rfl

@[simp] theorem encode_all_append (first second : List Nat) :
    encodeAll (first ++ second) = encodeAll first ++ encodeAll second := by
  simp [encodeAll]

theorem encode_all_injective {left right : List Nat} (leftScalar : ∀ point ∈ left, IsScalar point)
    (rightScalar : ∀ point ∈ right, IsScalar point) (same : encodeAll left = encodeAll right) :
    left = right := by
  induction left generalizing right with
  | nil =>
      cases right with
      | nil => rfl
      | cons point points =>
          have lengths := congrArg List.length same
          have positive := width_pos point
          simp only [encode_all_nil, encode_all_cons, List.length_nil, List.length_append]
            at lengths
          unfold width at positive
          omega
  | cons point points ih =>
      have decoded := decode_encode (leftScalar point List.mem_cons_self) (encodeAll points)
      rw [← encode_all_cons, same] at decoded
      cases right with
      | nil =>
          have encoded := (encoded_of_decode decoded).2.2
          have positive := width_pos point
          rw [width, List.prefix_nil.mp encoded] at positive
          cases positive
      | cons other others =>
          have again := decode_encode (rightScalar other List.mem_cons_self) (encodeAll others)
          rw [← encode_all_cons, decoded] at again
          cases again
          rw [encode_all_cons, encode_all_cons, List.append_cancel_left_eq] at same
          rw [ih (fun later member => leftScalar later (List.mem_cons_of_mem point member))
            (fun later member => rightScalar later (List.mem_cons_of_mem point member)) same]

/-- A library of the two functions: `next` gives the code point the bytes begin with and its width,
and nothing where it throws; `append` gives the bytes it writes. -/
structure Library where
  next : Bytes → Option (Nat × Nat)
  append : Nat → Bytes

/-- What the library is documented to do. -/
structure Library.Standard (library : Library) : Prop where
  next : ∀ point rest, IsScalar point →
    library.next (encode point ++ rest) = some (point, width point)
  checked : ∀ bytes point size, library.next bytes = some (point, size) →
    IsScalar point ∧ size = width point ∧ encode point <+: bytes
  append : ∀ point, IsScalar point → library.append point = encode point

def library : Library where
  next := decode
  append := encode

theorem library_standard : library.Standard where
  next := fun _ rest scalar => decode_encode scalar rest
  checked := fun _ _ _ decoded => encoded_of_decode decoded
  append := fun _ _ => rfl

end Utf8

end Foundation

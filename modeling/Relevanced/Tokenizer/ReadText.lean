import Relevanced.Tokenizer.DestructiveTokenIterator

/-!
# Texts that can be read

Of any bytes the iterator reads code points until the library throws. A text it has read
to the end is the encoding of code points.
-/

namespace Relevanced.Tokenizer

open Foundation
open Libunicode

set_option autoImplicit false

namespace DestructiveTokenIterator

section Standard

variable {utf8 : Utf8.Library} (standard : utf8.Standard)

include standard

theorem handle_read_up_to {done : List Nat} {rest : Bytes} {isLetter : Bool}
    {later : DestructiveTokenIterator}
    (step : (readUpTo done rest).handle utf8 = some (isLetter, later)) :
    ∃ point left, IsScalar point ∧ rest = Utf8.encode point ++ left ∧
      later = readUpTo (done ++ [point]) left := by
  have steps := step
  rw [handle, unread_of_read_up_to] at steps
  obtain ⟨⟨point, size⟩, read, _⟩ := Option.bind_eq_some_iff.mp steps
  obtain ⟨scalar, rfl, left, rfl⟩ := standard.checked rest point size read
  rw [handle_code_point standard scalar read done] at step
  cases step
  exact ⟨point, left, scalar, rfl, rfl⟩

theorem read_up_to_of_handled {text : Bytes} {it : DestructiveTokenIterator}
    (handled : Handled utf8 (new text) it) :
    ∃ done rest, (∀ point ∈ done, IsScalar point) ∧ text = Utf8.encodeAll done ++ rest ∧
      it = readUpTo done rest := by
  induction handled with
  | start => exact ⟨[], text, by simp, by simp, new_eq_read_up_to text⟩
  | handle middle later isLetter handled more step ih =>
      obtain ⟨done, rest, scalars, split, rfl⟩ := ih
      obtain ⟨point, left, scalar, isRest, rfl⟩ := handle_read_up_to standard step
      refine ⟨done ++ [point], left, ?_, ?_, rfl⟩
      · intro other member
        rcases List.mem_append.mp member with earlier | last
        · exact scalars other earlier
        · rw [List.mem_singleton.mp last]
          exact scalar
      · simp [split, isRest]

theorem encoded_of_tokenize {text : Bytes} {yielded : List (Nat × Nat)}
    {it : DestructiveTokenIterator} (tokenized : tokenize utf8 text = some (yielded, it)) :
    ∃ points, (∀ point ∈ points, IsScalar point) ∧ text = Utf8.encodeAll points := by
  obtain ⟨handled, ended⟩ := handled_of_ranges tokenized
  obtain ⟨done, rest, scalars, split, rfl⟩ := read_up_to_of_handled standard handled
  have atEnd : totalWidth Utf8.width done = totalWidth Utf8.width done + rest.length := ended
  have nothing : rest = [] := List.length_eq_zero_iff.mp (by omega)
  refine ⟨done, scalars, ?_⟩
  rw [split, nothing, List.append_nil]

end Standard

end DestructiveTokenIterator

end Relevanced.Tokenizer

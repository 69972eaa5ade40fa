import Mathlib.Algebra.Field.Rat
import Relevanced.DocumentProcessing.DocumentProcessor
import Relevanced.Tokenizer.ReadText

/-!
# DocumentProcessingWorker

The hash that is stored with a document is taken after the text has been processed, in
the buffer that processing normalises.
-/

namespace Relevanced.DocumentProcessing

open Foundation
open Libunicode
open Models
open TextUtil
open Tokenizer

set_option autoImplicit false

variable {F : Type} [Zero F] [One F] [NatCast F] [Add F] [Mul F] [Div F]

/-- The document that the future is fulfilled with, and the text as it is left. -/
def processNew (processor : DocumentProcessor F) (hash : Bytes → Bytes) (doc : Document) :
    Option (ProcessedDocument F × Bytes) := do
  let (result, text) ← processor.process_ doc
  some ({ result with sha1Hash := some (hash text) }, text)

theorem process_tokens_last (utf8 : Utf8.Library) (getStemPos : Bytes → Nat) (language : Language)
    (calls : Nat) (it : DestructiveTokenIterator) :
    (processTokens utf8 getStemPos language calls it).2 =
      (DestructiveTokenIterator.ranges utf8 calls it).map (·.2) := by
  induction calls generalizing it with
  | zero => simp [processTokens, DestructiveTokenIterator.ranges]
  | succ calls ih =>
      rw [processTokens, DestructiveTokenIterator.ranges]
      cases stepped : it.next utf8 with
      | none => simp
      | some yielded =>
          obtain ⟨⟨found, startPos, endPos⟩, later⟩ := yielded
          cases found with
          | false => simp
          | true =>
              have last := ih later
              simp only [Option.bind_eq_bind, Option.bind_some, if_true]
              cases ran : DestructiveTokenIterator.ranges utf8 calls later with
              | none =>
                  rw [ran] at last
                  cases addition getStemPos language ⟨later.text, startPos, endPos⟩ with
                  | none => exact last
                  | some added => exact last
              | some result =>
                  rw [ran] at last
                  cases addition getStemPos language ⟨later.text, startPos, endPos⟩ with
                  | none => exact last
                  | some added => exact last

theorem id_of_process {processor : DocumentProcessor F} {doc : Document}
    {result : ProcessedDocument F} {text : Bytes}
    (processed : processor.process_ doc = some (result, text)) : result.id = doc.id := by
  rw [DocumentProcessor.process_] at processed
  obtain ⟨it, _, remaining⟩ := Option.bind_eq_some_iff.mp processed
  obtain ⟨accumulator, _, made⟩ := Option.bind_eq_some_iff.mp remaining
  cases made
  rfl

/-- A document is made of every text that is tokenized, and the text is left as the iterator leaves
it. -/
theorem text_of_process {processor : DocumentProcessor F} {doc : Document} {text : Bytes} :
    (∃ result, processor.process_ doc = some (result, text)) ↔
      ∃ yielded it, DestructiveTokenIterator.tokenize processor.utf8 doc.text = some (yielded, it) ∧
        it.text = text := by
  have last := process_tokens_last processor.utf8 (processor.getStemmer doc.language) doc.language
    (doc.text.length + 1) (.new doc.text)
  rw [DestructiveTokenIterator.tokenize, DocumentProcessor.process_]
  generalize processTokens processor.utf8 (processor.getStemmer doc.language) doc.language
    (doc.text.length + 1) (.new doc.text) = loop at last ⊢
  obtain ⟨added, ended⟩ := loop
  change ended = _ at last
  subst last
  constructor
  · rintro ⟨result, processed⟩
    obtain ⟨it, isLast, remaining⟩ := Option.bind_eq_some_iff.mp processed
    obtain ⟨accumulator, _, made⟩ := Option.bind_eq_some_iff.mp remaining
    obtain ⟨⟨yielded, it⟩, ran, rfl⟩ := Option.map_eq_some_iff.mp isLast
    exact ⟨yielded, it, ran, congrArg Prod.snd (Option.some.inj made)⟩
  · rintro ⟨yielded, it, ran, rfl⟩
    obtain ⟨accumulator, addedAll⟩ := WordAccumulator.live_add_all (F := F) WordAccumulator.live_new
      (added.map fun addition => (processor.search, addition.view it.text))
    simp only [ran, Option.map_some, Option.bind_eq_bind, Option.bind_some, addedAll]
    exact ⟨_, rfl⟩

theorem hash_of_process_new {processor : DocumentProcessor F} {hash : Bytes → Bytes}
    {doc : Document} {result : ProcessedDocument F} {text : Bytes}
    (made : processNew processor hash doc = some (result, text)) :
    result.sha1Hash = some (hash text) ∧
      ∃ result, processor.process_ doc = some (result, text) := by
  obtain ⟨⟨processed, left⟩, isProcessed, isMade⟩ := Option.bind_eq_some_iff.mp made
  cases isMade
  exact ⟨rfl, processed, isProcessed⟩

theorem text_of_encoded {processor : DocumentProcessor F} (standard : processor.utf8.Standard)
    {points : List Nat} (scalar : ∀ point ∈ points, IsScalar point) {doc : Document}
    (isText : doc.text = Utf8.encodeAll points) (text : Bytes) :
    (∃ result, processor.process_ doc = some (result, text)) ↔
      text = Utf8.encodeAll (points.map normalizeCodePoint) := by
  have left : (DestructiveTokenIterator.between points []).text =
      Utf8.encodeAll (points.map normalizeCodePoint) := by
    simp [DestructiveTokenIterator.between]
  rw [text_of_process, isText, DestructiveTokenIterator.tokenize_encoded standard scalar]
  constructor
  · rintro ⟨yielded, it, isLast, rfl⟩
    cases isLast
    exact left
  · rintro rfl
    exact ⟨_, _, rfl, left⟩

/-- The hash is that of the submitted text, whatever the hasher, exactly when normalisation changes
no code point of the text. -/
theorem hash_of_submitted_iff (processor : DocumentProcessor F) (standard : processor.utf8.Standard)
    (doc : Document) :
    (∀ hash result text, processNew processor hash doc = some (result, text) →
      result.sha1Hash = some (hash doc.text)) ↔
      ∀ points : List Nat, (∀ point ∈ points, IsScalar point) → doc.text = Utf8.encodeAll points →
        ∀ point ∈ points, normalizeCodePoint point = point := by
  constructor
  · intro same points scalar isText
    obtain ⟨result, processed⟩ := (text_of_encoded standard scalar isText _).mpr rfl
    have made : processNew processor id doc =
        some ({ result with sha1Hash := some (Utf8.encodeAll (points.map normalizeCodePoint)) },
          Utf8.encodeAll (points.map normalizeCodePoint)) := by
      rw [processNew, processed]
      rfl
    have sameText := Option.some.inj (same id _ _ made)
    have normalScalar : ∀ point ∈ points.map normalizeCodePoint, IsScalar point := by
      intro point member
      obtain ⟨original, isThere, rfl⟩ := List.mem_map.mp member
      exact scalar_normalized (scalar original isThere)
    have fixed : points.map normalizeCodePoint = points :=
      Utf8.encode_all_injective normalScalar scalar (sameText.trans isText)
    exact List.map_inj_left.mp (fixed.trans (List.map_id points).symm)
  · intro unchanged hash result text made
    obtain ⟨isHash, processed⟩ := hash_of_process_new made
    obtain ⟨yielded, it, tokenized, _⟩ := text_of_process.mp processed
    obtain ⟨points, scalar, isText⟩ :=
      DestructiveTokenIterator.encoded_of_tokenize standard tokenized
    have isLeft := (text_of_encoded standard scalar isText text).mp processed
    have same : points.map normalizeCodePoint = points :=
      List.map_congr_left (unchanged points scalar isText) |>.trans (List.map_id points)
    rw [isHash, isLeft, same, isText]

/-- A processor of rational scores, which keeps every token whole. -/
def plainProcessor : DocumentProcessor ℚ where
  utf8 := Utf8.library
  search := ⟨fun _ _ => none, by simp⟩
  getStemmer _ token := token.length
  sqrt := id
  getEpochTime := 0

theorem plain_text_hashed :
    ∃ result text, processNew plainProcessor id ⟨ascii "doc", ascii "a dog", .en⟩ =
      some (result, text) ∧ result.sha1Hash = some (ascii "a dog") := by
  have isText : ascii "a dog" = Utf8.encodeAll [0x61, 0x20, 0x64, 0x6F, 0x67] := by
    decide
  have made : (processNew plainProcessor id ⟨ascii "doc", ascii "a dog", .en⟩).isSome := by
    decide +kernel
  obtain ⟨⟨result, text⟩, isMade⟩ := Option.isSome_iff_exists.mp made
  refine ⟨result, text, isMade, ?_⟩
  apply (hash_of_submitted_iff plainProcessor Utf8.library_standard _).mpr _ id result text isMade
  intro points scalar same
  rw [Utf8.encode_all_injective scalar (by decide) (same.symm.trans isText)]
  decide

/-- The text `A` is left as `a`. -/
theorem normalized_text_hashed :
    ¬ ∀ (hash : Bytes → Bytes) (doc : Document) (result : ProcessedDocument ℚ) (text : Bytes),
      processNew plainProcessor hash doc = some (result, text) →
        result.sha1Hash = some (hash doc.text) := by
  intro claim
  have hashed : (processNew plainProcessor id ⟨ascii "doc", ascii "A", .en⟩).map (·.1.sha1Hash) =
      some (some (ascii "a")) := by
    decide +kernel
  obtain ⟨⟨result, text⟩, made, isHash⟩ := Option.map_eq_some_iff.mp hashed
  have sameHash := claim id _ result text made
  rw [isHash] at sameHash
  exact absurd sameHash (by decide)

end Relevanced.DocumentProcessing

import Relevanced.CentroidUpdate.Accumulation
import Relevanced.DocumentProcessing.DocumentProcessingWorker
import Relevanced.Foundation.KeyedVectors
import Relevanced.TextUtil.TermFrequencies

/-!
# The vectors of processed documents

All that is added of a text lies in the text, and the vector that is made of it has
positive scores. Its strings are distinct as long as different words of the text are
stored under different strings.
-/

namespace Relevanced.DocumentProcessing

open CentroidUpdate
open Foundation
open Models
open Stopwords
open TextUtil
open Tokenizer

set_option autoImplicit false

section InMemory

variable {utf8 : Utf8.Library} {getStemPos : Bytes → Nat} {language : Language}

theorem length_of_handled (standard : utf8.Standard) {text : Bytes} {it : DestructiveTokenIterator}
    (handled : DestructiveTokenIterator.Handled utf8 (.new text) it) :
    it.text.length = text.length := by
  obtain ⟨done, rest, _, split, rfl⟩ :=
    DestructiveTokenIterator.read_up_to_of_handled standard handled
  simp [DestructiveTokenIterator.readUpTo, split, DestructiveTokenIterator.length_encode_all,
    DestructiveTokenIterator.total_width_normalized]

theorem length_token_text (standard : utf8.Standard) {text : Bytes} {calls : Nat}
    {it : DestructiveTokenIterator}
    (handled : DestructiveTokenIterator.Handled utf8 (.new text) it) :
    ∀ token ∈ tokens utf8 calls it, token.text.length = text.length := by
  induction calls generalizing it with
  | zero => simp [tokens]
  | succ calls ih =>
      intro token member
      rw [tokens] at member
      split at member
      · simp at member
      · simp at member
      · rename_i later stepped
        have handledLater := handled.trans (DestructiveTokenIterator.handled_of_next stepped).1
        rcases List.mem_cons.mp member with rfl | isLater
        · exact length_of_handled standard handledLater
        · exact ih handledLater token isLater

theorem length_of_addition (bounded : ∀ token, getStemPos token ≤ token.length) {token : Token}
    {added : Addition} (isAdded : addition getStemPos language token = some added) :
    added.token = token ∧ 3 ≤ added.len ∧ added.len ≤ 23 ∧ added.len ≤ token.bytes.length := by
  have within := bounded token.bytes
  have inToken : getStemPos token.bytes ≤ token.len := by
    rw [Token.bytes, List.length_take] at within
    exact within.trans (min_le_left _ _)
  refine ⟨token_of_addition isAdded, ?_⟩
  simp only [addition, stem_kept inToken, Option.ite_none_left_eq_some, Option.some.injEq]
    at isAdded
  obtain ⟨notStopword, rfl⟩ := isAdded
  have long : ¬ ((cString (token.bytes.take (getStemPos token.bytes))).take 22).length ≤ 2 := by
    intro short
    exact notStopword (if_pos short)
  have kept : (cString (token.bytes.take (getStemPos token.bytes))).length ≤
      (token.bytes.take (getStemPos token.bytes)).length :=
    (List.takeWhile_sublist _).length_le
  rw [List.length_take] at long kept
  dsimp only
  split <;> omega

theorem in_memory_of_addition (standard : utf8.Standard)
    (bounded : ∀ token, getStemPos token ≤ token.length) {text left : Bytes}
    (sameLength : left.length = text.length) :
    ∀ view ∈ (additions utf8 getStemPos language text).map (Addition.view left),
      view.InMemory ∧ view.len ≤ 23 := by
  intro view member
  obtain ⟨added, isThere, rfl⟩ := List.mem_map.mp member
  rw [additions, process_tokens_added] at isThere
  obtain ⟨token, isToken, isAdded⟩ := List.mem_filterMap.mp isThere
  obtain ⟨rfl, lower, upper, inside⟩ := length_of_addition bounded isAdded
  have textLength := length_token_text standard .start added.token isToken
  have inText : added.token.bytes.length ≤ text.length - added.token.startPos := by
    rw [Token.bytes, List.length_take, Token.tokenStart, List.length_drop, textLength]
    exact min_le_right _ _
  refine ⟨?_, upper⟩
  constructor
  · exact Nat.lt_of_lt_of_le (by decide) lower
  · exact Nat.lt_of_le_of_lt upper (by decide)
  · change added.len ≤ (left.drop added.token.startPos).length
    rw [List.length_drop, sameLength]
    exact inside.trans inText

end InMemory

/-- The views that are added for a document, in the text that is left of it. -/
def DocumentProcessor.views {F : Type} (processor : DocumentProcessor F) (doc : Document)
    (text : Bytes) : List StringView :=
  (additions processor.utf8 (processor.getStemmer doc.language) doc.language doc.text).map
    (Addition.view text)

theorem built_of_process {F : Type} [Zero F] [One F] [NatCast F] [Add F] [Mul F] [Div F]
    {processor : DocumentProcessor F} {doc : Document} {document : ProcessedDocument F}
    {text : Bytes}
    (processed : processor.process_ doc = some (document, text)) :
    ∃ accumulator, WordAccumulator.new.addAll
        ((processor.views doc text).map fun view => (processor.search, view)) = some accumulator ∧
      document.scoredWords = (accumulator.build processor.sqrt).scoredWords ∧
      document.magnitude = (accumulator.build processor.sqrt).magnitude := by
  rw [DocumentProcessor.process_] at processed
  rw [DocumentProcessor.views, additions]
  generalize processTokens processor.utf8 (processor.getStemmer doc.language) doc.language
    (doc.text.length + 1) (.new doc.text) = loop at processed ⊢
  obtain ⟨added, last⟩ := loop
  obtain ⟨it, _, remaining⟩ := Option.bind_eq_some_iff.mp processed
  obtain ⟨accumulator, addedAll, made⟩ := Option.bind_eq_some_iff.mp remaining
  cases made
  refine ⟨accumulator, ?_, rfl, rfl⟩
  rw [List.map_map]
  exact addedAll

/-- A processor in exact arithmetic, whose map compares hashes and views. -/
structure Exact (processor : DocumentProcessor ℝ) (hash : Bytes → UInt64) : Prop where
  standard : processor.utf8.Standard
  bounded : ∀ language token, processor.getStemmer language token ≤ token.length
  search : processor.search = .hashed hash
  sqrt : processor.sqrt = Real.sqrt

section Vectors

variable {processor : DocumentProcessor ℝ} {hash : Bytes → UInt64} (exact : Exact processor hash)
  {doc : Document} {document : ProcessedDocument ℝ} {text : Bytes}
  (processed : processor.process_ doc = some (document, text))

include exact processed

theorem views_in_memory : ∀ view ∈ processor.views doc text, view.InMemory ∧ view.len ≤ 23 := by
  obtain ⟨yielded, it, tokenized, rfl⟩ := text_of_process.mp ⟨document, processed⟩
  apply in_memory_of_addition exact.standard (exact.bounded doc.language)
  exact length_of_handled exact.standard (DestructiveTokenIterator.handled_of_ranges tokenized).1

/-- The scores of a processed document are positive, and its magnitude is that of its entries. -/
theorem vector_of_process :
    (∀ entry ∈ DocumentAccumulator.entries document, 0 < entry.2) ∧
      document.magnitude ^ 2 = squares (DocumentAccumulator.entries document) := by
  obtain ⟨accumulator, addedAll, words, magnitude⟩ := built_of_process processed
  obtain ⟨counted, _⟩ := WordAccumulator.counted_add_all WordAccumulator.counted_new addedAll
  rw [exact.sqrt] at words magnitude
  constructor
  · intro entry member
    obtain ⟨elem, isElem, rfl⟩ := List.mem_map.mp member
    rw [words] at isElem
    exact WordAccumulator.positive_built counted elem.score (List.mem_map_of_mem isElem)
  · rw [magnitude, WordAccumulator.magnitude_built, ← words, DocumentAccumulator.entries, squares,
      List.map_map]
    apply congrArg List.sum
    apply List.map_congr_left
    intro elem _
    exact pow_two elem.score

/-- The strings of a processed document are distinct exactly when no two different words of the text
are stored under one string. -/
theorem keys_of_process (hashes : DistinctHashes hash (processor.views doc text)) :
    ((DocumentAccumulator.entries document).map Prod.fst).Nodup ↔
      ∀ view ∈ processor.views doc text, ∀ other ∈ processor.views doc text,
        view.stored = other.stored → view.word = other.word := by
  have inMemory := views_in_memory exact processed
  obtain ⟨accumulator, addedAll, words, _⟩ := built_of_process processed
  rw [exact.search] at addedAll
  obtain ⟨tallied, firsts, addedHashed, tally⟩ := WordAccumulator.tallied_add_hashed (F := ℝ)
    (fun view isView => (inMemory view isView).1) hashes
  have same : tallied = accumulator := Option.some.inj (addedHashed.symm.trans addedAll)
  subst same
  have keys : (DocumentAccumulator.entries document).map Prod.fst =
      tallied.scoredWords.map (·.key) := by
    rw [DocumentAccumulator.entries, List.map_map, words, exact.sqrt,
      ← WordAccumulator.keys_built tallied]
    rfl
  rw [keys]
  exact WordAccumulator.keys_distinct_iff tally fun view isView => (inMemory view isView).2

end Vectors

end Relevanced.DocumentProcessing

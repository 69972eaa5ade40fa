import Relevanced.Stopwords.StopwordFilter
import Relevanced.TextUtil.WordAccumulator
import Relevanced.Tokenizer.DestructiveTokenIterator

/-!
# DocumentProcessor

The tokens of a text are stemmed, cut to 23 bytes, filtered and added up. The stemmer
is a parameter: for the bytes of a token it gives the number of them that it keeps.
Stopwords are looked for among the stems.
-/

namespace Relevanced.DocumentProcessing

open Foundation
open Models
open Stopwords
open TextUtil
open Tokenizer

set_option autoImplicit false

/-- A token that the iterator has yielded, in the text as it is then. -/
structure Token where
  text : Bytes
  startPos : Nat
  endPos : Nat

def Token.tokenStart (token : Token) : Bytes := token.text.drop token.startPos

def Token.len (token : Token) : Nat := token.endPos - token.startPos

def Token.bytes (token : Token) : Bytes := token.tokenStart.take token.len

/-- A call of `accumulator.add`: the token, and the length of its view. -/
structure Addition where
  token : Token
  len : Nat

def Addition.view (text : Bytes) (addition : Addition) : StringView where
  base := text.drop addition.token.startPos
  len := addition.len

/-- What the loop adds for a token, and nothing where it continues. -/
def addition (getStemPos : Bytes → Nat) (language : Language) (token : Token) : Option Addition :=
  let len := getStemPos token.bytes
  let len := if len > 23 then 23 else len
  let scored := assignWord (Vector.replicate 24 0) token.tokenStart (Fin.ofNat 256 len)
  if isStopword (cString scored.toList) language then none else some ⟨token, len⟩

section Loop

variable (utf8 : Utf8.Library) (getStemPos : Bytes → Nat) (language : Language)

/-- The loop of `process_` for at most so many calls of `next`: what it adds, and the iterator it
leaves unless the library throws. -/
def processTokens : Nat → DestructiveTokenIterator →
    List Addition × Option DestructiveTokenIterator
  | 0, _ => ([], none)
  | calls + 1, it =>
      match it.next utf8 with
      | none => ([], none)
      | some ((false, _, _), it) => ([], some it)
      | some ((true, startPos, endPos), it) =>
          let (later, last) := processTokens calls it
          match addition getStemPos language ⟨it.text, startPos, endPos⟩ with
          | none => (later, last)
          | some added => (added :: later, last)

def tokens : Nat → DestructiveTokenIterator → List Token
  | 0, _ => []
  | calls + 1, it =>
      match it.next utf8 with
      | none => []
      | some ((false, _, _), _) => []
      | some ((true, startPos, endPos), it) => ⟨it.text, startPos, endPos⟩ :: tokens calls it

/-- What is added for a text; each call of `next` but the last reads at least one byte. -/
def additions (text : Bytes) : List Addition :=
  (processTokens utf8 getStemPos language (text.length + 1) (.new text)).1

def tokensOf (text : Bytes) : List Token := tokens utf8 (text.length + 1) (.new text)

theorem process_tokens_added (calls : Nat) (it : DestructiveTokenIterator) :
    (processTokens utf8 getStemPos language calls it).1 =
      (tokens utf8 calls it).filterMap (addition getStemPos language) := by
  induction calls generalizing it with
  | zero => simp [processTokens, tokens]
  | succ calls ih =>
      rw [processTokens, tokens]
      split
      · simp
      · simp
      · rename_i startPos endPos later _
        rw [List.filterMap_cons, ← ih later]
        cases addition getStemPos language ⟨later.text, startPos, endPos⟩ with
        | none => rfl
        | some added => rfl

end Loop

/-- The parts that are configured, and the time. -/
structure DocumentProcessor (F : Type) where
  utf8 : Utf8.Library
  search : WordSearch
  getStemmer : Language → Bytes → Nat
  sqrt : F → F
  getEpochTime : UInt64

/-- The result, and the text as it is left in the document. A view is compared with the words of
earlier tokens only as far as its own token goes, where the iterator writes nothing any more: all
views can be taken in the text that is left. -/
def DocumentProcessor.process_ {F : Type} [Zero F] [One F] [NatCast F] [Add F] [Mul F] [Div F]
    (processor : DocumentProcessor F) (doc : Document) : Option (ProcessedDocument F × Bytes) := do
  let (added, last) := processTokens processor.utf8 (processor.getStemmer doc.language) doc.language
    (doc.text.length + 1) (.new doc.text)
  let it ← last
  let accumulator ← WordAccumulator.new.addAll
    (added.map fun addition => (processor.search, addition.view it.text))
  let built := accumulator.build processor.sqrt
  some ({
    id := doc.id
    sha1Hash := none
    scoredWords := built.scoredWords
    magnitude := built.magnitude
    created := processor.getEpochTime
    updated := processor.getEpochTime }, it.text)

section Stopwords

variable {getStemPos : Bytes → Nat} {language : Language}

theorem stem_kept {token : Token} {size : Nat} (inToken : size ≤ token.len) :
    cString (assignWord (Vector.replicate 24 0) token.tokenStart
      (Fin.ofNat 256 (if size > 23 then 23 else size))).toList =
        (cString (token.bytes.take size)).take 22 := by
  have kept : min (Fin.ofNat 256 (if size > 23 then 23 else size)).val 22 = min 22 size := by
    rw [Fin.val_ofNat]
    split <;> omega
  rw [c_string_assign_word, kept, Token.bytes, List.take_take, min_eq_left inToken, c_string_take,
    List.take_take]

theorem is_stopword_kept {word : Bytes} (stopword : isStopword word language = true) (size : Nat) :
    isStopword ((cString (word.take size)).take 22) language =
      isStopword (word.take size) language := by
  by_cases short : word.length ≤ 2
  · have kept : (cString (word.take size)).length ≤ (word.take size).length :=
      (List.takeWhile_sublist _).length_le
    have stem : (word.take size).length ≤ word.length := List.length_take_le' size word
    have cut : ((cString (word.take size)).take 22).length ≤ (cString (word.take size)).length :=
      List.length_take_le' 22 _
    rw [isStopword, isStopword, if_pos (by omega), if_pos (by omega)]
  · rw [isStopword, if_neg short] at stopword
    obtain ⟨atMost, free⟩ := listed_word stopword
    have stem : (word.take size).length ≤ word.length := List.length_take_le' size word
    rw [c_string_of_free fun member => free (List.mem_of_mem_take member),
      List.take_of_length_le (stem.trans atMost)]

/-- For a stopword nothing is added exactly when its stem is a stopword. -/
theorem addition_of_stopword (bounded : ∀ token, getStemPos token ≤ token.length) {token : Token}
    (stopword : isStopword token.bytes language = true) :
    addition getStemPos language token = none ↔
      isStopword (token.bytes.take (getStemPos token.bytes)) language = true := by
  have within := bounded token.bytes
  have inToken : getStemPos token.bytes ≤ token.len := by
    rw [Token.bytes, List.length_take] at within
    exact within.trans (min_le_left _ _)
  have same : isStopword ((cString (token.bytes.take (getStemPos token.bytes))).take 22) language =
      isStopword (token.bytes.take (getStemPos token.bytes)) language :=
    is_stopword_kept stopword (getStemPos token.bytes)
  rw [addition]
  simp only [stem_kept inToken, same]
  simp

theorem token_of_addition {token : Token} {added : Addition}
    (isAdded : addition getStemPos language token = some added) : added.token = token := by
  simp only [addition, Option.ite_none_left_eq_some, Option.some.injEq] at isAdded
  rw [← isAdded.2]

/-- No stopword is added exactly when the stem of every token that is a stopword is one, too. -/
theorem no_stopword_added_iff (utf8 : Utf8.Library) (getStemPos : Bytes → Nat)
    (bounded : ∀ token, getStemPos token ≤ token.length) (language : Language) (text : Bytes) :
    (∀ added ∈ additions utf8 getStemPos language text,
      isStopword added.token.bytes language = false) ↔
      ∀ token ∈ tokensOf utf8 text, isStopword token.bytes language = true →
        isStopword (token.bytes.take (getStemPos token.bytes)) language = true := by
  rw [additions, process_tokens_added]
  constructor
  · intro noneAdded token isToken stopword
    rw [← addition_of_stopword bounded stopword]
    cases isAdded : addition getStemPos language token with
    | none => rfl
    | some added =>
        have notStopword := noneAdded added (List.mem_filterMap.mpr ⟨token, isToken, isAdded⟩)
        rw [token_of_addition isAdded, stopword] at notStopword
        cases notStopword
  · intro closed added member
    obtain ⟨token, isToken, isAdded⟩ := List.mem_filterMap.mp member
    rw [token_of_addition isAdded]
    apply Bool.eq_false_of_not_eq_true
    intro stopword
    have notAdded := (addition_of_stopword bounded stopword).mpr (closed token isToken stopword)
    rw [isAdded] at notAdded
    cases notAdded

/-- A stemmer that drops the last letter of some words, as the English one does of `because`. -/
def dropsLast (words : List Bytes) (token : Bytes) : Nat :=
  if token ∈ words then token.length - 1 else token.length

theorem drops_last_bounded (words : List Bytes) (token : Bytes) :
    dropsLast words token ≤ token.length := by
  rw [dropsLast]
  split
  · exact Nat.sub_le _ _
  · exact Nat.le_refl _

/-- `the` is kept whole, and of four tokens two are added. -/
theorem the_not_added :
    (additions Utf8.library (dropsLast [ascii "because"]) .en
      (ascii "the cat, the dog")).length = 2 ∧
      ∀ added ∈ additions Utf8.library (dropsLast [ascii "because"]) .en (ascii "the cat, the dog"),
        isStopword added.token.bytes .en = false := by
  constructor
  · decide +kernel
  · apply (no_stopword_added_iff Utf8.library (dropsLast [ascii "because"])
      (drops_last_bounded [ascii "because"]) .en (ascii "the cat, the dog")).mpr
    decide +kernel

/-- `because` is a stopword, and its stem `becaus` is added. -/
theorem because_added :
    ¬ ∀ (getStemPos : Bytes → Nat), (∀ token, getStemPos token ≤ token.length) →
      ∀ (language : Language) (text : Bytes),
        ∀ added ∈ additions Utf8.library getStemPos language text,
          isStopword added.token.bytes language = false := by
  intro claim
  have noneAdded := claim (dropsLast [ascii "because"]) (drops_last_bounded _) .en (ascii "because")
  exact absurd noneAdded (by decide +kernel)

end Stopwords

end Relevanced.DocumentProcessing

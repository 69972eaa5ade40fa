import Mathlib.Data.List.Nodup
import Mathlib.Data.Nat.Cast.Defs
import Relevanced.TextUtil.WordAccumulator

/-!
# Term frequencies

With a map that compares hashes and views, and no two words of one hash, the
accumulator keeps one entry for each different word that has been added. The words of
two entries are the same when the words begin with the same 22 bytes.
-/

namespace Relevanced.TextUtil

open Foundation
open Models

set_option autoImplicit false

/-- The stored hash is equal, and `operator==` is true. -/
def entryMatches (hash : Bytes → UInt64) (view : StringView) (entry : StringView × Nat) : Bool :=
  hash entry.1.word = hash view.word && view.equal entry.1

/-- `find` of an `unordered_map`. -/
def WordSearch.hashed (hash : Bytes → UInt64) : WordSearch where
  find entries view := entries.find? (entryMatches hash view)
  found _ _ _ found := List.mem_of_find?_eq_some found

/-- `folly::hash::fnv64_buf` of ASCII bytes. -/
def fnv64 (bytes : Bytes) : UInt64 :=
  bytes.foldl (fun hash byte => (hash * 1099511628211) ^^^ UInt64.ofNat byte.val)
    14695981039346656037

/-- The views that `process_` lets through. -/
structure StringView.Admitted (view : StringView) : Prop where
  lower : 3 ≤ view.len
  upper : view.len ≤ 23
  inside : view.len ≤ view.base.length
  free : 0 ∉ view.word

/-- The string that a scored word of the view holds. -/
def StringView.stored (view : StringView) : Bytes :=
  cString (assignWord (Vector.replicate 24 0) view.base (Fin.ofNat 256 view.len)).toList

/-- No two different words of the sequence have the same hash. -/
def DistinctHashes (hash : Bytes → UInt64) (views : List StringView) : Prop :=
  ∀ view ∈ views, ∀ other ∈ views, hash view.word = hash other.word → view.word = other.word

theorem DistinctHashes.subset {hash : Bytes → UInt64} {views later : List StringView}
    (hashes : DistinctHashes hash later) (among : views ⊆ later) : DistinctHashes hash views :=
  fun view isView other isOther => hashes view (among isView) other (among isOther)

instance (hash : Bytes → UInt64) (views : List StringView) :
    Decidable (DistinctHashes hash views) :=
  inferInstanceAs (Decidable (∀ view ∈ views, ∀ other ∈ views,
    hash view.word = hash other.word → view.word = other.word))

namespace StringView

variable {view other : StringView}

theorem admitted_iff : view.Admitted ↔
    3 ≤ view.len ∧ view.len ≤ 23 ∧ view.len ≤ view.base.length ∧ 0 ∉ view.word :=
  ⟨fun admitted => ⟨admitted.lower, admitted.upper, admitted.inside, admitted.free⟩,
    fun ⟨lower, upper, inside, free⟩ => ⟨lower, upper, inside, free⟩⟩

instance : Decidable view.Admitted := decidable_of_iff _ admitted_iff.symm

theorem Admitted.inMemory (admitted : view.Admitted) : view.InMemory where
  positive := Nat.lt_of_lt_of_le (by decide) admitted.lower
  counted := Nat.lt_of_le_of_lt admitted.upper (by decide)
  inside := admitted.inside

theorem stored_of_word (upper : view.len ≤ 23) : view.stored = cString (view.word.take 22) := by
  have length : min (Fin.ofNat 256 view.len).val 22 = min 22 view.len := by
    rw [Fin.val_ofNat]
    omega
  rw [stored, c_string_assign_word, length, ← c_string_take, word, List.take_take]

theorem Admitted.stored_eq (admitted : view.Admitted) : view.stored = view.word.take 22 := by
  rw [stored_of_word admitted.upper]
  apply c_string_of_free
  exact fun member => admitted.free (List.mem_of_mem_take member)

end StringView

namespace WordAccumulator

variable {F : Type} [AddMonoidWithOne F] {hash : Bytes → UInt64}

/-- The word of a view, with the number of times it is among some views. -/
def tallied (views : List StringView) (view : StringView) : ScoredWord F :=
  .scored view.base (Fin.ofNat 256 view.len) ((views.map (·.word)).count view.word : F)

/-- What the accumulator holds of some views: the first view of each different word. -/
structure Tallied (views firsts : List StringView) (accumulator : WordAccumulator F) : Prop where
  among : firsts ⊆ views
  distinct : (firsts.map (·.word)).Nodup
  every : ∀ view ∈ views, ∃ first ∈ firsts, first.word = view.word
  entries : accumulator.wordsByStr = firsts.zipIdx
  scores : accumulator.scoredWords = firsts.map (tallied views)

theorem tallied_new : Tallied [] [] (new : WordAccumulator F) where
  among := List.Subset.refl []
  distinct := List.nodup_nil
  every := by simp
  entries := rfl
  scores := rfl

theorem tallied_of_same {views : List StringView} {view first : StringView}
    (same : first.word = view.word) :
    tallied (F := F) (views ++ [view]) first =
      { (tallied views first : ScoredWord F) with
        score := (tallied views first : ScoredWord F).score + 1 } := by
  simp [tallied, ScoredWord.scored, List.count_append, same]

theorem tallied_of_other {views : List StringView} {view first : StringView}
    (other : first.word ≠ view.word) :
    tallied (F := F) (views ++ [view]) first = tallied views first := by
  simp [tallied, List.count_append, other.symm]

theorem set_map_eq_map {α β : Type} {items : List α} {before after : α → β} {index : Nat} {item : α}
    (found : items[index]? = some item)
    (unchanged : ∀ position other, items[position]? = some other → position ≠ index →
      after other = before other) :
    (items.map before).set index (after item) = items.map after := by
  apply List.ext_getElem?
  intro position
  rw [List.getElem?_set, List.getElem?_map, List.getElem?_map]
  by_cases here : index = position
  · subst here
    have inside := (List.getElem?_eq_some_iff.mp found).1
    rw [if_pos rfl, List.length_map, if_pos inside, found]
    rfl
  · rw [if_neg here]
    cases there : items[position]? with
    | none => rfl
    | some other => exact congrArg some (unchanged position other there (Ne.symm here)).symm

section Hashed

variable {views firsts : List StringView} {view : StringView} {accumulator : WordAccumulator F}

theorem Tallied.same_index (tally : Tallied views firsts accumulator) {index position : Nat}
    {first other : StringView} (located : firsts[index]? = some first)
    (otherLocated : firsts[position]? = some other) (same : first.word = other.word) :
    index = position := by
  have inside : index < (firsts.map (·.word)).length := by
    rw [List.length_map]
    exact (List.getElem?_eq_some_iff.mp located).1
  apply (List.getElem?_inj inside tally.distinct).mp
  rw [List.getElem?_map, List.getElem?_map, located, otherLocated]
  exact congrArg some same

variable (tally : Tallied views firsts accumulator)
  (inMemory : ∀ other ∈ views ++ [view], other.InMemory)
  (hashes : DistinctHashes hash (views ++ [view]))

include inMemory hashes in
theorem entry_matches_iff {entry : StringView × Nat} (isView : entry.1 ∈ views) :
    entryMatches hash view entry = true ↔ entry.1.word = view.word := by
  have isLater : entry.1 ∈ views ++ [view] := List.mem_append_left [view] isView
  have isAdded : view ∈ views ++ [view] := by simp
  rw [entryMatches, Bool.and_eq_true, decide_eq_true_iff]
  constructor
  · exact fun both => hashes entry.1 isLater view isAdded both.1
  · exact fun same => ⟨congrArg hash same, StringView.equal_of_same_word
      (inMemory view isAdded) (inMemory entry.1 isLater) same.symm⟩

include tally inMemory hashes

theorem find_hashed_iff (entry : StringView × Nat) :
    (WordSearch.hashed hash).find accumulator.wordsByStr view = some entry ↔
      firsts[entry.2]? = some entry.1 ∧ entry.1.word = view.word := by
  have isView : ∀ other ∈ firsts.zipIdx, other.1 ∈ views :=
    fun other member => tally.among (List.fst_mem_of_mem_zipIdx member)
  have ofFound : ∀ other, firsts.zipIdx.find? (entryMatches hash view) = some other →
      firsts[other.2]? = some other.1 ∧ other.1.word = view.word := by
    intro other found
    have member := List.mem_of_find?_eq_some found
    exact ⟨List.mem_zipIdx_iff_getElem?.mp member,
      (entry_matches_iff inMemory hashes (isView other member)).mp (List.find?_some found)⟩
  rw [tally.entries]
  constructor
  · exact ofFound entry
  · rintro ⟨located, same⟩
    have member := List.mem_zipIdx_iff_getElem?.mpr located
    change firsts.zipIdx.find? (entryMatches hash view) = some entry
    cases answer : firsts.zipIdx.find? (entryMatches hash view) with
    | none =>
        have noMatch := List.find?_eq_none.mp answer entry member
        exact absurd ((entry_matches_iff inMemory hashes (isView entry member)).mpr same) noMatch
    | some other =>
        obtain ⟨otherLocated, otherSame⟩ := ofFound other answer
        have sameIndex := tally.same_index otherLocated located (otherSame.trans same.symm)
        apply congrArg some
        apply Prod.ext
        · rw [sameIndex, located] at otherLocated
          exact (Option.some.inj otherLocated).symm
        · exact sameIndex

omit inMemory hashes in
theorem tallied_of_new (isNew : view.word ∉ views.map (·.word)) :
    Tallied (views ++ [view]) (firsts ++ [view]) { accumulator with
      totalWords := accumulator.totalWords + 1
      scoredWords := accumulator.scoredWords ++ [ScoredWord.new view.base (Fin.ofNat 256 view.len)]
      wordsByStr := accumulator.wordsByStr ++ [(view, accumulator.scoredWords.length)] } := by
  have differs : ∀ first ∈ firsts, first.word ≠ view.word :=
    fun first isFirst same => isNew (List.mem_map.mpr ⟨first, tally.among isFirst, same⟩)
  constructor
  · exact List.append_subset.mpr ⟨List.subset_append_of_subset_left _ tally.among, by simp⟩
  · rw [List.map_append]
    apply List.Nodup.append tally.distinct (List.nodup_singleton _)
    simpa using differs
  · intro other member
    rcases List.mem_append.mp member with earlier | added
    · obtain ⟨first, isFirst, same⟩ := tally.every other earlier
      exact ⟨first, List.mem_append_left _ isFirst, same⟩
    · rw [List.mem_singleton.mp added]
      exact ⟨view, by simp, rfl⟩
  · simp [tally.entries, tally.scores, List.zipIdx_append]
  · have counted : firsts.map (tallied (F := F) (views ++ [view])) = firsts.map (tallied views) :=
      List.map_congr_left fun first isFirst => tallied_of_other (differs first isFirst)
    have once : tallied (F := F) (views ++ [view]) view =
        ScoredWord.new view.base (Fin.ofNat 256 view.len) := by
      simp [tallied, List.count_append, List.count_eq_zero.mpr isNew, ScoredWord.new]
    rw [List.map_append, counted, tally.scores, List.map_singleton, once]

omit inMemory hashes in
theorem tallied_of_found {index : Nat} {first : StringView} (located : firsts[index]? = some first)
    (same : first.word = view.word) :
    Tallied (views ++ [view]) firsts { accumulator with
      totalWords := accumulator.totalWords + 1
      scoredWords := accumulator.scoredWords.set index
        { (tallied views first : ScoredWord F) with
          score := (tallied views first : ScoredWord F).score + 1 } } := by
  constructor
  · exact List.subset_append_of_subset_left _ tally.among
  · exact tally.distinct
  · intro other member
    rcases List.mem_append.mp member with earlier | added
    · exact tally.every other earlier
    · rw [List.mem_singleton.mp added]
      exact ⟨first, List.mem_of_getElem? located, same⟩
  · exact tally.entries
  · rw [tally.scores, ← tallied_of_same same]
    apply set_map_eq_map located
    intro position other there elsewhere
    apply tallied_of_other
    intro otherSame
    exact elsewhere (tally.same_index there located (otherSame.trans same.symm))

theorem tallied_add :
    ∃ later firstsLater, accumulator.add (WordSearch.hashed hash) view = some later ∧
      Tallied (views ++ [view]) firstsLater later := by
  rw [add]
  cases answer : (WordSearch.hashed hash).find accumulator.wordsByStr view with
  | none =>
      have isNew : view.word ∉ views.map (·.word) := by
        intro member
        obtain ⟨other, isView, same⟩ := List.mem_map.mp member
        obtain ⟨first, isFirst, sameWord⟩ := tally.every other isView
        obtain ⟨index, located⟩ := List.mem_iff_getElem?.mp isFirst
        have found := (find_hashed_iff tally inMemory hashes (first, index)).mpr
          ⟨located, sameWord.trans same⟩
        rw [answer] at found
        cases found
      dsimp only
      rw [List.length_append, List.length_singleton, Nat.add_sub_cancel]
      exact ⟨_, firsts ++ [view], rfl, tallied_of_new tally isNew⟩
  | some entry =>
      obtain ⟨located, same⟩ := (find_hashed_iff tally inMemory hashes entry).mp answer
      have existing : accumulator.scoredWords[entry.2]? = some (tallied views entry.1) := by
        rw [tally.scores, List.getElem?_map, located]
        rfl
      exact ⟨_, firsts, congrArg (Option.map _) existing, tallied_of_found tally located same⟩

end Hashed

/-- What a map with that hash function lets the accumulator make of some views. -/
def addHashed (hash : Bytes → UInt64) (views : List StringView) : Option (WordAccumulator F) :=
  new.addAll (views.map fun view => (WordSearch.hashed hash, view))

theorem add_hashed_append (views : List StringView) (view : StringView) :
    addHashed (F := F) hash (views ++ [view]) =
      (addHashed hash views).bind fun accumulator =>
        accumulator.add (WordSearch.hashed hash) view := by
  simp [addHashed, addAll]

theorem tallied_add_hashed {views : List StringView} (inMemory : ∀ view ∈ views, view.InMemory)
    (hashes : DistinctHashes hash views) :
    ∃ accumulator firsts, addHashed (F := F) hash views = some accumulator ∧
      Tallied views firsts accumulator := by
  induction views using List.reverseRecOn with
  | nil => exact ⟨new, [], rfl, tallied_new⟩
  | append_singleton views view ih =>
      have among : views ⊆ views ++ [view] := List.subset_append_left views [view]
      obtain ⟨accumulator, firsts, added, tally⟩ :=
        ih (fun other isView => inMemory other (among isView)) (hashes.subset among)
      obtain ⟨later, firstsLater, addedOne, tallyLater⟩ := tallied_add tally inMemory hashes
      refine ⟨later, firstsLater, ?_, tallyLater⟩
      rw [add_hashed_append, added]
      exact addedOne

/-- Different words have different strings, and the score of each is the number of views that are
stored as its string. -/
structure IsTermFrequency (views : List StringView) (accumulator : WordAccumulator F) : Prop where
  distinct : (accumulator.scoredWords.map (·.key)).Nodup
  counts : ∀ elem ∈ accumulator.scoredWords,
    elem.score = (views.countP (fun view => view.stored = elem.key) : F)

theorem keys_of_tally {views firsts : List StringView} {accumulator : WordAccumulator F}
    (tally : Tallied views firsts accumulator) :
    accumulator.scoredWords.map (·.key) = firsts.map (·.stored) := by
  rw [tally.scores, List.map_map]
  rfl

theorem keys_distinct_iff {views firsts : List StringView} {accumulator : WordAccumulator F}
    (tally : Tallied views firsts accumulator) (upper : ∀ view ∈ views, view.len ≤ 23) :
    (accumulator.scoredWords.map (·.key)).Nodup ↔
      ∀ view ∈ views, ∀ other ∈ views, view.stored = other.stored → view.word = other.word := by
  have sameStored : ∀ view ∈ views, ∀ other ∈ views, view.word = other.word →
      view.stored = other.stored := by
    intro view isView other isOther same
    rw [StringView.stored_of_word (upper view isView), same,
      ← StringView.stored_of_word (upper other isOther)]
  rw [keys_of_tally tally]
  constructor
  · intro distinct view isView other isOther same
    obtain ⟨first, isFirst, sameWord⟩ := tally.every view isView
    obtain ⟨otherFirst, isOtherFirst, otherSameWord⟩ := tally.every other isOther
    have sameFirst : first.stored = otherFirst.stored := by
      rw [sameStored first (tally.among isFirst) view isView sameWord, same,
        sameStored other isOther otherFirst (tally.among isOtherFirst) otherSameWord.symm]
    rw [← sameWord, ← otherSameWord,
      List.inj_on_of_nodup_map distinct isFirst isOtherFirst sameFirst]
  · intro separated
    have distinct := tally.distinct
    rw [List.Nodup, List.pairwise_map] at distinct ⊢
    apply distinct.imp_of_mem
    intro first other isFirst isOther differ same
    exact differ (separated first (tally.among isFirst) other (tally.among isOther) same)

/-- The vector counts the words, unless two different ones begin with the same 22 bytes. -/
theorem term_frequency_iff (views : List StringView) (admitted : ∀ view ∈ views, view.Admitted)
    (hashes : DistinctHashes hash views) :
    ∃ accumulator, addHashed (F := F) hash views = some accumulator ∧
      (IsTermFrequency views accumulator ↔
        ∀ view ∈ views, ∀ other ∈ views,
          view.word.take 22 = other.word.take 22 → view.word = other.word) := by
  obtain ⟨accumulator, firsts, added, tally⟩ := tallied_add_hashed (F := F)
    (fun view isView => (admitted view isView).inMemory) hashes
  refine ⟨accumulator, added, ?_⟩
  have stored : ∀ view ∈ views, view.stored = view.word.take 22 :=
    fun view isView => (admitted view isView).stored_eq
  have distinctKeys := keys_distinct_iff tally fun view isView => (admitted view isView).upper
  constructor
  · intro frequency view isView other isOther same
    apply distinctKeys.mp frequency.distinct view isView other isOther
    rw [stored view isView, stored other isOther, same]
  · intro separated
    have sameWord : ∀ view ∈ views, ∀ other ∈ views,
        view.stored = other.stored ↔ view.word = other.word := by
      intro view isView other isOther
      rw [stored view isView, stored other isOther]
      exact ⟨separated view isView other isOther, fun same => by rw [same]⟩
    constructor
    · rw [distinctKeys]
      exact fun view isView other isOther => (sameWord view isView other isOther).mp
    · rw [tally.scores]
      intro elem member
      obtain ⟨first, isFirst, rfl⟩ := List.mem_map.mp member
      change ((views.map (·.word)).count first.word : F) = _
      rw [List.count, List.countP_map]
      apply congrArg Nat.cast
      apply List.countP_congr
      intro view isView
      have same := sameWord view isView first (tally.among isFirst)
      change (view.word == first.word) = true ↔ decide (view.stored = first.stored) = true
      rw [beq_iff_eq, decide_eq_true_iff, same]

/-- A word of three letters that is added twice, and a longer one. -/
theorem dog_and_cats_counted :
    let views : List StringView :=
      [⟨ascii "dog cats dog", 3⟩, ⟨ascii "cats dog", 4⟩, ⟨ascii "dog", 3⟩]
    ∃ accumulator : WordAccumulator Nat, addHashed fnv64 views = some accumulator ∧
      IsTermFrequency views accumulator := by
  intro views
  obtain ⟨accumulator, added, frequency⟩ :=
    @term_frequency_iff Nat _ fnv64 views (by decide +kernel) (by decide +kernel)
  exact ⟨accumulator, added, frequency.mpr (by decide +kernel)⟩

/-- Two words of 23 letters that differ in the last one. -/
def lastLetters : List StringView :=
  [⟨ascii "electroencephalographic", 23⟩, ⟨ascii "electroencephalographie", 23⟩]

/-- They are kept apart, under one string. -/
theorem last_letter_lost :
    ¬ ∀ views : List StringView, (∀ view ∈ views, view.Admitted) → DistinctHashes fnv64 views →
      ∀ accumulator : WordAccumulator Nat, addHashed fnv64 views = some accumulator →
        IsTermFrequency views accumulator := by
  intro claim
  have keys : (addHashed (F := Nat) fnv64 lastLetters).map (·.scoredWords.map (·.key)) =
      some [ascii "electroencephalographi", ascii "electroencephalographi"] := by
    decide +kernel
  obtain ⟨accumulator, added, sameKeys⟩ := Option.map_eq_some_iff.mp keys
  have distinct :=
    (claim lastLetters (by decide +kernel) (by decide +kernel) accumulator added).distinct
  rw [sameKeys] at distinct
  exact absurd distinct (by decide)

end WordAccumulator

end Relevanced.TextUtil

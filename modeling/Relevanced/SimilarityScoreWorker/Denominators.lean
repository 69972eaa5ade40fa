import Relevanced.SimilarityScoreWorker.ScoringServer

/-!
# Denominators of scores

Magnitudes are 0 exactly where there is no word. A document or a text may have none, and a
centroid has none from its creation until a run has read a document with words; it is put
into the score worker's map all the same.
-/

namespace Relevanced.SimilarityScoreWorker

open Foundation
open CentroidUpdate
open DocumentProcessing
open Models
open TextUtil

set_option autoImplicit false

/-- Every document and every vector has the magnitude of its positive scores. -/
structure AllMeasured (server : ScoringServer ℝ) : Prop where
  documents : ∀ id document, server.documents id = some document → MeasuredDocument document
  centroids : ∀ id centroid, server.centroids id = some centroid →
    MeasuredVector centroid.wordVector
  passed : ∀ index, ∀ document ∈ (server.runs index).passed, MeasuredDocument document
  read : ∀ index centroid, server.read index = some centroid → MeasuredVector centroid.wordVector
  held : ∀ id centroid, server.held id = some centroid → MeasuredVector centroid.wordVector

def HasWords (centroid : Centroid ℝ) : Prop := centroid.wordVector.scores.toList ≠ []

def AllWorded (server : ScoringServer ℝ) : Prop :=
  ∀ id centroid, server.held id = some centroid → HasWords centroid

def LoadsWorded (server : ScoringServer ℝ) : ScoringAction → Prop
  | .known .restart => ∀ id centroid, server.centroids id = some centroid → HasWords centroid
  | .known (.stepReload index) =>
      ∀ id, server.known.loads[index]? = some ⟨id, .read true⟩ →
        server.drops index id = false →
          ∀ centroid, server.read index = some centroid → HasWords centroid
  | _ => True

/-- With every centroid of the score worker, every document and text is scored over a denominator
that is 0 exactly when no word of it is left; that of two centroids is never 0. -/
structure DividesSafely (processor : DocumentProcessor ℝ) (server : ScoringServer ℝ) : Prop where
  document : ∀ centroidId centroid, server.held centroidId = some centroid →
    ∀ documentId document, server.documents documentId = some document →
      (centroid.wordVector.magnitude * document.magnitude ≠ 0 ↔ document.scoredWords ≠ [])
  text : ∀ centroidId centroid, server.held centroidId = some centroid →
    ∀ submitted document text, processor.process_ submitted = some (document, text) →
      (centroid.wordVector.magnitude * document.magnitude ≠ 0 ↔ processor.views submitted text ≠ [])
  centroids : ∀ centroid1Id centroid1, server.held centroid1Id = some centroid1 →
    ∀ centroid2Id centroid2, server.held centroid2Id = some centroid2 →
      centroid1.wordVector.magnitude * centroid2.wordVector.magnitude ≠ 0

theorem all_measured_initial : AllMeasured .initial where
  documents _ _ found := by cases found
  centroids _ _ found := by cases found
  passed _ _ member := by cases member
  read _ _ found := by cases found
  held _ _ found := by cases found

theorem words_of_measured {document : ProcessedDocument ℝ} (measured : MeasuredDocument document) :
    document.magnitude ≠ 0 ↔ document.scoredWords ≠ [] := by
  rw [measured.magnitude_ne_zero_iff, DocumentAccumulator.entries, ne_eq, ne_eq,
    List.map_eq_nil_iff]

section Steps

variable {processor : DocumentProcessor ℝ} {hash : Bytes → UInt64} (exact : Exact processor hash)
  {server next : ScoringServer ℝ}

include exact

theorem divides_safely_iff (measured : AllMeasured server) :
    DividesSafely processor server ↔ AllWorded server := by
  have worded (id : Bytes) (centroid : Centroid ℝ) (found : server.held id = some centroid) :
      centroid.wordVector.magnitude ≠ 0 ↔ HasWords centroid :=
    (measured.held id centroid found).magnitude_ne_zero_iff
  constructor
  · intro safely id centroid found
    apply (worded id centroid found).mp
    exact left_ne_zero_of_mul (safely.centroids id centroid found id centroid found)
  · intro all
    have nonzero (id : Bytes) (centroid : Centroid ℝ) (found : server.held id = some centroid) :=
      (worded id centroid found).mpr (all id centroid found)
    constructor
    · intro id centroid found documentId document stored
      rw [mul_ne_zero_iff, and_iff_right (nonzero id centroid found)]
      exact words_of_measured (measured.documents documentId document stored)
    · intro id centroid found submitted document text processed
      rw [mul_ne_zero_iff, and_iff_right (nonzero id centroid found),
        words_of_measured (measured_of_process exact processed)]
      exact words_of_process exact processed
    · intro id centroid found otherId other otherFound
      exact mul_ne_zero (nonzero id centroid found) (nonzero otherId other otherFound)

theorem AllMeasured.createDocument (measured : AllMeasured server) (submitted : Document) :
    AllMeasured (server.createDocument processor submitted) := by
  rw [ScoringServer.createDocument]
  split
  · exact measured
  · rename_i document text processed
    split
    · exact measured
    · refine { measured with documents := forall_update measured.documents ?_ }
      rintro _ ⟨⟩
      exact measured_of_process exact processed

omit exact in
theorem AllMeasured.setRun (measured : AllMeasured server) (index : Nat) {run : RunData ℝ}
    (passed : ∀ document ∈ run.passed, MeasuredDocument document) :
    AllMeasured (server.setRun index run) where
  documents := measured.documents
  centroids := measured.centroids
  passed other document member := by
    change document ∈ (Function.update server.runs index run other).passed at member
    by_cases same : other = index
    · subst same
      rw [Function.update_self] at member
      exact passed document member
    · rw [Function.update_of_ne same] at member
      exact measured.passed other document member
  read := measured.read
  held := measured.held

theorem AllMeasured.move (measured : AllMeasured server) (action : KnownAction Bytes) :
    AllMeasured (server.move processor.sqrt action) := by
  cases action with
  | createCentroid id =>
      rw [ScoringServer.move]
      split
      · exact measured
      · refine { measured with centroids := forall_update measured.centroids ?_ }
        rintro _ ⟨⟩
        exact measured_empty_vector
  | deleteCentroid id =>
      refine { measured with centroids := forall_update measured.centroids ?_ }
      rintro _ ⟨⟩
  | restart =>
      exact {
        documents := measured.documents
        centroids := measured.centroids
        passed := by
          intro index document member
          cases member
        read := by
          intro index centroid found
          cases found
        held := measured.centroids }
  | saveCentroid index =>
      rw [ScoringServer.move]
      split
      · rename_i id stage found
        refine { measured with centroids := forall_update measured.centroids ?_ }
        rintro _ ⟨⟩
        rw [exact.sqrt]
        exact measured_centroid_vector id (measured.passed index)
      · exact measured
  | stepReload index =>
      rw [ScoringServer.move]
      split
      · rename_i id found
        exact { measured with read := forall_update measured.read (measured.centroids id) }
      · split
        · exact measured
        · exact { measured with held := forall_update measured.held (measured.read index) }
      · exact measured
  | _ => exact measured

theorem AllMeasured.step (measured : AllMeasured server) {action : ScoringAction}
    (stepped : (scoringMachine processor).step server action = some next) : AllMeasured next := by
  cases action with
  | createDocument submitted =>
      cases stepped
      exact measured.createDocument exact submitted
  | deleteDocument id =>
      cases stepped
      rw [ScoringServer.deleteDocument]
      split
      · refine { measured with documents := forall_update measured.documents ?_ }
        rintro _ ⟨⟩
      · exact measured
  | addDocumentToCentroid centroidId documentId =>
      cases stepped
      rw [ScoringServer.addDocumentToCentroid]
      split
      · exact { measured with }
      · exact measured
  | removeDocumentFromCentroid centroidId documentId =>
      cases stepped
      rw [ScoringServer.removeDocumentFromCentroid]
      split
      · exact { measured with }
      · exact measured
  | listDocuments index =>
      change server.listDocuments index = some next at stepped
      rw [ScoringServer.listDocuments] at stepped
      split at stepped
      · cases stepped
      · cases stepped
        exact measured.setRun index (measured.passed index)
  | addDocument index place =>
      change server.addDocument index place = some next at stepped
      rw [ScoringServer.addDocument] at stepped
      split at stepped
      · rename_i documentId reading listed
        cases stepped
        apply measured.setRun
        intro document member
        rcases List.mem_append.mp member with earlier | loaded
        · exact measured.passed index document earlier
        · exact measured.documents documentId document (Option.mem_toList.mp loaded)
      · cases stepped
  | findItem index =>
      change server.findItem index = some next at stepped
      rw [ScoringServer.findItem] at stepped
      split at stepped
      · cases stepped
        exact { measured with }
      · cases stepped
  | known action =>
      obtain ⟨known, _, rfl⟩ := Option.map_eq_some_iff.mp stepped
      have moved := measured.move exact action
      exact { moved with }

omit exact in
theorem held_of_step {action : ScoringAction} (notStart : action ≠ .known .restart)
    (notReload : ∀ index, action ≠ .known (.stepReload index))
    (stepped : (scoringMachine processor).step server action = some next) :
    next.held = server.held := by
  rcases known_or_same_vectors stepped with ⟨moved, known, rfl, _, rfl⟩ | same
  · change (server.move processor.sqrt moved).held = server.held
    cases moved with
    | restart => exact absurd rfl notStart
    | stepReload index => exact absurd rfl (notReload index)
    | createCentroid id =>
        rw [ScoringServer.move]
        split <;> rfl
    | saveCentroid index =>
        rw [ScoringServer.move]
        split <;> rfl
    | _ => rfl
  · exact same.held

omit exact in
theorem all_worded_after_step_iff (worded : AllWorded server) (action : ScoringAction) :
    (∀ next, (scoringMachine processor).step server action = some next → AllWorded next) ↔
      LoadsWorded server action := by
  have unaffected (notStart : action ≠ .known .restart)
      (notReload : ∀ index, action ≠ .known (.stepReload index)) :
      ∀ next, (scoringMachine processor).step server action = some next → AllWorded next := by
    intro next stepped
    rw [AllWorded, held_of_step notStart notReload stepped]
    exact worded
  by_cases isStart : action = .known .restart
  · subst isStart
    constructor
    · intro after
      exact after _ rfl
    · rintro loads next stepped
      cases stepped
      exact loads
  · by_cases isReload : ∃ index, action = .known (.stepReload index)
    · obtain ⟨index, rfl⟩ := isReload
      constructor
      · intro after id found kept centroid read
        have stepped : (scoringMachine processor).step server (.known (.stepReload index)) =
            some { server with
              held := Function.update server.held id (server.read index)
              known := { server.known with
                loads := server.known.loads.set index ⟨id, .finished⟩
                held := Function.update server.known.held id true
                unloaded := Function.update server.known.unloaded id false } } := by
          simp [scoringMachine, knownMachine, KnownCentroids.stepReload, ScoringServer.move, found,
            kept]
        apply after _ stepped id centroid
        exact (Function.update_self id _ _).trans read
      · intro loads next stepped
        obtain ⟨known, _, rfl⟩ := Option.map_eq_some_iff.mp stepped
        change ∀ id centroid,
          (server.move processor.sqrt (.stepReload index)).held id = some centroid →
            HasWords centroid
        rw [ScoringServer.move]
        split
        · exact worded
        · rename_i id found
          split
          · exact worded
          · rename_i kept
            exact forall_update worded (loads id found (Bool.eq_false_iff.mpr kept))
        · exact worded
    · have notReload : ∀ index, action ≠ .known (.stepReload index) := not_exists.mp isReload
      apply iff_of_true (unaffected isStart notReload)
      cases action with
      | known action =>
          cases action with
          | restart => exact absurd rfl isStart
          | stepReload index => exact absurd rfl (notReload index)
          | _ => trivial
      | _ => trivial

end Steps

/-- In a run from an empty store the scores of documents and texts with words, and those of
centroids, never divide by 0 exactly when no step loads a centroid without words. -/
theorem divides_safely_iff_loads_worded {processor : DocumentProcessor ℝ} {hash : Bytes → UInt64}
    (exact : Exact processor hash) (actions : List ScoringAction) :
    (scoringMachine processor).Along (DividesSafely processor) actions .initial ↔
      (scoringMachine processor).Guarded LoadsWorded actions .initial := by
  refine @Machine.along_iff_guarded_of_kept _ _ (scoringMachine processor) (DividesSafely processor)
    LoadsWorded (fun _ => True)
      (fun server => AllMeasured server ∧ AllWorded server) ?_ ?_ ?_ actions
    (fun _ _ => trivial) .initial ?_
  · rintro server action next ⟨measured, worded⟩ _ loads stepped
    exact ⟨measured.step exact stepped,
      (all_worded_after_step_iff worded action).mpr loads next stepped⟩
  · rintro server ⟨measured, worded⟩
    exact (divides_safely_iff exact measured).mpr worded
  · rintro server action ⟨measured, worded⟩ _
    rw [← @all_worded_after_step_iff processor server worded action]
    apply forall_congr'
    intro next
    apply imp_congr_right
    intro stepped
    exact divides_safely_iff exact (measured.step exact stepped)
  · refine ⟨all_measured_initial, ?_⟩
    intro id centroid found
    cases found

theorem worded_pets {document : ProcessedDocument ℝ} (words : document.scoredWords ≠ []) :
    HasWords (petsOf document) := by
  obtain ⟨word, rest, isCons⟩ := List.exists_cons_of_ne_nil words
  have entered : word.key ∈ (petsOf document).wordVector.scores := by
    have sums : (petsOf document).wordVector.scores =
        addEach ∅ ([document].flatMap DocumentAccumulator.entries) :=
      scores_of_centroid (ascii "pets") [document]
    rw [sums, mem_addEach_iff]
    left
    simp [DocumentAccumulator.entries, isCons]
  rw [HasWords]
  intro none
  have empty := (petsOf document).wordVector.scores.toList_eq_nil_iff.mp none
  rw [empty] at entered
  exact Std.ExtTreeMap.not_mem_empty entered

/-- The centroid with the words of a document is updated, and a start of the server loads it. -/
theorem updated_centroid_divides :
    (scoringMachine wholeTokens).Along (DividesSafely wholeTokens)
      (.createDocument catsAndDogs :: updatedCentroid ++ [.known .restart]) .initial := by
  apply (divides_safely_iff_loads_worded whole_tokens_exact _).mpr
  obtain ⟨document, processed, created⟩ := create_cats_and_dogs
  obtain ⟨server, updated, centroids⟩ := pets_updated document
  apply Machine.guarded_append
  · apply Machine.guarded_of_always
    simp [updatedCentroid, LoadsWorded]
  · intro middle executed
    rw [Machine.exec_of_step created, updated] at executed
    cases executed
    refine ⟨?_, fun _ _ => trivial⟩
    intro id centroid stored
    rw [centroids, Function.update_idem] at stored
    have words : document.scoredWords ≠ [] :=
      (words_of_process whole_tokens_exact processed).mpr (by decide +kernel)
    have worded : ∀ other value, Function.update (fun _ => none) (ascii "pets")
        (some (petsOf document)) other = some value → HasWords value := by
      apply forall_update
      · intro key value found
        cases found
      · rintro _ ⟨⟩
        exact worded_pets words
    exact worded id centroid stored

def createdAndStarted : List ScoringAction :=
  [.known (.createCentroid (ascii "pets")), .known .restart]

theorem new_centroid_divides_by_zero :
    ¬ ∀ (processor : DocumentProcessor ℝ) (hash : Bytes → UInt64), Exact processor hash →
      ∀ (actions : List ScoringAction) (server : ScoringServer ℝ),
        (scoringMachine processor).exec actions .initial = some server →
          ∀ centroidId centroid, server.held centroidId = some centroid →
            ∀ submitted document text, processor.process_ submitted = some (document, text) →
              centroid.wordVector.magnitude * document.magnitude ≠ 0 := by
  intro claim
  obtain ⟨document, processed⟩ := @process_whole_tokens catsAndDogs (by decide +kernel)
  have nonzero := claim wholeTokens fnv64 whole_tokens_exact createdAndStarted _ rfl (ascii "pets")
    (.new (ascii "pets"))
    (by simp [ScoringServer.move, ScoringServer.initial, KnownCentroids.initialized])
    catsAndDogs document _ processed
  exact nonzero (zero_mul _)

end Relevanced.SimilarityScoreWorker

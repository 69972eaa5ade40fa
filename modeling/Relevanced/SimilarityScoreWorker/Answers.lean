import Relevanced.SimilarityScoreWorker.ScoringServer

/-!
# What the score worker answers from

Every vector in the store, in a reload and in the score worker's map was summed from documents
that were stored at some earlier time and, for a centroid whose id its listings do not cut, were
its members at some earlier time. So the scores of all requests, in every state of every run,
are cosines.
-/

namespace Relevanced.SimilarityScoreWorker

open Foundation
open CentroidUpdate
open DocumentProcessing
open Models
open Persistence
open SyncPersistence

set_option autoImplicit false

section Provenance

/-- The members and the documents there have been. -/
structure Past (F : Type) where
  member : Bytes → Bytes → Prop
  document : ProcessedDocument F → Prop

structure Past.Extends {F : Type} (past later : Past F) : Prop where
  member : ∀ centroidId documentId, past.member centroidId documentId →
    later.member centroidId documentId
  document : ∀ document, past.document document → later.document document

def Contributes {F : Type} (past : Past F) (centroidId : Bytes) (document : ProcessedDocument F) :
    Prop :=
  past.document document ∧ (colon ∉ centroidId → past.member centroidId document.id)

def Summed (past : Past ℝ) (centroidId : Bytes) (centroid : Centroid ℝ) : Prop :=
  centroid = .new centroidId ∨
    ∃ passed : List (ProcessedDocument ℝ),
      centroid = CentroidUpdater.centroidOf Real.sqrt centroidId
        (passed.foldl DocumentAccumulator.addDocument .new) ∧
      ∀ document ∈ passed, Contributes past centroidId document

/-- All that a run of `CentroidUpdater` has read comes from members of its centroid. -/
structure RunTraced {F : Type} (past : Past F) (centroidId : Bytes) (run : RunData F) : Prop where
  listed : colon ∉ centroidId → ∀ documentId ∈ run.listed, past.member centroidId documentId
  passed : ∀ document ∈ run.passed, Contributes past centroidId document

def Processed {F : Type} [Zero F] [One F] [NatCast F] [Add F] [Mul F] [Div F]
    (processor : DocumentProcessor F) (document : ProcessedDocument F) : Prop :=
  ∃ submitted text, processor.process_ submitted = some (document, text)

/-- Where all that the server keeps comes from. -/
structure Traced (processor : DocumentProcessor ℝ) (past : Past ℝ) (server : ScoringServer ℝ) :
    Prop where
  documents : ∀ id document, server.documents id = some document →
    document.id = id ∧ past.document document ∧ Processed processor document
  members : ∀ centroidId documentId, server.hasDocument centroidId documentId = true →
    past.member centroidId documentId
  runs : ∀ index, server.runs index = .new ∨ ∃ id, (attemptIds server.known)[index]? = some id ∧
    RunTraced past id (server.runs index)
  centroids : ∀ id centroid, server.centroids id = some centroid → Summed past id centroid
  read : ∀ index centroid, server.read index = some centroid →
    ∃ id, (loadIds server.known)[index]? = some id ∧ Summed past id centroid
  held : ∀ id centroid, server.held id = some centroid → Summed past id centroid

variable {processor : DocumentProcessor ℝ} {past later : Past ℝ} {server next : ScoringServer ℝ}

theorem has_document_iff (centroidId documentId : Bytes) :
    server.hasDocument centroidId documentId = true ↔
      getCentroidDocumentKey centroidId documentId ∈ server.links :=
  Std.ExtTreeMap.contains_iff_mem

theorem traced_initial : Traced processor past .initial where
  documents _ _ found := by cases found
  members _ _ found := absurd ((has_document_iff _ _).mp found) Std.ExtTreeMap.not_mem_empty
  runs _ := Or.inl rfl
  centroids _ _ found := by cases found
  read _ _ found := by cases found
  held _ _ found := by cases found

section Growth

variable {id : Bytes}

theorem Contributes.mono {F : Type} {past later : Past F} {document : ProcessedDocument F}
    (contributes : Contributes past id document) (extends_ : past.Extends later) :
    Contributes later id document :=
  ⟨extends_.document _ contributes.1, fun free => extends_.member _ _ (contributes.2 free)⟩

theorem Summed.mono {centroid : Centroid ℝ} (summed : Summed past id centroid)
    (extends_ : past.Extends later) : Summed later id centroid := by
  rcases summed with new | ⟨passed, sum, contribute⟩
  · exact Or.inl new
  · exact Or.inr ⟨passed, sum, fun document member => (contribute document member).mono extends_⟩

theorem Traced.mono (traced : Traced processor past server) (extends_ : past.Extends later) :
    Traced processor later server where
  documents id document found := by
    obtain ⟨sameId, stored, processed⟩ := traced.documents id document found
    exact ⟨sameId, extends_.document _ stored, processed⟩
  members c d member := extends_.member c d (traced.members c d member)
  runs index := by
    rcases traced.runs index with new | ⟨id, located, listed, passed⟩
    · exact Or.inl new
    · refine Or.inr ⟨id, located, ?_, ?_⟩
      · exact fun free d member => extends_.member id d (listed free d member)
      · exact fun document member => (passed document member).mono extends_
  centroids id centroid found := (traced.centroids id centroid found).mono extends_
  read index centroid found := by
    obtain ⟨id, located, summed⟩ := traced.read index centroid found
    exact ⟨id, located, summed.mono extends_⟩
  held id centroid found := (traced.held id centroid found).mono extends_

end Growth

theorem getElem?_of_prefix {α : Type} {shorter longer : List α} (extends_ : shorter <+: longer)
    {index : Nat} {value : α} (found : shorter[index]? = some value) :
    longer[index]? = some value := by
  obtain ⟨added, rfl⟩ := extends_
  obtain ⟨inside, _⟩ := List.getElem?_eq_some_iff.mp found
  rw [List.getElem?_append_left inside, found]

theorem Traced.keep (traced : Traced processor past server) {known : KnownCentroids Bytes}
    (attempts : attemptIds server.known <+: attemptIds known)
    (loads : loadIds server.known <+: loadIds known) :
    Traced processor past { server with known := known } where
  documents := traced.documents
  members := traced.members
  runs index := by
    rcases traced.runs index with new | ⟨id, located, run⟩
    · exact Or.inl new
    · exact Or.inr ⟨id, getElem?_of_prefix attempts located, run⟩
  centroids := traced.centroids
  read index centroid found := by
    obtain ⟨id, located, summed⟩ := traced.read index centroid found
    exact ⟨id, getElem?_of_prefix loads located, summed⟩
  held := traced.held

theorem located_of_reading {index : Nat} {id : Bytes} (reading : server.isReading index = some id) :
    (attemptIds server.known)[index]? = some id := by
  rw [ScoringServer.isReading] at reading
  split at reading
  · rename_i attempt found
    cases reading
    rw [attemptIds, List.getElem?_map, found]
    rfl
  · cases reading

theorem Traced.setRun (traced : Traced processor past server) {index : Nat} {id : Bytes}
    (located : (attemptIds server.known)[index]? = some id) {run : RunData ℝ}
    (isTraced : RunTraced past id run) :
    Traced processor past (server.setRun index run) where
  documents := traced.documents
  members := traced.members
  runs other := by
    change Function.update server.runs index run other = .new ∨ ∃ id,
      (attemptIds server.known)[other]? = some id ∧
        RunTraced past id (Function.update server.runs index run other)
    by_cases same : other = index
    · subst same
      rw [Function.update_self]
      exact Or.inr ⟨id, located, isTraced⟩
    · rw [Function.update_of_ne same]
      exact traced.runs other
  centroids := traced.centroids
  read := traced.read
  held := traced.held

theorem Traced.run_at (traced : Traced processor past server) {index : Nat} {id : Bytes}
    (located : (attemptIds server.known)[index]? = some id) :
    RunTraced past id (server.runs index) := by
  rcases traced.runs index with new | ⟨other, found, isTraced⟩
  · rw [new]
    exact ⟨nofun, nofun⟩
  · rw [located] at found
    cases found
    exact isTraced

theorem member_of_page {id documentId : Bytes} (free : colon ∉ id) {listed : List Bytes}
    (inPage : documentId ∈ server.nextPage id listed) :
    server.hasDocument id documentId = true := by
  have labelFree : colon ∉ getCentroidDocumentPrefix id := colon_not_in_member_label free
  have under : documentId ∈ idsUnder server.links (getCentroidDocumentPrefix id) := by
    rw [ScoringServer.nextPage] at inPage
    split at inPage
    · rw [listCentroidDocumentRangeFromOffsetRaw, run_list_ids_from_offset] at inPage
      exact List.mem_of_mem_drop (List.mem_of_mem_take inPage)
    · rw [listCentroidDocumentRangeFromDocumentIdRaw, run_list_ids_from_any_member] at inPage
      exact (ids_from_sublist _ _ _ _).subset inPage
  rw [has_document_iff, member_key_eq_join]
  exact (mem_ids_under_iff server.links labelFree documentId).mp under

theorem Traced.listDocuments (traced : Traced processor past server) {index : Nat}
    (stepped : server.listDocuments index = some next) : Traced processor past next := by
  rw [ScoringServer.listDocuments] at stepped
  split at stepped
  · cases stepped
  · rename_i id reading
    cases stepped
    have located := located_of_reading reading
    have before := traced.run_at located
    refine traced.setRun located ⟨?_, before.passed⟩
    intro free documentId member
    rcases List.mem_append.mp member with earlier | inPage
    · exact before.listed free documentId earlier
    · exact traced.members id documentId (member_of_page free inPage)

theorem Traced.addDocument (traced : Traced processor past server) {index place : Nat}
    (stepped : server.addDocument index place = some next) : Traced processor past next := by
  rw [ScoringServer.addDocument] at stepped
  split at stepped
  · rename_i id documentId reading listed
    cases stepped
    have located := located_of_reading reading
    have before := traced.run_at located
    refine traced.setRun located ⟨before.listed, ?_⟩
    intro document member
    rcases List.mem_append.mp member with earlier | loaded
    · exact before.passed document earlier
    · obtain ⟨sameId, stored, _⟩ :=
        traced.documents documentId document (Option.mem_toList.mp loaded)
      refine ⟨stored, ?_⟩
      intro free
      rw [sameId]
      exact before.listed free documentId (List.mem_of_getElem? listed)
  · cases stepped

theorem Traced.createDocument (traced : Traced processor past server) (submitted : Document)
    (stored : ∀ id document, (server.createDocument processor submitted).documents id =
      some document → document.id = id → past.document document) :
    Traced processor past (server.createDocument processor submitted) := by
  rw [ScoringServer.createDocument] at stored ⊢
  split at stored
  · exact traced
  · rename_i document text processed
    split
    · exact traced
    · rename_i free
      rw [if_neg free] at stored
      refine { traced with documents := forall_update traced.documents ?_ }
      rintro _ ⟨⟩
      exact ⟨rfl, stored _ _ (Function.update_self _ _ _) rfl, submitted, text, processed⟩

theorem Traced.deleteDocument (traced : Traced processor past server) {id : Bytes}
    (now : ∀ c d, (server.deleteDocument id).hasDocument c d = true → past.member c d) :
    Traced processor past (server.deleteDocument id) := by
  rw [ScoringServer.deleteDocument] at now ⊢
  split
  · rename_i isStored
    rw [if_pos isStored] at now
    refine { traced with documents := forall_update traced.documents ?_, members := now }
    rintro _ ⟨⟩
  · exact traced

theorem Traced.setLinks (traced : Traced processor past server) {links : Store}
    (now : ∀ c d, { server with links := links }.hasDocument c d = true → past.member c d) :
    Traced processor past { server with links := links } :=
  { traced with members := now }

theorem Traced.addDocumentToCentroid (traced : Traced processor past server)
    {centroidId documentId : Bytes}
    (now : ∀ c d, (server.addDocumentToCentroid centroidId documentId).hasDocument c d = true →
      past.member c d) :
    Traced processor past (server.addDocumentToCentroid centroidId documentId) := by
  rw [ScoringServer.addDocumentToCentroid] at now ⊢
  split
  · rename_i links
    rw [if_pos links] at now
    exact traced.setLinks now
  · exact traced

theorem Traced.removeDocumentFromCentroid (traced : Traced processor past server)
    {centroidId documentId : Bytes}
    (now : ∀ c d, (server.removeDocumentFromCentroid centroidId documentId).hasDocument c d =
      true → past.member c d) :
    Traced processor past (server.removeDocumentFromCentroid centroidId documentId) := by
  rw [ScoringServer.removeDocumentFromCentroid] at now ⊢
  split
  · rename_i both
    rw [if_pos both] at now
    exact traced.setLinks now
  · exact traced

theorem Traced.findItem (traced : Traced processor past server) {index : Nat}
    (stepped : server.findItem index = some next) : Traced processor past next := by
  rw [ScoringServer.findItem] at stepped
  split at stepped
  · cases stepped
    exact { traced with }
  · cases stepped

section Known

variable {action : KnownAction Bytes} {known : KnownCentroids Bytes}

theorem Traced.restart (traced : Traced processor past server) (known : KnownCentroids Bytes) :
    Traced processor past { server.move Real.sqrt .restart with known := known } where
  documents := traced.documents
  members := traced.members
  runs _ := Or.inl rfl
  centroids := traced.centroids
  read _ _ found := by cases found
  held := traced.centroids

theorem Traced.move (traced : Traced processor past server) (notStart : action ≠ .restart)
    (now : ∀ c d, (server.move Real.sqrt action).hasDocument c d = true → past.member c d)
    (attempts : attemptIds server.known <+: attemptIds known)
    (loads : loadIds server.known <+: loadIds known) :
    Traced processor past { server.move Real.sqrt action with known := known } := by
  have kept := traced.keep attempts loads
  cases action with
  | restart => exact absurd rfl notStart
  | createCentroid id =>
      rw [ScoringServer.move]
      split
      · exact kept
      · refine { kept with centroids := forall_update kept.centroids ?_ }
        rintro _ ⟨⟩
        exact Or.inl rfl
  | deleteCentroid id =>
      refine { kept with centroids := forall_update kept.centroids ?_, members := now }
      intro centroid missing
      cases missing
  | saveCentroid index =>
      rw [ScoringServer.move]
      split
      · rename_i id stage found
        refine { kept with centroids := forall_update kept.centroids ?_ }
        rintro _ ⟨⟩
        have located : (attemptIds server.known)[index]? = some id := by
          rw [attemptIds, List.getElem?_map, found]
          rfl
        exact Or.inr ⟨_, rfl, (traced.run_at located).passed⟩
      · exact kept
  | stepReload index =>
      rw [ScoringServer.move]
      split
      · rename_i id found
        refine { kept with read := forall_update kept.read ?_ }
        intro centroid stored
        have located : (loadIds server.known)[index]? = some id := by
          rw [loadIds, List.getElem?_map, found]
          rfl
        exact ⟨id, getElem?_of_prefix loads located, traced.centroids id centroid stored⟩
      · rename_i id found
        split
        · exact kept
        · refine { kept with held := forall_update kept.held ?_ }
          intro centroid isRead
          obtain ⟨other, located, summed⟩ := traced.read index centroid isRead
          rw [loadIds, List.getElem?_map, found] at located
          cases located
          exact summed
      · exact kept
  | _ => exact kept

end Known

variable {hash : Bytes → UInt64}

theorem Traced.step (exact : Exact processor hash) (traced : Traced processor past server)
    {action : ScoringAction}
    (stored : ∀ id document, next.documents id = some document → document.id = id →
      past.document document)
    (now : ∀ c d, next.hasDocument c d = true → past.member c d)
    (stepped : (scoringMachine processor).step server action = some next) :
    Traced processor past next := by
  cases action with
  | createDocument submitted =>
      cases stepped
      exact traced.createDocument submitted stored
  | deleteDocument id =>
      cases stepped
      exact traced.deleteDocument now
  | addDocumentToCentroid centroidId documentId =>
      cases stepped
      exact traced.addDocumentToCentroid now
  | removeDocumentFromCentroid centroidId documentId =>
      cases stepped
      exact traced.removeDocumentFromCentroid now
  | listDocuments index => exact traced.listDocuments stepped
  | addDocument index place => exact traced.addDocument stepped
  | findItem index => exact traced.findItem stepped
  | known action =>
      obtain ⟨known, moved, rfl⟩ := Option.map_eq_some_iff.mp stepped
      rw [exact.sqrt] at now ⊢
      by_cases isStart : action = .restart
      · subst isStart
        exact traced.restart known
      · obtain ⟨attempts, loads⟩ := (known_step_of_step moved).ids isStart
        exact traced.move isStart now attempts loads

def PassesThrough (processor : DocumentProcessor ℝ) (actions : List ScoringAction)
    (server : ScoringServer ℝ) : Prop :=
  ∃ earlier, earlier <+: actions ∧ (scoringMachine processor).exec earlier .initial = some server

/-- At some moment of the run the document was a member of the centroid. -/
def WasMember (processor : DocumentProcessor ℝ) (actions : List ScoringAction)
    (centroidId documentId : Bytes) : Prop :=
  ∃ before, PassesThrough processor actions before ∧ before.hasDocument centroidId documentId = true

def WasStored (processor : DocumentProcessor ℝ) (actions : List ScoringAction)
    (document : ProcessedDocument ℝ) : Prop :=
  ∃ before, PassesThrough processor actions before ∧ before.documents document.id = some document

def pastOf (processor : DocumentProcessor ℝ) (actions : List ScoringAction) : Past ℝ where
  member := WasMember processor actions
  document := WasStored processor actions

theorem PassesThrough.extend {actions : List ScoringAction}
    (passes : PassesThrough processor actions server) (action : ScoringAction) :
    PassesThrough processor (actions ++ [action]) server := by
  obtain ⟨earlier, isPrefix, executed⟩ := passes
  exact ⟨earlier, isPrefix.trans (List.prefix_append _ _), executed⟩

theorem past_extends (actions : List ScoringAction) (action : ScoringAction) :
    (pastOf processor actions).Extends (pastOf processor (actions ++ [action])) where
  member := by
    rintro c d ⟨before, passes, member⟩
    exact ⟨before, passes.extend action, member⟩
  document := by
    rintro document ⟨before, passes, stored⟩
    exact ⟨before, passes.extend action, stored⟩

theorem traced_of_run (exact : Exact processor hash) (actions : List ScoringAction)
    (executed : (scoringMachine processor).exec actions .initial = some server) :
    Traced processor (pastOf processor actions) server := by
  induction actions using List.reverseRecOn generalizing server with
  | nil =>
      cases executed
      exact traced_initial
  | append_singleton actions action ih =>
      have wholeRun := executed
      rw [Machine.exec_append] at executed
      obtain ⟨before, ran, last⟩ := Option.bind_eq_some_iff.mp executed
      obtain ⟨after, stepped, same⟩ := Machine.exec_cons last
      cases same
      have passes : PassesThrough processor (actions ++ [action]) server :=
        ⟨_, List.prefix_refl _, wholeRun⟩
      apply ((ih ran).mono (past_extends actions action)).step exact _ _ stepped
      · rintro id document stored rfl
        exact ⟨server, passes, stored⟩
      · intro c d member
        exact ⟨server, passes, member⟩

/-- Whatever requests, runs, reloads and restarts come in whatever order: a vector that the score
worker holds under an id without a colon is that of a new centroid, or the sum of documents each
of which was stored once and was once a member of this centroid. -/
theorem held_vectors_from_members (exact : Exact processor hash) (actions : List ScoringAction)
    (executed : (scoringMachine processor).exec actions .initial = some server)
    (centroidId : Bytes) (free : colon ∉ centroidId) (centroid : Centroid ℝ)
    (held : server.held centroidId = some centroid) :
    centroid = .new centroidId ∨ ∃ passed : List (ProcessedDocument ℝ),
      centroid = CentroidUpdater.centroidOf Real.sqrt centroidId
        (passed.foldl DocumentAccumulator.addDocument .new) ∧
      ∀ document ∈ passed, WasStored processor actions document ∧
        WasMember processor actions centroidId document.id := by
  rcases (traced_of_run exact actions executed).held centroidId centroid held with
    new | ⟨passed, sum, contribute⟩
  · exact Or.inl new
  · refine Or.inr ⟨passed, sum, ?_⟩
    intro document member
    obtain ⟨stored, wasMember⟩ := contribute document member
    exact ⟨stored, wasMember free⟩

end Provenance

section Requests

variable {F : Type} [Zero F] [Add F] [Mul F] [Div F]

/-- The score, or the exception where `getOption` gives no centroid. -/
def scoreHeld (held : Option (Centroid F)) (doc : ProcessedDocument F) : Try F :=
  match held with
  | none => .error .eCentroidDoesNotExist
  | some centroid => .ok (centroid.wordVector.scoreDocument doc)

/-- The task of the pool has a raw pointer to the document. Its owner is gone when the continuation
that has submitted the task returns, and `none` is a read of freed memory. -/
def scorePointer (held : Option (Centroid F)) (doc : ProcessedDocument F) (alive : Bool) :
    Option (Try F) :=
  if held.isSome && !alive then none else some (scoreHeld held doc)

namespace ScoringServer

/-- `SimilarityScoreWorker::getDocumentSimilarity`, with what is left of the document when the pool
comes to it. -/
def scoreDocument (server : ScoringServer F) (centroidId : Bytes) (doc : ProcessedDocument F)
    (alive : Bool) : Option (Try F) := scorePointer (server.held centroidId) doc alive

/-- The document is loaded first, and scored by a task of its own. -/
def getDocumentSimilarity (before server : ScoringServer F) (centroidId docId : Bytes)
    (alive : Bool) : Option (Try F) :=
  match before.documents docId with
  | none => some (.error .eDocumentDoesNotExist)
  | some doc => server.scoreDocument centroidId doc alive

/-- Nothing is answered where the text cannot be processed. -/
def getTextSimilarity [One F] [NatCast F] (processor : DocumentProcessor F)
    (server : ScoringServer F) (centroidId text : Bytes) (lang : Language) (alive : Bool) :
    Option (Try F) :=
  match processor.process_ ⟨ascii "no-id", text, lang⟩ with
  | none => none
  | some (doc, _) => server.scoreDocument centroidId doc alive

/-- The two centroids are read one after the other. -/
def getCentroidSimilarity (before server : ScoringServer F) (centroid1Id centroid2Id : Bytes) :
    Try F :=
  match before.held centroid1Id, server.held centroid2Id with
  | some centroid1, some centroid2 => .ok (centroid1.wordVector.score centroid2.wordVector)
  | _, _ => .error .eCentroidDoesNotExist

end ScoringServer

end Requests

section Scores

def DistinctStrings {F : Type} (document : ProcessedDocument F) : Prop :=
  (document.scoredWords.map ScoredWord.key).Nodup

def InUnitInterval (answer : Try ℝ) : Prop := ∃ score, answer = .ok score ∧ 0 ≤ score ∧ score ≤ 1

def Answers (answer : Option (Try ℝ)) : Prop :=
  ∃ result, answer = some result ∧ InUnitInterval result

/-- Where the denominators are not 0, every answer is between 0 and 1: of a document that was loaded
before and of a text, while they are alive and if they repeat no string, and of a pair of
centroids. -/
structure ScoresBounded (processor : DocumentProcessor ℝ) (actions : List ScoringAction)
    (server : ScoringServer ℝ) : Prop where
  document : ∀ centroidId centroid, server.held centroidId = some centroid →
    ∀ before, PassesThrough processor actions before →
      ∀ documentId document, before.documents documentId = some document →
        centroid.wordVector.magnitude ≠ 0 → document.magnitude ≠ 0 → DistinctStrings document →
          Answers (before.getDocumentSimilarity server centroidId documentId true)
  text : ∀ centroidId centroid, server.held centroidId = some centroid →
    ∀ text lang document left,
      processor.process_ ⟨ascii "no-id", text, lang⟩ = some (document, left) →
        centroid.wordVector.magnitude ≠ 0 → document.magnitude ≠ 0 → DistinctStrings document →
          Answers (server.getTextSimilarity processor centroidId text lang true)
  centroids : ∀ centroid2Id centroid2, server.held centroid2Id = some centroid2 →
    ∀ before, PassesThrough processor actions before →
      ∀ centroid1Id centroid1, before.held centroid1Id = some centroid1 →
        centroid1.wordVector.magnitude ≠ 0 → centroid2.wordVector.magnitude ≠ 0 →
          InUnitInterval (before.getCentroidSimilarity server centroid1Id centroid2Id)

theorem quotient_bounded {product first second : ℝ} (nonneg : 0 ≤ product)
    (bound : product ^ 2 ≤ first ^ 2 * second ^ 2) (firstNonneg : 0 ≤ first)
    (secondNonneg : 0 ≤ second) :
    0 ≤ product / (first * second) ∧ product / (first * second) ≤ 1 := by
  have whole : 0 ≤ first * second := mul_nonneg firstNonneg secondNonneg
  rw [← mul_pow] at bound
  have below : product ≤ first * second := (sq_le_sq₀ nonneg whole).mp bound
  exact ⟨div_nonneg nonneg whole, div_le_one_of_le₀ below whole⟩

structure Scorable (entries : List (Bytes × ℝ)) (magnitude : ℝ) : Prop where
  measured : Measured entries magnitude
  nonneg : 0 ≤ magnitude

theorem scorable_of_process {processor : DocumentProcessor ℝ} {hash : Bytes → UInt64}
    (exact : Exact processor hash) {submitted : Document} {document : ProcessedDocument ℝ}
    {text : Bytes} (processed : processor.process_ submitted = some (document, text)) :
    Scorable (DocumentAccumulator.entries document) document.magnitude where
  measured := measured_of_process exact processed
  nonneg := by
    obtain ⟨accumulator, _, _, magnitude⟩ := built_of_process processed
    rw [magnitude, exact.sqrt]
    exact Real.sqrt_nonneg _

variable {vector other : WordVector ℝ}

theorem Scorable.weight_nonneg (scorable : Scorable vector.scores.toList vector.magnitude)
    (key : Bytes) : 0 ≤ weight vector.scores key := by
  rw [← amount_toList]
  exact amount_nonneg scorable.measured.positive key

theorem document_score_bounded {document : ProcessedDocument ℝ}
    (scorable : Scorable vector.scores.toList vector.magnitude)
    (documentScorable : Scorable (DocumentAccumulator.entries document) document.magnitude)
    (distinct : DistinctStrings document) :
    0 ≤ vector.scoreDocument document ∧ vector.scoreDocument document ≤ 1 := by
  have keys : ((DocumentAccumulator.entries document).map Prod.fst).Nodup := by
    rw [DocumentAccumulator.entries, List.map_map]
    exact distinct
  apply quotient_bounded _ _ scorable.nonneg documentScorable.nonneg
  · rw [dot_product_document_eq]
    exact pairing_nonneg documentScorable.measured.positive scorable.weight_nonneg
  · rw [dot_product_document_eq, scorable.measured.magnitude, documentScorable.measured.magnitude,
      mul_comm]
    exact pairing_sq_le vector.scores keys

theorem centroid_score_bounded (scorable : Scorable vector.scores.toList vector.magnitude)
    (otherScorable : Scorable other.scores.toList other.magnitude) :
    0 ≤ vector.score other ∧ vector.score other ≤ 1 := by
  apply quotient_bounded _ _ scorable.nonneg otherScorable.nonneg
  · rw [WordVector.dot_product_eq]
    exact pairing_nonneg otherScorable.measured.positive scorable.weight_nonneg
  · rw [WordVector.dot_product_eq, scorable.measured.magnitude, otherScorable.measured.magnitude,
      mul_comm]
    exact pairing_sq_le vector.scores (keys_distinct other.scores)

variable {processor : DocumentProcessor ℝ} {hash : Bytes → UInt64} {actions : List ScoringAction}
  {server : ScoringServer ℝ}

theorem traced_of_passes (exact : Exact processor hash)
    (passes : PassesThrough processor actions server) : ∃ past, Traced processor past server := by
  obtain ⟨earlier, _, executed⟩ := passes
  exact ⟨_, traced_of_run exact earlier executed⟩

theorem scorable_document (exact : Exact processor hash)
    (passes : PassesThrough processor actions server) {id : Bytes} {document : ProcessedDocument ℝ}
    (stored : server.documents id = some document) :
    Scorable (DocumentAccumulator.entries document) document.magnitude := by
  obtain ⟨past, traced⟩ := traced_of_passes exact passes
  obtain ⟨_, _, submitted, text, processed⟩ := traced.documents id document stored
  exact scorable_of_process exact processed

theorem scorable_sum (exact : Exact processor hash) {centroidId : Bytes} {centroid : Centroid ℝ}
    (summed : Summed (pastOf processor actions) centroidId centroid) :
    Scorable centroid.wordVector.scores.toList centroid.wordVector.magnitude := by
  rcases summed with rfl | ⟨passed, rfl, contribute⟩
  · exact ⟨measured_empty_vector, le_refl 0⟩
  · constructor
    · apply measured_centroid_vector centroidId
      intro document member
      obtain ⟨before, passes, stored⟩ := (contribute document member).1
      exact (scorable_document exact passes stored).measured
    · have consistent := DocumentAccumulator.consistent_of_documents passed
      have magnitude : (CentroidUpdater.centroidOf Real.sqrt centroidId
          (passed.foldl DocumentAccumulator.addDocument .new)).wordVector.magnitude =
            Real.sqrt (DocumentAccumulator.sumOfSquares
              (passed.foldl DocumentAccumulator.addDocument .new).scores) :=
        DocumentAccumulator.magnitude_returned consistent
      rw [magnitude]
      exact Real.sqrt_nonneg _

theorem scorable_held (exact : Exact processor hash)
    (passes : PassesThrough processor actions server) {id : Bytes} {centroid : Centroid ℝ}
    (held : server.held id = some centroid) :
    Scorable centroid.wordVector.scores.toList centroid.wordVector.magnitude := by
  obtain ⟨earlier, _, executed⟩ := passes
  exact scorable_sum exact ((traced_of_run exact earlier executed).held id centroid held)

theorem answers_score {centroidId : Bytes} {centroid : Centroid ℝ} {document : ProcessedDocument ℝ}
    (held : server.held centroidId = some centroid)
    (scorable : Scorable centroid.wordVector.scores.toList centroid.wordVector.magnitude)
    (documentScorable : Scorable (DocumentAccumulator.entries document) document.magnitude)
    (distinct : DistinctStrings document) :
    Answers (server.scoreDocument centroidId document true) := by
  refine ⟨.ok (centroid.wordVector.scoreDocument document), ?_, _, rfl, ?_⟩
  · rw [ScoringServer.scoreDocument, scorePointer, held, scoreHeld]
    rfl
  · exact document_score_bounded scorable documentScorable distinct

/-- In every state of every run of requests, background work and restarts, the scores that are
answered are cosines. -/
theorem scores_always_bounded (exact : Exact processor hash) (actions : List ScoringAction)
    (executed : (scoringMachine processor).exec actions .initial = some server) :
    ScoresBounded processor actions server := by
  have now : PassesThrough processor actions server := ⟨actions, List.prefix_refl _, executed⟩
  constructor
  · intro centroidId centroid held before passes documentId document stored _ _ distinct
    rw [ScoringServer.getDocumentSimilarity, stored]
    exact answers_score held (scorable_held exact now held)
      (scorable_document exact passes stored) distinct
  · intro centroidId centroid held text lang document left processed _ _ distinct
    rw [ScoringServer.getTextSimilarity, processed]
    exact answers_score held (scorable_held exact now held) (scorable_of_process exact processed)
      distinct
  · intro centroid2Id centroid2 held2 before passes centroid1Id centroid1 held1 _ _
    refine ⟨centroid1.wordVector.score centroid2.wordVector, ?_, ?_⟩
    · rw [ScoringServer.getCentroidSimilarity, held1, held2]
    · exact centroid_score_bounded (scorable_held exact passes held1)
        (scorable_held exact now held2)

end Scores

section Examples

/-- The update's vector is loaded by a start of the server. -/
def updatedAndLoaded : List ScoringAction := updatedCentroid ++ [.known .restart]

theorem cats_and_dogs_loaded :
    ∃ (document : ProcessedDocument ℝ) (server : ScoringServer ℝ),
      (scoringMachine wholeTokens).exec (.createDocument catsAndDogs :: updatedAndLoaded) .initial =
        some server ∧
      server.held (ascii "pets") = some (petsOf document) := by
  obtain ⟨document, _, created⟩ := create_cats_and_dogs
  obtain ⟨updated, executed, centroids⟩ := pets_updated document
  refine ⟨document, { updated.move wholeTokens.sqrt .restart with
    known := .initialized updated.known.stored }, ?_, ?_⟩
  · rw [Machine.exec_of_step created, updatedAndLoaded, Machine.exec_append, executed]
    rfl
  · change updated.centroids (ascii "pets") = _
    rw [centroids, Function.update_self]

theorem pets_from_members :
    ∃ (centroid : Centroid ℝ) (server : ScoringServer ℝ),
      server.held (ascii "pets") = some centroid ∧
      (centroid = .new (ascii "pets") ∨ ∃ passed : List (ProcessedDocument ℝ),
        centroid = CentroidUpdater.centroidOf Real.sqrt (ascii "pets")
          (passed.foldl DocumentAccumulator.addDocument .new) ∧
        ∀ document ∈ passed,
          WasStored wholeTokens (.createDocument catsAndDogs :: updatedAndLoaded) document ∧
          WasMember wholeTokens (.createDocument catsAndDogs :: updatedAndLoaded) (ascii "pets")
            document.id) := by
  obtain ⟨document, server, executed, held⟩ := cats_and_dogs_loaded
  exact ⟨_, server, held, held_vectors_from_members whole_tokens_exact _ executed (ascii "pets")
    (by decide) _ held⟩

theorem pets_scores_bounded :
    ∃ server, (scoringMachine wholeTokens).exec (.createDocument catsAndDogs :: updatedAndLoaded)
        .initial = some server ∧
      ScoresBounded wholeTokens (.createDocument catsAndDogs :: updatedAndLoaded) server := by
  obtain ⟨_, server, executed, _⟩ := cats_and_dogs_loaded
  exact ⟨server, executed, scores_always_bounded whole_tokens_exact _ executed⟩

end Examples

end Relevanced.SimilarityScoreWorker

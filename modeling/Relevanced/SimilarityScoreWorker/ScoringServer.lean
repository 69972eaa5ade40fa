import Relevanced.CentroidUpdate.CentroidUpdater
import Relevanced.DocumentProcessing.Magnitudes
import Relevanced.Persistence.Listings
import Relevanced.SimilarityScoreWorker.KnownCentroids

/-!
# The vectors that are scored

The machine of `KnownCentroids` together with what its steps move: the stored documents, the
keys that link documents and centroids, the vectors in the store, in runs of
`CentroidUpdater`, in reloads, and in the score worker's map. A run may list and load more
than the code does: it may go on after a page that is not full or missing, and load a listed
document at any time and again. What it asks to have removed is a request like any other.
Records of documents and centroids and the keys that link them are kept apart, as those of ids
without a colon are.
-/

namespace Relevanced.SimilarityScoreWorker

open Foundation
open CentroidUpdate
open DocumentProcessing
open Models
open Persistence
open SyncPersistence

set_option autoImplicit false

/-- What a run of `CentroidUpdater` has read: the ids that have been listed, and the documents
passed to `addDocument`. -/
structure RunData (F : Type) where
  listed : List Bytes
  passed : List (ProcessedDocument F)

def RunData.new {F : Type} : RunData F := ⟨[], []⟩

/-- Runs are known by their calls of `update`, and reloads by their order, both since the start. -/
structure ScoringServer (F : Type) where
  known : KnownCentroids Bytes
  documents : Bytes → Option (ProcessedDocument F)
  links : Store
  centroids : Bytes → Option (Centroid F)
  runs : Nat → RunData F
  read : Nat → Option (Centroid F)
  /-- The `find` of a reload's `insertOrUpdate` has found no item. -/
  missed : Nat → Bool
  held : Bytes → Option (Centroid F)

namespace ScoringServer

variable {F : Type}

def initial : ScoringServer F where
  known := .initialized fun _ => false
  documents _ := none
  links := ∅
  centroids _ := none
  runs _ := .new
  read _ := none
  missed _ := false
  held _ := none

variable [Zero F] [One F] [NatCast F] [Add F] [Mul F]

/-- The processed document is saved unless its id is taken. -/
def createDocument [Div F] (processor : DocumentProcessor F) (server : ScoringServer F)
    (submitted : Document) : ScoringServer F :=
  match processor.process_ submitted with
  | none => server
  | some (document, _) =>
      if (server.documents document.id).isSome then server
      else { server with documents := Function.update server.documents document.id (some document) }

/-- Member records of the document stay. -/
def deleteDocument (server : ScoringServer F) (id : Bytes) : ScoringServer F :=
  if (server.documents id).isSome then
    { server with
      documents := Function.update server.documents id none
      links := eraseUnder server.links (getDocumentCentroidsPrefix id) }
  else server

def bothExist (server : ScoringServer F) (centroidId documentId : Bytes) : Bool :=
  (server.centroids centroidId).isSome && (server.documents documentId).isSome

def hasDocument (server : ScoringServer F) (centroidId documentId : Bytes) : Bool :=
  server.links.contains (getCentroidDocumentKey centroidId documentId)

def addDocumentToCentroid (server : ScoringServer F) (centroidId documentId : Bytes) :
    ScoringServer F :=
  if server.bothExist centroidId documentId && !server.hasDocument centroidId documentId then
    { server with links := linked server.links centroidId documentId }
  else server

def removeDocumentFromCentroid (server : ScoringServer F) (centroidId documentId : Bytes) :
    ScoringServer F :=
  if server.bothExist centroidId documentId then
    { server with
      links := (unlinked server.links centroidId documentId).erase
        (getCentroidDocumentKey centroidId documentId) }
  else server

def setRun (server : ScoringServer F) (index : Nat) (run : RunData F) : ScoringServer F :=
  { server with runs := Function.update server.runs index run }

def isReading (server : ScoringServer F) (index : Nat) : Option Bytes :=
  match server.known.updateWorker.attempts[index]? with
  | some ⟨id, .running (some .started)⟩ => some id
  | _ => none

/-- The first page, and later those that begin with the last id listed. -/
def nextPage (server : ScoringServer F) (id : Bytes) (listed : List Bytes) : List Bytes :=
  match listed.getLast? with
  | none => ((listCentroidDocumentRangeFromOffsetRaw id 0 CentroidUpdater.idListBatchSize).run
      rockHandle server.links).1
  | some last => ((listCentroidDocumentRangeFromDocumentIdRaw id last
      CentroidUpdater.idListBatchSize).run rockHandle server.links).1

def listDocuments (server : ScoringServer F) (index : Nat) : Option (ScoringServer F) :=
  match server.isReading index with
  | none => none
  | some id =>
      let run := server.runs index
      some (server.setRun index { run with listed := run.listed ++ server.nextPage id run.listed })

/-- A listed document is loaded, and passed on if it is there. -/
def addDocument (server : ScoringServer F) (index place : Nat) : Option (ScoringServer F) :=
  let run := server.runs index
  match server.isReading index, run.listed[place]? with
  | some _, some documentId =>
      some (server.setRun index
        { run with passed := run.passed ++ (server.documents documentId).toList })
  | _, _ => none

/-- `find` as a step of its own; a reload without it makes it together with its write. -/
def findItem (server : ScoringServer F) (index : Nat) : Option (ScoringServer F) :=
  match server.known.loads[index]? with
  | some ⟨id, .read true⟩ =>
      some { server with
        missed := Function.update server.missed index (server.held id).isNone }
  | _ => none

/-- `addOrGetData` leaves an item that has been added since `find` as it is. -/
def drops (server : ScoringServer F) (index : Nat) (id : Bytes) : Bool :=
  server.missed index && (server.held id).isSome

/-- What a step of `KnownCentroids` does to the vectors. -/
def move (sqrt : F → F) (server : ScoringServer F) : KnownAction Bytes → ScoringServer F
  | .createCentroid id =>
      if server.known.stored id then server
      else { server with centroids := Function.update server.centroids id (some (.new id)) }
  | .deleteCentroid id =>
      { server with
        centroids := Function.update server.centroids id none
        links :=
          if (server.centroids id).isSome then
            eraseUnder server.links (getCentroidDocumentPrefix id)
          else server.links }
  | .restart =>
      { server with
        runs := fun _ => .new
        read := fun _ => none
        missed := fun _ => false
        held := server.centroids }
  | .saveCentroid index =>
      match server.known.updateWorker.attempts[index]? with
      | some ⟨id, _⟩ =>
          { server with
            centroids := Function.update server.centroids id
              (some (CentroidUpdater.centroidOf sqrt id
                ((server.runs index).passed.foldl DocumentAccumulator.addDocument .new))) }
      | none => server
  | .stepReload index =>
      match server.known.loads[index]? with
      | some ⟨id, .submitted⟩ =>
          { server with read := Function.update server.read index (server.centroids id) }
      | some ⟨id, .read true⟩ =>
          if server.drops index id then server
          else { server with held := Function.update server.held id (server.read index) }
      | _ => server
  | _ => server

end ScoringServer

inductive ScoringAction where
  | createDocument (submitted : Document)
  | deleteDocument (id : Bytes)
  | addDocumentToCentroid (centroidId documentId : Bytes)
  | removeDocumentFromCentroid (centroidId documentId : Bytes)
  | listDocuments (index : Nat)
  | addDocument (index place : Nat)
  | findItem (index : Nat)
  | known (action : KnownAction Bytes)

/-- Requests, background work and restarts, with the vectors. -/
def scoringMachine {F : Type} [Zero F] [One F] [NatCast F] [Add F] [Mul F] [Div F]
    (processor : DocumentProcessor F) : Machine (ScoringServer F) ScoringAction where
  step server
    | .createDocument submitted => some (server.createDocument processor submitted)
    | .deleteDocument id => some (server.deleteDocument id)
    | .addDocumentToCentroid centroidId documentId =>
        some (server.addDocumentToCentroid centroidId documentId)
    | .removeDocumentFromCentroid centroidId documentId =>
        some (server.removeDocumentFromCentroid centroidId documentId)
    | .listDocuments index => server.listDocuments index
    | .addDocument index place => server.addDocument index place
    | .findItem index => server.findItem index
    | .known action =>
        ((knownMachine Bytes).step server.known action).map fun known =>
          { server.move processor.sqrt action with known := known }

theorem forall_update {α β : Type} [DecidableEq α] {P : α → β → Prop} {f : α → Option β}
    (before : ∀ key value, f key = some value → P key value) {key : α} {new : Option β}
    (added : ∀ value, new = some value → P key value) :
    ∀ other value, Function.update f key new other = some value → P other value := by
  intro other value found
  by_cases same : other = key
  · subst same
    rw [Function.update_self] at found
    exact added value found
  · rw [Function.update_of_ne same] at found
    exact before other value found

section Steps

variable {F : Type} [Zero F] [One F] [NatCast F] [Add F] [Mul F]

/-- What requests about documents and links and what runs read leave as it is. -/
structure SameVectors (server next : ScoringServer F) : Prop where
  known : next.known = server.known
  centroids : next.centroids = server.centroids
  read : next.read = server.read
  held : next.held = server.held

theorem move_of_background (sqrt : F → F) {server : ScoringServer F} {action : KnownAction Bytes}
    (quiet : action.isBackground = true) : server.move sqrt action = server := by
  cases action <;> first | rfl | cases quiet

theorem known_or_same_vectors [Div F] {processor : DocumentProcessor F}
    {server next : ScoringServer F} {action : ScoringAction}
    (stepped : (scoringMachine processor).step server action = some next) :
    (∃ moved known, action = .known moved ∧ KnownStep server.known moved known ∧
      next = { server.move processor.sqrt moved with known := known }) ∨
      SameVectors server next := by
  cases action with
  | createDocument submitted =>
      cases stepped
      rw [ScoringServer.createDocument]
      split
      · exact Or.inr ⟨rfl, rfl, rfl, rfl⟩
      · split <;> exact Or.inr ⟨rfl, rfl, rfl, rfl⟩
  | deleteDocument id =>
      cases stepped
      rw [ScoringServer.deleteDocument]
      split <;> exact Or.inr ⟨rfl, rfl, rfl, rfl⟩
  | addDocumentToCentroid centroidId documentId =>
      cases stepped
      rw [ScoringServer.addDocumentToCentroid]
      split <;> exact Or.inr ⟨rfl, rfl, rfl, rfl⟩
  | removeDocumentFromCentroid centroidId documentId =>
      cases stepped
      rw [ScoringServer.removeDocumentFromCentroid]
      split <;> exact Or.inr ⟨rfl, rfl, rfl, rfl⟩
  | listDocuments index =>
      change server.listDocuments index = some next at stepped
      rw [ScoringServer.listDocuments] at stepped
      split at stepped
      · cases stepped
      · cases stepped
        exact Or.inr ⟨rfl, rfl, rfl, rfl⟩
  | addDocument index place =>
      change server.addDocument index place = some next at stepped
      rw [ScoringServer.addDocument] at stepped
      split at stepped
      · cases stepped
        exact Or.inr ⟨rfl, rfl, rfl, rfl⟩
      · cases stepped
  | findItem index =>
      change server.findItem index = some next at stepped
      rw [ScoringServer.findItem] at stepped
      split at stepped
      · cases stepped
        exact Or.inr ⟨rfl, rfl, rfl, rfl⟩
      · cases stepped
  | known action =>
      obtain ⟨known, moved, rfl⟩ := Option.map_eq_some_iff.mp stepped
      exact Or.inl ⟨action, known, rfl, known_step_of_step moved, rfl⟩

end Steps

section Alignment

variable {F : Type}

/-- The vectors are there for exactly the centroids that `KnownCentroids` has as stored, as held
and as read. -/
structure Aligned (server : ScoringServer F) : Prop where
  stored : ∀ id, server.known.stored id = (server.centroids id).isSome
  held : ∀ id, server.known.held id = (server.held id).isSome
  read : ∀ index id found, server.known.loads[index]? = some ⟨id, .read found⟩ →
    (server.read index).isSome = found

theorem aligned_initial : Aligned (.initial : ScoringServer F) where
  stored _ := rfl
  held _ := rfl
  read _ _ _ located := by cases located

theorem update_is_some {values : Bytes → Bool} {vectors : Bytes → Option (Centroid F)}
    (same : ∀ id, values id = (vectors id).isSome) (id : Bytes) (vector : Option (Centroid F)) :
    ∀ other, Function.update values id vector.isSome other =
      (Function.update vectors id vector other).isSome := by
  intro other
  by_cases isId : other = id
  · subst isId
    rw [Function.update_self, Function.update_self]
  · rw [Function.update_of_ne isId, Function.update_of_ne isId]
    exact same other

variable {server : ScoringServer F}

theorem Aligned.keep (aligned : Aligned server) {known : KnownCentroids Bytes}
    (stored : known.stored = server.known.stored) (held : known.held = server.known.held)
    (read : ∀ (index : Nat) (id : Bytes) (found : Bool),
      known.loads[index]? = some ⟨id, .read found⟩ →
        server.known.loads[index]? = some ⟨id, .read found⟩) :
    Aligned { server with known := known } where
  stored id := by
    rw [stored]
    exact aligned.stored id
  held id := by
    rw [held]
    exact aligned.held id
  read index id found located := aligned.read index id found (read index id found located)

theorem Aligned.same {next : ScoringServer F} (aligned : Aligned server)
    (same : SameVectors server next) : Aligned next where
  stored id := by
    rw [same.known, same.centroids]
    exact aligned.stored id
  held id := by
    rw [same.known, same.held]
    exact aligned.held id
  read index id found located := by
    rw [same.known] at located
    rw [same.read]
    exact aligned.read index id found located

theorem read_of_submitted (loads : List (CentroidLoad Bytes)) (submitted : Bytes) (index : Nat)
    (id : Bytes) (found : Bool)
    (located : (loads ++ [⟨submitted, .submitted⟩])[index]? = some ⟨id, .read found⟩) :
    loads[index]? = some ⟨id, .read found⟩ := by
  by_cases inside : index < loads.length
  · rwa [List.getElem?_append_left inside] at located
  · rw [List.getElem?_append_right (Nat.le_of_not_lt inside)] at located
    have member := List.mem_of_getElem? located
    cases List.mem_singleton.mp member

theorem read_of_set (loads : List (CentroidLoad Bytes)) (position : Nat) (load : CentroidLoad Bytes)
    (notRead : ∀ id found, load ≠ ⟨id, .read found⟩) (index : Nat) (id : Bytes) (found : Bool)
    (located : (loads.set position load)[index]? = some ⟨id, .read found⟩) :
    loads[index]? = some ⟨id, .read found⟩ := by
  by_cases same : position = index
  · subst same
    rw [List.getElem?_set] at located
    split at located
    · split at located
      · exact absurd (Option.some.inj located) (notRead id found)
      · cases located
    · assumption
  · rwa [List.getElem?_set_ne same] at located

variable [Zero F] [One F] [NatCast F] [Add F] [Mul F] (sqrt : F → F)

omit [Zero F] [One F] [NatCast F] [Add F] [Mul F] in
theorem Aligned.store (aligned : Aligned server) (id : Bytes) (centroid : Centroid F) :
    Aligned { server with
      centroids := Function.update server.centroids id (some centroid)
      known := server.known.store id } := by
  have updated := update_is_some aligned.stored id (some centroid)
  rw [KnownCentroids.store]
  split
  · rename_i isStored
    constructor
    · intro other
      rw [← updated other, Option.isSome_some, ← isStored, Function.update_eq_self]
    · exact aligned.held
    · exact aligned.read
  · exact ⟨updated, aligned.held, aligned.read⟩

theorem Aligned.known (aligned : Aligned server) {action : KnownAction Bytes}
    {known : KnownCentroids Bytes} (step : KnownStep server.known action known) :
    Aligned { server.move sqrt action with known := known } := by
  cases step with
  | create id =>
      rw [ScoringServer.move]
      split
      · rename_i isStored
        rw [KnownCentroids.store, if_pos isStored]
        exact aligned
      · exact aligned.store id (.new id)
  | delete id => exact ⟨update_is_some aligned.stored id none, aligned.held, aligned.read⟩
  | restart =>
      refine ⟨aligned.stored, aligned.stored, ?_⟩
      intro index id found located
      cases located
  | save index id located =>
      rw [ScoringServer.move, located]
      have saved := aligned.store id (CentroidUpdater.centroidOf sqrt id
        ((server.runs index).passed.foldl DocumentAccumulator.addDocument .new))
      exact ⟨saved.stored, saved.held, saved.read⟩
  | read index id located =>
      rw [ScoringServer.move, located]
      refine ⟨aligned.stored, aligned.held, ?_⟩
      intro other otherId found isRead
      by_cases same : index = other
      · subst same
        rw [List.getElem?_set_self (List.getElem?_eq_some_iff.mp located).1] at isRead
        cases isRead
        change (Function.update server.read index (server.centroids id) index).isSome = _
        rw [Function.update_self, aligned.stored id]
      · rw [List.getElem?_set_ne same] at isRead
        change (Function.update server.read index (server.centroids id) other).isSome = found
        rw [Function.update_of_ne (Ne.symm same)]
        exact aligned.read other otherId found isRead
  | insert index id located =>
      rw [ScoringServer.move, located]
      dsimp only
      have stillRead (other : Nat) (otherId : Bytes) (found : Bool)
          (isRead : (server.known.loads.set index ⟨id, .finished⟩)[other]? =
            some ⟨otherId, .read found⟩) : (server.read other).isSome = found :=
        aligned.read other otherId found
          (read_of_set _ index _ (by simp) other otherId found isRead)
      split
      · rename_i isDropped
        rw [ScoringServer.drops, Bool.and_eq_true] at isDropped
        refine ⟨aligned.stored, ?_, stillRead⟩
        intro other
        have updated := update_is_some aligned.held id (server.held id) other
        rw [isDropped.2, Function.update_eq_self] at updated
        exact updated
      · have updated := update_is_some aligned.held id (server.read index)
        rw [aligned.read index id true located] at updated
        exact ⟨aligned.stored, updated, stillRead⟩
  | nothing index id located =>
      rw [ScoringServer.move, located]
      exact aligned.keep rfl rfl (read_of_set server.known.loads index ⟨id, .finished⟩ (by simp))
  | background quiet stored held unloaded loads attempts =>
      rw [move_of_background sqrt quiet]
      apply aligned.keep stored held
      rcases loads with same | ⟨id, added⟩
      · rw [same]
        exact fun _ _ _ => id
      · rw [added]
        exact read_of_submitted server.known.loads id

variable [Div F]

theorem aligned_along (processor : DocumentProcessor F) (actions : List ScoringAction) :
    (scoringMachine processor).Along Aligned actions .initial := by
  apply Machine.along_of_preserved _ actions aligned_initial
  intro server action next aligned stepped
  rcases known_or_same_vectors stepped with ⟨moved, known, rfl, step, rfl⟩ | same
  · exact aligned.known processor.sqrt step
  · exact aligned.same same

end Alignment

section Examples

def updatedCentroid : List ScoringAction :=
  [.known (.createCentroid (ascii "pets")), .addDocumentToCentroid (ascii "pets") (ascii "doc"),
    .known (.changeMembers (ascii "pets") false), .known (.fire 0), .known (.proceed 0),
    .known (.proceed 0), .known (.proceed 0), .known (.proceed 0), .known (.checkExists 0),
    .listDocuments 0, .addDocument 0 0, .known (.checkExists 0), .known (.saveCentroid 0)]

/-- The server holds the document and has not started on anything else. -/
noncomputable def withDocument (document : ProcessedDocument ℝ) : ScoringServer ℝ :=
  { ScoringServer.initial with
    documents := Function.update (fun _ => none) (ascii "doc") (some document) }

noncomputable def petsOf (document : ProcessedDocument ℝ) : Centroid ℝ :=
  CentroidUpdater.centroidOf Real.sqrt (ascii "pets")
    ([document].foldl DocumentAccumulator.addDocument .new)

theorem create_cats_and_dogs :
    ∃ document : ProcessedDocument ℝ, wholeTokens.process_ catsAndDogs =
        some (document, catsAndDogs.text) ∧
      (scoringMachine wholeTokens).step .initial (.createDocument catsAndDogs) =
        some (withDocument document) := by
  obtain ⟨document, processed⟩ := @process_whole_tokens catsAndDogs (by decide +kernel)
  have sameId : document.id = ascii "doc" := id_of_process processed
  refine ⟨document, processed, ?_⟩
  change some (ScoringServer.createDocument wholeTokens .initial catsAndDogs) = _
  rw [ScoringServer.createDocument, processed]
  dsimp only
  rw [sameId]
  rfl

theorem pets_updated (document : ProcessedDocument ℝ) :
    ∃ server, (scoringMachine wholeTokens).exec updatedCentroid (withDocument document) =
        some server ∧
      server.centroids = Function.update
        (Function.update (fun _ => none) (ascii "pets") (some (.new (ascii "pets"))))
        (ascii "pets") (some (petsOf document)) := by
  exact ⟨_, rfl, rfl⟩

end Examples

end Relevanced.SimilarityScoreWorker

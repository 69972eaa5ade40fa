import Relevanced.Server.Handlers

/-!
# What the handlers reply

In every run the handlers throw only what the service declares for the request, but for a
generated id that is taken. A created document stays as it is until it is deleted, whatever
other requests come, and a request that creates centroids creates all of them, even where
it fails.
-/

namespace Relevanced.Server

open DocumentProcessing
open Foundation
open Models
open Persistence
open Serialization

set_option autoImplicit false

def DatabaseRequest.throws : DatabaseRequest → List ProtocolException
  | createDocumentWithID _ _ _ _ => [.eDocumentAlreadyExists]
  | deleteDocument _ _ => [.eDocumentDoesNotExist]
  | multiDeleteDocuments _ => [.eDocumentDoesNotExist]
  | createCentroid _ _ => [.eCentroidAlreadyExists]
  | multiCreateCentroids _ => [.eCentroidAlreadyExists]
  | deleteCentroid _ _ => [.eCentroidDoesNotExist]
  | multiDeleteCentroids _ => [.eCentroidDoesNotExist]
  | addDocumentsToCentroid _ _ =>
      [.eCentroidDoesNotExist, .eDocumentDoesNotExist, .eDocumentAlreadyInCentroid]
  | removeDocumentsFromCentroid _ _ =>
      [.eCentroidDoesNotExist, .eDocumentDoesNotExist, .eDocumentNotInCentroid]
  | listAllDocumentsForCentroid _ => [.eCentroidDoesNotExist]
  | listCentroidDocumentRange _ _ _ => [.eCentroidDoesNotExist]
  | listCentroidDocumentRangeFromID _ _ _ => [.eCentroidDoesNotExist]
  | debugGetFullCentroid _ => [.eCentroidDoesNotExist]
  | debugGetFullProcessedDocument _ => [.eDocumentDoesNotExist]
  | _ => []

section Failures

def FailsWith {α : Type} (exceptions : List ProtocolException) (result : Try α) : Prop :=
  ∀ exception, result = .error exception → exception ∈ exceptions

variable {α β : Type} {exceptions : List ProtocolException}

theorem fails_with_ok (value : α) : FailsWith exceptions (.ok value : Try α) := nofun

theorem fails_with_error {exception : ProtocolException} (listed : exception ∈ exceptions) :
    FailsWith exceptions (.error exception : Try α) := by
  intro other same
  cases same
  exact listed

theorem FailsWith.bind {result : Try α} (fails : FailsWith exceptions result) {f : α → Try β}
    (later : ∀ value, FailsWith exceptions (f value)) : FailsWith exceptions (result >>= f) := by
  cases result with
  | ok value => exact later value
  | error exception => exact fails_with_error (fails exception rfl)

theorem FailsWith.map {result : Try α} (fails : FailsWith exceptions result) (f : α → β) :
    FailsWith exceptions (result.map f) := by
  cases result with
  | ok value => exact fails_with_ok (f value)
  | error exception => exact fails_with_error (fails exception rfl)

theorem fails_with_foldlM {items : List α} {f : β → α → Try β}
    (each : ∀ item ∈ items, ∀ found, FailsWith exceptions (f found item)) (start : β) :
    FailsWith exceptions (items.foldlM f start) := by
  induction items generalizing start with
  | nil => exact fails_with_ok start
  | cons item items ih =>
      rw [List.foldlM_cons]
      apply (each item List.mem_cons_self start).bind
      exact ih fun later member => each later (List.mem_cons_of_mem item member)

theorem FailsWith.unless_ignored {result : Try Bool} (fails : FailsWith exceptions result)
    (missing : ProtocolException) (ignoreMissing : Bool) :
    FailsWith exceptions (RelevanceServer.unlessIgnored missing ignoreMissing result) := by
  rw [RelevanceServer.unlessIgnored]
  split
  · exact fails_with_ok false
  · exact fails

theorem FailsWith.throw_unless_ignored {result : Try Bool} (fails : FailsWith exceptions result)
    (missing : ProtocolException) (ignoreMissing : Bool) :
    FailsWith exceptions
      (ThriftRelevanceServer.throwUnlessIgnored missing ignoreMissing result) := by
  cases result with
  | ok value => exact fails_with_ok ()
  | error exception =>
      rw [ThriftRelevanceServer.throwUnlessIgnored]
      split
      · exact fails_with_error (fails exception rfl)
      · exact fails_with_ok ()

theorem fails_with_respond {missing : ProtocolException} {request : MultiDeleteRequest}
    {result : List (Try Bool)} (each : ∀ elem ∈ result, FailsWith exceptions elem) :
    FailsWith exceptions (ThriftRelevanceServer.respond missing request result) := by
  rw [ThriftRelevanceServer.respond, ThriftRelevanceServer.deletedIds]
  refine FailsWith.bind (fails_with_foldlM ?_ []) fun _ => fails_with_ok _
  intro entry member found
  have fails := each entry.1 (List.of_mem_zip member).1
  rw [ThriftRelevanceServer.pushDeleted]
  refine (fails.throw_unless_ignored missing request.ignoreMissing).bind fun _ => ?_
  refine fails.bind fun removed => ?_
  split <;> exact fails_with_ok _

theorem fails_with_created {ids : List Bytes} {result : List (Try Bool)}
    (each : ∀ elem ∈ result, FailsWith exceptions elem) :
    FailsWith exceptions (Handlers.createdIds ids result) := by
  rw [Handlers.createdIds]
  apply fails_with_foldlM
  intro entry member found
  refine (each entry.1 (List.of_mem_zip member).1).bind fun created => ?_
  split <;> exact fails_with_ok _

theorem fails_with_successes {results : List (Try Bool)}
    (each : ∀ elem ∈ results, FailsWith exceptions elem) (successes : List Bool) :
    FailsWith exceptions (RelevanceServer.collectSuccesses results successes) := by
  induction results generalizing successes with
  | nil => exact fails_with_ok successes
  | cons result results ih =>
      obtain ⟨fails, later⟩ := List.forall_mem_cons.mp each
      cases result with
      | ok success => exact ih later (successes ++ [success])
      | error exception => exact fails_with_error (fails exception rfl)

end Failures

section Answers

variable {F : Type} [Zero F] [One F] (stamped : StampedArchive F)

/-- The handler that replies, on an archive. -/
abbrev onArchive {α : Type} (program : Handlers.DatabaseProgram F α) : α :=
  (program.run (StampedArchive.prescribed readBack) stamped).1

theorem save_new_fails (doc : ProcessedDocument F) :
    FailsWith [.eDocumentAlreadyExists]
      (onArchive stamped (Handlers.ask (.sync (.saveNewDocument doc)))) := by
  change FailsWith _ (Catalogue.prescribed (.saveNewDocument doc) stamped.archive.catalogue).1
  rw [Catalogue.prescribed]
  split
  · exact fails_with_error List.mem_cons_self
  · exact fails_with_ok true

theorem delete_document_fails (ignoreMissing : Bool) (id : Bytes) :
    FailsWith [.eDocumentDoesNotExist]
      (onArchive stamped (Handlers.deleteDocumentOf ignoreMissing id)) := by
  apply FailsWith.unless_ignored
  change FailsWith _
    (Catalogue.prescribed (.deleteDocument id : SyncCall F) stamped.archive.catalogue).1
  rw [Catalogue.prescribed]
  split
  · exact fails_with_ok true
  · exact fails_with_error List.mem_cons_self

theorem create_centroid_fails (ignoreExisting : Bool) (id : Bytes) :
    FailsWith [.eCentroidAlreadyExists]
      (onArchive stamped (Handlers.createCentroidOf ignoreExisting id)) := by
  apply FailsWith.unless_ignored
  change FailsWith _
    (Catalogue.prescribed (.createNewCentroid id : SyncCall F) stamped.archive.catalogue).1
  rw [Catalogue.prescribed]
  split
  · exact fails_with_error List.mem_cons_self
  · exact fails_with_ok true

theorem delete_centroid_fails (ignoreMissing : Bool) (id : Bytes) :
    FailsWith [.eCentroidDoesNotExist]
      (onArchive stamped (Handlers.deleteCentroidOf ignoreMissing id)) := by
  apply FailsWith.unless_ignored
  change FailsWith _
    (Catalogue.prescribed (.deleteCentroid id : SyncCall F) stamped.archive.catalogue).1
  rw [Catalogue.prescribed]
  split
  · exact fails_with_ok true
  · exact fails_with_error List.mem_cons_self

theorem change_fails {exceptions : List ProtocolException} {change : PublicCall F}
    {result : change.Answer → Try Bool} (unchanged : ProtocolException) (centroidId : Bytes)
    (ignoreMissingDoc ignoreUnchanged : Bool) (epochTime : UInt64)
    (fails : FailsWith exceptions (result (onArchive stamped (Handlers.ask change)))) :
    FailsWith exceptions (onArchive stamped (Handlers.changeOneDocument change result unchanged
      centroidId ignoreMissingDoc ignoreUnchanged epochTime)) := by
  rw [onArchive] at fails
  rw [onArchive, Handlers.changeOneDocument, Program.run_bind]
  generalize (Handlers.ask change).run (StampedArchive.prescribed readBack) stamped = answered at *
  obtain ⟨answer, after⟩ := answered
  dsimp only at *
  cases answers : result answer with
  | ok value =>
      dsimp only
      rw [Program.run_bind]
      simp only [reduceCtorEq, and_false, if_false]
      exact fails_with_ok value
  | error exception =>
      dsimp only
      split
      · exact fails_with_ok false
      · split
        · exact fails_with_ok false
        · exact fails_with_error (fails exception answers)

theorem add_document_fails (request : AddDocumentsToCentroidRequest) (docId : Bytes)
    (epochTime : UInt64) :
    FailsWith [.eCentroidDoesNotExist, .eDocumentDoesNotExist, .eDocumentAlreadyInCentroid]
      (onArchive stamped (Handlers.addOneDocumentToCentroid request docId epochTime)) := by
  apply change_fails
  change FailsWith _ (Catalogue.prescribed (.addDocumentToCentroid request.centroidId docId :
    SyncCall F) stamped.archive.catalogue).1
  rw [Catalogue.prescribed]
  split
  · split
    · split
      · exact fails_with_error (by simp)
      · exact fails_with_ok true
    · exact fails_with_error (by simp)
  · exact fails_with_error (by simp)

theorem remove_document_fails (request : RemoveDocumentsFromCentroidRequest) (docId : Bytes)
    (epochTime : UInt64) :
    FailsWith [.eCentroidDoesNotExist, .eDocumentDoesNotExist, .eDocumentNotInCentroid]
      (onArchive stamped (Handlers.removeOneDocumentFromCentroid request docId epochTime)) := by
  apply change_fails
  change FailsWith _ (Catalogue.prescribed (.removeDocumentFromCentroid request.centroidId docId :
    SyncCall F) stamped.archive.catalogue).1
  rw [Catalogue.prescribed]
  split
  · split
    · split
      · exact fails_with_ok true
      · exact fails_with_error (by simp)
    · exact fails_with_error (by simp)
  · exact fails_with_error (by simp)

end Answers

section Contract

variable {F : Type} [Zero F] [One F] [NatCast F] [Add F] [Mul F] [Div F]

/-- An exception is one that the service declares, or says that a generated id is taken; and there
is a reply unless a text cannot be processed. -/
structure Contracted (processor : DocumentProcessor F) (hash : Bytes → Bytes)
    (request : DatabaseRequest) (reply : Reply F) : Prop where
  declared : ∀ exception, reply = some (.error exception) → exception ∈ request.throws ∨
    ∃ uuid text language epochTime, request = .createDocument uuid text language epochTime ∧
      exception = .eDocumentAlreadyExists
  known : reply = none → ∃ id text language epochTime,
    processNew (Handlers.atTime processor epochTime) hash ⟨id, text, language⟩ = none ∧
      (request = .createDocument id text language epochTime ∨
        request = .createDocumentWithID id text language epochTime)

variable {processor : DocumentProcessor F} {hash : Bytes → Bytes} {request : DatabaseRequest}

theorem contracted_of_fails {reply : Try (Response F)} (fails : FailsWith request.throws reply) :
    Contracted processor hash request (some reply) where
  declared exception same := Or.inl (fails exception (Option.some.inj same))
  known none := by cases none

theorem listing_contracted (stamped : StampedArchive F) (call : PublicCall F)
    (result : call.Answer → List Bytes) :
    Contracted processor hash request (onArchive stamped (Handlers.listIds call result)) :=
  contracted_of_fails (fails_with_ok _)

theorem members_contracted {stamped : StampedArchive F} {call : PublicCall F}
    {result : call.Answer → Try (List Bytes)}
    (fails : FailsWith request.throws (result (onArchive stamped (Handlers.ask call)))) :
    Contracted processor hash request (onArchive stamped (Handlers.listMembers call result)) :=
  contracted_of_fails (fails.map Response.ids)

theorem of_centroid_fails (catalogue : Catalogue) (c : Bytes) (ids : List Bytes) :
    FailsWith [.eCentroidDoesNotExist] (catalogue.ofCentroid c ids) := by
  rw [Catalogue.ofCentroid]
  split
  · exact fails_with_ok ids
  · exact fails_with_error List.mem_cons_self

theorem method_contracted (request : DatabaseRequest) (stamped : StampedArchive F) :
    Contracted processor hash request (onArchive stamped (request.method processor hash)) := by
  cases request with
  | createDocument uuid text language epochTime =>
      change Contracted _ _ _ (onArchive stamped
        (Handlers.createDocument (Handlers.atTime processor epochTime) hash uuid text language))
      rw [onArchive, Handlers.createDocument, Program.run_bind,
        Handlers.internalCreateDocumentWithID]
      cases made : processNew (Handlers.atTime processor epochTime) hash ⟨uuid, text, language⟩ with
      | none =>
          refine ⟨?_, fun _ => ⟨uuid, text, language, epochTime, made, Or.inl rfl⟩⟩
          intro exception same
          cases same
      | some processed =>
          have fails := (save_new_fails stamped processed.1).map fun _ => uuid
          constructor
          · intro exception same
            change some (Except.map Response.id _) = some (.error exception) at same
            have listed := (fails.map Response.id) exception (Option.some.inj same)
            exact Or.inr ⟨uuid, text, language, epochTime, rfl, List.mem_singleton.mp listed⟩
          · intro unknown
            cases unknown
  | createDocumentWithID id text language epochTime =>
      change Contracted _ _ _ (onArchive stamped
        (Handlers.createDocumentWithID (Handlers.atTime processor epochTime) hash id text language))
      rw [onArchive, Handlers.createDocumentWithID, Program.run_bind,
        Handlers.internalCreateDocumentWithID]
      cases made : processNew (Handlers.atTime processor epochTime) hash ⟨id, text, language⟩ with
      | none =>
          refine ⟨?_, fun _ => ⟨id, text, language, epochTime, made, Or.inr rfl⟩⟩
          intro exception same
          cases same
      | some processed =>
          have fails := (save_new_fails stamped processed.1).map fun _ => id
          exact contracted_of_fails (fails.map _)
  | deleteDocument id ignoreMissing =>
      exact contracted_of_fails ((delete_document_fails stamped ignoreMissing id).map _)
  | multiDeleteDocuments request =>
      change Contracted _ _ _ (onArchive stamped (Handlers.multiDeleteDocuments request))
      rw [onArchive, Handlers.multiDeleteDocuments, Program.run_bind]
      have each := Program.answers_of_mapM
        (fun id state => delete_document_fails state request.ignoreMissing id) request.ids stamped
      apply contracted_of_fails
      exact (fails_with_respond each).map _
  | createCentroid id ignoreExisting =>
      exact contracted_of_fails ((create_centroid_fails stamped ignoreExisting id).map _)
  | multiCreateCentroids request =>
      change Contracted _ _ _ (onArchive stamped (Handlers.multiCreateCentroids request))
      rw [onArchive, Handlers.multiCreateCentroids, Program.run_bind]
      have each := Program.answers_of_mapM
        (fun id state => create_centroid_fails state request.ignoreExisting id) request.ids stamped
      apply contracted_of_fails
      exact (fails_with_created each).map _
  | deleteCentroid id ignoreMissing =>
      have fails := delete_centroid_fails stamped ignoreMissing id
      exact contracted_of_fails ((fails.throw_unless_ignored _ _).map _)
  | multiDeleteCentroids request =>
      change Contracted _ _ _ (onArchive stamped (Handlers.multiDeleteCentroids request))
      rw [onArchive, Handlers.multiDeleteCentroids, Program.run_bind]
      have each := Program.answers_of_mapM
        (fun id state => delete_centroid_fails state request.ignoreMissing id) request.ids stamped
      apply contracted_of_fails
      exact (fails_with_respond each).map _
  | addDocumentsToCentroid request epochTimes =>
      change Contracted _ _ _
        (onArchive stamped (Handlers.addDocumentsToCentroid request epochTimes))
      rw [onArchive, Handlers.addDocumentsToCentroid, Program.run_bind]
      have each := Program.answers_of_mapM
        (fun (entry : Bytes × Nat) state =>
          add_document_fails state request entry.1 (epochTimes entry.2))
        request.documentIds.zipIdx stamped
      apply contracted_of_fails
      exact (fails_with_successes each []).map _
  | removeDocumentsFromCentroid request epochTimes =>
      change Contracted _ _ _
        (onArchive stamped (Handlers.removeDocumentsFromCentroid request epochTimes))
      rw [onArchive, Handlers.removeDocumentsFromCentroid, Program.run_bind]
      have each := Program.answers_of_mapM
        (fun (entry : Bytes × Nat) state =>
          remove_document_fails state request entry.1 (epochTimes entry.2))
        request.documentIds.zipIdx stamped
      apply contracted_of_fails
      exact (fails_with_successes each []).map _
  | listAllDocumentsForCentroid centroidId =>
      exact members_contracted (of_centroid_fails _ centroidId _)
  | listCentroidDocumentRange centroidId offset count =>
      exact members_contracted (of_centroid_fails _ centroidId _)
  | listCentroidDocumentRangeFromID centroidId documentId count =>
      exact members_contracted (of_centroid_fails _ centroidId _)
  | debugEraseAllData => exact contracted_of_fails (fails_with_ok _)
  | debugGetFullCentroid centroidId =>
      apply contracted_of_fails
      apply FailsWith.map
      cases stamped.archive.centroid centroidId with
      | none => exact fails_with_error List.mem_cons_self
      | some centroid => exact fails_with_ok centroid
  | debugGetFullProcessedDocument documentId =>
      apply contracted_of_fails
      apply FailsWith.map
      cases stamped.archive.document documentId with
      | none => exact fails_with_error List.mem_cons_self
      | some document => exact fails_with_ok (readBack document)
  | listAllDocuments => exact listing_contracted stamped _ _
  | listUnusedDocuments limit => exact listing_contracted stamped _ _
  | listDocumentRange offset count => exact listing_contracted stamped _ _
  | listDocumentRangeFromID documentId count => exact listing_contracted stamped _ _
  | listAllCentroids => exact listing_contracted stamped _ _
  | listCentroidRange offset count => exact listing_contracted stamped _ _
  | listCentroidRangeFromID centroidId count => exact listing_contracted stamped _ _

/-- In every run of requests on ids without a colon, from the empty store: what is thrown is
declared for the request, or says that a generated id is taken; stored data are always decoded. -/
theorem replies_contracted (processor : DocumentProcessor F) (hash : Bytes → Bytes)
    (documents : ThriftBinary (ProcessedDocumentPersistenceDTO F))
    (centroids : ThriftBinary (CentroidDTO F)) (toInt64 : Bytes → Option Int64)
    (toUint64 : Bytes → Option UInt64) (documentsDecode : documents.Decodes)
    (centroidsDecode : centroids.Decodes) (readsTimes : ReadsTimes toInt64)
    (readsStamps : ReadsStamps toUint64) (requests : List DatabaseRequest)
    (free : ∀ request ∈ requests, request.ColonFree) :
    ∀ entry ∈ (databaseServer processor hash (thriftSerialization documents centroids) toInt64
        toUint64).transcript requests ∅, Contracted processor hash entry.1 entry.2 := by
  intro entry member
  rw [requests_refine_archive processor hash documents centroids toInt64 toUint64 documentsDecode
    centroidsDecode readsTimes readsStamps requests free] at member
  obtain ⟨stamped, given⟩ := Program.answered_in_some_state _ member
  rw [given]
  exact method_contracted entry.1 stamped

end Contract

theorem joined_and_erased_contracted :
    (∀ request ∈ joinedAndErased, request.ColonFree) ∧
      ∀ entry ∈ (databaseServer countingProcessor id
          (thriftSerialization (.wire (wireDocument WireFormat.number))
            (.wire (wireCentroid WireFormat.number))) readInt64 readUInt64).transcript
          joinedAndErased ∅, Contracted countingProcessor id entry.1 entry.2 := by
  have free : ∀ request ∈ joinedAndErased, request.ColonFree := by
    decide
  exact ⟨free, replies_contracted countingProcessor id _ _ readInt64 readUInt64 (wire_decodes _)
    (wire_decodes _) read_int64_of_printed read_uint64_of_printed joinedAndErased free⟩

section Kept

def DatabaseRequest.Spares (documentId : Bytes) : DatabaseRequest → Prop
  | deleteDocument id _ => id ≠ documentId
  | multiDeleteDocuments request => documentId ∉ request.ids
  | debugEraseAllData => False
  | _ => True

instance (documentId : Bytes) (request : DatabaseRequest) :
    Decidable (request.Spares documentId) := by
  cases request with
  | deleteDocument id ignoreMissing => exact inferInstanceAs (Decidable (id ≠ documentId))
  | multiDeleteDocuments request => exact inferInstanceAs (Decidable (documentId ∉ request.ids))
  | debugEraseAllData => exact isFalse id
  | _ => exact isTrue trivial

variable {F : Type}

/-- No saved document is written again but a new one, and this one is not deleted. -/
def CallSpares (documentId : Bytes) : DatabaseCall F → Prop
  | .persistence (.sync (.deleteDocument id)) => id ≠ documentId
  | .persistence (.saveDocument _) => False
  | .persistence (.deleteOldUnusedDocuments _ _ _) => False
  | .persistence .debugEraseAllData => False
  | _ => True

theorem spares_of_makes {documentId : Bytes} {request : DatabaseRequest}
    (spares : request.Spares documentId) {call : DatabaseCall F} (makes : request.Makes call) :
    CallSpares documentId call := by
  cases request with
  | createDocument uuid text language epochTime =>
      obtain ⟨document, _, rfl⟩ := makes
      trivial
  | createDocumentWithID id text language epochTime =>
      obtain ⟨document, _, rfl⟩ := makes
      trivial
  | deleteDocument id ignoreMissing =>
      cases makes
      exact spares
  | multiDeleteDocuments request =>
      obtain ⟨id, isId, rfl⟩ := makes
      intro same
      exact spares (same ▸ isId)
  | multiCreateCentroids request =>
      obtain ⟨id, _, rfl⟩ := makes
      trivial
  | multiDeleteCentroids request =>
      obtain ⟨id, _, rfl⟩ := makes
      trivial
  | addDocumentsToCentroid request epochTimes =>
      rcases makes with ⟨docId, _, rfl⟩ | ⟨time, rfl⟩ <;> trivial
  | removeDocumentsFromCentroid request epochTimes =>
      rcases makes with ⟨docId, _, rfl⟩ | ⟨time, rfl⟩ <;> trivial
  | debugEraseAllData => exact absurd spares id
  | _ =>
      cases makes
      trivial

variable [Zero F] [One F]

def Keeps (documentId : Bytes) (document : ProcessedDocument F) (stamped : StampedArchive F) :
    Prop := stamped.archive.document documentId = some document

theorem keeps_after_sync {documentId : Bytes} {document : ProcessedDocument F}
    {archive : Archive F} (kept : archive.document documentId = some document) {call : SyncCall F}
    (spares : CallSpares documentId (.persistence (.sync call))) :
    (archive.afterSync call).document documentId = some document := by
  cases call with
  | saveNewDocument other =>
      rw [Archive.afterSync]
      split
      · exact kept
      · rename_i absent
        have different : documentId ≠ other.id := by
          intro same
          rw [← same, ← archive.documents, kept] at absent
          exact absent rfl
        exact (Function.update_of_ne different _ _).trans kept
  | deleteDocument id =>
      rw [Archive.afterSync]
      split
      · exact (Function.update_of_ne (Ne.symm spares) _ _).trans kept
      · exact kept
  | createNewCentroid c =>
      rw [Archive.afterSync]
      split <;> exact kept
  | deleteCentroid c =>
      rw [Archive.afterSync]
      split <;> exact kept
  | addDocumentToCentroid c d =>
      rw [Archive.afterSync]
      split
      · split
        · split <;> exact kept
        · exact kept
      · exact kept
  | removeDocumentFromCentroid c d =>
      rw [Archive.afterSync]
      split
      · split <;> exact kept
      · exact kept
  | _ => exact kept

theorem keeps_after_call {documentId : Bytes} {document : ProcessedDocument F}
    (readDocument : ProcessedDocument F → ProcessedDocument F) (call : DatabaseCall F)
    (stamped : StampedArchive F) (spares : CallSpares documentId call)
    (kept : Keeps documentId document stamped) :
    Keeps documentId document (StampedArchive.prescribed readDocument call stamped).2 := by
  cases call with
  | persistence call =>
      cases call with
      | sync call => exact keeps_after_sync kept spares
      | saveDocument other => exact absurd spares id
      | deleteOldUnusedDocuments startTime minAge limit => exact absurd spares id
      | debugEraseAllData => exact absurd spares id
      | _ => exact kept
  | _ => exact kept

variable [NatCast F] [Add F] [Mul F] [Div F] {processor : DocumentProcessor F}
  {hash : Bytes → Bytes} {documentId text left : Bytes} {language : Language} {epochTime : UInt64}
  {document : ProcessedDocument F}

theorem keeps_after_request (request : DatabaseRequest) (stamped : StampedArchive F)
    (spares : request.Spares documentId) (kept : Keeps documentId document stamped) :
    Keeps documentId document (archiveServer processor hash request stamped).2 :=
  ((method_makes processor hash request).mono fun _ => spares_of_makes spares).run_preserves
    (fun call state => keeps_after_call readBack call state) kept

theorem keeps_created
    (processed : processNew processor hash ⟨documentId, text, language⟩ = some (document, left))
    {stamped : StampedArchive F}
    (created : onArchive stamped (Handlers.createDocumentWithID processor hash documentId text
      language) = some (.ok (.id documentId))) :
    Keeps documentId document ((Handlers.createDocumentWithID processor hash documentId text
      language).run (StampedArchive.prescribed readBack) stamped).2 := by
  have sameId : document.id = documentId := by
    obtain ⟨result, isResult, same⟩ := Option.bind_eq_some_iff.mp processed
    cases same
    exact id_of_process isResult
  rw [onArchive] at created
  rw [Handlers.createDocumentWithID, Program.run_bind, Handlers.internalCreateDocumentWithID,
    processed] at created ⊢
  change (stamped.archive.afterSync (.saveNewDocument document)).document documentId = some document
  have answer : some ((((Catalogue.prescribed (.saveNewDocument document)
      stamped.archive.catalogue).1.map fun _ => documentId).map fun _ => Response.id documentId)) =
        some (.ok (.id documentId) : Try (Response F)) := created
  rw [Catalogue.prescribed] at answer
  rw [Archive.afterSync]
  split
  · rename_i existing
    rw [if_pos existing] at answer
    cases answer
  · change Function.update stamped.archive.document document.id (some document) documentId = _
    rw [sameId, Function.update_self]

/-- Once a document has been created, it is answered as it was processed, whatever requests come in
between, unless one of them deletes it or everything. -/
theorem created_document_is_kept (processor : DocumentProcessor F) (hash : Bytes → Bytes)
    (documents : ThriftBinary (ProcessedDocumentPersistenceDTO F))
    (centroids : ThriftBinary (CentroidDTO F)) (toInt64 : Bytes → Option Int64)
    (toUint64 : Bytes → Option UInt64) (documentsDecode : documents.Decodes)
    (centroidsDecode : centroids.Decodes) (readsTimes : ReadsTimes toInt64)
    (readsStamps : ReadsStamps toUint64) (before between : List DatabaseRequest)
    (processed : processNew (Handlers.atTime processor epochTime) hash
      ⟨documentId, text, language⟩ = some (document, left))
    (free : ∀ request ∈
      before ++ .createDocumentWithID documentId text language epochTime :: between,
        request.ColonFree)
    (spared : ∀ request ∈ between, request.Spares documentId) :
    let answers := replies (databaseServer processor hash (thriftSerialization documents centroids)
      toInt64 toUint64) (before ++ .createDocumentWithID documentId text language epochTime ::
        (between ++ [.debugGetFullProcessedDocument documentId])) ∅
    answers[before.length]? = some (some (.ok (.id documentId))) →
      answers.getLast? = some (some (.ok (.document (.ofDocument (readBack document))))) := by
  intro answers created
  have idFree : colon ∉ documentId := by
    apply free (.createDocumentWithID documentId text language epochTime) _ documentId
      List.mem_cons_self
    exact List.mem_append_right before List.mem_cons_self
  have allFree : ∀ request ∈ before ++ .createDocumentWithID documentId text language epochTime ::
      (between ++ [.debugGetFullProcessedDocument documentId]), request.ColonFree := by
    intro request member
    rw [← List.cons_append, ← List.append_assoc] at member
    rcases List.mem_append.mp member with earlier | last
    · exact free request earlier
    · rw [List.mem_singleton.mp last]
      exact List.forall_mem_singleton.mpr idFree
  have onArchives := requests_refine_archive processor hash documents centroids toInt64 toUint64
    documentsDecode centroidsDecode readsTimes readsStamps _ allFree
  let server := archiveServer processor hash
  let found := server.final before .empty
  let creation := server (.createDocumentWithID documentId text language epochTime) found
  let asked := server.final between creation.2
  have parts : answers = replies server before .empty ++ creation.1 ::
      (replies server between creation.2 ++
        [(server (.debugGetFullProcessedDocument documentId) asked).1]) := by
    change List.map _ _ = _
    rw [onArchives]
    change replies server _ _ = _
    rw [replies_append, replies_cons, replies_append]
    rfl
  have kept : Keeps documentId document asked := by
    apply Program.final_preserves server (fun request state => keeps_after_request request state)
      between spared
    refine keeps_created processed (?_ : onArchive found _ = _)
    rw [parts, List.getElem?_append_right (Nat.le_of_eq (length_replies server before .empty)),
      length_replies, Nat.sub_self, List.getElem?_cons_zero] at created
    exact Option.some.inj created
  have loaded : (server (.debugGetFullProcessedDocument documentId) asked).1 =
      some (.ok (.document (.ofDocument (readBack document)))) := by
    have answer : (onArchive asked (Handlers.ask (.loadDocument documentId)) :
        Option (Try (ProcessedDocument F))) = some (.ok (readBack document)) := by
      have held : asked.archive.document documentId = some document := kept
      change (Archive.prescribed readBack (.loadDocument documentId) asked.archive).1 = _
      rw [Archive.prescribed, held]
    change (onArchive asked (Handlers.ask (.loadDocument documentId))).map _ = _
    rw [answer]
    rfl
  rw [parts, loaded, ← List.cons_append, ← List.append_assoc, List.getLast?_concat]

end Kept

/-- The second creation of the document fails. -/
theorem created_dog_is_kept :
    ∃ document left,
      processNew (Handlers.atTime countingProcessor 1754) id ⟨ascii "d", ascii "a dog", .en⟩ =
        some (document, left) ∧
      (replies (databaseServer countingProcessor id
          (thriftSerialization (.wire (wireDocument WireFormat.number))
            (.wire (wireCentroid WireFormat.number))) readInt64 readUInt64)
        [.createCentroid (ascii "c") false,
          .createDocumentWithID (ascii "d") (ascii "a dog") .en 1754,
          .createDocumentWithID (ascii "d") (ascii "a cat") .en 1755,
          .deleteDocument (ascii "e") true, .debugGetFullProcessedDocument
            (ascii "d")] ∅).getLast? =
        some (some (.ok (.document (.ofDocument (readBack document))))) := by
  have isSome : (processNew (Handlers.atTime countingProcessor 1754) id
      ⟨ascii "d", ascii "a dog", .en⟩).isSome := by
    decide +kernel
  obtain ⟨⟨document, left⟩, made⟩ := Option.isSome_iff_exists.mp isSome
  refine ⟨document, left, made, ?_⟩
  apply created_document_is_kept countingProcessor id _ _ readInt64 readUInt64 (wire_decodes _)
    (wire_decodes _) read_int64_of_printed
      read_uint64_of_printed [.createCentroid (ascii "c") false]
    [.createDocumentWithID (ascii "d") (ascii "a cat") .en 1755, .deleteDocument (ascii "e") true]
    made (by decide) (by decide)
  rfl

end Relevanced.Server

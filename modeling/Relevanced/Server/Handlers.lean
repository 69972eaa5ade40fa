import Relevanced.DocumentProcessing.DocumentProcessingWorker
import Relevanced.Persistence.CentroidMetadataDb
import Relevanced.Server.MemberRequests
import Relevanced.Server.MultiDelete

/-!
# Requests on the database

The requests of `ThriftRelevanceServer` that `RelevanceServer` answers from `Persistence` and
`CentroidMetadataDb`, each a program of calls of these two that are worked off in order.
The calls of `triggerUpdate` are left to the update worker. The parts of a request for many ids
run one after another in their order, which is one of the orders in which the pool may take them:
the code submits them all before it collects. A reply is an answer, an exception of the service,
or an exception the service does not know.
-/

namespace Relevanced.Server

open DocumentProcessing
open Foundation
open Models
open Persistence
open Serialization

set_option autoImplicit false

structure MultiCreateCentroidsRequest where
  ids : List Bytes
  ignoreExisting : Bool
  deriving DecidableEq

/-- `int64_t` parameters are assigned to `size_t`. -/
def toSizeT (number : Int64) : Nat := number.toUInt64.toNat

/-- `ProcessedDocumentDTO`. -/
structure ProcessedDocumentDTO (F : Type) where
  id : Bytes
  sha1Hash : Bytes
  created : Int64
  updated : Int64
  scores : OrderedMap Bytes F
  magnitude : F

def ProcessedDocumentDTO.ofDocument {F : Type} (document : ProcessedDocument F) :
    ProcessedDocumentDTO F where
  id := document.id
  sha1Hash := document.sha1Hash.getD []
  created := document.created.toInt64
  updated := document.updated.toInt64
  scores := document.scoredWords.foldl (fun scores elem => scores.insert elem.key elem.score) ∅
  magnitude := document.magnitude

inductive Response (F : Type) where
  /-- `CreateDocumentResponse`, `DeleteDocumentResponse`, `DeleteCentroidResponse` and
  `CreateCentroidResponse`. -/
  | id (id : Bytes)
  /-- The responses with lists of ids. -/
  | ids (ids : List Bytes)
  | members (centroidId : Bytes) (documentIds : List Bytes) (changed : List Bool)
  | centroid (centroid : CentroidDTO F)
  | document (document : ProcessedDocumentDTO F)
  | void

/-- `none` stands for an exception that the service does not know. -/
abbrev Reply (F : Type) := Option (Try (Response F))

/-- With the id that `util::getUuid` gives, and the times that the clock shows at each step. -/
inductive DatabaseRequest where
  | createDocument (uuid text : Bytes) (language : Language) (epochTime : UInt64)
  | createDocumentWithID (id text : Bytes) (language : Language) (epochTime : UInt64)
  | deleteDocument (id : Bytes) (ignoreMissing : Bool)
  | multiDeleteDocuments (request : MultiDeleteRequest)
  | listAllDocuments
  | listUnusedDocuments (limit : Int64)
  | listDocumentRange (offset count : Int64)
  | listDocumentRangeFromID (documentId : Bytes) (count : Int64)
  | createCentroid (id : Bytes) (ignoreExisting : Bool)
  | multiCreateCentroids (request : MultiCreateCentroidsRequest)
  | deleteCentroid (id : Bytes) (ignoreMissing : Bool)
  | multiDeleteCentroids (request : MultiDeleteRequest)
  | addDocumentsToCentroid (request : AddDocumentsToCentroidRequest) (epochTimes : Nat → UInt64)
  | removeDocumentsFromCentroid (request : RemoveDocumentsFromCentroidRequest)
      (epochTimes : Nat → UInt64)
  | listAllCentroids
  | listCentroidRange (offset count : Int64)
  | listCentroidRangeFromID (centroidId : Bytes) (count : Int64)
  | listAllDocumentsForCentroid (centroidId : Bytes)
  | listCentroidDocumentRange (centroidId : Bytes) (offset count : Int64)
  | listCentroidDocumentRangeFromID (centroidId documentId : Bytes) (count : Int64)
  | debugEraseAllData
  | debugGetFullCentroid (centroidId : Bytes)
  | debugGetFullProcessedDocument (documentId : Bytes)

abbrev RequestIf (F : Type) : Interface where
  Call := DatabaseRequest
  Answer _ := Reply F

namespace Handlers

variable {F : Type}

abbrev DatabaseProgram (F α : Type) := Program (DatabaseIf F) α

def ask (call : PublicCall F) : DatabaseProgram F call.Answer :=
  @Program.perform (DatabaseIf F) (.persistence call)

section Documents

/-- The processor when its clock shows the time. -/
abbrev atTime (processor : DocumentProcessor F) (epochTime : UInt64) : DocumentProcessor F :=
  { processor with getEpochTime := epochTime }

def internalCreateDocumentWithID [Zero F] [One F] [NatCast F] [Add F] [Mul F] [Div F]
    (processor : DocumentProcessor F) (hash : Bytes → Bytes) (id text : Bytes)
    (language : Language) : DatabaseProgram F (Option (Try Bytes)) :=
  match processNew processor hash ⟨id, text, language⟩ with
  | none => pure none
  | some (processed, _) => do
      let result ← ask (.sync (.saveNewDocument processed))
      pure (some (result.map fun _ => id))

def createDocument [Zero F] [One F] [NatCast F] [Add F] [Mul F] [Div F]
    (processor : DocumentProcessor F) (hash : Bytes → Bytes) (uuid text : Bytes)
    (language : Language) : DatabaseProgram F (Reply F) := do
  let result ← internalCreateDocumentWithID processor hash uuid text language
  pure (result.map fun created => created.map .id)

/-- The response has the id of the request. -/
def createDocumentWithID [Zero F] [One F] [NatCast F] [Add F] [Mul F] [Div F]
    (processor : DocumentProcessor F) (hash : Bytes → Bytes) (id text : Bytes)
    (language : Language) : DatabaseProgram F (Reply F) := do
  let result ← internalCreateDocumentWithID processor hash id text language
  pure (result.map fun created => created.map fun _ => .id id)

def deleteDocumentOf (ignoreMissing : Bool) (id : Bytes) : DatabaseProgram F (Try Bool) := do
  let result ← ask (.sync (.deleteDocument id))
  pure (RelevanceServer.unlessIgnored .eDocumentDoesNotExist ignoreMissing result)

def deleteDocument (id : Bytes) (ignoreMissing : Bool) : DatabaseProgram F (Reply F) := do
  let result ← deleteDocumentOf ignoreMissing id
  pure (some (result.map fun _ => .id id))

def multiDeleteDocuments (request : MultiDeleteRequest) : DatabaseProgram F (Reply F) := do
  let result ← request.ids.mapM (deleteDocumentOf request.ignoreMissing)
  pure (some ((ThriftRelevanceServer.respond .eDocumentDoesNotExist request result).map
    fun response => .ids response.ids))

def debugGetFullProcessedDocument (documentId : Bytes) : DatabaseProgram F (Reply F) := do
  let result ← ask (.loadDocument documentId)
  pure (result.map fun loaded => loaded.map fun document => .document (.ofDocument document))

end Documents

section Centroids

/-- `createNewCentroid` and its continuation. -/
def createCentroidOf (ignoreExisting : Bool) (centroidId : Bytes) :
    DatabaseProgram F (Try Bool) := do
  let response ← ask (.sync (.createNewCentroid centroidId))
  pure (RelevanceServer.unlessIgnored .eCentroidAlreadyExists ignoreExisting response)

/-- An id that was there already is left out of the response. -/
def createCentroid (id : Bytes) (ignoreExisting : Bool) : DatabaseProgram F (Reply F) := do
  let result ← createCentroidOf ignoreExisting id
  pure (some (result.map fun created => .id (if created then id else [])))

/-- The loop over the results. -/
def createdIds (ids : List Bytes) (result : List (Try Bool)) : Try (List Bytes) :=
  (result.zip ids).foldlM (fun created entry => do
    if ← entry.1 then pure (created ++ [entry.2]) else pure created) []

def multiCreateCentroids (request : MultiCreateCentroidsRequest) :
    DatabaseProgram F (Reply F) := do
  let result ← request.ids.mapM (createCentroidOf request.ignoreExisting)
  pure (some ((createdIds request.ids result).map .ids))

def deleteCentroidOf (ignoreMissing : Bool) (id : Bytes) : DatabaseProgram F (Try Bool) := do
  let result ← ask (.sync (.deleteCentroid id))
  pure (RelevanceServer.unlessIgnored .eCentroidDoesNotExist ignoreMissing result)

def deleteCentroid (id : Bytes) (ignoreMissing : Bool) : DatabaseProgram F (Reply F) := do
  let result ← deleteCentroidOf ignoreMissing id
  pure (some ((ThriftRelevanceServer.throwUnlessIgnored .eCentroidDoesNotExist ignoreMissing
    result).map fun _ => .id id))

def multiDeleteCentroids (request : MultiDeleteRequest) : DatabaseProgram F (Reply F) := do
  let result ← request.ids.mapM (deleteCentroidOf request.ignoreMissing)
  pure (some ((ThriftRelevanceServer.respond .eCentroidDoesNotExist request result).map
    fun response => .ids response.ids))

def debugGetFullCentroid (centroidId : Bytes) : DatabaseProgram F (Reply F) := do
  let result ← ask (.loadCentroid centroidId)
  pure (result.map fun loaded => loaded.map fun centroid => .centroid (.ofCentroid centroid))

end Centroids

section Members

/-- A step of either kind of request, with the stamp that follows a change. -/
def changeOneDocument (change : PublicCall F) (result : change.Answer → Try Bool)
    (unchanged : ProtocolException) (centroidId : Bytes) (ignoreMissingDoc ignoreUnchanged : Bool)
    (epochTime : UInt64) : DatabaseProgram F (Try Bool) := do
  let result := result (← ask change)
  match result with
  | .ok _ =>
      let _ ← @Program.perform (DatabaseIf F)
        (.setTimestamp .lastDocumentChange centroidId epochTime)
  | .error _ => pure ()
  if ignoreMissingDoc ∧ result = .error .eDocumentDoesNotExist then pure (.ok false)
  else if ignoreUnchanged ∧ result = .error unchanged then pure (.ok false)
  else pure result

def addOneDocumentToCentroid (request : AddDocumentsToCentroidRequest) (docId : Bytes)
    (epochTime : UInt64) : DatabaseProgram F (Try Bool) :=
  changeOneDocument (.sync (.addDocumentToCentroid request.centroidId docId)) id
    .eDocumentAlreadyInCentroid request.centroidId request.ignoreMissingDocument
    request.ignoreAlreadyInCentroid epochTime

def removeOneDocumentFromCentroid (request : RemoveDocumentsFromCentroidRequest) (docId : Bytes)
    (epochTime : UInt64) : DatabaseProgram F (Try Bool) :=
  changeOneDocument (.sync (.removeDocumentFromCentroid request.centroidId docId)) id
    .eDocumentNotInCentroid request.centroidId request.ignoreMissingDocument
    request.ignoreNotInCentroid epochTime

def addDocumentsToCentroid (request : AddDocumentsToCentroidRequest)
    (epochTimes : Nat → UInt64) : DatabaseProgram F (Reply F) := do
  let results ← request.documentIds.zipIdx.mapM fun entry =>
    addOneDocumentToCentroid request entry.1 (epochTimes entry.2)
  pure (some ((RelevanceServer.collectSuccesses results []).map
    (.members request.centroidId request.documentIds)))

def removeDocumentsFromCentroid (request : RemoveDocumentsFromCentroidRequest)
    (epochTimes : Nat → UInt64) : DatabaseProgram F (Reply F) := do
  let results ← request.documentIds.zipIdx.mapM fun entry =>
    removeOneDocumentFromCentroid request entry.1 (epochTimes entry.2)
  pure (some ((RelevanceServer.collectSuccesses results []).map
    (.members request.centroidId request.documentIds)))

end Members

section Listings

def listIds (call : PublicCall F) (result : call.Answer → List Bytes) :
    DatabaseProgram F (Reply F) := do
  let listed ← ask call
  pure (some (.ok (.ids (result listed))))

def listMembers (call : PublicCall F) (result : call.Answer → Try (List Bytes)) :
    DatabaseProgram F (Reply F) := do
  let listed ← ask call
  pure (some ((result listed).map .ids))

def listAllDocuments : DatabaseProgram F (Reply F) := listIds (.sync .listAllDocuments) id

def listUnusedDocuments (limit : Int64) : DatabaseProgram F (Reply F) :=
  listIds (.listUnusedDocuments (toSizeT limit)) id

def listDocumentRange (offset count : Int64) : DatabaseProgram F (Reply F) :=
  listIds (.sync (.listDocumentRangeFromOffset (toSizeT offset) (toSizeT count))) id

def listDocumentRangeFromID (documentId : Bytes) (count : Int64) : DatabaseProgram F (Reply F) :=
  listIds (.sync (.listDocumentRangeFromId documentId (toSizeT count))) id

def listAllCentroids : DatabaseProgram F (Reply F) := listIds (.sync .listAllCentroids) id

def listCentroidRange (offset count : Int64) : DatabaseProgram F (Reply F) :=
  listIds (.sync (.listCentroidRangeFromOffset (toSizeT offset) (toSizeT count))) id

def listCentroidRangeFromID (centroidId : Bytes) (count : Int64) : DatabaseProgram F (Reply F) :=
  listIds (.sync (.listCentroidRangeFromId centroidId (toSizeT count))) id

def listAllDocumentsForCentroid (centroidId : Bytes) : DatabaseProgram F (Reply F) :=
  listMembers (.sync (.listAllDocumentsForCentroid centroidId)) id

def listCentroidDocumentRange (centroidId : Bytes) (offset count : Int64) :
    DatabaseProgram F (Reply F) :=
  listMembers (.sync (.listCentroidDocumentRangeFromOffset centroidId (toSizeT offset)
    (toSizeT count))) id

def listCentroidDocumentRangeFromID (centroidId documentId : Bytes) (count : Int64) :
    DatabaseProgram F (Reply F) :=
  listMembers (.sync (.listCentroidDocumentRangeFromDocumentId centroidId documentId
    (toSizeT count))) id

def debugEraseAllData : DatabaseProgram F (Reply F) := do
  let _ ← ask .debugEraseAllData
  pure (some (.ok .void))

end Listings

end Handlers

namespace DatabaseRequest

def idsOf : DatabaseRequest → List Bytes
  | createDocument uuid _ _ _ => [uuid]
  | createDocumentWithID id _ _ _ => [id]
  | deleteDocument id _ => [id]
  | multiDeleteDocuments request => request.ids
  | listDocumentRangeFromID documentId _ => [documentId]
  | createCentroid id _ => [id]
  | multiCreateCentroids request => request.ids
  | deleteCentroid id _ => [id]
  | multiDeleteCentroids request => request.ids
  | addDocumentsToCentroid request _ => request.centroidId :: request.documentIds
  | removeDocumentsFromCentroid request _ => request.centroidId :: request.documentIds
  | listCentroidRangeFromID centroidId _ => [centroidId]
  | listAllDocumentsForCentroid centroidId => [centroidId]
  | listCentroidDocumentRange centroidId _ _ => [centroidId]
  | listCentroidDocumentRangeFromID centroidId documentId _ => [centroidId, documentId]
  | debugGetFullCentroid centroidId => [centroidId]
  | debugGetFullProcessedDocument documentId => [documentId]
  | _ => []

def ColonFree (request : DatabaseRequest) : Prop := ∀ id ∈ request.idsOf, colon ∉ id

instance (request : DatabaseRequest) : Decidable request.ColonFree :=
  inferInstanceAs (Decidable (∀ id ∈ request.idsOf, colon ∉ id))

variable {F : Type} [Zero F] [One F] [NatCast F] [Add F] [Mul F] [Div F]

/-- The handler of each request. -/
def method (processor : DocumentProcessor F) (hash : Bytes → Bytes) :
    DatabaseRequest → Program (DatabaseIf F) (Reply F)
  | createDocument uuid text language epochTime =>
      Handlers.createDocument (Handlers.atTime processor epochTime) hash uuid text language
  | createDocumentWithID id text language epochTime =>
      Handlers.createDocumentWithID (Handlers.atTime processor epochTime) hash id text language
  | deleteDocument id ignoreMissing => Handlers.deleteDocument id ignoreMissing
  | multiDeleteDocuments request => Handlers.multiDeleteDocuments request
  | listAllDocuments => Handlers.listAllDocuments
  | listUnusedDocuments limit => Handlers.listUnusedDocuments limit
  | listDocumentRange offset count => Handlers.listDocumentRange offset count
  | listDocumentRangeFromID documentId count => Handlers.listDocumentRangeFromID documentId count
  | createCentroid id ignoreExisting => Handlers.createCentroid id ignoreExisting
  | multiCreateCentroids request => Handlers.multiCreateCentroids request
  | deleteCentroid id ignoreMissing => Handlers.deleteCentroid id ignoreMissing
  | multiDeleteCentroids request => Handlers.multiDeleteCentroids request
  | addDocumentsToCentroid request epochTimes =>
      Handlers.addDocumentsToCentroid request epochTimes
  | removeDocumentsFromCentroid request epochTimes =>
      Handlers.removeDocumentsFromCentroid request epochTimes
  | listAllCentroids => Handlers.listAllCentroids
  | listCentroidRange offset count => Handlers.listCentroidRange offset count
  | listCentroidRangeFromID centroidId count => Handlers.listCentroidRangeFromID centroidId count
  | listAllDocumentsForCentroid centroidId => Handlers.listAllDocumentsForCentroid centroidId
  | listCentroidDocumentRange centroidId offset count =>
      Handlers.listCentroidDocumentRange centroidId offset count
  | listCentroidDocumentRangeFromID centroidId documentId count =>
      Handlers.listCentroidDocumentRangeFromID centroidId documentId count
  | debugEraseAllData => Handlers.debugEraseAllData
  | debugGetFullCentroid centroidId => Handlers.debugGetFullCentroid centroidId
  | debugGetFullProcessedDocument documentId => Handlers.debugGetFullProcessedDocument documentId

end DatabaseRequest

section Calls

open DatabaseRequest
open Handlers
open Program (calls_bind calls_perform calls_pure)

variable {F : Type}

/-- The calls that a request may make. -/
def DatabaseRequest.Makes : DatabaseRequest → DatabaseCall F → Prop
  | createDocument uuid _ _ _, call =>
      ∃ document, document.id = uuid ∧ call = .persistence (.sync (.saveNewDocument document))
  | createDocumentWithID id _ _ _, call =>
      ∃ document, document.id = id ∧ call = .persistence (.sync (.saveNewDocument document))
  | deleteDocument id _, call => call = .persistence (.sync (.deleteDocument id))
  | multiDeleteDocuments request, call =>
      ∃ id ∈ request.ids, call = .persistence (.sync (.deleteDocument id))
  | listAllDocuments, call => call = .persistence (.sync .listAllDocuments)
  | listUnusedDocuments limit, call => call = .persistence (.listUnusedDocuments (toSizeT limit))
  | listDocumentRange offset count, call =>
      call = .persistence (.sync (.listDocumentRangeFromOffset (toSizeT offset) (toSizeT count)))
  | listDocumentRangeFromID documentId count, call =>
      call = .persistence (.sync (.listDocumentRangeFromId documentId (toSizeT count)))
  | createCentroid id _, call => call = .persistence (.sync (.createNewCentroid id))
  | multiCreateCentroids request, call =>
      ∃ id ∈ request.ids, call = .persistence (.sync (.createNewCentroid id))
  | deleteCentroid id _, call => call = .persistence (.sync (.deleteCentroid id))
  | multiDeleteCentroids request, call =>
      ∃ id ∈ request.ids, call = .persistence (.sync (.deleteCentroid id))
  | addDocumentsToCentroid request _, call =>
      (∃ docId ∈ request.documentIds,
        call = .persistence (.sync (.addDocumentToCentroid request.centroidId docId))) ∨
      ∃ time, call = .setTimestamp .lastDocumentChange request.centroidId time
  | removeDocumentsFromCentroid request _, call =>
      (∃ docId ∈ request.documentIds,
        call = .persistence (.sync (.removeDocumentFromCentroid request.centroidId docId))) ∨
      ∃ time, call = .setTimestamp .lastDocumentChange request.centroidId time
  | listAllCentroids, call => call = .persistence (.sync .listAllCentroids)
  | listCentroidRange offset count, call =>
      call = .persistence (.sync (.listCentroidRangeFromOffset (toSizeT offset) (toSizeT count)))
  | listCentroidRangeFromID centroidId count, call =>
      call = .persistence (.sync (.listCentroidRangeFromId centroidId (toSizeT count)))
  | listAllDocumentsForCentroid centroidId, call =>
      call = .persistence (.sync (.listAllDocumentsForCentroid centroidId))
  | listCentroidDocumentRange centroidId offset count, call =>
      call = .persistence (.sync (.listCentroidDocumentRangeFromOffset centroidId (toSizeT offset)
        (toSizeT count)))
  | listCentroidDocumentRangeFromID centroidId documentId count, call =>
      call = .persistence (.sync (.listCentroidDocumentRangeFromDocumentId centroidId documentId
        (toSizeT count)))
  | debugEraseAllData, call => call = .persistence .debugEraseAllData
  | debugGetFullCentroid centroidId, call => call = .persistence (.loadCentroid centroidId)
  | debugGetFullProcessedDocument documentId, call => call = .persistence (.loadDocument documentId)

section Parts

variable {Allowed : DatabaseCall F → Prop}

theorem calls_ask {call : PublicCall F} (allowed : Allowed (.persistence call)) :
    (ask call).Calls Allowed := calls_perform allowed

theorem calls_mapM {α β : Type} {step : α → DatabaseProgram F β} {items : List α}
    (each : ∀ item ∈ items, (step item).Calls Allowed) : (items.mapM step).Calls Allowed := by
  induction items with
  | nil => exact calls_pure _
  | cons item items ih =>
      rw [List.mapM_cons]
      refine calls_bind (each item List.mem_cons_self) fun _ => ?_
      refine calls_bind (ih fun later member => each later (List.mem_cons_of_mem item member)) ?_
      exact fun _ => calls_pure _

theorem calls_list_ids {call : PublicCall F} (result : call.Answer → List Bytes)
    (allowed : Allowed (.persistence call)) : (listIds call result).Calls Allowed :=
  calls_bind (calls_ask allowed) fun _ => calls_pure _

theorem calls_list_members {call : PublicCall F} (result : call.Answer → Try (List Bytes))
    (allowed : Allowed (.persistence call)) : (listMembers call result).Calls Allowed :=
  calls_bind (calls_ask allowed) fun _ => calls_pure _

theorem calls_change {change : PublicCall F} {result : change.Answer → Try Bool}
    {unchanged : ProtocolException} {centroidId : Bytes} {ignoreMissingDoc ignoreUnchanged : Bool}
    {epochTime : UInt64} (allowed : Allowed (.persistence change))
    (stamps : Allowed (.setTimestamp .lastDocumentChange centroidId epochTime)) :
    (changeOneDocument change result unchanged centroidId ignoreMissingDoc ignoreUnchanged
      epochTime).Calls Allowed := by
  refine calls_bind (calls_ask allowed) fun answer => ?_
  have rest : (if ignoreMissingDoc ∧ result answer = .error .eDocumentDoesNotExist then
      pure (.ok false)
    else if ignoreUnchanged ∧ result answer = .error unchanged then pure (.ok false)
    else pure (result answer) : DatabaseProgram F (Try Bool)).Calls Allowed := by
    split
    · exact calls_pure _
    · split <;> exact calls_pure _
  cases answered : result answer with
  | ok value =>
      rw [answered] at rest
      exact calls_bind (calls_perform stamps) fun _ => rest
  | error exception =>
      rw [answered] at rest
      exact rest

end Parts

variable [Zero F] [One F] [NatCast F] [Add F] [Mul F] [Div F]

theorem calls_create {Allowed : DatabaseCall F → Prop} (processor : DocumentProcessor F)
    (hash : Bytes → Bytes) {id : Bytes} (text : Bytes) (language : Language)
    (allowed : ∀ document, document.id = id →
      Allowed (.persistence (.sync (.saveNewDocument document)))) :
    (internalCreateDocumentWithID processor hash id text language).Calls Allowed := by
  rw [internalCreateDocumentWithID]
  split
  · exact calls_pure _
  · rename_i processed left made
    refine calls_bind (calls_ask (allowed processed ?_)) fun _ => calls_pure _
    obtain ⟨result, isResult, same⟩ := Option.bind_eq_some_iff.mp made
    cases same
    exact id_of_process isResult

theorem method_makes (processor : DocumentProcessor F) (hash : Bytes → Bytes)
    (request : DatabaseRequest) : (request.method processor hash).Calls request.Makes := by
  cases request with
  | createDocument uuid text language epochTime =>
      exact calls_bind (calls_create _ hash text language
        fun document same => ⟨document, same, rfl⟩) fun _ => calls_pure _
  | createDocumentWithID id text language epochTime =>
      exact calls_bind (calls_create _ hash text language
        fun document same => ⟨document, same, rfl⟩) fun _ => calls_pure _
  | deleteDocument id ignoreMissing =>
      exact calls_bind (calls_bind (calls_ask rfl) fun _ => calls_pure _) fun _ => calls_pure _
  | multiDeleteDocuments request =>
      refine calls_bind (calls_mapM fun id member => ?_) fun _ => calls_pure _
      exact calls_bind (calls_ask ⟨id, member, rfl⟩) fun _ => calls_pure _
  | createCentroid id ignoreExisting =>
      exact calls_bind (calls_bind (calls_ask rfl) fun _ => calls_pure _) fun _ => calls_pure _
  | multiCreateCentroids request =>
      refine calls_bind (calls_mapM fun id member => ?_) fun _ => calls_pure _
      exact calls_bind (calls_ask ⟨id, member, rfl⟩) fun _ => calls_pure _
  | deleteCentroid id ignoreMissing =>
      exact calls_bind (calls_bind (calls_ask rfl) fun _ => calls_pure _) fun _ => calls_pure _
  | multiDeleteCentroids request =>
      refine calls_bind (calls_mapM fun id member => ?_) fun _ => calls_pure _
      exact calls_bind (calls_ask ⟨id, member, rfl⟩) fun _ => calls_pure _
  | addDocumentsToCentroid request epochTimes =>
      refine calls_bind (calls_mapM fun entry member => ?_) fun _ => calls_pure _
      have isDocument := List.fst_mem_of_mem_zipIdx member
      exact calls_change (Or.inl ⟨entry.1, isDocument, rfl⟩) (Or.inr ⟨_, rfl⟩)
  | removeDocumentsFromCentroid request epochTimes =>
      refine calls_bind (calls_mapM fun entry member => ?_) fun _ => calls_pure _
      have isDocument := List.fst_mem_of_mem_zipIdx member
      exact calls_change (Or.inl ⟨entry.1, isDocument, rfl⟩) (Or.inr ⟨_, rfl⟩)
  | listAllDocuments => exact calls_list_ids id rfl
  | listUnusedDocuments limit => exact calls_list_ids id rfl
  | listDocumentRange offset count => exact calls_list_ids id rfl
  | listDocumentRangeFromID documentId count => exact calls_list_ids id rfl
  | listAllCentroids => exact calls_list_ids id rfl
  | listCentroidRange offset count => exact calls_list_ids id rfl
  | listCentroidRangeFromID centroidId count => exact calls_list_ids id rfl
  | listAllDocumentsForCentroid centroidId => exact calls_list_members id rfl
  | listCentroidDocumentRange centroidId offset count => exact calls_list_members id rfl
  | listCentroidDocumentRangeFromID centroidId documentId count =>
      exact calls_list_members id rfl
  | debugEraseAllData => exact calls_bind (calls_ask rfl) fun _ => calls_pure _
  | debugGetFullCentroid centroidId => exact calls_bind (calls_ask rfl) fun _ => calls_pure _
  | debugGetFullProcessedDocument documentId =>
      exact calls_bind (calls_ask rfl) fun _ => calls_pure _

omit [Zero F] [One F] [NatCast F] [Add F] [Mul F] [Div F] in
/-- A request on ids without a colon makes only calls that `CentroidMetadataDb` refines. -/
theorem proper_of_makes {request : DatabaseRequest} (free : request.ColonFree)
    {call : DatabaseCall F} (makes : request.Makes call) : call.Proper := by
  have sync {call : SyncCall F} (within : ∀ id ∈ call.ids, id ∈ request.idsOf) :
      (DatabaseCall.persistence (.sync call)).Proper :=
    ⟨fun id member => free id (within id member), rfl⟩
  cases request with
  | createDocument uuid text language epochTime =>
      obtain ⟨document, rfl, rfl⟩ := makes
      exact sync fun _ member => member
  | createDocumentWithID id text language epochTime =>
      obtain ⟨document, rfl, rfl⟩ := makes
      exact sync fun _ member => member
  | multiDeleteDocuments request =>
      obtain ⟨id, isId, rfl⟩ := makes
      exact sync (List.forall_mem_singleton.mpr isId)
  | multiCreateCentroids request =>
      obtain ⟨id, isId, rfl⟩ := makes
      exact sync (List.forall_mem_singleton.mpr isId)
  | multiDeleteCentroids request =>
      obtain ⟨id, isId, rfl⟩ := makes
      exact sync (List.forall_mem_singleton.mpr isId)
  | addDocumentsToCentroid request epochTimes =>
      rcases makes with ⟨docId, isDocument, rfl⟩ | ⟨time, rfl⟩
      · apply sync
        simp [SyncCall.ids, idsOf, isDocument]
      · exact free request.centroidId List.mem_cons_self
  | removeDocumentsFromCentroid request epochTimes =>
      rcases makes with ⟨docId, isDocument, rfl⟩ | ⟨time, rfl⟩
      · apply sync
        simp [SyncCall.ids, idsOf, isDocument]
      · exact free request.centroidId List.mem_cons_self
  | _ =>
      cases makes
      exact ⟨free, rfl⟩

theorem method_asks_proper (processor : DocumentProcessor F) (hash : Bytes → Bytes)
    (request : DatabaseRequest) (free : request.ColonFree) :
    (request.method processor hash).Calls DatabaseCall.Proper :=
  (method_makes processor hash request).mono fun _ => proper_of_makes free

end Calls

def replies {F σ : Type} (server : Program.Handler (RequestIf F) σ)
    (requests : List DatabaseRequest) (state : σ) : List (Reply F) :=
  (server.transcript requests state).map fun entry => entry.2

section Replies

variable {F σ : Type} (server : Program.Handler (RequestIf F) σ)

theorem replies_cons (request : DatabaseRequest) (rest : List DatabaseRequest) (state : σ) :
    replies server (request :: rest) state =
      (server request state).1 :: replies server rest (server request state).2 := rfl

theorem replies_append (first second : List DatabaseRequest) (state : σ) :
    replies server (first ++ second) state =
      replies server first state ++ replies server second (server.final first state) := by
  rw [replies, Program.transcript_append, List.map_append]
  rfl

theorem length_replies (requests : List DatabaseRequest) (state : σ) :
    (replies server requests state).length = requests.length := by
  rw [replies, List.length_map, Program.length_transcript]

end Replies

section Refinement

variable {F : Type} [Zero F] [One F] [NatCast F] [Add F] [Mul F] [Div F]

/-- The request handlers on a store. -/
def databaseServer (processor : DocumentProcessor F) (hash : Bytes → Bytes)
    (serialization : Serialization F) (toInt64 : Bytes → Option Int64)
    (toUint64 : Bytes → Option UInt64) : Program.Handler (RequestIf F) Store :=
  ((publicPersistence serialization toInt64).layered (J := DatabaseIf F)
    (DatabaseCall.method toUint64)).layered (DatabaseRequest.method processor hash)

/-- The request handlers on an archive with stamps. -/
def archiveServer (processor : DocumentProcessor F) (hash : Bytes → Bytes) :
    Program.Handler (RequestIf F) (StampedArchive F) :=
  (StampedArchive.prescribed readBack).layered (DatabaseRequest.method processor hash)

/-- Any sequence of requests is answered on the empty store as on the empty archive. -/
theorem requests_refine_archive (processor : DocumentProcessor F) (hash : Bytes → Bytes)
    (documents : ThriftBinary (ProcessedDocumentPersistenceDTO F))
    (centroids : ThriftBinary (CentroidDTO F)) (toInt64 : Bytes → Option Int64)
    (toUint64 : Bytes → Option UInt64) (documentsDecode : documents.Decodes)
    (centroidsDecode : centroids.Decodes) (readsTimes : ReadsTimes toInt64)
    (readsStamps : ReadsStamps toUint64) (requests : List DatabaseRequest)
    (free : ∀ request ∈ requests, request.ColonFree) :
    (databaseServer processor hash (thriftSerialization documents centroids) toInt64
        toUint64).transcript requests ∅ =
      (archiveServer processor hash).transcript requests .empty := by
  have simulates := (database_simulates (thrift_reads_back documentsDecode centroidsDecode)
    readsTimes readsStamps).layered (J := RequestIf F) (method_asks_proper processor hash)
  exact simulates.transcript requests free ⟨.empty, archived_empty, rfl, fun _ _ => rfl⟩

def countingProcessor : DocumentProcessor Nat where
  utf8 := Utf8.library
  search := plainProcessor.search
  getStemmer _ token := token.length
  sqrt := Nat.sqrt
  getEpochTime := 0

/-- A document is deleted while it is listed in a centroid. -/
def joinedAndErased : List DatabaseRequest :=
  [.createDocumentWithID (ascii "d") (ascii "a dog") .en 1754, .createCentroid (ascii "c") false,
    .addDocumentsToCentroid ⟨ascii "c", [ascii "d", ascii "e"], true, false, false⟩ fun _ => 1755,
    .listAllDocumentsForCentroid (ascii "c"), .deleteDocument (ascii "d") false,
    .debugGetFullProcessedDocument (ascii "d"), .debugEraseAllData]

theorem joined_and_erased_refines :
    (databaseServer countingProcessor id
        (thriftSerialization (.wire (wireDocument WireFormat.number))
          (.wire (wireCentroid WireFormat.number))) readInt64 readUInt64).transcript
        joinedAndErased ∅ =
      (archiveServer countingProcessor id).transcript joinedAndErased .empty :=
  requests_refine_archive countingProcessor id _ _ readInt64 readUInt64 (wire_decodes _)
    (wire_decodes _) read_int64_of_printed read_uint64_of_printed joinedAndErased (by decide)

end Refinement

end Relevanced.Server

import Relevanced.SimilarityScoreWorker.Answers
import Relevanced.Util.MapRuns

/-!
# The pool of the score worker

A request for the similarity to many centroids is a task of the thread pool for each of them.
The tasks are taken up in any order and read the concurrent map, access by access, while
centroids are loaded into it. They have a raw pointer to the document, which goes when the
continuation that has submitted them returns. The scores are collected when the last task is done.
-/

namespace Relevanced.SimilarityScoreWorker

open Foundation
open Models
open Persistence (Try ProtocolException)
open SequentialObject
open Util

set_option autoImplicit false

/-- What has become of a task: it has made a call of `getOption`, and it has a score or has read a
document that was gone. -/
inductive TaskStage (F : Type) where
  | submitted
  | reading (call : Nat)
  | scored (call : Nat) (result : Try F)
  | dangling (call : Nat)

structure ScoreTask (F : Type) where
  centroidId : Bytes
  stage : TaskStage F

structure MultiRequest (F : Type) where
  doc : ProcessedDocument F
  /-- The continuation still has the `shared_ptr`. -/
  alive : Bool
  requested : Nat
  tasks : List (ScoreTask F)

/-- The map of the score worker and the requests to it. -/
structure ScorePool (skipList : SkipList Bytes) (F : Type) where
  centroids : ConcurrentMap skipList (Centroid F)
  requests : List (MultiRequest F)

/-- The score worker never erases a centroid. -/
inductive PoolAction (F : Type) where
  | insertOrUpdate (centroidId : Bytes) (centroid : Centroid F)
  | multiGetDocumentSimilarity (centroidIds : List Bytes) (doc : ProcessedDocument F)
  | continuationReturns (request : Nat)
  | takeUp (request task : Nat)
  | score (request task : Nat)
  | advance (call : Nat)
  | use (action : PointerAction)
  | recycle (call item : Nat)

namespace ScorePool

variable {skipList : SkipList Bytes} {F : Type}

def initial : ScorePool skipList F where
  centroids := .initial
  requests := []

/-- The tasks that `internalMultiGetDocumentSimilarity` gives to the pool. -/
def multiGetDocumentSimilarity (pool : ScorePool skipList F) (centroidIds : List Bytes)
    (doc : ProcessedDocument F) : ScorePool skipList F :=
  let request : MultiRequest F :=
    { doc := doc
      alive := true
      requested := pool.centroids.now
      tasks := centroidIds.map fun centroidId => ⟨centroidId, .submitted⟩ }
  { pool with requests := pool.requests ++ [request] }

/-- The last `shared_ptr` to the document goes. -/
def continuationReturns (pool : ScorePool skipList F) (index : Nat) :
    Option (ScorePool skipList F) :=
  pool.requests[index]?.map fun request =>
    { pool with requests := pool.requests.set index { request with alive := false } }

def setStage (pool : ScorePool skipList F) (index task : Nat) (request : MultiRequest F)
    (centroidId : Bytes) (stage : TaskStage F) : ScorePool skipList F :=
  { pool with
    requests := pool.requests.set index
      { request with tasks := request.tasks.set task ⟨centroidId, stage⟩ } }

/-- A thread takes up a task. -/
def takeUp (pool : ScorePool skipList F) (index task : Nat) : Option (ScorePool skipList F) :=
  match pool.requests[index]? with
  | none => none
  | some request =>
      match request.tasks[task]? with
      | some ⟨centroidId, .submitted⟩ =>
          some { pool.setStage index task request centroidId
              (.reading pool.centroids.calls.length) with
            centroids := pool.centroids.invoke (.getOption centroidId) }
      | _ => none

/-- What a call of `getOption` has returned. -/
def readBy (pool : ScorePool skipList F) (call : Nat) : Option (Option (Centroid F)) :=
  match pool.centroids.calls[call]? with
  | some ⟨_, _, .returned _ (.option held)⟩ => some held
  | _ => none

/-- The centroid is read through the pointer that `Proxy::operator->` has given. -/
def readThrough (pool : ScorePool skipList F) (call : Nat) (held : Option (Centroid F)) :
    Option (ConcurrentMap skipList (Centroid F)) :=
  match held with
  | none => some pool.centroids
  | some _ => pool.centroids.use (.readAgain call)

variable [Zero F] [Add F] [Mul F] [Div F]

/-- A task goes on once `getOption` has returned. -/
def score (pool : ScorePool skipList F) (index task : Nat) : Option (ScorePool skipList F) :=
  match pool.requests[index]? with
  | none => none
  | some request =>
      match request.tasks[task]? with
      | some ⟨centroidId, .reading call⟩ => do
          let held ← pool.readBy call
          let centroids ← pool.readThrough call held
          let stage :=
            match scorePointer held request.doc request.alive with
            | some result => .scored call result
            | none => .dangling call
          pure { pool.setStage index task request centroidId stage with centroids := centroids }
      | _ => none

end ScorePool

def poolMachine (skipList : SkipList Bytes) (F : Type) [Zero F] [Add F] [Mul F] [Div F] :
    Machine (ScorePool skipList F) (PoolAction F) where
  step pool
    | .insertOrUpdate centroidId centroid => some { pool with
        centroids := pool.centroids.invoke (.insertOrUpdate centroidId centroid) }
    | .multiGetDocumentSimilarity centroidIds doc =>
        some (pool.multiGetDocumentSimilarity centroidIds doc)
    | .continuationReturns request => pool.continuationReturns request
    | .takeUp request task => pool.takeUp request task
    | .score request task => pool.score request task
    | .advance call => (pool.centroids.advance call).map fun centroids =>
        { pool with centroids := centroids }
    | .use action => (pool.centroids.use action).map fun centroids =>
        { pool with centroids := centroids }
    | .recycle call item => (pool.centroids.recycle call item).map fun centroids =>
        { pool with centroids := centroids }

section Answers

variable {F : Type}

/-- The first score of an id is kept, and the first exception is the answer. -/
def collectOnto (found : OrderedMap Bytes F) (scores : List (Bytes × Try F)) :
    Try (OrderedMap Bytes F) :=
  scores.foldlM (fun response entry => do
    let score ← entry.2
    pure (response.insertIfNew entry.1 score)) found

def collectScores (scores : List (Bytes × Try F)) : Try (OrderedMap Bytes F) :=
  collectOnto ∅ scores

/-- The call of `getOption` that a task has made. -/
def ScoreTask.call (task : ScoreTask F) : Option Nat :=
  match task.stage with
  | .submitted => none
  | .reading call => some call
  | .scored call _ => some call
  | .dangling call => some call

def ScoreTask.score (task : ScoreTask F) : Option (Bytes × Try F) :=
  match task.stage with
  | .scored _ result => some (task.centroidId, result)
  | _ => none

/-- The response, as soon as every task is done. Nothing is known of one for which a task has read a
document that was gone. -/
def MultiRequest.answer (request : MultiRequest F) : Option (Try (OrderedMap Bytes F)) :=
  (request.tasks.mapM ScoreTask.score).map collectScores

end Answers

section Runs

variable {skipList : SkipList Bytes} {F : Type}

structure Made (history : List (MapRecord Bytes (Centroid F))) (requested : Nat)
    (centroidId : Bytes)
    (index : Nat) (record : MapRecord Bytes (Centroid F)) : Prop where
  known : history[index]? = some record
  isGet : record.op = .getOption centroidId
  since : requested ≤ record.invoked

structure Done (history : List (MapRecord Bytes (Centroid F))) (requested : Nat)
    (centroidId : Bytes)
    (index time : Nat) (held : Option (Centroid F)) (record : MapRecord Bytes (Centroid F)) : Prop
    extends Made history requested centroidId index record where
  returned : record.returned = some (time, .option held)

section Tasks

variable {history later : List (MapRecord Bytes (Centroid F))} {requested index time : Nat}
  {centroidId : Bytes} {held : Option (Centroid F)} {record : MapRecord Bytes (Centroid F)}

theorem Made.keep (made : Made history requested centroidId index record)
    (continues : Continues history later) : ∃ after, Made later requested centroidId index after ∧
      ∀ outcome, record.returned = some outcome → after.returned = some outcome := by
  obtain ⟨after, known, sameOp, sameInvoked, returned⟩ := continues index record made.known
  exact ⟨after, ⟨known, sameOp.trans made.isGet, sameInvoked ▸ made.since⟩, returned⟩

theorem Done.keep (done : Done history requested centroidId index time held record)
    (continues : Continues history later) :
    ∃ after, Done later requested centroidId index time held after := by
  obtain ⟨after, made, returned⟩ := done.toMade.keep continues
  exact ⟨after, made, returned _ done.returned⟩

variable [Zero F] [Add F] [Mul F] [Div F]

/-- A task has made no call, or one of `getOption` since the request and scored what it returned. -/
def TaskMade (history : List (MapRecord Bytes (Centroid F))) (request : MultiRequest F)
    (task : ScoreTask F) : Prop :=
  match task.stage with
  | .submitted => True
  | .reading call => ∃ record, Made history request.requested task.centroidId call record
  | .dangling call => ∃ record, Made history request.requested task.centroidId call record
  | .scored call result => ∃ record time held,
      Done history request.requested task.centroidId call time held record ∧
        result = scoreHeld held request.doc

theorem TaskMade.keep {request : MultiRequest F} {task : ScoreTask F}
    (made : TaskMade history request task) (continues : Continues history later) :
    TaskMade later request task := by
  obtain ⟨id, stage⟩ := task
  cases stage with
  | submitted => trivial
  | reading call =>
      obtain ⟨record, isMade⟩ := made
      obtain ⟨after, stillMade, _⟩ := isMade.keep continues
      exact ⟨after, stillMade⟩
  | dangling call =>
      obtain ⟨record, isMade⟩ := made
      obtain ⟨after, stillMade, _⟩ := isMade.keep continues
      exact ⟨after, stillMade⟩
  | scored call result =>
      obtain ⟨record, time, held, done, isScore⟩ := made
      obtain ⟨after, stillDone⟩ := done.keep continues
      exact ⟨after, time, held, stillDone, isScore⟩

end Tasks

variable [Zero F] [Add F] [Mul F] [Div F]

/-- A request has come before now, and its tasks have done what they are to do. -/
def RequestMade (centroids : ConcurrentMap skipList (Centroid F)) (request : MultiRequest F) :
    Prop :=
  request.requested ≤ centroids.now ∧
    ∀ task ∈ request.tasks, TaskMade centroids.history request task

/-- What holds of the map and the requests in every run. -/
structure PoolSound (pool : ScorePool skipList F) : Prop where
  ordered : Ordered pool.centroids
  neverErased : ∀ record ∈ pool.centroids.history, ∀ key, record.op ≠ .erase key
  requests : ∀ request ∈ pool.requests, RequestMade pool.centroids request

variable {pool next : ScorePool skipList F} {centroids : ConcurrentMap skipList (Centroid F)}

theorem RequestMade.keep {request : MultiRequest F} (made : RequestMade pool.centroids request)
    (continues : Continues pool.centroids.history centroids.history)
    (clock : pool.centroids.now ≤ centroids.now) : RequestMade centroids request :=
  ⟨made.1.trans clock, fun task isTask => (made.2 task isTask).keep continues⟩

theorem sound_initial (documented : skipList.Documented) :
    PoolSound (.initial : ScorePool skipList F) where
  ordered := Machine.along_start (ordered_along documented [])
  neverErased _ member := by cases member
  requests _ member := by cases member

theorem PoolSound.invoke (sound : PoolSound pool) (documented : skipList.Documented)
    {op : MapOp Bytes (Centroid F)} (notErase : ∀ key, op ≠ .erase key)
    {requests : List (MultiRequest F)}
    (made : ∀ request ∈ requests, RequestMade (pool.centroids.invoke op) request) :
    PoolSound { pool with centroids := pool.centroids.invoke op, requests := requests } := by
  refine ⟨sound.ordered.step documented (.invoke op) rfl, ?_, made⟩
  intro record member
  change record ∈ (pool.centroids.calls ++ [_]).map MapCall.record at member
  rw [List.map_append] at member
  rcases List.mem_append.mp member with before | isNew
  · exact sound.neverErased record before
  · rw [List.mem_singleton.mp isNew]
    exact notErase

theorem PoolSound.goOn (sound : PoolSound pool) (ordered : Ordered centroids)
    (goesOn : GoesOn pool.centroids centroids) {requests : List (MultiRequest F)}
    (made : ∀ request ∈ requests, RequestMade centroids request) :
    PoolSound { pool with centroids := centroids, requests := requests } := by
  refine ⟨ordered, ?_, made⟩
  intro record member key
  obtain ⟨before, isBefore, sameOp⟩ := goesOn.same_ops record member
  rw [← sameOp]
  exact sound.neverErased before isBefore key

theorem PoolSound.continue (sound : PoolSound pool) (documented : skipList.Documented)
    (action : MapAction Bytes (Centroid F)) (notMade : ∀ op, action ≠ .invoke op)
    (stepped : (mapMachine skipList (Centroid F)).step pool.centroids action = some centroids) :
    PoolSound { pool with centroids := centroids } := by
  have goesOn := goes_on_of_step action notMade stepped
  apply sound.goOn (sound.ordered.step documented action stepped) goesOn
  intro request isRequest
  exact (sound.requests request isRequest).keep goesOn.continues goesOn.clock

theorem made_of_set {requests : List (MultiRequest F)} {request : MultiRequest F} {index task : Nat}
    {centroidId : Bytes} {stage : TaskStage F}
    (before : ∀ request ∈ requests, RequestMade centroids request)
    (located : requests[index]? = some request)
    (made : TaskMade centroids.history request ⟨centroidId, stage⟩) :
    ∀ changed ∈ requests.set index
      { request with tasks := request.tasks.set task ⟨centroidId, stage⟩ },
      RequestMade centroids changed := by
  intro changed member
  rcases List.mem_or_eq_of_mem_set member with old | rfl
  · exact before changed old
  · obtain ⟨past, tasks⟩ := before request (List.mem_of_getElem? located)
    refine ⟨past, ?_⟩
    intro other isOther
    rcases List.mem_or_eq_of_mem_set isOther with old | rfl
    · exact tasks other old
    · exact made

theorem PoolSound.takeUp (sound : PoolSound pool) (documented : skipList.Documented)
    {index task : Nat} (stepped : pool.takeUp index task = some next) : PoolSound next := by
  unfold ScorePool.takeUp at stepped
  split at stepped
  · cases stepped
  · rename_i request located
    split at stepped
    · rename_i centroidId isTask
      cases stepped
      have before : ∀ other ∈ pool.requests,
          RequestMade (pool.centroids.invoke (.getOption centroidId)) other :=
        fun other isOther =>
          (sound.requests other isOther).keep (continues_of_invoke _) (Nat.le_succ _)
      refine sound.invoke documented (by simp) (made_of_set before located ?_)
      refine ⟨⟨.getOption centroidId, pool.centroids.now, none⟩, ?_, rfl, ?_⟩
      · change ((pool.centroids.calls ++ [_]).map MapCall.record)[_]? = _
        rw [List.getElem?_map, List.getElem?_concat_length]
        rfl
      · exact (sound.requests request (List.mem_of_getElem? located)).1
    · cases stepped

omit [Zero F] [Add F] [Mul F] [Div F] in
theorem read_by_eq_some {index : Nat} {held : Option (Centroid F)}
    (isRead : pool.readBy index = some held) : ∃ record time,
      pool.centroids.history[index]? = some record ∧
        record.returned = some (time, .option held) := by
  unfold ScorePool.readBy at isRead
  split at isRead
  · rename_i op invoked time found located
    cases isRead
    refine ⟨⟨op, invoked, some (time, .option held)⟩, time, ?_, rfl⟩
    rw [ConcurrentMap.history, List.getElem?_map, located]
    rfl
  · cases isRead

theorem score_of_pointer {held : Option (Centroid F)} {doc : ProcessedDocument F} {alive : Bool}
    {result : Try F} (scored : scorePointer held doc alive = some result) :
    result = scoreHeld held doc := by
  unfold scorePointer at scored
  split at scored
  · cases scored
  · exact (Option.some.inj scored).symm

theorem PoolSound.score (sound : PoolSound pool) (documented : skipList.Documented)
    {index task : Nat} (stepped : pool.score index task = some next) : PoolSound next := by
  unfold ScorePool.score at stepped
  split at stepped
  · cases stepped
  · rename_i request located
    split at stepped
    · rename_i centroidId call isTask
      obtain ⟨held, isRead, stepped⟩ := Option.bind_eq_some_iff.mp stepped
      obtain ⟨centroids, through, isNext⟩ := Option.bind_eq_some_iff.mp stepped
      cases isNext
      have goesOn : Ordered centroids ∧ GoesOn pool.centroids centroids := by
        cases held with
        | none =>
            cases through
            exact ⟨sound.ordered, Nat.le_refl _, Or.inl rfl⟩
        | some centroid =>
            exact ⟨sound.ordered.step documented (.use (.readAgain call)) through,
              goes_on_of_step (.use (.readAgain call)) nofun through⟩
      have before : ∀ other ∈ pool.requests, RequestMade centroids other := fun other isOther =>
        (sound.requests other isOther).keep goesOn.2.continues goesOn.2.clock
      refine sound.goOn goesOn.1 goesOn.2 (made_of_set before located ?_)
      obtain ⟨record, made⟩ := (sound.requests request (List.mem_of_getElem? located)).2 _
        (List.mem_of_getElem? isTask)
      obtain ⟨other, time, known, returned⟩ := read_by_eq_some isRead
      obtain rfl : record = other := Option.some.inj (made.known.symm.trans known)
      obtain ⟨after, stillMade, stillReturned⟩ := made.keep goesOn.2.continues
      split
      · rename_i result scored
        exact ⟨after, time, held, ⟨stillMade, stillReturned _ returned⟩, score_of_pointer scored⟩
      · exact ⟨after, stillMade⟩
    · cases stepped

theorem PoolSound.step (sound : PoolSound pool) (documented : skipList.Documented)
    (action : PoolAction F) (stepped : (poolMachine skipList F).step pool action = some next) :
    PoolSound next := by
  cases action with
  | insertOrUpdate centroidId centroid =>
      cases stepped
      exact sound.invoke documented (by simp) fun request isRequest =>
        (sound.requests request isRequest).keep (continues_of_invoke _) (Nat.le_succ _)
  | multiGetDocumentSimilarity centroidIds doc =>
      cases stepped
      refine ⟨sound.ordered, sound.neverErased, ?_⟩
      intro request member
      rcases List.mem_append.mp member with before | isNew
      · exact sound.requests request before
      · rw [List.mem_singleton.mp isNew]
        refine ⟨le_refl _, ?_⟩
        intro task isTask
        obtain ⟨centroidId, _, rfl⟩ := List.mem_map.mp isTask
        trivial
  | continuationReturns index =>
      obtain ⟨request, located, rfl⟩ := Option.map_eq_some_iff.mp stepped
      refine ⟨sound.ordered, sound.neverErased, ?_⟩
      intro changed member
      rcases List.mem_or_eq_of_mem_set member with before | rfl
      · exact sound.requests changed before
      · exact sound.requests request (List.mem_of_getElem? located)
  | takeUp request task => exact sound.takeUp documented stepped
  | score request task => exact sound.score documented stepped
  | advance call =>
      obtain ⟨centroids, advanced, rfl⟩ := Option.map_eq_some_iff.mp stepped
      exact sound.continue documented (.advance call) nofun advanced
  | use action =>
      obtain ⟨centroids, used, rfl⟩ := Option.map_eq_some_iff.mp stepped
      exact sound.continue documented (.use action) nofun used
  | recycle call item =>
      obtain ⟨centroids, recycled, rfl⟩ := Option.map_eq_some_iff.mp stepped
      exact sound.continue documented (.recycle call item) nofun recycled

theorem sound_along (documented : skipList.Documented) (actions : List (PoolAction F)) :
    (poolMachine skipList F).Along PoolSound actions .initial :=
  Machine.along_of_preserved (fun _ action _ sound => sound.step documented action) actions
    (sound_initial documented)

end Runs

end Relevanced.SimilarityScoreWorker

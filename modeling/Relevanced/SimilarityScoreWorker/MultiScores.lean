import Relevanced.Foundation.Snapshots
import Relevanced.SimilarityScoreWorker.ScorePool

/-!
# Scores for many centroids

What a request is answered is said of the history of the concurrent map: its tasks read no
centroid that is older than one that had been stored before the request, and all of them read
one map where no centroid is stored meanwhile.
-/

namespace Relevanced.SimilarityScoreWorker

open Foundation
open Models
open Persistence (Try ProtocolException)
open SequentialObject
open Util

set_option autoImplicit false

section Collecting

variable {F : Type}

theorem collected_from (scores : List (Bytes × Try F))
    (succeeded : ∀ entry ∈ scores, ∃ score, entry.2 = .ok score) (found : OrderedMap Bytes F) :
    ∃ response, collectOnto found scores = .ok response ∧
      (∀ id, id ∈ response ↔ id ∈ found ∨ id ∈ scores.map Prod.fst) ∧
      ∀ id score, response[id]? = some score →
        found[id]? = some score ∨ (id, .ok score) ∈ scores := by
  induction scores generalizing found with
  | nil => exact ⟨found, rfl, by simp, fun id score held => Or.inl held⟩
  | cons entry scores ih =>
      obtain ⟨id, result⟩ := entry
      obtain ⟨⟨score, isScore⟩, later⟩ := List.forall_mem_cons.mp succeeded
      change result = .ok score at isScore
      subst isScore
      obtain ⟨response, collected, keys, values⟩ := ih later (found.insertIfNew id score)
      refine ⟨response, collected, ?_, ?_⟩
      · intro other
        rw [keys, Std.ExtTreeMap.mem_insertIfNew, compare_eq_iff_eq, List.map_cons, List.mem_cons]
        tauto
      · intro other value held
        rcases values other value held with isFound | isLater
        · rw [Std.ExtTreeMap.getElem?_insertIfNew] at isFound
          split at isFound
          · rename_i isNew
            cases isFound
            rw [compare_eq_iff_eq] at isNew
            obtain ⟨rfl, _⟩ := isNew
            exact Or.inr List.mem_cons_self
          · exact Or.inl isFound
        · exact Or.inr (List.mem_cons_of_mem _ isLater)

theorem collected_error {exception : ProtocolException} (scores : List (Bytes × Try F))
    (only : ∀ entry ∈ scores, ∀ other, entry.2 = .error other → other = exception)
    (failed : ∃ entry ∈ scores, entry.2 = .error exception) (found : OrderedMap Bytes F) :
    collectOnto found scores = .error exception := by
  induction scores generalizing found with
  | nil =>
      obtain ⟨_, member, _⟩ := failed
      cases member
  | cons entry scores ih =>
      obtain ⟨id, result⟩ := entry
      obtain ⟨here, later⟩ := List.forall_mem_cons.mp only
      cases result with
      | error other =>
          cases here other rfl
          rfl
      | ok score =>
          apply ih later
          obtain ⟨entry, member, isError⟩ := failed
          rcases List.mem_cons.mp member with rfl | isLater
          · cases isError
          · exact ⟨entry, isLater, isError⟩

theorem results_of_mapM {α β : Type} {f : α → Option β} {items : List α} {results : List β}
    (mapped : items.mapM f = some results) :
    results = items.filterMap f ∧ ∀ item ∈ items, (f item).isSome := by
  induction items generalizing results with
  | nil =>
      cases mapped
      refine ⟨rfl, ?_⟩
      intro item member
      cases member
  | cons item items ih =>
      rw [List.mapM_cons] at mapped
      obtain ⟨result, isResult, rest⟩ := Option.bind_eq_some_iff.mp mapped
      obtain ⟨others, areOthers, isAll⟩ := Option.bind_eq_some_iff.mp rest
      cases isAll
      obtain ⟨rfl, finished⟩ := ih areOthers
      refine ⟨(List.filterMap_cons_some isResult).symm, ?_⟩
      exact List.forall_mem_cons.mpr ⟨Option.isSome_iff_exists.mpr ⟨result, isResult⟩, finished⟩

end Collecting

section Fresh

variable {F : Type} {history : List (MapRecord Bytes (Centroid F))} {requested index time : Nat}
  {centroidId : Bytes} {held : Option (Centroid F)} {record : MapRecord Bytes (Centroid F)}

theorem Done.fresh (done : Done history requested centroidId index time held record)
    (readsFresh : ReadsFresh history) (kept : ∀ record ∈ history, ∀ key, record.op ≠ .erase key)
    {store : MapRecord Bytes (Centroid F)}
    (stored : StoredBefore history requested centroidId store) :
    ∃ centroid, held = some centroid ∧ FreshAt history requested centroidId centroid := by
  have reads (other : MapRecord Bytes (Centroid F))
      (isStored : StoredBefore history requested centroidId other) :
      ∃ centroid, held = some centroid ∧ ∃ written ∈ history,
        written.op = .insertOrUpdate centroidId centroid ∧ written.invoked ≤ time ∧
        ∀ moment result, written.returned = some (moment, result) → other.invoked ≤ moment := by
    obtain ⟨isOther, isInsert, moment, returned, earlier⟩ := isStored
    exact readsFresh centroidId held time record (List.mem_of_getElem? done.known) done.isGet
      done.returned (fun other member => kept other member centroidId) other
      ⟨isOther, isInsert, moment, returned, earlier.trans_le done.since⟩
  obtain ⟨centroid, isHeld, _⟩ := reads store stored
  refine ⟨centroid, isHeld, ?_⟩
  intro other isStored
  obtain ⟨value, alsoHeld, written, member, isOp, _, notOlder⟩ := reads other isStored
  rw [isHeld] at alsoHeld
  cases alsoHeld
  exact ⟨written, member, isOp, notOlder⟩

variable [Zero F] [Add F] [Mul F] [Div F]

/-- What a request is answered: the scores of fresh centroids if each was stored before the request,
and an exception if one has never been stored. -/
structure FreshlyScored (history : List (MapRecord Bytes (Centroid F))) (request : MultiRequest F)
    (answer : Try (OrderedMap Bytes F)) : Prop where
  scored : (∀ task ∈ request.tasks, ∃ store,
      StoredBefore history request.requested task.centroidId store) →
    ∃ response, answer = .ok response ∧
      (∀ id, id ∈ response ↔ id ∈ request.tasks.map ScoreTask.centroidId) ∧
      ∀ id score, response[id]? = some score → ∃ centroid,
        FreshAt history request.requested id centroid ∧
          score = centroid.wordVector.scoreDocument request.doc
  missing : (∃ task ∈ request.tasks, ∀ record ∈ history, ∀ centroid,
      record.op ≠ .insertOrUpdate task.centroidId centroid) →
    answer = .error .eCentroidDoesNotExist

def Scored (history : List (MapRecord Bytes (Centroid F))) (request : MultiRequest F)
    (task : ScoreTask F) (entry : Bytes × Try F) : Prop :=
  ∃ index time held record, task.call = some index ∧
    Done history request.requested task.centroidId index time held record ∧
      entry = (task.centroidId, scoreHeld held request.doc)

variable {request : MultiRequest F}

theorem TaskMade.scored {task : ScoreTask F} (made : TaskMade history request task)
    {entry : Bytes × Try F} (isScore : task.score = some entry) :
    Scored history request task entry := by
  obtain ⟨id, stage⟩ := task
  cases stage with
  | scored call result =>
      cases isScore
      obtain ⟨record, time, held, done, rfl⟩ := made
      exact ⟨call, time, held, record, rfl, done, rfl⟩
  | _ => cases isScore

theorem entries_of_answer (tasks : ∀ task ∈ request.tasks, TaskMade history request task)
    {answer : Try (OrderedMap Bytes F)} (answered : request.answer = some answer) :
    answer = collectScores (request.tasks.filterMap ScoreTask.score) ∧
      ∀ task ∈ request.tasks, ∃ entry, task.score = some entry ∧
        Scored history request task entry := by
  obtain ⟨scores, mapped, rfl⟩ := Option.map_eq_some_iff.mp answered
  obtain ⟨rfl, finished⟩ := results_of_mapM mapped
  refine ⟨rfl, ?_⟩
  intro task isTask
  obtain ⟨entry, isScore⟩ := Option.isSome_iff_exists.mp (finished task isTask)
  exact ⟨entry, isScore, (tasks task isTask).scored isScore⟩

theorem freshly_scored (tasks : ∀ task ∈ request.tasks, TaskMade history request task)
    (kept : ∀ record ∈ history, ∀ key, record.op ≠ .erase key) (timed : Timed history)
    {order : List (Nat × MapOp Bytes (Centroid F) × MapResult (Centroid F))}
    (linearizes : Linearizes (sequentialMap Bytes (Centroid F)) emptyMap history order)
    {answer : Try (OrderedMap Bytes F)} (answered : request.answer = some answer) :
    FreshlyScored history request answer := by
  obtain ⟨rfl, finished⟩ := entries_of_answer tasks answered
  have taskOf (entry : Bytes × Try F) (member : entry ∈ request.tasks.filterMap ScoreTask.score) :
      ∃ task ∈ request.tasks, Scored history request task entry := by
    obtain ⟨task, isTask, isScore⟩ := List.mem_filterMap.mp member
    exact ⟨task, isTask, (tasks task isTask).scored isScore⟩
  have idOf (id : Bytes) : id ∈ (request.tasks.filterMap ScoreTask.score).map Prod.fst ↔
      id ∈ request.tasks.map ScoreTask.centroidId := by
    simp only [List.mem_map]
    constructor
    · rintro ⟨entry, member, rfl⟩
      obtain ⟨task, isTask, _, _, _, _, _, _, rfl⟩ := taskOf entry member
      exact ⟨task, isTask, rfl⟩
    · rintro ⟨task, isTask, rfl⟩
      obtain ⟨entry, isScore, _, _, _, _, _, _, rfl⟩ := finished task isTask
      exact ⟨_, List.mem_filterMap.mpr ⟨task, isTask, isScore⟩, rfl⟩
  constructor
  · intro stored
    have fresh (entry : Bytes × Try F)
        (member : entry ∈ request.tasks.filterMap ScoreTask.score) :
        ∃ centroid, entry.2 = .ok (centroid.wordVector.scoreDocument request.doc) ∧
          FreshAt history request.requested entry.1 centroid := by
      obtain ⟨task, isTask, index, time, held, record, _, done, rfl⟩ := taskOf entry member
      obtain ⟨store, before⟩ := stored task isTask
      obtain ⟨centroid, rfl, isFresh⟩ := done.fresh (reads_fresh linearizes timed) kept before
      exact ⟨centroid, rfl, isFresh⟩
    have succeeded : ∀ entry ∈ request.tasks.filterMap ScoreTask.score,
        ∃ score, entry.2 = .ok score := by
      intro entry member
      obtain ⟨centroid, isScore, _⟩ := fresh entry member
      exact ⟨_, isScore⟩
    obtain ⟨response, collected, keys, values⟩ := collected_from _ succeeded ∅
    refine ⟨response, collected, ?_, ?_⟩
    · intro id
      rw [keys, idOf]
      simp
    · intro id score held
      rcases values id score held with none | member
      · simp at none
      · obtain ⟨centroid, isScore, isFresh⟩ := fresh _ member
        cases isScore
        exact ⟨centroid, isFresh, rfl⟩
  · rintro ⟨task, isTask, neverStored⟩
    apply collected_error
    · intro entry member other isError
      obtain ⟨_, _, _, _, held, _, _, _, rfl⟩ := taskOf entry member
      cases held with
      | none =>
          cases isError
          rfl
      | some centroid => cases isError
    · obtain ⟨entry, isScore, index, time, held, record, _, done, rfl⟩ := finished task isTask
      refine ⟨_, List.mem_filterMap.mpr ⟨task, isTask, isScore⟩, ?_⟩
      cases held with
      | none => rfl
      | some centroid =>
          obtain ⟨store, isStored, isStore⟩ :=
            stored_of_read linearizes done.known done.isGet done.returned
          exact absurd isStore (neverStored store isStored centroid)

/-- However the tasks of many requests and the loading of centroids are interleaved, as long as
no step has touched a version that was deleted before: a request whose centroids had all been
stored is answered the score of each from a centroid that is no older than when it came, and one
with a centroid that was never stored is answered the exception. -/
theorem multi_scores_always_fresh {skipList : SkipList Bytes} (documented : skipList.Documented)
    (actions : List (PoolAction F)) :
    (poolMachine skipList F).Along (fun pool => pool.centroids.Faultless →
      ∀ request ∈ pool.requests, ∀ answer, request.answer = some answer →
        FreshlyScored pool.centroids.history request answer) actions .initial := by
  apply (sound_along documented actions).mono
  intro pool sound _ request isRequest answer answered
  obtain ⟨order, linearizes⟩ := sound.ordered.linearizes
  exact freshly_scored (sound.requests request isRequest).2 sound.neverErased sound.ordered.timed
    linearizes answered

/-- A centroid is stored, and two requests come: one for it twice, and one for another id. Their
continuations return when the last task of each has its score. -/
def askedTwice : List (PoolAction ℚ) :=
  List.flatten [.insertOrUpdate (ascii "c") (.new (ascii "c")) :: List.replicate 6 (.advance 0),
    [.multiGetDocumentSimilarity [ascii "c", ascii "c"] (.bare (ascii "doc")),
      .multiGetDocumentSimilarity [ascii "d"] (.bare (ascii "doc")), .takeUp 1 0, .takeUp 0 1],
    List.replicate 2 (.advance 1), [.score 1 0, .continuationReturns 1, .takeUp 0 0],
    List.replicate 15 (.advance 2), List.replicate 15 (.advance 3),
    [.use (.read 2 3), .advance 2, .advance 2, .score 0 1, .use (.read 3 5), .advance 3, .advance 3,
      .score 0 0, .continuationReturns 0]]

theorem asked_twice_freshly_scored :
    ∃ pool, (poolMachine (listedBy Bytes) ℚ).exec askedTwice .initial = some pool ∧
      pool.centroids.Faultless ∧ pool.requests ≠ [] ∧
      ∀ request ∈ pool.requests, ∃ answer, request.answer = some answer ∧
        FreshlyScored pool.centroids.history request answer := by
  have ended : ((poolMachine (listedBy Bytes) ℚ).exec askedTwice .initial).map (fun pool =>
      (pool.centroids.pointers.fault, pool.requests.map fun request => request.answer.isSome)) =
      some (false, [true, true]) := by rfl
  obtain ⟨pool, executed, isPool⟩ := Option.map_eq_some_iff.mp ended
  obtain ⟨faultless, answered⟩ := Prod.mk.inj isPool
  have fresh := Machine.along_last (multi_scores_always_fresh listed_by_documented askedTwice)
    executed faultless
  refine ⟨pool, executed, faultless, ?_, ?_⟩
  · rintro none
    rw [none] at answered
    cases answered
  · intro request isRequest
    have isAnswered : request.answer.isSome ∈ [true, true] := by
      rw [← answered]
      exact List.mem_map_of_mem isRequest
    have isSome : request.answer.isSome = true := by simpa using isAnswered
    obtain ⟨answer, isAnswer⟩ := Option.isSome_iff_exists.mp isSome
    exact ⟨answer, isAnswer, fresh request isRequest answer isAnswer⟩

end Fresh

section Quiet

variable {F : Type} {history : List (MapRecord Bytes (Centroid F))} {request : MultiRequest F}

/-- No centroid is stored while the tasks of the request read. -/
def Quiet (history : List (MapRecord Bytes (Centroid F))) (request : MultiRequest F) : Prop :=
  ∀ record ∈ history, ∀ id centroid, record.op = .insertOrUpdate id centroid →
    StoredBefore history request.requested id record ∨
      ∀ task ∈ request.tasks, ∀ index, task.call = some index →
        ∀ read, history[index]? = some read →
          ∀ time result, read.returned = some (time, result) → time < record.invoked

def MultiRequest.reads (request : MultiRequest F) : List Nat :=
  request.tasks.filterMap ScoreTask.call

def AllDone (history : List (MapRecord Bytes (Centroid F))) (request : MultiRequest F) : Prop :=
  ∀ task ∈ request.tasks, ∃ index time held record, task.call = some index ∧
    Done history request.requested task.centroidId index time held record

theorem AllDone.read (allDone : AllDone history request) {index : Nat}
    (isRead : index ∈ request.reads) : ∃ task ∈ request.tasks, task.call = some index ∧
      ∃ time held record,
        Done history request.requested task.centroidId index time held record := by
  obtain ⟨task, isTask, isCall⟩ := List.mem_filterMap.mp isRead
  obtain ⟨other, time, held, record, same, done⟩ := allDone task isTask
  rw [isCall] at same
  cases same
  exact ⟨task, isTask, isCall, time, held, record, done⟩

theorem AllDone.read_group (allDone : AllDone history request) :
    ReadGroup (sequentialMap Bytes (Centroid F)) history request.reads := by
  intro index isRead
  obtain ⟨task, _, _, time, held, record, done⟩ := allDone.read isRead
  refine ⟨record, done.known, ?_, time, _, done.returned⟩
  rw [done.isGet]
  exact reads_get task.centroidId

theorem AllDone.over_before (allDone : AllDone history request) {id : Bytes}
    {store : MapRecord Bytes (Centroid F)}
    (stored : StoredBefore history request.requested id store) :
    OverBefore history request.reads store := by
  obtain ⟨_, _, time, returned, earlier⟩ := stored
  refine ⟨time, .void, returned, ?_⟩
  intro index isRead read known
  obtain ⟨task, _, _, _, _, record, done⟩ := allDone.read isRead
  rw [done.known] at known
  cases known
  exact earlier.trans_le done.since

theorem AllDone.undisturbed (allDone : AllDone history request)
    (kept : ∀ record ∈ history, ∀ key, record.op ≠ .erase key) (quiet : Quiet history request) :
    Undisturbed (sequentialMap Bytes (Centroid F)) history request.reads := by
  intro place record known
  have member := List.mem_of_getElem? known
  cases isOp : record.op with
  | getOption id => exact Or.inl (reads_get id)
  | erase id => exact absurd isOp (kept record member id)
  | insertOrUpdate id centroid =>
      right
      rcases quiet record member id centroid isOp with stored | later
      · exact Or.inl (allDone.over_before stored)
      · right
        intro index isRead read readKnown time result returned
        obtain ⟨task, isTask, isCall, _⟩ := allDone.read isRead
        exact later task isTask index isCall read readKnown time result returned

theorem AllDone.contents_iff (allDone : AllDone history request)
    (kept : ∀ record ∈ history, ∀ key, record.op ≠ .erase key) (quiet : Quiet history request)
    (timed : Timed history) (someReads : request.reads ≠ [])
    {order before behind : List (Nat × MapOp Bytes (Centroid F) × MapResult (Centroid F))}
    (linearizes : Linearizes (sequentialMap Bytes (Centroid F)) emptyMap history order)
    (split : order = before ++ behind)
    (placed : ∀ index record, history[index]? = some record →
      ¬ (sequentialMap Bytes (Centroid F)).Reads record.op →
        ((∃ entry ∈ before, entry.1 = index) ↔ OverBefore history request.reads record))
    (id : Bytes) :
    ((sequentialMap Bytes (Centroid F)).run (before.map Prod.snd) emptyMap id).isSome ↔
      ∃ store, StoredBefore history request.requested id store := by
  have within : ∀ entry ∈ before, entry ∈ order := by
    rw [split]
    exact fun entry member => List.mem_append_left _ member
  have changes {record : MapRecord Bytes (Centroid F)} {centroid : Centroid F}
      (isOp : record.op = .insertOrUpdate id centroid) :
      ¬ (sequentialMap Bytes (Centroid F)).Reads record.op := by
    rw [isOp]
    exact changes_insert
  constructor
  · intro isSome
    obtain ⟨centroid, holds⟩ := Option.isSome_iff_exists.mp isSome
    obtain ⟨entry, isEntry, record, known, isOp⟩ := record_of_stored linearizes within holds
    rcases quiet record (List.mem_of_getElem? known) id centroid isOp with stored | later
    · exact ⟨record, stored⟩
    · obtain ⟨time, result, returned, earlier⟩ :=
        (placed entry.1 record known (changes isOp)).mp ⟨entry, isEntry, rfl⟩
      obtain ⟨index, isRead⟩ := List.exists_mem_of_ne_nil _ someReads
      obtain ⟨task, isTask, isCall, readTime, held, made, done⟩ := allDone.read isRead
      have first : time < made.invoked := earlier index isRead made done.known
      have second : readTime < record.invoked :=
        later task isTask index isCall made done.known _ _ done.returned
      have third : record.invoked ≤ time :=
        timed record (List.mem_of_getElem? known) time result returned
      have fourth : made.invoked ≤ readTime :=
        timed made (List.mem_of_getElem? done.known) readTime _ done.returned
      omega
  · intro ⟨store, stored⟩
    have isOver := allDone.over_before stored
    obtain ⟨isStored, ⟨centroid, isOp⟩, _⟩ := stored
    obtain ⟨index, known⟩ := List.mem_iff_getElem?.mp isStored
    obtain ⟨entry, isEntry, rfl⟩ := (placed index store known (changes isOp)).mpr isOver
    obtain ⟨record, alsoKnown, sameOp⟩ := linearizes.called entry (within entry isEntry)
    rw [known] at alsoKnown
    cases alsoKnown
    exact holds_stored linearizes (fun record member => kept record member id) within isEntry
      (sameOp.symm.trans isOp)

variable [Zero F] [Add F] [Mul F] [Div F]

/-- The answer that one plain map gives, which holds a centroid for exactly those ids of the request
under which one had been stored before. -/
def AnsweredFromOneMap (history : List (MapRecord Bytes (Centroid F))) (request : MultiRequest F)
    (answer : Try (OrderedMap Bytes F)) : Prop :=
  ∃ contents : Bytes → Option (Centroid F),
    answer = collectScores (request.tasks.map fun task =>
      (task.centroidId, scoreHeld (contents task.centroidId) request.doc)) ∧
    ∀ task ∈ request.tasks, (contents task.centroidId).isSome ↔
      ∃ store, StoredBefore history request.requested task.centroidId store

theorem answered_from_one_map (tasks : ∀ task ∈ request.tasks, TaskMade history request task)
    (kept : ∀ record ∈ history, ∀ key, record.op ≠ .erase key) (timed : Timed history)
    {order : List (Nat × MapOp Bytes (Centroid F) × MapResult (Centroid F))}
    (linearizes : Linearizes (sequentialMap Bytes (Centroid F)) emptyMap history order)
    {answer : Try (OrderedMap Bytes F)} (answered : request.answer = some answer)
    (quiet : Quiet history request) : AnsweredFromOneMap history request answer := by
  obtain ⟨rfl, finished⟩ := entries_of_answer tasks answered
  have allDone : AllDone history request := by
    intro task isTask
    obtain ⟨entry, _, index, time, held, record, isCall, done, _⟩ := finished task isTask
    exact ⟨index, time, held, record, isCall, done⟩
  by_cases noReads : request.reads = []
  · have noTasks : request.tasks = [] := by
      apply List.eq_nil_iff_forall_not_mem.mpr
      intro task isTask
      obtain ⟨index, _, _, _, isCall, _⟩ := allDone task isTask
      have isRead : index ∈ request.reads := List.mem_filterMap.mpr ⟨task, isTask, isCall⟩
      rw [noReads] at isRead
      cases isRead
    refine ⟨emptyMap, ?_, ?_⟩
    · rw [noTasks]
      rfl
    · intro task isTask
      rw [noTasks] at isTask
      cases isTask
  · obtain ⟨before, behind, split, answers, placed⟩ := linearizes.snapshot allDone.read_group
      (allDone.undisturbed kept quiet) noReads
    refine ⟨(sequentialMap Bytes (Centroid F)).run (before.map Prod.snd) emptyMap, ?_, ?_⟩
    · congr 1
      apply List.filterMap_eq_map_iff_forall_eq_some.mpr
      intro task isTask
      obtain ⟨entry, isScore, index, time, held, record, isCall, done, rfl⟩ := finished task isTask
      have isRead : index ∈ request.reads := List.mem_filterMap.mpr ⟨task, isTask, isCall⟩
      have result := answers index isRead record done.known time _ done.returned
      change MapResult.option held =
        ((sequentialMap Bytes (Centroid F)).apply record.op _).1 at result
      rw [done.isGet] at result
      rw [isScore, MapResult.option.inj result]
    · exact fun task _ => allDone.contents_iff kept quiet timed noReads linearizes split placed _

/-- A request during which no centroid is stored is answered as if all its tasks had read one map at
one moment, whatever happened before and in whatever order the tasks were taken up, as long as no
step has touched a version that was deleted before. -/
theorem undisturbed_requests_read_one_map {skipList : SkipList Bytes}
    (documented : skipList.Documented) (actions : List (PoolAction F)) :
    (poolMachine skipList F).Along (fun pool => pool.centroids.Faultless →
      ∀ request ∈ pool.requests, ∀ answer, request.answer = some answer →
        Quiet pool.centroids.history request →
          AnsweredFromOneMap pool.centroids.history request answer) actions .initial := by
  apply (sound_along documented actions).mono
  intro pool sound _ request isRequest answer answered quiet
  obtain ⟨order, linearizes⟩ := sound.ordered.linearizes
  exact answered_from_one_map (sound.requests request isRequest).2 sound.neverErased
    sound.ordered.timed linearizes answered quiet

theorem asked_twice_reads_one_map :
    ∃ pool, (poolMachine (listedBy Bytes) ℚ).exec askedTwice .initial = some pool ∧
      pool.centroids.Faultless ∧ pool.requests ≠ [] ∧
      ∀ request ∈ pool.requests, ∃ answer, request.answer = some answer ∧
        Quiet pool.centroids.history request ∧
          AnsweredFromOneMap pool.centroids.history request answer := by
  have ended : ((poolMachine (listedBy Bytes) ℚ).exec askedTwice .initial).map (fun pool =>
      (pool.centroids.pointers.fault, pool.requests.map (fun request =>
        (request.requested, request.answer.isSome)), pool.centroids.history)) =
      some (false, [(4, true), (4, true)],
        [⟨.insertOrUpdate (ascii "c") (.new (ascii "c")), 0, some (3, .void)⟩,
          ⟨.getOption (ascii "d"), 4, some (7, .option none)⟩,
          ⟨.getOption (ascii "c"), 5, some (11, .option (some (.new (ascii "c"))))⟩,
          ⟨.getOption (ascii "c"), 8, some (14, .option (some (.new (ascii "c"))))⟩]) := by rfl
  obtain ⟨pool, executed, isPool⟩ := Option.map_eq_some_iff.mp ended
  obtain ⟨faultless, rest⟩ := Prod.mk.inj isPool
  obtain ⟨answered, history⟩ := Prod.mk.inj rest
  have oneMap := Machine.along_last
    (undisturbed_requests_read_one_map listed_by_documented askedTwice) executed faultless
  refine ⟨pool, executed, faultless, ?_, ?_⟩
  · rintro none
    rw [none] at answered
    cases answered
  · intro request isRequest
    have isAnswered : (request.requested, request.answer.isSome) ∈ [(4, true), (4, true)] := by
      rw [← answered]
      exact List.mem_map_of_mem isRequest
    have known : request.requested = 4 ∧ request.answer.isSome = true := by simpa using isAnswered
    obtain ⟨answer, isAnswer⟩ := Option.isSome_iff_exists.mp known.2
    have quiet : Quiet pool.centroids.history request := by
      intro record member id centroid isStore
      left
      refine ⟨member, ⟨centroid, isStore⟩, 3, ?_, by rw [known.1]; decide⟩
      rw [history] at member
      simp only [List.mem_cons, List.not_mem_nil, or_false] at member
      rcases member with rfl | rfl | rfl | rfl
      · rfl
      · cases isStore
      · cases isStore
      · cases isStore
    exact ⟨answer, isAnswer, quiet, oneMap request isRequest answer isAnswer quiet⟩

end Quiet

end Relevanced.SimilarityScoreWorker

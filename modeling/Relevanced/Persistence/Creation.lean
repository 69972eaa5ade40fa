import Relevanced.Persistence.Persistence

/-!
# Creating documents, centroids and memberships

`saveNewDocument`, `createNewCentroid` and `addDocumentToCentroid` look their record up
and then write it, in separate steps of the thread pool. As long as no such look-up
misses a record that another task has missed and is about to write, each record is
created once.
-/

namespace Relevanced.Persistence

open Foundation
open Models

set_option autoImplicit false

variable {F : Type}

def PersistenceCall.creates : PersistenceCall F → Option LogicalRecord
  | saveNewDocument doc => some (.documentBody doc.id)
  | createNewCentroid id => some (.centroidBody id)
  | addDocumentToCentroid centroidId docId => some (.member centroidId docId)
  | _ => none

def PersistenceCall.alreadyThere : PersistenceCall F → ProtocolException
  | createNewCentroid _ => .eCentroidAlreadyExists
  | addDocumentToCentroid _ _ => .eDocumentAlreadyInCentroid
  | _ => .eDocumentAlreadyExists

def PersistenceCall.Deletes : PersistenceCall F → Prop
  | deleteDocument _ => True
  | deleteCentroid _ => True
  | removeDocumentFromCentroid _ _ => True
  | _ => False

instance (call : PersistenceCall F) : Decidable call.Deletes := by
  unfold PersistenceCall.Deletes
  split <;> infer_instance

def NoDeletes : PersistenceAction F → Prop
  | .issue request => ¬ request.Deletes
  | _ => True

instance : ∀ action : PersistenceAction F, Decidable (NoDeletes action)
  | .issue request => inferInstanceAs (Decidable (¬ request.Deletes))
  | .task _ | .client _ => isTrue trivial

def RockCall.Puts (key : Bytes) : RockCall → Prop
  | put written _ => written = key
  | _ => False

instance (key : Bytes) : ∀ call : RockCall, Decidable (call.Puts key)
  | .put written _ => inferInstanceAs (Decidable (written = key))
  | .get _ | .existsKey _ | .del _ | .newIterator => isFalse id

namespace PersistenceTask

def AboutToPut (task : PersistenceTask F) (key : Bytes) : Prop := ∃ call ∈ task.next, call.Puts key

instance (task : PersistenceTask F) (key : Bytes) : Decidable (AboutToPut task key) :=
  inferInstanceAs (Decidable (∃ call ∈ task.next, call.Puts key))

/-- What a request for a `Future<Try<bool>>` has been answered. -/
def outcome (task : PersistenceTask F) : Option (Try Bool) := task.answerAs .tryBool

end PersistenceTask

variable {α : Type}

/-- A look-up that misses the record its task is to create finds no other task that is about to
write the record. -/
def ChecksInTurn (pool : ThreadPool F α) : PersistenceAction F → Prop
  | .task index => ∀ task ∈ pool.tasks[index]?, ∀ record ∈ task.request.creates,
      task.next = some (.existsKey record.storeKey) → record.storeKey ∉ pool.store →
      ∀ other ∈ pool.tasks, other.request.creates = some record →
        ¬ PersistenceTask.AboutToPut other record.storeKey
  | _ => True

instance (pool : ThreadPool F α) :
    ∀ action : PersistenceAction F, Decidable (ChecksInTurn pool action)
  | .task index => inferInstanceAs (Decidable (∀ task ∈ pool.tasks[index]?,
      ∀ record ∈ task.request.creates,
        task.next = some (.existsKey record.storeKey) → record.storeKey ∉ pool.store →
        ∀ other ∈ pool.tasks, other.request.creates = some record →
          ¬ PersistenceTask.AboutToPut other record.storeKey))
  | .issue _ | .client _ => isTrue trivial

/-- A task that has written nothing, and says why: its record is there, or, when it has not come
to look for it, the centroid or the document it is about is missing. -/
structure Refused (task : PersistenceTask F) (record : LogicalRecord) (error : ProtocolException) :
    Prop where
  unchanged : ∀ call ∈ task.made, call.Reads
  taken : .existsKey record.storeKey ∈ task.made → error = task.request.alreadyThere
  missing : .existsKey record.storeKey ∉ task.made →
    error = .eCentroidDoesNotExist ∨ error = .eDocumentDoesNotExist

/-- Of the requests that create one record at most one reports success; every other that has
been answered has been refused. -/
structure ExclusiveCreation (pool : ThreadPool F α) : Prop where
  once : ∀ (record : LogicalRecord) (first second : Nat) (task other : PersistenceTask F),
    pool.tasks[first]? = some task → pool.tasks[second]? = some other →
    task.request.creates = some record → other.request.creates = some record →
    PersistenceTask.outcome task = some (.ok true) →
    PersistenceTask.outcome other = some (.ok true) → first = second
  refused : ∀ task ∈ pool.tasks, ∀ record ∈ task.request.creates,
    ∀ answer ∈ PersistenceTask.outcome task, answer = .ok true ∨
      ∃ error, answer = .error error ∧ Refused task record error

/-- What remains writes, and reports success. -/
inductive Succeeds : RockProgram (Try Bool) → Prop where
  | done : Succeeds (.done (.ok true))
  | put (key value : Bytes) (next : Bool → RockProgram (Try Bool))
      (succeeds : ∀ answer, Succeeds (next answer)) : Succeeds (.call (.put key value) next)

/-- What remains looks other records up, then its own, and writes its own if that is missing. -/
inductive Searching (key : Bytes) (taken : ProtocolException) : RockProgram (Try Bool) → Prop where
  | check (value : Bytes) (next rest : Bool → RockProgram (Try Bool))
      (held : next true = .done (.error taken)) (free : next false = .call (.put key value) rest)
      (succeeds : ∀ answer, Succeeds (rest answer)) :
      Searching key taken (.call (.existsKey key) next)
  | look (other : Bytes) (missing : ProtocolException) (next : Bool → RockProgram (Try Bool))
      (different : key ≠ other) (absent : next false = .done (.error missing))
      (isMissing : missing = .eCentroidDoesNotExist ∨ missing = .eDocumentDoesNotExist)
      (present : Searching key taken (next true)) :
      Searching key taken (.call (.existsKey other) next)

/-- How far a task has come in creating its record. -/
inductive CreateStage (key : Bytes) (taken : ProtocolException) (made : List RockCall) :
    RockProgram (Try Bool) → Prop where
  | searching (program : RockProgram (Try Bool)) (unchanged : ∀ call ∈ made, call.Reads)
      (unchecked : .existsKey key ∉ made) (searches : Searching key taken program) :
      CreateStage key taken made program
  | pending (value : Bytes) (rest : Bool → RockProgram (Try Bool))
      (succeeds : ∀ answer, Succeeds (rest answer)) :
      CreateStage key taken made (.call (.put key value) rest)
  | created (program : RockProgram (Try Bool)) (written : ∃ call ∈ made, call.Puts key)
      (succeeds : Succeeds program) : CreateStage key taken made program
  | refused (error : ProtocolException) (unchanged : ∀ call ∈ made, call.Reads)
      (isTaken : .existsKey key ∈ made → error = taken)
      (isMissing : .existsKey key ∉ made →
        error = .eCentroidDoesNotExist ∨ error = .eDocumentDoesNotExist) :
      CreateStage key taken made (.done (.error error))

def Staged : PersistenceTask F → Prop
  | ⟨.saveNewDocument doc, made, program⟩ =>
      CreateStage (getDocumentKey doc.id) .eDocumentAlreadyExists made program
  | ⟨.createNewCentroid id, made, program⟩ =>
      CreateStage (getCentroidKey id) .eCentroidAlreadyExists made program
  | ⟨.addDocumentToCentroid centroidId docId, made, program⟩ =>
      CreateStage (getCentroidDocumentKey centroidId docId) .eDocumentAlreadyInCentroid made program
  | _ => True

/-- The task has missed its record; it writes it next, or has written it. -/
def Claims (task : PersistenceTask F) (key : Bytes) : Prop :=
  PersistenceTask.AboutToPut task key ∨ ∃ call ∈ task.made, call.Puts key

section Stages

variable {key : Bytes} {taken : ProtocolException} {made : List RockCall} {call : RockCall}
  {program : RockProgram (Try Bool)}

theorem Searching.reads (searches : Searching key taken program) :
    ∀ next ∈ program.nextCall, next.Reads := by
  intro next isNext
  cases searches with
  | check => cases isNext; trivial
  | look => cases isNext; trivial

theorem RockCall.not_puts_of_reads {call : RockCall} (reads : call.Reads) : ¬ call.Puts key := by
  intro puts
  cases call with
  | put written value => exact reads
  | _ => exact puts

theorem CreateStage.step {rest : RockHandleIf.Answer call → RockProgram (Try Bool)}
    (stage : CreateStage key taken made (.call call rest)) (answer : RockHandleIf.Answer call) :
    CreateStage key taken (call :: made) (rest answer) := by
  cases stage with
  | searching _ unchanged unchecked searches =>
      have stillUnchanged (looked : Bytes) : ∀ earlier ∈ .existsKey looked :: made,
          RockCall.Reads earlier := by
        intro earlier member
        rcases List.mem_cons.mp member with rfl | inMade
        · trivial
        · exact unchanged earlier inMade
      cases searches with
      | check value _ after held free succeeds =>
          cases answer with
          | true =>
              rw [held]
              exact .refused _ (stillUnchanged key) (fun _ => rfl)
                fun notChecked => absurd List.mem_cons_self notChecked
          | false =>
              rw [free]
              exact .pending value after succeeds
      | look other missing _ different absent isMissing present =>
          have stillUnchecked : RockCall.existsKey key ∉ .existsKey other :: made := by
            intro member
            rcases List.mem_cons.mp member with same | inMade
            · exact different (RockCall.existsKey.inj same)
            · exact unchecked inMade
          cases answer with
          | true => exact .searching _ (stillUnchanged other) stillUnchecked present
          | false =>
              rw [absent]
              exact .refused _ (stillUnchanged other) (fun checked => absurd checked stillUnchecked)
                fun _ => isMissing
  | pending value _ succeeds => exact .created _ ⟨_, List.mem_cons_self, rfl⟩ (succeeds answer)
  | created _ written succeeds =>
      obtain ⟨writing, member, puts⟩ := written
      cases succeeds with
      | put _ value _ succeeds =>
          exact .created _ ⟨writing, List.mem_cons_of_mem _ member, puts⟩ (succeeds answer)

theorem CreateStage.misses {rest : RockHandleIf.Answer call → RockProgram (Try Bool)}
    {store : Store}
    (stage : CreateStage key taken made (.call call rest))
    (unclaimed : ¬ call.Puts key ∧ ¬ ∃ earlier ∈ made, earlier.Puts key)
    (claims : (∃ next ∈ (rest (rockHandle call store).1).nextCall, next.Puts key) ∨
      ∃ earlier ∈ call :: made, earlier.Puts key) :
    call = .existsKey key ∧ key ∉ store := by
  have nothing : ¬ ∃ earlier ∈ call :: made, earlier.Puts key := by
    rintro ⟨earlier, member, puts⟩
    rcases List.mem_cons.mp member with rfl | inMade
    · exact unclaimed.1 puts
    · exact unclaimed.2 ⟨earlier, inMade, puts⟩
  obtain ⟨next, isNext, puts⟩ := claims.resolve_right nothing
  cases stage with
  | searching _ unchanged unchecked searches =>
      cases searches with
      | check value _ after held free succeeds =>
          refine ⟨rfl, ?_⟩
          intro present
          have answer : (rockHandle (.existsKey key) store).1 = true :=
            Std.ExtTreeMap.contains_iff_mem.mpr present
          rw [answer, held] at isNext
          cases isNext
      | look other missing _ different absent isMissing present =>
          cases answer : (rockHandle (.existsKey other) store).1 with
          | true =>
              rw [answer] at isNext
              exact absurd puts (RockCall.not_puts_of_reads (present.reads next isNext))
          | false =>
              rw [answer, absent] at isNext
              cases isNext
  | pending value _ succeeds => exact absurd rfl unclaimed.1
  | created _ written succeeds => exact absurd written unclaimed.2

/-- What a task that has been answered reports, and what it has done. -/
theorem CreateStage.ended {answer : Try Bool} (stage : CreateStage key taken made (.done answer)) :
    (answer = .ok true ∧ ∃ call ∈ made, call.Puts key) ∨
      ∃ error, answer = .error error ∧ (∀ call ∈ made, call.Reads) ∧
        (.existsKey key ∈ made → error = taken) ∧
        (.existsKey key ∉ made →
          error = .eCentroidDoesNotExist ∨ error = .eDocumentDoesNotExist) := by
  cases stage with
  | searching _ unchanged unchecked searches => cases searches
  | created _ written succeeds =>
      cases succeeds
      exact .inl ⟨rfl, written⟩
  | refused error unchanged isTaken isMissing =>
      exact .inr ⟨error, rfl, unchanged, isTaken, isMissing⟩

end Stages

section Tasks

variable {task : PersistenceTask F} {record : LogicalRecord}

theorem Staged.view (staged : Staged task) (creates : task.request.creates = some record) :
    ∃ program : RockProgram (Try Bool),
      CreateStage record.storeKey task.request.alreadyThere task.made program ∧
        task.next = program.nextCall ∧ PersistenceTask.outcome task = program.result := by
  obtain ⟨request, made, program⟩ := task
  cases request with
  | saveNewDocument doc =>
      cases creates
      exact ⟨program, staged, rfl, Option.map_id'⟩
  | createNewCentroid id =>
      cases creates
      exact ⟨program, staged, rfl, Option.map_id'⟩
  | addDocumentToCentroid centroidId docId =>
      cases creates
      exact ⟨program, staged, rfl, Option.map_id'⟩
  | _ => cases creates

theorem Staged.after {call : RockCall}
    {rest : RockHandleIf.Answer call → RockProgram ((PersistenceIf F).Reply task.request)}
    (staged : Staged task) (remaining : task.program = .call call rest)
    (answer : RockHandleIf.Answer call) : Staged (task.after call (rest answer)) := by
  obtain ⟨request, made, program⟩ := task
  have step {key : Bytes} {taken : ProtocolException} {remainder : RockProgram (Try Bool)}
      {next : RockHandleIf.Answer call → RockProgram (Try Bool)}
      (stage : CreateStage key taken made remainder) (isCall : remainder = .call call next) :
      CreateStage key taken (call :: made) (next answer) := by
    rw [isCall] at stage
    exact stage.step answer
  cases request with
  | saveNewDocument doc => exact step staged remaining
  | createNewCentroid id => exact step staged remaining
  | addDocumentToCentroid centroidId docId => exact step staged remaining
  | _ => trivial

theorem next_of_call {call : RockCall}
    {rest : RockHandleIf.Answer call → RockProgram ((PersistenceIf F).Reply task.request)}
    (remaining : task.program = .call call rest) : task.next = some call := by
  rw [PoolTask.next, remaining]
  rfl

theorem Staged.misses {call : RockCall} {store : Store}
    {rest : RockHandleIf.Answer call → RockProgram ((PersistenceIf F).Reply task.request)}
    (staged : Staged task) (creates : task.request.creates = some record)
    (remaining : task.program = .call call rest) (unclaimed : ¬ Claims task record.storeKey)
    (claims : Claims (task.after call (rest (rockHandle call store).1)) record.storeKey) :
    call = .existsKey record.storeKey ∧ record.storeKey ∉ store := by
  have notYet : ¬ call.Puts record.storeKey ∧
      ¬ ∃ earlier ∈ task.made, earlier.Puts record.storeKey := by
    refine ⟨?_, fun written => unclaimed (.inr written)⟩
    intro puts
    exact unclaimed (.inl ⟨call, next_of_call remaining, puts⟩)
  obtain ⟨request, made, program⟩ := task
  have misses {taken : ProtocolException} {remainder : RockProgram (Try Bool)}
      {next : RockHandleIf.Answer call → RockProgram (Try Bool)}
      (stage : CreateStage record.storeKey taken made remainder)
      (isCall : remainder = .call call next)
      (claims : (∃ later ∈ (next (rockHandle call store).1).nextCall, later.Puts record.storeKey) ∨
        ∃ earlier ∈ call :: made, earlier.Puts record.storeKey) :
      call = .existsKey record.storeKey ∧ record.storeKey ∉ store := by
    rw [isCall] at stage
    exact stage.misses notYet claims
  cases request with
  | saveNewDocument doc =>
      cases creates
      exact misses staged remaining claims
  | createNewCentroid id =>
      cases creates
      exact misses staged remaining claims
  | addDocumentToCentroid centroidId docId =>
      cases creates
      exact misses staged remaining claims
  | _ => cases creates

variable [Zero F] [One F] {serialization : Serialization F}

theorem member_key_ne_centroid_key (centroidId docId : Bytes) :
    getCentroidDocumentKey centroidId docId ≠ getCentroidKey centroidId := by
  intro same
  have lengths := congrArg List.length same
  simp [getCentroidDocumentKey, getCentroidKey, getCentroidsPrefix, ascii] at lengths
  omega

theorem member_key_ne_document_key (centroidId docId : Bytes) :
    getCentroidDocumentKey centroidId docId ≠ getDocumentKey docId := by
  intro same
  have lengths := congrArg List.length same
  simp [getCentroidDocumentKey, getDocumentKey, getDocumentsPrefix, ascii] at lengths
  omega

theorem staged_new (request : PersistenceCall F) :
    Staged (PoolTask.new (persistence serialization) request) := by
  have nothing : ∀ call ∈ ([] : List RockCall), call.Reads := by simp
  have succeeds : ∀ answer : Bool, Succeeds (.done (.ok true)) := fun _ => .done
  cases request with
  | saveNewDocument doc =>
      apply CreateStage.searching _ nothing List.not_mem_nil
      exact .check _ _ _ rfl rfl fun _ => .put _ _ _ succeeds
  | createNewCentroid id =>
      apply CreateStage.searching _ nothing List.not_mem_nil
      exact .check _ _ _ rfl rfl succeeds
  | addDocumentToCentroid centroidId docId =>
      apply CreateStage.searching _ nothing List.not_mem_nil
      apply Searching.look _ _ _ (member_key_ne_centroid_key centroidId docId) rfl (.inl rfl)
      apply Searching.look _ _ _ (member_key_ne_document_key centroidId docId) rfl (.inr rfl)
      exact .check _ _ _ rfl rfl fun _ => .put _ _ _ succeeds
  | _ => trivial

end Tasks

section Keeping

def RockCall.Keeps : RockCall → Prop
  | del _ => False
  | _ => True

theorem mem_of_keeps {call : RockCall} {store : Store} {key : Bytes} (keeps : call.Keeps)
    (present : key ∈ store) : key ∈ (rockHandle call store).2 := by
  cases call with
  | put written value => exact OrderedMap.mem_insert_iff.mpr (.inr present)
  | del deleted => exact absurd keeps id
  | _ => exact present

variable [Zero F] [One F] (serialization : Serialization F)

theorem keeps_of_reads {β : Type} {program : RockProgram β} (reads : program.Calls RockCall.Reads) :
    program.Calls RockCall.Keeps := by
  apply reads.mono
  intro call reading
  cases call with
  | del key => exact reading
  | _ => trivial

theorem keeps_put (key value : Bytes) : (put key value).Calls RockCall.Keeps :=
  Program.calls_perform trivial

omit [Zero F] [One F] in
theorem keeps_save_document (doc : ProcessedDocument F) :
    (SyncPersistence.saveDocument serialization doc).Calls RockCall.Keeps := by
  apply Program.calls_bind (keeps_put _ _)
  intro _
  apply Program.calls_bind
  · exact Program.calls_bind (keeps_put _ _) fun _ => Program.calls_pure _
  · exact fun _ => Program.calls_pure _

omit [Zero F] [One F] in
theorem keeps_save_centroid (id : Bytes) (centroid : Centroid F) :
    (SyncPersistence.saveCentroid serialization id centroid).Calls RockCall.Keeps :=
  Program.calls_bind (keeps_put _ _) fun _ => Program.calls_pure _

theorem keeps_add_document_to_centroid (centroidId docId : Bytes) :
    (SyncPersistence.addDocumentToCentroid centroidId docId).Calls RockCall.Keeps := by
  have looks (key : Bytes) : (existsKey key).Calls RockCall.Keeps :=
    keeps_of_reads (reads_exists_key key)
  apply Program.calls_bind (looks _)
  intro centroidExists
  split
  · apply Program.calls_bind (looks _)
    intro documentExists
    split
    · apply Program.calls_bind (looks _)
      intro isMember
      split
      · exact Program.calls_pure _
      · apply Program.calls_bind (keeps_put _ _)
        intro _
        exact Program.calls_bind (keeps_put _ _) fun _ => Program.calls_pure _
    · exact Program.calls_pure _
  · exact Program.calls_pure _

theorem keeps_method (call : PersistenceCall F) (keeps : ¬ call.Deletes) :
    (call.method serialization).Calls RockCall.Keeps := by
  by_cases writes : call.Writes
  · cases call with
    | saveDocument doc => exact keeps_save_document serialization doc
    | saveNewDocument doc =>
        apply Program.calls_bind (keeps_of_reads (reads_exists_key _))
        intro present
        split
        · exact Program.calls_pure _
        · exact keeps_save_document serialization doc
    | createNewCentroid id =>
        apply Program.calls_bind (keeps_of_reads (reads_exists_key _))
        intro present
        split
        · exact Program.calls_pure _
        · exact Program.calls_bind (keeps_save_centroid serialization id _)
            fun _ => Program.calls_pure _
    | saveCentroid id centroid => exact keeps_save_centroid serialization id centroid
    | addDocumentToCentroid centroidId docId =>
        exact keeps_add_document_to_centroid centroidId docId
    | setCentroidMetadata centroidId metadataName value =>
        exact Program.calls_bind (keeps_put _ _) fun _ => Program.calls_pure _
    | deleteDocument id => exact absurd trivial keeps
    | deleteCentroid id => exact absurd trivial keeps
    | removeDocumentFromCentroid centroidId docId => exact absurd trivial keeps
    | _ => exact absurd writes id
  · exact keeps_of_reads (reads_method serialization call writes)

end Keeping

/-- Some task claims a record: which one, by its number. -/
def ClaimedBy (pool : ThreadPool F α) (record : LogicalRecord) (index : Nat) : Prop :=
  ∃ task, pool.tasks[index]? = some task ∧ task.request.creates = some record ∧
    Claims task record.storeKey

structure Creating (pool : ThreadPool F α) : Prop where
  alone : pool.clients = []
  staged : ∀ task ∈ pool.tasks, Staged task
  keeps : ∀ task ∈ pool.tasks, task.program.Calls RockCall.Keeps
  written : ∀ task ∈ pool.tasks, ∀ record ∈ task.request.creates,
    (∃ call ∈ task.made, call.Puts record.storeKey) → record.storeKey ∈ pool.store
  unique : ∀ record first second, ClaimedBy pool record first → ClaimedBy pool record second →
    first = second

section Runs

variable [Zero F] [One F] {serialization : Serialization F} {pool next : ThreadPool F α}

omit [Zero F] [One F] in
theorem creating_initial (store : Store) : Creating (.initial store [] : ThreadPool F α) := by
  refine ⟨rfl, ?_, ?_, ?_, ?_⟩
  · intro task member
    cases member
  · intro task member
    cases member
  · intro task member
    cases member
  · rintro record first second ⟨task, found, -⟩
    cases found

theorem not_claims_new (request : PersistenceCall F) {record : LogicalRecord}
    (creates : request.creates = some record) :
    ¬ Claims (PoolTask.new (persistence serialization) request) record.storeKey := by
  rintro (⟨call, isNext, puts⟩ | ⟨call, made, -⟩)
  · cases request with
    | saveNewDocument doc => cases isNext; exact puts
    | createNewCentroid id => cases isNext; exact puts
    | addDocumentToCentroid centroidId docId => cases isNext; exact puts
    | _ => cases creates
  · cases made

theorem Creating.issue (creating : Creating pool) (request : PersistenceCall F)
    (allowed : ¬ request.Deletes) : Creating (pool.issue (persistence serialization) request) := by
  have inPool {task : PersistenceTask F}
      (member : task ∈ (pool.issue (persistence serialization) request).tasks) :
      task ∈ pool.tasks ∨ task = .new (persistence serialization) request := by
    rcases List.mem_append.mp member with old | new
    · exact .inl old
    · exact .inr (List.mem_singleton.mp new)
  have claimedBefore {record : LogicalRecord} {index : Nat}
      (claimed : ClaimedBy (pool.issue (persistence serialization) request) record index) :
      ClaimedBy pool record index := by
    obtain ⟨task, found, creates, claims⟩ := claimed
    change (pool.tasks ++ [_])[index]? = some task at found
    by_cases old : index < pool.tasks.length
    · rw [List.getElem?_append_left old] at found
      exact ⟨task, found, creates, claims⟩
    · rw [List.getElem?_append_right (Nat.le_of_not_lt old)] at found
      have isNew := List.mem_singleton.mp (List.mem_of_getElem? found)
      subst isNew
      exact absurd claims (not_claims_new request creates)
  refine ⟨creating.alone, ?_, ?_, ?_, ?_⟩
  · intro task member
    rcases inPool member with old | rfl
    · exact creating.staged task old
    · exact staged_new request
  · intro task member
    rcases inPool member with old | rfl
    · exact creating.keeps task old
    · exact keeps_method serialization request allowed
  · intro task member record creates written
    rcases inPool member with old | rfl
    · exact creating.written task old record creates written
    · obtain ⟨call, made, -⟩ := written
      cases made
  · intro record first second atFirst atSecond
    exact creating.unique record first second (claimedBefore atFirst) (claimedBefore atSecond)

omit [Zero F] [One F] in
theorem Creating.unclaimed (creating : Creating pool) {record : LogicalRecord}
    (missing : record.storeKey ∉ pool.store)
    (inTurn : ∀ other ∈ pool.tasks, other.request.creates = some record →
      ¬ PersistenceTask.AboutToPut other record.storeKey) (index : Nat) :
    ¬ ClaimedBy pool record index := by
  rintro ⟨task, found, creates, claims⟩
  have member := List.mem_of_getElem? found
  rcases claims with about | written
  · exact inTurn task member creates about
  · exact missing (creating.written task member record creates written)

omit [Zero F] [One F] in
theorem Creating.call (creating : Creating pool) {index : Nat} {task : PersistenceTask F}
    {call : RockCall}
    {rest : RockHandleIf.Answer call → RockProgram ((PersistenceIf F).Reply task.request)}
    (found : pool.tasks[index]? = some task) (remaining : task.program = .call call rest)
    (inTurn : ChecksInTurn pool (.task index)) :
    Creating { pool with
      store := (rockHandle call pool.store).2
      tasks := pool.tasks.set index (task.after call (rest (rockHandle call pool.store).1)) } := by
  have member := List.mem_of_getElem? found
  have calls := creating.keeps task member
  rw [remaining] at calls
  have stagedAfter := (creating.staged task member).after remaining (rockHandle call pool.store).1
  -- The moved task claims what it claimed before, or has just missed its record.
  have newly {record : LogicalRecord} (creates : task.request.creates = some record)
      (claims : Claims (task.after call (rest (rockHandle call pool.store).1)) record.storeKey) :
      Claims task record.storeKey ∨ ∀ other, ¬ ClaimedBy pool record other := by
    by_cases before : Claims task record.storeKey
    · exact .inl before
    · obtain ⟨isCheck, missing⟩ :=
        (creating.staged task member).misses creates remaining before claims
      have isNext : task.next = some (.existsKey record.storeKey) := by
        rw [next_of_call remaining, isCheck]
      exact .inr (creating.unclaimed missing (inTurn task found record creates isNext missing))
  have claimedBefore {record : LogicalRecord} {other : Nat}
      (claimed : ClaimedBy { pool with
        store := (rockHandle call pool.store).2
        tasks := pool.tasks.set index (task.after call (rest (rockHandle call pool.store).1)) }
        record other) :
      ClaimedBy pool record other ∨ other = index ∧ ∀ any, ¬ ClaimedBy pool record any := by
    obtain ⟨claimant, foundOther, creates, claims⟩ := claimed
    by_cases same : index = other
    · subst same
      rw [List.getElem?_set_self (List.getElem?_eq_some_iff.mp found).1] at foundOther
      cases foundOther
      rcases newly creates claims with before | nobody
      · exact .inl ⟨task, found, creates, before⟩
      · exact .inr ⟨rfl, nobody⟩
    · rw [List.getElem?_set_ne same] at foundOther
      exact .inl ⟨claimant, foundOther, creates, claims⟩
  refine ⟨creating.alone, ?_, ?_, ?_, ?_⟩
  · intro other inPool
    rcases List.mem_or_eq_of_mem_set inPool with old | rfl
    · exact creating.staged other old
    · exact stagedAfter
  · intro other inPool
    rcases List.mem_or_eq_of_mem_set inPool with old | rfl
    · exact creating.keeps other old
    · exact calls.2 _
  · intro other inPool record creates written
    rcases List.mem_or_eq_of_mem_set inPool with old | rfl
    · exact mem_of_keeps calls.1 (creating.written other old record creates written)
    · obtain ⟨earlier, made, puts⟩ := written
      rcases List.mem_cons.mp made with rfl | before
      · cases earlier with
        | put key value =>
            cases puts
            exact OrderedMap.mem_insert_iff.mpr (.inl rfl)
        | _ => exact absurd puts id
      · exact mem_of_keeps calls.1
          (creating.written task member record creates ⟨earlier, before, puts⟩)
  · intro record first second atFirst atSecond
    rcases claimedBefore atFirst with firstBefore | ⟨firstIs, nobody⟩
    · rcases claimedBefore atSecond with secondBefore | ⟨_, nobody⟩
      · exact creating.unique record first second firstBefore secondBefore
      · exact absurd firstBefore (nobody first)
    · rcases claimedBefore atSecond with secondBefore | ⟨secondIs, _⟩
      · exact absurd secondBefore (nobody second)
      · rw [firstIs, secondIs]

theorem Creating.step (creating : Creating pool) {action : PersistenceAction F}
    (allowed : NoDeletes action) (inTurn : ChecksInTurn pool action)
    (stepped : (persistenceMachine α serialization).step pool action = some next) :
    Creating next := by
  cases pool_step_cases stepped with
  | issued request => exact creating.issue request allowed
  | called index task call rest found remaining => exact creating.call found remaining inTurn
  | submitted index request rest found =>
      rw [creating.alone] at found
      cases found
  | awaited index future kind rest task same value found =>
      rw [creating.alone] at found
      cases found

omit [Zero F] [One F] in
theorem exclusive_of_creating (creating : Creating pool) : ExclusiveCreation pool := by
  have ended {task : PersistenceTask F} (member : task ∈ pool.tasks) {record : LogicalRecord}
      (creates : task.request.creates = some record) {answer : Try Bool}
      (answered : PersistenceTask.outcome task = some answer) :
      (answer = .ok true ∧ ∃ call ∈ task.made, call.Puts record.storeKey) ∨
        ∃ error, answer = .error error ∧ Refused task record error := by
    obtain ⟨program, stage, _, result⟩ := (creating.staged task member).view creates
    rw [answered] at result
    rw [Program.eq_done_of_result result.symm] at stage
    rcases stage.ended with success | ⟨error, isError, unchanged, isTaken, isMissing⟩
    · exact .inl success
    · exact .inr ⟨error, isError, unchanged, isTaken, isMissing⟩
  refine ⟨?_, ?_⟩
  · intro record first second task other found foundOther creates otherCreates succeeded
      otherSucceeded
    have claimed {index : Nat} {claimant : PersistenceTask F}
        (isThere : pool.tasks[index]? = some claimant)
        (isCreation : claimant.request.creates = some record)
        (reported : PersistenceTask.outcome claimant = some (.ok true)) :
        ClaimedBy pool record index := by
      rcases ended (List.mem_of_getElem? isThere) isCreation reported with
        ⟨_, written⟩ | ⟨_, isError, _⟩
      · exact ⟨claimant, isThere, isCreation, .inr written⟩
      · cases isError
    exact creating.unique record first second (claimed found creates succeeded)
      (claimed foundOther otherCreates otherSucceeded)
  · intro task member record creates answer answered
    rcases ended member creates answered with ⟨success, _⟩ | refused
    · exact .inl success
    · exact .inr refused

/-- In every run without deletes in which no look-up misses a record that another task has
missed and is about to write, creation is exclusive. -/
theorem creation_exclusive_of_checks_in_turn (store : Store) (actions : List (PersistenceAction F))
    (allowed : ∀ action ∈ actions, NoDeletes action)
    (inTurn : (persistenceMachine α serialization).Guarded ChecksInTurn actions
      (.initial store [])) :
    (persistenceMachine α serialization).Along ExclusiveCreation actions (.initial store []) := by
  have preserved : ∀ (pool : ThreadPool F α) (action : PersistenceAction F) (next : ThreadPool F α),
      Creating pool → NoDeletes action → ChecksInTurn pool action →
      (persistenceMachine α serialization).step pool action = some next → Creating next :=
    fun pool action next creating permitted guarded stepped =>
      creating.step permitted guarded stepped
  exact Machine.along_of_guarded preserved (fun _ creating => exclusive_of_creating creating)
    actions allowed (creating_initial store) inTurn

end Runs

/-- A document is saved twice; the second task looks for it after the first has written it. -/
def savedInTurn : List (PersistenceAction Nat) :=
  [.issue (.saveNewDocument (.bare (ascii "d"))), .issue (.saveNewDocument (.bare (ascii "d"))),
    .task 0, .task 0, .task 1, .task 0]

theorem saved_in_turn_is_exclusive :
    (persistenceMachine Unit Serialization.idsOnly).Along ExclusiveCreation savedInTurn
      (.initial ∅ []) :=
  creation_exclusive_of_checks_in_turn ∅ savedInTurn (by decide) (by decide +kernel)

/-- Both tasks miss the centroid before either writes it. -/
theorem created_by_both :
    ∃ pool : ThreadPool Nat Unit, (persistenceMachine Unit Serialization.idsOnly).exec
        [.issue (.createNewCentroid (ascii "c")), .issue (.createNewCentroid (ascii "c")),
          .task 0, .task 1, .task 0, .task 1] (.initial ∅ []) = some pool ∧
      ¬ ExclusiveCreation pool := by
  refine ⟨_, rfl, ?_⟩
  intro exclusive
  have same := exclusive.once (.centroidBody (ascii "c")) 0 1 _ _ rfl rfl rfl rfl rfl rfl
  cases same

end Relevanced.Persistence

import Relevanced.Persistence.SyncRuns

/-!
# Requests that add and remove members

`addDocumentsToCentroid` and `removeDocumentsFromCentroid` of `RelevanceServer`, with the
steps of a request executed in list order. A step that succeeds submits a stamp, and the
persistence pool may write it before any later step. Of the three flags of a request
only two are passed on to the steps.
-/

namespace Relevanced.Server

open Foundation
open Persistence

set_option autoImplicit false

structure AddDocumentsToCentroidRequest where
  centroidId : Bytes
  documentIds : List Bytes
  ignoreMissingDocument : Bool
  ignoreMissingCentroid : Bool
  ignoreAlreadyInCentroid : Bool
  deriving DecidableEq

structure AddDocumentsToCentroidResponse where
  centroidId : Bytes
  documentIds : List Bytes
  added : List Bool
  deriving DecidableEq

structure RemoveDocumentsFromCentroidRequest where
  centroidId : Bytes
  documentIds : List Bytes
  ignoreMissingDocument : Bool
  ignoreMissingCentroid : Bool
  ignoreNotInCentroid : Bool
  deriving DecidableEq

structure RemoveDocumentsFromCentroidResponse where
  centroidId : Bytes
  documentIds : List Bytes
  removed : List Bool
  deriving DecidableEq

/-- What the steps of a request act on: the store, the stamps that have been submitted and not
written, and the calls of `triggerUpdate`. -/
structure StepState where
  store : Store
  stamps : List Nat
  triggered : List Bytes

/-- What a step finds: the stamps that are written right before it, each by its place among those
that are left, and the time of the clock. -/
structure Surroundings where
  written : List Nat
  epochTime : Nat

/-- The task of `CentroidMetadataDb::setLastDocumentChangeTimestamp`. -/
def StepState.writeStamp (centroidId : Bytes) (state : StepState) (index : Nat) : StepState :=
  match state.stamps[index]? with
  | none => state
  | some stamp =>
      { state with
        store := ((SyncPersistence.setCentroidMetadata centroidId (ascii "lastDocumentChange")
          (ascii (toString stamp))).run rockHandle state.store).2
        stamps := state.stamps.eraseIdx index }

def StepState.before (centroidId : Bytes) (state : StepState) (surroundings : Surroundings) :
    StepState :=
  surroundings.written.foldl (StepState.writeStamp centroidId) state

namespace RelevanceServer

/-- One step and its continuation: the change of a member is either of the two operations of
`SyncPersistence`, and `unchanged` the exception that says that there is nothing to change. -/
def changeOneDocument (change : Bytes → Bytes → RockProgram (Try Bool))
    (unchanged : ProtocolException) (centroidId docId : Bytes)
    (ignoreMissingDoc ignoreUnchanged : Bool) (epochTime : Nat) (state : StepState) :
    Try Bool × StepState :=
  let (result, store) := (change centroidId docId).run rockHandle state.store
  let continued : StepState :=
    match result with
    | .ok _ => {
        store := store
        stamps := state.stamps ++ [epochTime]
        triggered := state.triggered ++ [centroidId] }
    | .error _ => { state with store := store }
  if ignoreMissingDoc ∧ result = .error .eDocumentDoesNotExist then (.ok false, continued)
  else if ignoreUnchanged ∧ result = .error unchanged then (.ok false, continued)
  else (result, continued)

def addOneDocumentToCentroid (centroidId docId : Bytes)
    (ignoreMissingDoc ignoreAlreadyInCentroid : Bool) :
    Nat → StepState → Try Bool × StepState :=
  changeOneDocument SyncPersistence.addDocumentToCentroid .eDocumentAlreadyInCentroid centroidId
    docId ignoreMissingDoc ignoreAlreadyInCentroid

def removeOneDocumentFromCentroid (centroidId docId : Bytes)
    (ignoreMissingDoc ignoreNotInCentroid : Bool) :
    Nat → StepState → Try Bool × StepState :=
  changeOneDocument SyncPersistence.removeDocumentFromCentroid .eDocumentNotInCentroid centroidId
    docId ignoreMissingDoc ignoreNotInCentroid

/-- The loop that pushes one task a document, and `collect(tasks)`. -/
def collectSteps (step : Bytes → Nat → StepState → Try Bool × StepState) (centroidId : Bytes) :
    (Nat → Surroundings) → List Bytes → StepState → List (Try Bool) × StepState
  | _, [], state => ([], state)
  | surroundings, docId :: docIds, state =>
      let (result, state) :=
        step docId (surroundings 0).epochTime (state.before centroidId (surroundings 0))
      let (results, state) :=
        collectSteps step centroidId (fun later => surroundings (later + 1)) docIds state
      (result :: results, state)

/-- The loop over the results: the first exception is returned. -/
def collectSuccesses : List (Try Bool) → List Bool → Try (List Bool)
  | [], successes => .ok successes
  | .error exception :: _, _ => .error exception
  | .ok success :: results, successes => collectSuccesses results (successes ++ [success])

def addDocumentsToCentroid (request : AddDocumentsToCentroidRequest)
    (surroundings : Nat → Surroundings) (state : StepState) :
    Try AddDocumentsToCentroidResponse × StepState :=
  let (results, state) := collectSteps
    (fun docId => addOneDocumentToCentroid request.centroidId docId request.ignoreMissingDocument
      request.ignoreAlreadyInCentroid)
    request.centroidId surroundings request.documentIds state
  ((collectSuccesses results []).map fun successes => {
      centroidId := request.centroidId
      documentIds := request.documentIds
      added := successes }, state)

def removeDocumentsFromCentroid (request : RemoveDocumentsFromCentroidRequest)
    (surroundings : Nat → Surroundings) (state : StepState) :
    Try RemoveDocumentsFromCentroidResponse × StepState :=
  let (results, state) := collectSteps
    (fun docId => removeOneDocumentFromCentroid request.centroidId docId
      request.ignoreMissingDocument request.ignoreNotInCentroid)
    request.centroidId surroundings request.documentIds state
  ((collectSuccesses results []).map fun successes => {
      centroidId := request.centroidId
      documentIds := request.documentIds
      removed := successes }, state)

end RelevanceServer

open RelevanceServer

/-- The flags a request sets, by the exception each of them is about. -/
def AddDocumentsToCentroidRequest.ignores (request : AddDocumentsToCentroidRequest) :
    ProtocolException → Bool
  | .eDocumentDoesNotExist => request.ignoreMissingDocument
  | .eCentroidDoesNotExist => request.ignoreMissingCentroid
  | .eDocumentAlreadyInCentroid => request.ignoreAlreadyInCentroid
  | _ => false

def RemoveDocumentsFromCentroidRequest.ignores (request : RemoveDocumentsFromCentroidRequest) :
    ProtocolException → Bool
  | .eDocumentDoesNotExist => request.ignoreMissingDocument
  | .eCentroidDoesNotExist => request.ignoreMissingCentroid
  | .eDocumentNotInCentroid => request.ignoreNotInCentroid
  | _ => false

/-- What the store answers at one step, and the store before and after. -/
structure Performed where
  docId : Bytes
  before : Store
  outcome : Try Bool
  after : Store

def performed (change : Bytes → Bytes → RockProgram (Try Bool))
    (step : Bytes → Nat → StepState → Try Bool × StepState) (centroidId : Bytes) :
    (Nat → Surroundings) → List Bytes → StepState → List Performed
  | _, [], _ => []
  | surroundings, docId :: docIds, state =>
      let before := state.before centroidId (surroundings 0)
      let ran := (change centroidId docId).run rockHandle before.store
      { docId := docId, before := before.store, outcome := ran.1, after := ran.2 } ::
        performed change step centroidId (fun later => surroundings (later + 1)) docIds
          (step docId (surroundings 0).epochTime before).2

/-- The error of a step, unless its flag is set. -/
def Performed.unignored (ignores : ProtocolException → Bool) (step : Performed) :
    Option ProtocolException :=
  match step.outcome with
  | .ok _ => none
  | .error exception => if ignores exception then none else some exception

/-- The step has changed whether the document is a member of the centroid. -/
def Performed.changesMember (centroidId : Bytes) (step : Performed) : Bool :=
  step.before.contains (getCentroidDocumentKey centroidId step.docId) !=
    step.after.contains (getCentroidDocumentKey centroidId step.docId)

/-- Each flag suppresses its own error: a request fails with the first error whose flag is not set,
or else it tells which steps have changed a member. -/
structure FlagsHonoured (ignores : ProtocolException → Bool) (centroidId : Bytes)
    (steps : List Performed) (response : Try (List Bool)) : Prop where
  fails : (∃ exception, response = .error exception) ↔
    ∃ step ∈ steps, (step.unignored ignores).isSome = true
  first : ∀ exception, response = .error exception →
    steps.findSome? (Performed.unignored ignores) = some exception
  booleans : ∀ successes, response = .ok successes →
    successes = steps.map (Performed.changesMember centroidId)

section Keys

variable (centroidId docId : Bytes)

theorem centroid_key_ne_member_key :
    getCentroidKey centroidId ≠ getCentroidDocumentKey centroidId docId := by
  intro same
  have lengths := congrArg List.length same
  simp [getCentroidKey, getCentroidsPrefix, getCentroidDocumentKey, ascii] at lengths
  omega

theorem centroid_key_ne_back_link_key :
    getCentroidKey centroidId ≠ getDocumentCentroidKey docId centroidId := by
  intro same
  have lengths := congrArg List.length same
  simp [getCentroidKey, getCentroidsPrefix, getDocumentCentroidKey, ascii] at lengths
  omega

theorem centroid_key_ne_metadata_key (metaName : Bytes) :
    getCentroidKey centroidId ≠ getCentroidMetadataKey centroidId metaName := by
  intro same
  have lengths := congrArg List.length same
  simp [getCentroidKey, getCentroidsPrefix, getCentroidMetadataKey, ascii] at lengths
  omega

/-- The two links of a pair have different keys: they are made of the ids and of different words. -/
theorem member_key_ne_back_link_key :
    getCentroidDocumentKey centroidId docId ≠ getDocumentCentroidKey docId centroidId := by
  intro same
  have counts := congrArg (List.count 109) same
  simp only [getCentroidDocumentKey, getDocumentCentroidKey, List.count_append] at counts
  have inDocuments : (ascii "__documents:").count 109 = 1 := by decide
  have inCentroids : (ascii "__centroids:").count 109 = 0 := by decide
  omega

end Keys

/-- What a change of a member answers, and what it does to the two keys that matter here. -/
inductive MemberChange (centroidId docId : Bytes) (store : Store) : Try Bool × Store → Prop where
  | missing (absent : getCentroidKey centroidId ∉ store) :
      MemberChange centroidId docId store (.error .eCentroidDoesNotExist, store)
  | refused (exception : ProtocolException) (after : Store)
      (present : getCentroidKey centroidId ∈ store) (other : exception ≠ .eCentroidDoesNotExist)
      (centroid : getCentroidKey centroidId ∈ after)
      (member : getCentroidDocumentKey centroidId docId ∈ after ↔
        getCentroidDocumentKey centroidId docId ∈ store) :
      MemberChange centroidId docId store (.error exception, after)
  | changed (after : Store) (present : getCentroidKey centroidId ∈ store)
      (centroid : getCentroidKey centroidId ∈ after)
      (member : getCentroidDocumentKey centroidId docId ∈ after ↔
        getCentroidDocumentKey centroidId docId ∉ store) :
      MemberChange centroidId docId store (.ok true, after)

theorem member_change_of_add (centroidId docId : Bytes) (store : Store) :
    MemberChange centroidId docId store
      ((SyncPersistence.addDocumentToCentroid centroidId docId).run rockHandle store) := by
  rw [SyncPersistence.run_add_document_to_centroid]
  split
  · rename_i present
    split
    · split
      · exact .refused _ _ present (by decide) present Iff.rfl
      · rename_i absent
        apply MemberChange.changed _ present
        · simp [SyncPersistence.linked, present]
        · simp [SyncPersistence.linked, absent]
    · exact .refused _ _ present (by decide) present Iff.rfl
  · rename_i absent
    exact .missing absent

theorem member_change_of_remove (centroidId docId : Bytes) (store : Store) :
    MemberChange centroidId docId store
      ((SyncPersistence.removeDocumentFromCentroid centroidId docId).run rockHandle store) := by
  have centroidKept := centroid_key_ne_back_link_key centroidId docId
  have memberKept := member_key_ne_back_link_key centroidId docId
  rw [SyncPersistence.run_remove_document_from_centroid]
  split
  · rename_i present
    have unlinkedPresent :
        getCentroidKey centroidId ∈ SyncPersistence.unlinked store centroidId docId :=
      OrderedMap.mem_erase_iff.mpr ⟨centroidKept, present⟩
    have member : getCentroidDocumentKey centroidId docId ∈
          SyncPersistence.unlinked store centroidId docId ↔
        getCentroidDocumentKey centroidId docId ∈ store :=
      OrderedMap.mem_erase_iff.trans (and_iff_right memberKept)
    split
    · split
      · rename_i linked
        apply MemberChange.changed _ present
        · exact OrderedMap.mem_erase_iff.mpr
            ⟨centroid_key_ne_member_key centroidId docId, unlinkedPresent⟩
        · simp [member.mp linked]
      · exact .refused _ _ present (by decide) unlinkedPresent member
    · exact .refused _ _ present (by decide) present Iff.rfl
  · rename_i absent
    exact .missing absent

section Steps

variable {centroidId : Bytes}

theorem centroid_of_write_stamp (state : StepState) (index : Nat) :
    getCentroidKey centroidId ∈ (state.writeStamp centroidId index).store ↔
      getCentroidKey centroidId ∈ state.store := by
  rw [StepState.writeStamp]
  split
  · rfl
  · rename_i stamp found
    simp only [SyncPersistence.setCentroidMetadata, Program.run_bind, run_put, Program.run_pure]
    rw [OrderedMap.mem_insert_iff, or_iff_right]
    exact centroid_key_ne_metadata_key centroidId _

theorem centroid_of_before (state : StepState) (surroundings : Surroundings) :
    getCentroidKey centroidId ∈ (state.before centroidId surroundings).store ↔
      getCentroidKey centroidId ∈ state.store := by
  rw [StepState.before]
  generalize surroundings.written = written
  induction written generalizing state with
  | nil => rfl
  | cons index written ih => exact (ih _).trans (centroid_of_write_stamp state index)

/-- What a step answers when the errors it lets pass are turned into `false`. -/
def Performed.result (passed : ProtocolException → Bool) (step : Performed) : Try Bool :=
  match step.outcome with
  | .ok success => .ok success
  | .error exception => if passed exception then .ok false else .error exception

def Performed.succeeds (step : Performed) : Bool :=
  match step.outcome with
  | .ok success => success
  | .error _ => false

variable {change : Bytes → Bytes → RockProgram (Try Bool)} {unchanged : ProtocolException}
  {ignoreMissingDoc ignoreUnchanged : Bool}

/-- The errors that `changeOneDocument` lets pass. -/
def passes (unchanged : ProtocolException) (ignoreMissingDoc ignoreUnchanged : Bool)
    (exception : ProtocolException) : Bool :=
  (ignoreMissingDoc && exception = .eDocumentDoesNotExist) ||
    (ignoreUnchanged && exception = unchanged)

theorem change_one_store (docId : Bytes) (epochTime : Nat) (state : StepState) :
    (changeOneDocument change unchanged centroidId docId ignoreMissingDoc ignoreUnchanged epochTime
      state).2.store = ((change centroidId docId).run rockHandle state.store).2 := by
  simp only [changeOneDocument]
  cases ((change centroidId docId).run rockHandle state.store).1 <;> split_ifs <;> rfl

theorem change_one_result (docId : Bytes) (epochTime : Nat) (state : StepState) :
    (changeOneDocument change unchanged centroidId docId ignoreMissingDoc ignoreUnchanged epochTime
      state).1 =
      Performed.result (passes unchanged ignoreMissingDoc ignoreUnchanged)
        ⟨docId, state.store, ((change centroidId docId).run rockHandle state.store).1,
          ((change centroidId docId).run rockHandle state.store).2⟩ := by
  simp only [changeOneDocument, Performed.result, passes]
  cases ((change centroidId docId).run rockHandle state.store).1 with
  | ok success => simp
  | error exception =>
      simp only [Except.error.injEq, Bool.or_eq_true, Bool.and_eq_true, decide_eq_true_eq]
      by_cases missing : ignoreMissingDoc = true ∧ exception = .eDocumentDoesNotExist
      · rw [if_pos missing, if_pos (Or.inl missing)]
      · by_cases same : ignoreUnchanged = true ∧ exception = unchanged
        · rw [if_neg missing, if_pos same, if_pos (Or.inr same)]
        · rw [if_neg missing, if_neg same, if_neg (not_or.mpr ⟨missing, same⟩)]

theorem collected_results (surroundings : Nat → Surroundings) (docIds : List Bytes)
    (state : StepState) :
    (collectSteps (fun docId => changeOneDocument change unchanged centroidId docId
        ignoreMissingDoc ignoreUnchanged) centroidId surroundings docIds state).1 =
      (performed change (fun docId => changeOneDocument change unchanged centroidId docId
        ignoreMissingDoc ignoreUnchanged) centroidId surroundings docIds state).map
        (Performed.result (passes unchanged ignoreMissingDoc ignoreUnchanged)) := by
  induction docIds generalizing surroundings state with
  | nil => rfl
  | cons docId docIds ih =>
      simp only [collectSteps, performed, List.map_cons, ih, change_one_result]

theorem performed_steps (unchanged : ProtocolException) (ignoreMissingDoc ignoreUnchanged : Bool)
    (changes : ∀ docId store,
      MemberChange centroidId docId store ((change centroidId docId).run rockHandle store))
    (surroundings : Nat → Surroundings) (docIds : List Bytes) (state : StepState) :
    ∀ step ∈ performed change (fun docId => changeOneDocument change unchanged centroidId docId
        ignoreMissingDoc ignoreUnchanged) centroidId surroundings docIds state,
      MemberChange centroidId step.docId step.before (step.outcome, step.after) ∧
        (getCentroidKey centroidId ∈ step.before ↔ getCentroidKey centroidId ∈ state.store) := by
  induction docIds generalizing surroundings state with
  | nil =>
      intro step member
      cases member
  | cons docId docIds ih =>
      have here := changes docId (state.before centroidId (surroundings 0)).store
      have found := @centroid_of_before centroidId state (surroundings 0)
      intro step member
      rcases List.mem_cons.mp member with rfl | later
      · exact ⟨here, found⟩
      · obtain ⟨isChange, same⟩ := ih _ _ step later
        refine ⟨isChange, same.trans ?_⟩
        rw [change_one_store, ← found]
        generalize (change centroidId docId).run rockHandle _ = ran at here
        cases here with
        | missing absent => rfl
        | refused exception after present other centroid member =>
            exact iff_of_true centroid present
        | changed after present centroid member => exact iff_of_true centroid present

theorem changes_member_of_change {step : Performed}
    (isChange : MemberChange centroidId step.docId step.before (step.outcome, step.after)) :
    step.changesMember centroidId = step.succeeds := by
  obtain ⟨docId, before, outcome, after⟩ := step
  have agree {first second : Store} {key : Bytes} (same : key ∈ second ↔ key ∈ first) :
      first.contains key = second.contains key := by
    rw [Bool.eq_iff_iff, Std.ExtTreeMap.contains_iff_mem, Std.ExtTreeMap.contains_iff_mem, same]
  cases isChange with
  | missing absent => simp [Performed.changesMember, Performed.succeeds]
  | refused exception after present other centroid member =>
      simp [Performed.changesMember, Performed.succeeds, agree member]
  | changed after present centroid member =>
      simp only [Performed.changesMember, Performed.succeeds, bne_iff_ne, ne_eq]
      rw [Bool.eq_iff_iff, Std.ExtTreeMap.contains_iff_mem, Std.ExtTreeMap.contains_iff_mem, member]
      exact (iff_not_self).elim

/-- The loop over the results returns the first error that has not been let pass, or all answers. -/
theorem collect_successes_eq (passed : ProtocolException → Bool) (steps : List Performed)
    (successes : List Bool) :
    collectSuccesses (steps.map (Performed.result passed)) successes =
      match steps.findSome? (Performed.unignored passed) with
      | some exception => .error exception
      | none => .ok (successes ++ steps.map Performed.succeeds) := by
  induction steps generalizing successes with
  | nil => simp [collectSuccesses]
  | cons step steps ih =>
      obtain ⟨docId, before, outcome, after⟩ := step
      cases outcome with
      | ok success =>
          simp [Performed.result, Performed.unignored, Performed.succeeds, collectSuccesses, ih,
            List.findSome?_cons]
      | error exception =>
          by_cases pass : passed exception = true
          · simp [Performed.result, Performed.unignored, Performed.succeeds, collectSuccesses, ih,
              pass]
          · simp [Performed.result, Performed.unignored, collectSuccesses, pass]

theorem missing_iff_absent {step : Performed}
    (isChange : MemberChange centroidId step.docId step.before (step.outcome, step.after)) :
    step.outcome = .error .eCentroidDoesNotExist ↔ getCentroidKey centroidId ∉ step.before := by
  obtain ⟨docId, before, outcome, after⟩ := step
  cases isChange with
  | missing absent => exact iff_of_true rfl absent
  | refused exception after present other centroid member =>
      exact iff_of_false (fun same => other (Except.error.inj same)) (not_not_intro present)
  | changed after present centroid member =>
      exact iff_of_false (fun same => nomatch same) (not_not_intro present)

variable {passed ignores : ProtocolException → Bool} {steps : List Performed}

theorem unignored_congr {step : Performed}
    (agree : ∀ exception, step.outcome = .error exception → passed exception = ignores exception) :
    step.unignored passed = step.unignored ignores := by
  rw [Performed.unignored, Performed.unignored]
  split
  · rfl
  · rename_i exception failed
    rw [agree exception failed]

theorem honoured_of_agree
    (agree : ∀ step ∈ steps, step.unignored passed = step.unignored ignores)
    (changes : ∀ step ∈ steps, step.changesMember centroidId = step.succeeds) :
    FlagsHonoured ignores centroidId steps
      (collectSuccesses (steps.map (Performed.result passed)) []) := by
  have sameFirst : steps.findSome? (Performed.unignored passed) =
      steps.findSome? (Performed.unignored ignores) := by
    have mapped (f : Performed → Option ProtocolException) :
        steps.findSome? f = (steps.map f).findSome? id := by
      rw [List.findSome?_map]
      rfl
    rw [mapped, mapped, List.map_congr_left agree]
  have collected := collect_successes_eq passed steps []
  rw [sameFirst, List.nil_append] at collected
  rw [collected]
  have someIff := List.findSome?_isSome_iff (f := Performed.unignored ignores) (l := steps)
  cases found : steps.findSome? (Performed.unignored ignores) with
  | none =>
      rw [found] at someIff
      refine ⟨?_, ?_, ?_⟩
      · simpa using someIff
      · intro exception failed
        cases failed
      · intro successes succeeded
        cases succeeded
        exact (List.map_congr_left changes).symm
  | some exception =>
      rw [found] at someIff
      refine ⟨?_, ?_, ?_⟩
      · simpa using someIff
      · intro other failed
        cases failed
        exact found
      · intro successes succeeded
        cases succeeded

theorem flags_honoured_iff_present {present : Prop}
    (agree : ∀ exception, exception ≠ .eCentroidDoesNotExist →
      passed exception = ignores exception)
    (notPassed : passed .eCentroidDoesNotExist = false)
    (isStep : ∀ step ∈ steps,
      MemberChange centroidId step.docId step.before (step.outcome, step.after) ∧
        (getCentroidKey centroidId ∈ step.before ↔ present)) :
    FlagsHonoured ignores centroidId steps
        (collectSuccesses (steps.map (Performed.result passed)) []) ↔
      ignores .eCentroidDoesNotExist = false ∨ steps = [] ∨ present := by
  have missing : ∀ step ∈ steps, step.outcome = .error .eCentroidDoesNotExist ↔ ¬ present := by
    intro step member
    obtain ⟨isChange, same⟩ := isStep step member
    rw [missing_iff_absent isChange, same]
  constructor
  · intro honoured
    by_contra condition
    simp only [not_or, Bool.not_eq_false] at condition
    obtain ⟨isSet, notEmpty, absent⟩ := condition
    obtain ⟨step, rest, rfl⟩ := List.exists_cons_of_ne_nil notEmpty
    -- the error of the first step is not let pass, although its flag is set
    have fails : collectSuccesses ((step :: rest).map (Performed.result passed)) [] =
        .error .eCentroidDoesNotExist := by
      have outcome := (missing step List.mem_cons_self).mpr absent
      rw [List.map_cons, Performed.result, outcome]
      simp [notPassed, collectSuccesses]
    obtain ⟨blamed, member, isUnignored⟩ := honoured.fails.mp ⟨_, fails⟩
    rw [Performed.unignored, (missing blamed member).mpr absent] at isUnignored
    simp [isSet] at isUnignored
  · intro condition
    apply honoured_of_agree
    · intro step member
      apply unignored_congr
      intro exception failed
      by_cases isMissing : exception = .eCentroidDoesNotExist
      · rw [isMissing] at failed ⊢
        rcases condition with unset | empty | there
        · rw [notPassed, unset]
        · rw [empty] at member
          cases member
        · exact absurd there ((missing step member).mp failed)
      · exact agree exception isMissing
    · exact fun step member => changes_member_of_change (isStep step member).1

end Steps

theorem performed_eq_nil_iff {change : Bytes → Bytes → RockProgram (Try Bool)}
    {step : Bytes → Nat → StepState → Try Bool × StepState} {centroidId : Bytes}
    {surroundings : Nat → Surroundings} {docIds : List Bytes} {state : StepState} :
    performed change step centroidId surroundings docIds state = [] ↔ docIds = [] := by
  cases docIds with
  | nil => exact iff_of_true rfl rfl
  | cons docId docIds => exact iff_of_false (List.cons_ne_nil _ _) (List.cons_ne_nil _ _)

theorem collected_of_map {Response : Type} (result : Try (List Bool)) (build : List Bool → Response)
    (read : Response → List Bool) (inverse : ∀ successes, read (build successes) = successes) :
    (result.map build).map read = result := by
  cases result with
  | error exception => rfl
  | ok successes => exact congrArg Except.ok (inverse successes)

/-- A request whose flags are passed on, but for that of a missing centroid, honours them where it
does not matter. -/
theorem honours_flags_iff {change : Bytes → Bytes → RockProgram (Try Bool)}
    {unchanged : ProtocolException} {ignoreMissingDoc ignoreUnchanged : Bool} {centroidId : Bytes}
    {ignores : ProtocolException → Bool}
    (changes : ∀ docId store,
      MemberChange centroidId docId store ((change centroidId docId).run rockHandle store))
    (agree : ∀ exception, exception ≠ .eCentroidDoesNotExist →
      passes unchanged ignoreMissingDoc ignoreUnchanged exception = ignores exception)
    (notPassed : passes unchanged ignoreMissingDoc ignoreUnchanged .eCentroidDoesNotExist = false)
    (surroundings : Nat → Surroundings) (docIds : List Bytes) (state : StepState)
    {answers : Try (List Bool)}
    (collected : answers = collectSuccesses (collectSteps (fun docId => changeOneDocument change
      unchanged centroidId docId ignoreMissingDoc ignoreUnchanged) centroidId surroundings docIds
        state).1 []) :
    FlagsHonoured ignores centroidId (performed change (fun docId => changeOneDocument change
        unchanged centroidId docId ignoreMissingDoc ignoreUnchanged) centroidId surroundings docIds
          state) answers ↔
      ignores .eCentroidDoesNotExist = false ∨ docIds = [] ∨
        getCentroidKey centroidId ∈ state.store := by
  have isStep := performed_steps unchanged ignoreMissingDoc ignoreUnchanged changes surroundings
    docIds state
  have honoured := flags_honoured_iff_present agree notPassed isStep
  rw [performed_eq_nil_iff, ← collected_results] at honoured
  rw [collected]
  exact honoured

/-- The steps of `addDocumentsToCentroid`. -/
def AddDocumentsToCentroidRequest.steps (request : AddDocumentsToCentroidRequest)
    (surroundings : Nat → Surroundings) (state : StepState) : List Performed :=
  performed SyncPersistence.addDocumentToCentroid
    (fun docId => addOneDocumentToCentroid request.centroidId docId request.ignoreMissingDocument
      request.ignoreAlreadyInCentroid)
    request.centroidId surroundings request.documentIds state

/-- The steps of `removeDocumentsFromCentroid`. -/
def RemoveDocumentsFromCentroidRequest.steps (request : RemoveDocumentsFromCentroidRequest)
    (surroundings : Nat → Surroundings) (state : StepState) : List Performed :=
  performed SyncPersistence.removeDocumentFromCentroid
    (fun docId => removeOneDocumentFromCentroid request.centroidId docId
      request.ignoreMissingDocument request.ignoreNotInCentroid)
    request.centroidId surroundings request.documentIds state

theorem add_honours_flags_iff (request : AddDocumentsToCentroidRequest)
    (surroundings : Nat → Surroundings) (state : StepState) :
    FlagsHonoured request.ignores request.centroidId (request.steps surroundings state)
        ((addDocumentsToCentroid request surroundings state).1.map
          AddDocumentsToCentroidResponse.added) ↔
      request.ignoreMissingCentroid = false ∨ request.documentIds = [] ∨
        getCentroidKey request.centroidId ∈ state.store := by
  apply honours_flags_iff (member_change_of_add request.centroidId)
  · intro exception other
    cases exception <;> simp_all [passes, AddDocumentsToCentroidRequest.ignores]
  · simp [passes]
  · exact collected_of_map _ _ _ fun _ => rfl

theorem remove_honours_flags_iff (request : RemoveDocumentsFromCentroidRequest)
    (surroundings : Nat → Surroundings) (state : StepState) :
    FlagsHonoured request.ignores request.centroidId (request.steps surroundings state)
        ((removeDocumentsFromCentroid request surroundings state).1.map
          RemoveDocumentsFromCentroidResponse.removed) ↔
      request.ignoreMissingCentroid = false ∨ request.documentIds = [] ∨
        getCentroidKey request.centroidId ∈ state.store := by
  apply honours_flags_iff (member_change_of_remove request.centroidId)
  · intro exception other
    cases exception <;> simp_all [passes, RemoveDocumentsFromCentroidRequest.ignores]
  · simp [passes]
  · exact collected_of_map _ _ _ fun _ => rfl

/-- Each flag of a request suppresses its own error, but for that of a missing centroid, which is
not passed on. -/
theorem flags_honoured_iff (surroundings : Nat → Surroundings) (state : StepState) :
    (∀ request : AddDocumentsToCentroidRequest,
      FlagsHonoured request.ignores request.centroidId (request.steps surroundings state)
          ((addDocumentsToCentroid request surroundings state).1.map
            AddDocumentsToCentroidResponse.added) ↔
        request.ignoreMissingCentroid = false ∨ request.documentIds = [] ∨
          getCentroidKey request.centroidId ∈ state.store) ∧
    ∀ request : RemoveDocumentsFromCentroidRequest,
      FlagsHonoured request.ignores request.centroidId (request.steps surroundings state)
          ((removeDocumentsFromCentroid request surroundings state).1.map
            RemoveDocumentsFromCentroidResponse.removed) ↔
        request.ignoreMissingCentroid = false ∨ request.documentIds = [] ∨
          getCentroidKey request.centroidId ∈ state.store :=
  ⟨fun request => add_honours_flags_iff request surroundings state,
    fun request => remove_honours_flags_iff request surroundings state⟩

def addIgnoringMissingCentroid : AddDocumentsToCentroidRequest :=
  ⟨ascii "c", [ascii "d"], false, true, false⟩

def removeIgnoringMissingCentroid : RemoveDocumentsFromCentroidRequest :=
  ⟨ascii "c", [ascii "d"], false, true, false⟩

/-- On an empty store both requests fail with the error that they say is to be ignored. -/
theorem missing_centroid_not_ignored :
    (¬ FlagsHonoured addIgnoringMissingCentroid.ignores (ascii "c")
      (addIgnoringMissingCentroid.steps (fun _ => ⟨[], 0⟩) ⟨∅, [], []⟩)
      ((addDocumentsToCentroid addIgnoringMissingCentroid (fun _ => ⟨[], 0⟩) ⟨∅, [], []⟩).1.map
        AddDocumentsToCentroidResponse.added)) ∧
    ¬ FlagsHonoured removeIgnoringMissingCentroid.ignores (ascii "c")
      (removeIgnoringMissingCentroid.steps (fun _ => ⟨[], 0⟩) ⟨∅, [], []⟩)
      ((removeDocumentsFromCentroid removeIgnoringMissingCentroid (fun _ => ⟨[], 0⟩)
        ⟨∅, [], []⟩).1.map RemoveDocumentsFromCentroidResponse.removed) := by
  constructor
  · intro honoured
    exact absurd (honoured.fails.mp ⟨.eCentroidDoesNotExist, rfl⟩) (by decide)
  · intro honoured
    exact absurd (honoured.fails.mp ⟨.eCentroidDoesNotExist, rfl⟩) (by decide)

end Relevanced.Server

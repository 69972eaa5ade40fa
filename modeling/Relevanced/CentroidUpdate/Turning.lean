import Relevanced.CentroidUpdate.Bounds
import Relevanced.CentroidUpdate.UpdaterRuns
import Relevanced.Foundation.Company

/-!
# The pages a run of CentroidUpdater turns

What a run does with its pages when others use the store at the same time: for any
contract that covers the requests it waits for, a run that is cut short has turned as many
full pages as it may, and any other run has come to a page after which it stops.
-/

namespace Relevanced.CentroidUpdate

open Foundation
open Models
open Persistence

set_option autoImplicit false

namespace CentroidUpdater

variable {F : Type}

section Relations

variable (contract : Contract Store (PersistenceIf F)) (centroidId : Bytes)

/-- So many full pages, each listed from the last id of the page before. -/
inductive FullPages : Nat → List Bytes → List Bytes → Prop where
  | none (idSet : List Bytes) : FullPages 0 idSet idSet
  | next {pages : Nat} {idSet nextIdSet last : List Bytes}
      (listed : contract.Answers (.listCentroidDocumentRangeFromDocumentIdOption centroidId
        (idSet.getLastD []) idListBatchSize) (some nextIdSet))
      (full : idListBatchSize ≤ nextIdSet.length) (later : FullPages pages nextIdSet last) :
      FullPages (pages + 1) idSet last

/-- Nothing full comes after the page, or a load of one of its documents throws. -/
def StopsAt (idSet : List Bytes) : Prop :=
  (∃ answer, contract.Answers (.listCentroidDocumentRangeFromDocumentIdOption centroidId
      (idSet.getLastD []) idListBatchSize) answer ∧
    ∀ nextIdSet, answer = some nextIdSet → nextIdSet.length < idListBatchSize) ∨
  ∃ id ∈ idSet, contract.Answers (.loadDocument id) none

inductive LoopEnds (pages : Nat) (idSet : List Bytes) :
    Except (RunOutcome F) (Accumulated F) → Prop where
  | unfinished {last : List Bytes} (turned : FullPages contract centroidId pages idSet last) :
      LoopEnds pages idSet (.error .unfinished)
  | stopped {result : Except (RunOutcome F) (Accumulated F)} {turned : Nat} {last : List Bytes}
      (other : result ≠ .error .unfinished)
      (reached : FullPages contract centroidId turned idSet last)
      (stops : StopsAt contract centroidId last) : LoopEnds pages idSet result

inductive RunStops : Prop where
  | missing (answers : contract.Answers (.doesCentroidExist centroidId) false)
  | unlisted (answers : contract.Answers
      (.listCentroidDocumentRangeFromOffsetOption centroidId 0 idListBatchSize) none)
  | empty (answers : contract.Answers
      (.listCentroidDocumentRangeFromOffsetOption centroidId 0 idListBatchSize) (some []))
  | page {turned : Nat} {first last : List Bytes} (answers : contract.Answers
      (.listCentroidDocumentRangeFromOffsetOption centroidId 0 idListBatchSize) (some first))
      (reached : FullPages contract centroidId turned first last)
      (stops : StopsAt contract centroidId last)

/-- How a run that may go through so many pages ends. -/
inductive Turned (pages : Nat) : RunOutcome F → Prop where
  | unfinished {first last : List Bytes} (answers : contract.Answers
      (.listCentroidDocumentRangeFromOffsetOption centroidId 0 idListBatchSize) (some first))
      (turned : FullPages contract centroidId pages first last) : Turned pages .unfinished
  | stopped {outcome : RunOutcome F} (other : outcome ≠ .unfinished)
      (stops : RunStops contract centroidId) : Turned pages outcome

/-- The contract covers every request a run waits for, on pages in `Read`. -/
structure Covers (Read : List Bytes → Prop) : Prop where
  finds : contract.Good (.doesCentroidExist centroidId)
  lists : contract.Good (.listCentroidDocumentRangeFromOffsetOption centroidId 0 idListBatchSize)
  continues : ∀ start, contract.Good
    (.listCentroidDocumentRangeFromDocumentIdOption centroidId start idListBatchSize)
  first : ∀ idSet, contract.Answers (.listCentroidDocumentRangeFromOffsetOption centroidId 0
    idListBatchSize) (some idSet) → Read idSet
  next : ∀ start nextIdSet, contract.Answers (.listCentroidDocumentRangeFromDocumentIdOption
    centroidId start idListBatchSize) (some nextIdSet) → Read nextIdSet
  loads : ∀ idSet, Read idSet → ∀ id ∈ idSet, contract.Good (.loadDocument id)
  saves : ∀ centroid, contract.Good (.saveCentroid centroidId centroid)

end Relations

section Delivering

variable {contract : Contract Store (PersistenceIf F)} {submitted : List (PersistenceCall F)}

theorem found_later {call : PersistenceCall F} {later : List (PersistenceCall F)} {future : Nat}
    (further : submitted <+: later) (found : submitted[future]? = some call) :
    later[future]? = some call := by
  obtain ⟨rest, rfl⟩ := further
  rw [List.getElem?_append_left (List.getElem?_eq_some_iff.mp found).1]
  exact found

def LoadsAsked (submitted : List (PersistenceCall F)) : List Nat → List Bytes → Prop :=
  List.Forall₂ fun future id => submitted[future]? = some (.loadDocument id)

theorem LoadsAsked.later {later : List (PersistenceCall F)} {futures : List Nat} {ids : List Bytes}
    (asked : LoadsAsked submitted futures ids) (further : submitted <+: later) :
    LoadsAsked later futures ids :=
  List.Forall₂.imp (fun _ _ found => found_later further found) asked

theorem delivers_among_request_documents (ids : List Bytes) :
    DeliversAmong contract (fun futures later => submitted <+: later ∧ LoadsAsked later futures ids)
      (requestDocuments ids) submitted := by
  induction ids generalizing submitted with
  | nil => exact delivers_among_pure fun others => ⟨List.prefix_append _ _, .nil⟩
  | cons id ids ih =>
      apply delivers_among_submit_bind
      intro others
      apply delivers_among_bind ih
      intro futures later requested
      obtain ⟨further, asked⟩ := requested
      apply delivers_among_pure
      intro more
      have furtherStill := further.trans (List.prefix_append later more)
      rw [List.append_assoc] at furtherStill
      refine ⟨(List.prefix_append _ _).trans furtherStill, ?_⟩
      refine .cons ?_ (asked.later (List.prefix_append later more))
      apply found_later furtherStill
      rw [← List.append_assoc, List.getElem?_append_right (le_refl _), Nat.sub_self]
      rfl

theorem delivers_among_collect {futures : List Nat} {ids : List Bytes}
    (asked : LoadsAsked submitted futures ids)
    (good : ∀ id ∈ ids, contract.Good (.loadDocument id)) :
    DeliversAmong contract (fun documents later => submitted <+: later ∧
        (documents = none → ∃ id ∈ ids, contract.Answers (.loadDocument id) none))
      (collect futures) submitted := by
  induction asked with
  | nil =>
      apply delivers_among_pure
      exact fun others => ⟨List.prefix_append _ _, fun thrown => nomatch thrown⟩
  | cons found rest ih =>
      rename_i future id futures ids
      apply delivers_among_await_bind (J := PersistenceIf F) (.loadDocument id) rfl found
        (good id List.mem_cons_self)
      intro loaded answers
      cases loaded with
      | none =>
          apply delivers_among_pure
          exact fun others => ⟨List.prefix_append _ _, fun _ => ⟨id, List.mem_cons_self, answers⟩⟩
      | some loaded =>
          apply delivers_among_bind
            (ih fun other member => good other (List.mem_cons_of_mem id member))
          intro documents later collected
          obtain ⟨further, thrown⟩ := collected
          cases documents with
          | none =>
              obtain ⟨other, member, answered⟩ := thrown rfl
              apply delivers_among_pure
              exact fun others => ⟨further.trans (List.prefix_append _ _),
                fun _ => ⟨other, List.mem_cons_of_mem id member, answered⟩⟩
          | some documents =>
              apply delivers_among_pure
              exact fun others =>
                ⟨further.trans (List.prefix_append _ _), fun absurdly => nomatch absurdly⟩

variable [Add F] {centroidId : Bytes} {Read : List Bytes → Prop}

theorem delivers_among_add_documents {idSet : List Bytes} (i : Nat)
    (loadedDocuments : List (Option (ProcessedDocument F)))
    (fits : i + loadedDocuments.length ≤ idSet.length) (accumulated : Accumulated F) :
    DeliversAmong contract (fun result later => submitted <+: later ∧ result ≠ none)
      (addDocuments centroidId idSet i loadedDocuments accumulated) submitted := by
  induction loadedDocuments generalizing i accumulated submitted with
  | nil =>
      apply delivers_among_pure
      exact fun others => ⟨List.prefix_append _ _, fun absurdly => nomatch absurdly⟩
  | cons loaded loadedDocuments ih =>
      rw [List.length_cons] at fits
      cases loaded with
      | some document => exact ih (i + 1) (by omega) _
      | none =>
          have inside : i < idSet.length := by omega
          simp only [addDocuments, List.getElem?_eq_getElem inside]
          apply delivers_among_submit_bind
          intro others
          apply (ih (i + 1) (by omega) accumulated).mono
          intro result later ended
          obtain ⟨further, added⟩ := ended
          rw [List.append_assoc] at further
          exact ⟨(List.prefix_append _ _).trans further, added⟩

theorem delivers_among_batches {idSet : List Bytes}
    (good : ∀ id ∈ idSet, contract.Good (.loadDocument id)) (docNums : List Nat)
    (accumulated : Accumulated F) :
    DeliversAmong contract (fun result later => submitted <+: later ∧
        (result = none → ∃ id ∈ idSet, contract.Answers (.loadDocument id) none))
      (processBatches centroidId idSet docNums accumulated) submitted := by
  induction docNums generalizing submitted accumulated with
  | nil =>
      apply delivers_among_pure
      exact fun others => ⟨List.prefix_append _ _, fun absurdly => nomatch absurdly⟩
  | cons docNum docNums ih =>
      apply delivers_among_bind (delivers_among_request_documents (batchAt idSet docNum))
      intro futures later requested
      obtain ⟨further, asked⟩ := requested
      have goodBatch : ∀ id ∈ batchAt idSet docNum, contract.Good (.loadDocument id) :=
        fun id member => good id (mem_of_mem_batch member)
      apply delivers_among_bind ((delivers_among_collect asked goodBatch).returning
        (collected_documents futures))
      intro documents later collected
      obtain ⟨⟨furtherStill, thrown⟩, sizes⟩ := collected
      have reached := further.trans furtherStill
      cases documents with
      | none =>
          obtain ⟨id, member, answers⟩ := thrown rfl
          apply delivers_among_pure
          exact fun others => ⟨reached.trans (List.prefix_append _ _),
            fun _ => ⟨id, mem_of_mem_batch member, answers⟩⟩
      | some loadedDocuments =>
          have fits : 0 + loadedDocuments.length ≤ idSet.length := by
            have size := sizes loadedDocuments rfl
            have sameSize := asked.length_eq
            have within := batch_fits idSet docNum
            omega
          apply delivers_among_bind
            (delivers_among_add_documents 0 loadedDocuments fits accumulated)
          intro result later added
          obtain ⟨furtherAgain, isThere⟩ := added
          cases result with
          | none => exact absurd rfl isThere
          | some accumulated =>
              apply (ih accumulated).mono
              intro result last ended
              exact ⟨(reached.trans furtherAgain).trans ended.1, ended.2⟩

theorem delivers_among_pages (covers : Covers contract centroidId Read) (pages : Nat)
    {idSet : List Bytes} (read : Read idSet) (accumulated : Accumulated F) :
    DeliversAmong contract (fun result _ => LoopEnds contract centroidId pages idSet result)
      (processPages centroidId pages idSet accumulated) submitted := by
  induction pages generalizing idSet submitted accumulated with
  | zero => exact delivers_among_pure fun _ => .unfinished (.none idSet)
  | succ pages ih =>
      apply delivers_among_submit_bind
      intro others
      apply delivers_among_bind
        (delivers_among_batches (covers.loads idSet read) (batchStarts idSet) accumulated)
      intro result later ended
      obtain ⟨further, thrown⟩ := ended
      cases result with
      | none =>
          apply delivers_among_pure
          exact fun _ => .stopped (by simp) (.none idSet) (.inr (thrown rfl))
      | some accumulated =>
          have found : later[(submitted ++ others).length]? =
              some (.listCentroidDocumentRangeFromDocumentIdOption centroidId (idSet.getLastD [])
                idListBatchSize) := by
            apply found_later further
            rw [List.getElem?_append_right (le_refl _), Nat.sub_self]
            rfl
          apply delivers_among_await_bind (J := PersistenceIf F) _ rfl found (covers.continues _)
          intro nextIdSet answers
          cases nextIdSet with
          | none =>
              apply delivers_among_pure
              exact fun _ => .stopped (by simp) (.none idSet) (.inl ⟨none, answers, by simp⟩)
          | some nextIdSet =>
              change DeliversAmong contract _
                (if nextIdSet.length ≥ idListBatchSize then
                  processPages centroidId pages nextIdSet accumulated
                else pure (.ok accumulated)) later
              by_cases full : idListBatchSize ≤ nextIdSet.length
              · rw [if_pos full]
                apply (ih (covers.next _ nextIdSet answers) accumulated).mono
                intro result last ended
                cases ended with
                | unfinished turned => exact .unfinished (.next answers full turned)
                | stopped other reached stops =>
                    exact .stopped other (.next answers full reached) stops
              · rw [if_neg full]
                apply delivers_among_pure
                refine fun _ => .stopped (by simp) (.none idSet) (.inl ⟨_, answers, ?_⟩)
                intro next same
                cases same
                exact not_le.mp full

omit [Add F] in
theorem delivers_among_does_centroid_exist
    (finds : contract.Good (.doesCentroidExist centroidId)) :
    DeliversAmong contract (fun present _ =>
        contract.Answers (.doesCentroidExist centroidId) present)
      (doesCentroidExist centroidId) submitted := by
  apply delivers_among_submit_bind
  intro others
  apply delivers_among_await_bind (J := PersistenceIf F) (.doesCentroidExist centroidId) rfl
    (by simp) finds
  intro present answers
  exact delivers_among_pure fun _ => answers

variable [Zero F] [Mul F] [NatCast F]

theorem delivers_among_finish (covers : Covers contract centroidId Read) (sqrt : F → F)
    (startTimestamp : Nat) (accumulated : Accumulated F) :
    DeliversAmong contract (fun outcome _ => outcome ≠ .unfinished)
      (finish sqrt centroidId startTimestamp accumulated) submitted := by
  apply delivers_among_bind (delivers_among_does_centroid_exist covers.finds)
  intro present later answers
  cases present with
  | false => exact delivers_among_pure fun _ => by simp
  | true =>
      apply delivers_among_submit_bind
      intro others
      apply delivers_among_await_bind (J := PersistenceIf F) (.saveCentroid centroidId
        (centroidOf sqrt centroidId accumulated.accumulator)) rfl (by simp) (covers.saves _)
      intro saved _
      apply delivers_among_submit_bind
      intro others
      exact delivers_among_pure fun _ => by simp

theorem delivers_among_run (covers : Covers contract centroidId Read) (sqrt : F → F)
    (startTimestamp pages : Nat) :
    DeliversAmong contract (fun outcome _ => Turned contract centroidId pages outcome)
      (run sqrt centroidId startTimestamp pages) submitted := by
  apply delivers_among_bind (delivers_among_does_centroid_exist covers.finds)
  intro present later answers
  cases present with
  | false => exact delivers_among_pure fun _ => .stopped (by simp) (.missing answers)
  | true =>
      apply delivers_among_submit_bind
      intro others
      apply delivers_among_await_bind (J := PersistenceIf F)
        (.listCentroidDocumentRangeFromOffsetOption centroidId 0 idListBatchSize) rfl (by simp)
        covers.lists
      intro idSet listed
      cases idSet with
      | none => exact delivers_among_pure fun _ => .stopped (by simp) (.unlisted listed)
      | some idSet =>
          cases idSet with
          | nil =>
              apply (delivers_among_finish covers sqrt startTimestamp _).mono
              exact fun outcome _ other => .stopped other (.empty listed)
          | cons id ids =>
              apply delivers_among_bind
                (delivers_among_pages covers pages (covers.first _ listed) _)
              intro result later ended
              cases result with
              | error outcome =>
                  apply delivers_among_pure
                  intro _
                  cases ended with
                  | unfinished turned => exact .unfinished listed turned
                  | stopped other reached stops =>
                      exact .stopped (fun same => other (congrArg Except.error same))
                        (.page listed reached stops)
              | ok accumulated =>
                  apply (delivers_among_finish covers sqrt startTimestamp accumulated).mono
                  intro outcome _ other
                  cases ended with
                  | stopped _ reached stops => exact .stopped other (.page listed reached stops)

end Delivering

end CentroidUpdater

end Relevanced.CentroidUpdate

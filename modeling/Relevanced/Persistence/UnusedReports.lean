import Relevanced.Foundation.Decimal
import Relevanced.Persistence.PublicCalls

/-!
# What the list of unused documents reports

A document is reported as unused when it has no back-link, and it is used when an existing
centroid lists it. The two differ once a document that is still listed is saved anew, and
once a centroid is deleted while its documents keep their back-links to it.
-/

namespace Relevanced.Persistence

open Foundation
open Models
open SyncPersistence
open LogicalRecord

set_option autoImplicit false

section Reports

variable (store : Store)

def Lists (centroidId documentId : Bytes) : Prop :=
  ∃ ids, ((listAllDocumentsForCentroid centroidId).run rockHandle store).1 = .ok ids ∧
    documentId ∈ ids

/-- No document that is reported as unused is listed by an existing centroid. -/
def UnusedAreUnlisted : Prop :=
  ∀ limit, ∀ d ∈ ((listUnusedDocuments limit).run rockHandle store).1,
    ∀ c, Holds store (centroidBody c) → ¬ Lists store c d

/-- Every document that no existing centroid lists is reported as unused. -/
def UnlistedAreReported : Prop :=
  ∀ d, Holds store (documentBody d) → (∀ c, Holds store (centroidBody c) → ¬ Lists store c d) →
    d ∈ ((listUnusedDocuments 0).run rockHandle store).1

theorem lists_iff {centroidId : Bytes} (free : colon ∉ centroidId)
    (existing : Holds store (centroidBody centroidId)) (documentId : Bytes) :
    Lists store centroidId documentId ↔ (records store).listed centroidId documentId := by
  have labelFree : colon ∉ getCentroidDocumentPrefix centroidId :=
    mt (colon_in_scan_label_iff (.members centroidId)).mp free
  have ran := run_unless_missing_of_existing store existing
    (run_list_ids store (getCentroidDocumentPrefix centroidId))
  have isMember := mem_ids_under_iff store labelFree documentId
  rw [← member_key_eq_join] at isMember
  rw [Lists, listAllDocumentsForCentroid, listAllDocumentsForCentroidRaw, ran]
  constructor
  · rintro ⟨ids, answered, listed⟩
    cases answered
    exact ⟨free, isMember.mp listed⟩
  · rintro ⟨_, held⟩
    exact ⟨_, rfl, isMember.mpr held⟩

theorem mem_unused_ids_iff {documentId : Bytes} (documentsFree : FreeDocuments store) :
    documentId ∈ unusedIds store ↔
      (records store).item documentId ∧ ∀ c, ¬ (records store).linked documentId c := by
  rw [unusedIds, List.mem_filter, mem_document_ids_iff, decide_eq_true_iff, unlinked_iff]
  apply and_congr_right
  intro stored
  apply forall_congr'
  intro c
  exact not_congr (and_iff_right (documentsFree documentId stored)).symm

variable {store} (free : (records store).Within (colon ∉ ·) (colon ∉ ·))

include free

theorem unused_are_unlisted_iff : UnusedAreUnlisted store ↔ (records store).UnusedUnlisted := by
  have listedIff (c d : Bytes) (existing : Holds store (centroidBody c)) :=
    lists_iff store (free.group c existing) existing d
  have isUnused (d : Bytes) := @mem_unused_ids_iff store d free.item
  constructor
  · intro reported d stored unlinked c existing listed
    apply reported 0 d _ c existing ((listedIff c d existing).mpr listed)
    rw [run_list_unused_documents, up_to_zero]
    exact (isUnused d).mpr ⟨stored, unlinked⟩
  · intro unlisted limit d member c existing listed
    rw [run_list_unused_documents] at member
    obtain ⟨stored, unlinked⟩ := (isUnused d).mp ((up_to_sublist limit _).subset member)
    exact unlisted d stored unlinked c existing ((listedIff c d existing).mp listed)

theorem unlisted_are_reported_iff : UnlistedAreReported store ↔ (records store).LinkedListed := by
  have listedIff (c d : Bytes) (existing : Holds store (centroidBody c)) :=
    lists_iff store (free.group c existing) existing d
  have isUnused (d : Bytes) := @mem_unused_ids_iff store d free.item
  constructor
  · intro reported d c stored linked
    by_contra nowhere
    have unlisted : ∀ other, Holds store (centroidBody other) → ¬ Lists store other d :=
      fun other existing listed => nowhere ⟨other, existing, (listedIff other d existing).mp listed⟩
    have member := reported d stored unlisted
    rw [run_list_unused_documents, up_to_zero] at member
    exact ((isUnused d).mp member).2 c linked
  · intro used d stored unlisted
    rw [run_list_unused_documents, up_to_zero]
    apply (isUnused d).mpr
    refine ⟨stored, ?_⟩
    intro c linked
    obtain ⟨other, existing, listed⟩ := used d c stored linked
    exact unlisted other existing ((listedIff other d existing).mpr listed)

end Reports

section Runs

variable {F : Type}

/-- The call adds no document that an existing centroid lists already. -/
def SavesUnlisted (store : Store) : PublicCall F → Prop
  | .sync (.saveNewDocument doc) =>
      ¬ Holds store (documentBody doc.id) →
        ∀ c, Holds store (centroidBody c) → ¬ Holds store (member c doc.id)
  | .saveDocument doc =>
      ¬ Holds store (documentBody doc.id) →
        ∀ c, Holds store (centroidBody c) → ¬ Holds store (member c doc.id)
  | _ => True

def ListedElsewhere (store : Store) (c d : Bytes) : Prop :=
  ∃ other, other ≠ c ∧ Holds store (centroidBody other) ∧ Holds store (member other d)

/-- The call takes no document that keeps a back-link out of the last centroid that lists it. -/
def KeepsListed (store : Store) : PublicCall F → Prop
  | .sync (.deleteCentroid c) =>
      Holds store (centroidBody c) → ∀ d, Holds store (documentBody d) → ¬ Unlinked store d →
        ListedElsewhere store c d
  | .sync (.removeDocumentFromCentroid c d) =>
      Holds store (centroidBody c) → Holds store (documentBody d) →
        (∃ other, other ≠ c ∧ Holds store (backLink d other)) → ListedElsewhere store c d
  | _ => True

variable (toInt64 : Bytes → Option Int64) {store : Store}

theorem adds_unlisted_iff (free : (records store).Within (colon ∉ ·) (colon ∉ ·))
    (call : PublicCall F) :
    (records store).AddsUnlisted (call.change toInt64 store) ↔ SavesUnlisted store call := by
  have adds (d : Bytes) : (records store).AddsUnlisted (.addItem d) ↔
      (¬ Holds store (documentBody d) →
        ∀ c, Holds store (centroidBody c) → ¬ Holds store (member c d)) := by
    apply imp_congr_right
    intro _
    apply forall_congr'
    intro c
    apply imp_congr_right
    intro existing
    exact not_congr (and_iff_right (free.group c existing))
  cases call with
  | sync call =>
      cases call with
      | saveNewDocument doc => exact adds doc.id
      | createNewCentroid c => exact Iff.rfl
      | deleteDocument d => exact iff_of_true (of_change_or_keep trivial fun _ => trivial) trivial
      | deleteCentroid c => exact iff_of_true (of_change_or_keep trivial fun _ => trivial) trivial
      | addDocumentToCentroid c d =>
          exact iff_of_true (of_change_or_keep trivial fun _ => trivial) trivial
      | removeDocumentFromCentroid c d =>
          exact iff_of_true (of_change_or_keep trivial fun _ => trivial) trivial
      | _ => exact Iff.rfl
  | saveDocument doc => exact adds doc.id
  | _ => exact Iff.rfl

theorem listed_elsewhere_iff (free : (records store).Within (colon ∉ ·) (colon ∉ ·)) (c d : Bytes) :
    (∃ other, other ≠ c ∧ (records store).group other ∧ (records store).listed other d) ↔
      ListedElsewhere store c d := by
  apply exists_congr
  intro other
  apply and_congr_right
  intro _
  apply and_congr_right
  intro existing
  exact and_iff_right (free.group other existing)

theorem leaves_listed_iff (free : (records store).Within (colon ∉ ·) (colon ∉ ·))
    (call : PublicCall F) :
    (records store).LeavesListed (call.change toInt64 store) ↔ KeepsListed store call := by
  cases call with
  | sync call =>
      cases call with
      | deleteDocument d => exact iff_of_true (of_change_or_keep trivial fun _ => trivial) trivial
      | deleteCentroid c =>
          rw [PublicCall.change, KeepsListed]
          split
          · rename_i existing
            constructor
            · intro leaves _ d stored isLinked
              rw [unlinked_iff] at isLinked
              push Not at isLinked
              obtain ⟨g, held⟩ := isLinked
              exact (listed_elsewhere_iff free c d).mp
                (leaves d g stored ⟨free.item d stored, held⟩)
            · intro keeps d g stored linked
              apply (listed_elsewhere_iff free c d).mpr
              apply keeps existing d stored
              rw [unlinked_iff]
              exact fun none => none g linked.2
          · rename_i missing
            exact iff_of_true trivial fun existing => absurd existing missing
      | addDocumentToCentroid c d =>
          exact iff_of_true (of_change_or_keep trivial fun _ => trivial) trivial
      | removeDocumentFromCentroid c d =>
          rw [PublicCall.change, KeepsListed]
          split
          · rename_i both
            constructor
            · rintro leaves _ stored ⟨other, apart, held⟩
              exact (listed_elsewhere_iff free c d).mp
                (leaves other apart stored ⟨free.item d stored, held⟩)
            · intro keeps g apart stored linked
              exact (listed_elsewhere_iff free c d).mpr (keeps both.1 stored ⟨g, apart, linked.2⟩)
          · rename_i missing
            exact iff_of_true trivial fun existing stored => absurd ⟨existing, stored⟩ missing
      | _ => exact Iff.rfl
  | _ => exact Iff.rfl

variable [Zero F] [One F] (serialization : Serialization F)

/-- A sequence of calls keeps reported documents unlisted in every state exactly when none of its
calls adds a document that is still listed. -/
theorem unused_unlisted_iff_saves_unlisted (calls : List (PublicCall F))
    (free : ∀ call ∈ calls, call.ColonFree) :
    (publicMachine serialization toInt64).Along UnusedAreUnlisted calls ∅ ↔
      (publicMachine serialization toInt64).Guarded SavesUnlisted calls ∅ := by
  have follows (store : Store) (call : PublicCall F) (kept : RecordsKept store)
      (callFree : call.ColonFree) :=
    records_after_call toInt64 serialization call callFree kept.free.item
  refine @Machine.along_iff_guarded_of_kept _ _ (publicMachine serialization toInt64)
    UnusedAreUnlisted SavesUnlisted PublicCall.ColonFree
    (fun store => RecordsKept store ∧ (records store).ListedLinked) ?_ ?_ ?_ calls free ∅ ?_
  · rintro store call next ⟨kept, covered⟩ callFree saves stepped
    cases stepped
    refine ⟨kept.after toInt64 serialization callFree, ?_⟩
    rw [follows store call kept callFree]
    exact covered.apply kept.anchored ((adds_unlisted_iff toInt64 kept.free call).mpr saves)
  · rintro store ⟨kept, covered⟩
    exact (unused_are_unlisted_iff kept.free).mpr covered.unusedUnlisted
  · rintro store call ⟨kept, covered⟩ callFree
    have keptAfter := kept.after toInt64 serialization callFree
    have oneStep := @Associations.unused_unlisted_apply_iff _ _ (records store)
      (call.change toInt64 store) kept.anchored covered
    rw [← follows store call kept callFree, ← unused_are_unlisted_iff keptAfter.free,
      adds_unlisted_iff toInt64 kept.free call] at oneStep
    simpa [publicMachine] using oneStep
  · refine ⟨records_kept_empty, ?_⟩
    rw [records_empty]
    exact fun _ _ stored => stored.elim

/-- A sequence of calls keeps unlisted documents reported in every state exactly when none of its
calls takes a document with a back-link out of the last centroid that lists it. -/
theorem unlisted_reported_iff_keeps_listed (calls : List (PublicCall F))
    (free : ∀ call ∈ calls, call.ColonFree) :
    (publicMachine serialization toInt64).Along UnlistedAreReported calls ∅ ↔
      (publicMachine serialization toInt64).Guarded KeepsListed calls ∅ := by
  have preserved : ∀ (store : Store) (call : PublicCall F) (next : Store), RecordsKept store →
      call.ColonFree → (publicMachine serialization toInt64).step store call = some next →
      RecordsKept next := by
    intro store call next kept callFree stepped
    cases stepped
    exact kept.after toInt64 serialization callFree
  refine Machine.along_iff_guarded preserved ?_ calls free records_kept_empty ?_
  · intro store call kept callFree used
    have keptAfter := kept.after toInt64 serialization callFree
    have oneStep := Associations.linked_listed_apply_iff kept.anchored
      ((unlisted_are_reported_iff kept.free).mp used) (valid_change toInt64 call)
    rw [← records_after_call toInt64 serialization call callFree kept.free.item,
      ← unlisted_are_reported_iff keptAfter.free,
      leaves_listed_iff toInt64 kept.free call] at oneStep
    simpa [publicMachine] using oneStep
  · apply (unlisted_are_reported_iff records_kept_empty.free).mpr
    rw [records_empty]
    exact fun _ _ stored => stored.elim

end Runs

section Examples

theorem no_centroid_of_keys {store : Store} (none : keysUnder store getCentroidsPrefix = [])
    (c : Bytes) : ¬ Holds store (centroidBody c) := by
  intro existing
  have listed := (mem_keys_under_iff store getCentroidsPrefix (getCentroidKey c)).mpr
    ⟨⟨c, rfl⟩, existing⟩
  rw [none] at listed
  cases listed

/-- A document that is deleted and saved again while it is a member. -/
def savedAgain : List (PublicCall Int) :=
  [.sync (.createNewCentroid (ascii "c")), .sync (.saveNewDocument (.bare (ascii "d"))),
    .sync (.addDocumentToCentroid (ascii "c") (ascii "d")), .sync (.deleteDocument (ascii "d")),
    .sync (.saveNewDocument (.bare (ascii "d")))]

theorem saved_again_reports :
    (publicMachine .idsOnly readInt64).Along UnusedAreUnlisted savedAgain ∅ ↔
      (publicMachine .idsOnly readInt64).Guarded SavesUnlisted savedAgain ∅ :=
  unused_unlisted_iff_saves_unlisted readInt64 .idsOnly savedAgain (by decide)

theorem saved_again_is_reported_unused :
    (∀ call ∈ savedAgain, call.ColonFree) ∧
      ¬ (publicMachine .idsOnly readInt64).Along UnusedAreUnlisted savedAgain ∅ := by
  refine ⟨by decide, ?_⟩
  intro along
  have unlisted := (((((along.2 _ rfl).2 _ rfl).2 _ rfl).2 _ rfl).2 _ rfl : UnusedAreUnlisted _)
  apply unlisted 0 (ascii "d") (by decide +kernel) (ascii "c") (by decide +kernel)
  exact ⟨[ascii "d"], by decide +kernel, List.mem_cons_self⟩

def deletedAround : List (PublicCall Int) :=
  [.sync (.createNewCentroid (ascii "c")), .sync (.saveNewDocument (.bare (ascii "d"))),
    .sync (.addDocumentToCentroid (ascii "c") (ascii "d")), .sync (.deleteCentroid (ascii "c"))]

theorem deleted_around_reports :
    (publicMachine .idsOnly readInt64).Along UnlistedAreReported deletedAround ∅ ↔
      (publicMachine .idsOnly readInt64).Guarded KeepsListed deletedAround ∅ :=
  unlisted_reported_iff_keeps_listed readInt64 .idsOnly deletedAround (by decide)

theorem deleted_around_is_not_reported :
    (∀ call ∈ deletedAround, call.ColonFree) ∧
      ¬ (publicMachine .idsOnly readInt64).Along UnlistedAreReported deletedAround ∅ := by
  refine ⟨by decide, ?_⟩
  intro along
  have reported := ((((along.2 _ rfl).2 _ rfl).2 _ rfl).2 _ rfl : UnlistedAreReported _)
  refine absurd (reported (ascii "d") (by decide +kernel) ?_) (by decide +kernel)
  intro c existing
  exact absurd existing (no_centroid_of_keys (by decide +kernel) c)

end Examples

end Relevanced.Persistence

import Relevanced.Foundation.Layers
import Relevanced.Persistence.Contents
import Relevanced.Server.RelevanceServer

/-!
# CentroidMetadataDb

The stamps of a centroid are kept as metadata, printed in decimal. Each operation is a
program of calls of `Persistence`, worked off one after another. On top of the archive the
component is a table of stamps that are forgotten with their centroid; the freshness test
reads both stamps, and asks for the centroid only where there is neither.
-/

namespace Relevanced.Persistence

open Foundation
open Models
open Serialization

set_option autoImplicit false

inductive Stamp where
  | created
  | lastCalculated
  | lastDocumentChange
  deriving DecidableEq

def Stamp.metadataName : Stamp → Bytes
  | created => ascii "created"
  | lastCalculated => ascii "lastCalculated"
  | lastDocumentChange => ascii "lastDocumentChange"

theorem metadata_name_injective {stamp other : Stamp}
    (same : stamp.metadataName = other.metadataName) : stamp = other := by
  cases stamp <;> cases other <;> first | rfl | exact absurd same (by decide)

/-- `folly::to<string>`. -/
def printStamp (timestamp : UInt64) : Bytes := ascii (toString timestamp.toNat)

/-- `folly::to<uint64_t>` of the decimal text of a number is that number. -/
def ReadsStamps (toUint64 : Bytes → Option UInt64) : Prop :=
  ∀ timestamp, toUint64 (printStamp timestamp) = some timestamp

namespace CentroidMetadataDb

variable {F : Type}

/-- An answer of `none` stands for the exception of a failed conversion. -/
def getMetadata (toUint64 : Bytes → Option UInt64) (centroidId metadataName : Bytes) :
    Program (PublicIf F) (Option (Option UInt64)) := do
  match ← @Program.perform (PublicIf F) (.getCentroidMetadata centroidId metadataName) with
  | none => pure (some none)
  | some value => pure ((toUint64 value).map some)

def setMetadata (centroidId metadataName : Bytes) (value : UInt64) :
    Program (PublicIf F) (Try Bool) :=
  @Program.perform (PublicIf F) (.setCentroidMetadata centroidId metadataName (printStamp value))

variable (toUint64 : Bytes → Option UInt64) (centroidId : Bytes) (timestamp : UInt64)

def getCreatedTimestamp : Program (PublicIf F) (Option (Option UInt64)) :=
  getMetadata toUint64 centroidId (ascii "created")

def getLastCalculatedTimestamp : Program (PublicIf F) (Option (Option UInt64)) :=
  getMetadata toUint64 centroidId (ascii "lastCalculated")

def getLastDocumentChangeTimestamp : Program (PublicIf F) (Option (Option UInt64)) :=
  getMetadata toUint64 centroidId (ascii "lastDocumentChange")

/-- Both stamps have been asked for before either is looked at. -/
def isCentroidUpToDate : Program (PublicIf F) (Option (Try Bool)) := do
  let lastCalculated ← getLastCalculatedTimestamp toUint64 centroidId
  let lastChanged ← getLastDocumentChangeTimestamp toUint64 centroidId
  match lastCalculated, lastChanged with
  | some none, some none => do
      let exists_ ← @Program.perform (PublicIf F) (.sync (.doesCentroidExist centroidId))
      pure (some (if exists_ = true then .ok true else .error .eCentroidDoesNotExist))
  | some (some _), some none => pure (some (.ok true))
  | some none, some (some _) => pure (some (.ok false))
  | some (some calculated), some (some changed) =>
      if changed > calculated then pure (some (.ok false)) else pure (some (.ok true))
  | _, _ => pure none

def setCreatedTimestamp : Program (PublicIf F) (Try Bool) :=
  setMetadata centroidId (ascii "created") timestamp

def setLastCalculatedTimestamp : Program (PublicIf F) (Try Bool) :=
  setMetadata centroidId (ascii "lastCalculated") timestamp

def setLastDocumentChangeTimestamp : Program (PublicIf F) (Try Bool) :=
  setMetadata centroidId (ascii "lastDocumentChange") timestamp

end CentroidMetadataDb

/-- The calls of both components that keep data about centroids and documents. -/
inductive DatabaseCall (F : Type) where
  | persistence (call : PublicCall F)
  | getTimestamp (stamp : Stamp) (centroidId : Bytes)
  | setTimestamp (stamp : Stamp) (centroidId : Bytes) (timestamp : UInt64)
  | isCentroidUpToDate (centroidId : Bytes)

namespace DatabaseCall

variable {F : Type}

abbrev Answer : DatabaseCall F → Type
  | persistence call => call.Answer
  | getTimestamp _ _ => Option (Option UInt64)
  | setTimestamp _ _ _ => Try Bool
  | isCentroidUpToDate _ => Option (Try Bool)

def method (toUint64 : Bytes → Option UInt64) :
    (call : DatabaseCall F) → Program (PublicIf F) call.Answer
  | persistence call => @Program.perform (PublicIf F) call
  | getTimestamp .created centroidId =>
      CentroidMetadataDb.getCreatedTimestamp toUint64 centroidId
  | getTimestamp .lastCalculated centroidId =>
      CentroidMetadataDb.getLastCalculatedTimestamp toUint64 centroidId
  | getTimestamp .lastDocumentChange centroidId =>
      CentroidMetadataDb.getLastDocumentChangeTimestamp toUint64 centroidId
  | setTimestamp .created centroidId timestamp =>
      CentroidMetadataDb.setCreatedTimestamp centroidId timestamp
  | setTimestamp .lastCalculated centroidId timestamp =>
      CentroidMetadataDb.setLastCalculatedTimestamp centroidId timestamp
  | setTimestamp .lastDocumentChange centroidId timestamp =>
      CentroidMetadataDb.setLastDocumentChangeTimestamp centroidId timestamp
  | isCentroidUpToDate centroidId => CentroidMetadataDb.isCentroidUpToDate toUint64 centroidId

/-- The call sets metadata under the name of a stamp, past `CentroidMetadataDb`. -/
def writesStamp : DatabaseCall F → Bool
  | persistence (.setCentroidMetadata _ metadataName _) =>
      [Stamp.created, .lastCalculated, .lastDocumentChange].any fun stamp =>
        stamp.metadataName = metadataName
  | _ => false

/-- Ids without a colon, and stamps set by `CentroidMetadataDb` alone. -/
def Proper : DatabaseCall F → Prop
  | persistence call => call.ColonFree ∧ (persistence call).writesStamp = false
  | getTimestamp _ centroidId => colon ∉ centroidId
  | setTimestamp _ centroidId _ => colon ∉ centroidId
  | isCentroidUpToDate centroidId => colon ∉ centroidId

instance (call : DatabaseCall F) : Decidable call.Proper := by
  cases call with
  | persistence call =>
      exact inferInstanceAs (Decidable (call.ColonFree ∧ (persistence call).writesStamp = false))
  | getTimestamp _ centroidId => exact inferInstanceAs (Decidable (colon ∉ centroidId))
  | setTimestamp _ centroidId _ => exact inferInstanceAs (Decidable (colon ∉ centroidId))
  | isCentroidUpToDate centroidId => exact inferInstanceAs (Decidable (colon ∉ centroidId))

end DatabaseCall

abbrev DatabaseIf (F : Type) : Interface where
  Call := DatabaseCall F
  Answer := DatabaseCall.Answer

structure StampedArchive (F : Type) where
  archive : Archive F
  stamp : Bytes → Stamp → Option UInt64

namespace StampedArchive

variable {F : Type} [Zero F] [One F]

def empty : StampedArchive F where
  archive := .empty
  stamp _ _ := none

/-- The stamps go with their centroid. -/
def stampsAfter (stamped : StampedArchive F) : PublicCall F → Bytes → Stamp → Option UInt64
  | .sync (.deleteCentroid c) =>
      if c ∈ stamped.archive.catalogue.cents then
        Function.update stamped.stamp c fun _ => none
      else stamped.stamp
  | .debugEraseAllData => fun _ _ => none
  | _ => stamped.stamp

def prescribed (readDocument : ProcessedDocument F → ProcessedDocument F) :
    Program.Handler (DatabaseIf F) (StampedArchive F)
  | .persistence call, stamped =>
      let (answer, archive) := Archive.prescribed readDocument call stamped.archive
      (answer, ⟨archive, stamped.stampsAfter call⟩)
  | .getTimestamp stamp c, stamped => (some (stamped.stamp c stamp), stamped)
  | .setTimestamp stamp c timestamp, stamped =>
      (.ok true, {
        archive := stamped.archive.setMetadata c stamp.metadataName (printStamp timestamp)
        stamp := Function.update stamped.stamp c
          (Function.update (stamped.stamp c) stamp (some timestamp)) })
  | .isCentroidUpToDate c, stamped =>
      (some (Server.isCentroidUpToDate (decide (c ∈ stamped.archive.catalogue.cents))
        ((stamped.stamp c .lastCalculated).map UInt64.toNat)
        ((stamped.stamp c .lastDocumentChange).map UInt64.toNat)), stamped)

/-- The metadata under the names of stamps are the printed stamps. -/
def Printed (archive : Archive F) (stamped : StampedArchive F) : Prop :=
  archive = stamped.archive ∧ ∀ c stamp,
    archive.metadata c stamp.metadataName = (stamped.stamp c stamp).map printStamp

end StampedArchive

section Refinement

variable {F : Type} [Zero F] [One F] {serialization : Serialization F}
  {readDocument : ProcessedDocument F → ProcessedDocument F} {toInt64 : Bytes → Option Int64}
  {toUint64 : Bytes → Option UInt64}

theorem persistence_simulates (readsBack : ReadsBack serialization readDocument)
    (readsTimes : ReadsTimes toInt64) :
    Program.Simulates (publicPersistence serialization toInt64) (Archive.prescribed readDocument)
      PublicCall.ColonFree (Archived serialization) :=
  fun call _ _ free archived => call_as_archived readsBack readsTimes call free archived

omit [Zero F] [One F] in
theorem method_calls_colon_free (call : DatabaseCall F) (proper : call.Proper) :
    (call.method toUint64).Calls PublicCall.ColonFree := by
  have reads {c : Bytes} (free : colon ∉ c) (metadataName : Bytes) :
      (CentroidMetadataDb.getMetadata toUint64 c metadataName :
        Program (PublicIf F) _).Calls PublicCall.ColonFree := by
    refine Program.calls_bind (Program.calls_perform ?_) ?_
    · intro id member
      cases List.mem_singleton.mp member
      exact free
    · intro answer
      cases answer <;> exact Program.calls_pure _
  have writes {c : Bytes} (free : colon ∉ c) (metadataName : Bytes) (timestamp : UInt64) :
      (CentroidMetadataDb.setMetadata c metadataName timestamp :
        Program (PublicIf F) _).Calls PublicCall.ColonFree := by
    apply Program.calls_perform
    intro id member
    cases List.mem_singleton.mp member
    exact free
  cases call with
  | persistence call => exact Program.calls_perform proper.1
  | getTimestamp stamp c => cases stamp <;> exact reads proper _
  | setTimestamp stamp c timestamp => cases stamp <;> exact writes proper _ timestamp
  | isCentroidUpToDate c =>
      refine Program.calls_bind (reads proper _) fun lastCalculated => ?_
      refine Program.calls_bind (reads proper _) fun lastChanged => ?_
      split
      · refine Program.calls_bind (Program.calls_perform ?_) fun _ => Program.calls_pure _
        intro id member
        cases List.mem_singleton.mp member
        exact proper
      · exact Program.calls_pure _
      · exact Program.calls_pure _
      · split <;> exact Program.calls_pure _
      · exact Program.calls_pure _

section Table

variable {archive : Archive F} {stamped : StampedArchive F}

omit [Zero F] [One F] in
theorem metadata_of_removed (ids : List Bytes) (archive : Archive F) :
    (ids.foldl Archive.removeDocument archive).metadata = archive.metadata := by
  induction ids generalizing archive with
  | nil => rfl
  | cons d ids ih =>
      rw [List.foldl_cons, ih]
      rfl

theorem metadata_after_sync (archive : Archive F) (call : SyncCall F)
    (notDelete : ∀ c, call ≠ .deleteCentroid c) :
    (archive.afterSync call).metadata = archive.metadata := by
  cases call with
  | deleteCentroid c => exact absurd rfl (notDelete c)
  | saveNewDocument doc =>
      rw [Archive.afterSync]
      split <;> rfl
  | deleteDocument d =>
      rw [Archive.afterSync]
      split <;> rfl
  | createNewCentroid c =>
      rw [Archive.afterSync]
      split <;> rfl
  | addDocumentToCentroid c d =>
      rw [Archive.afterSync]
      split
      · split
        · split <;> rfl
        · rfl
      · rfl
  | removeDocumentFromCentroid c d =>
      rw [Archive.afterSync]
      split
      · split <;> rfl
      · rfl
  | _ => rfl

namespace StampedArchive.Printed

theorem call (printed : Printed archive stamped)
    (readDocument : ProcessedDocument F → ProcessedDocument F)
    (call : PublicCall F) (noStamp : (DatabaseCall.persistence call).writesStamp = false) :
    Printed (Archive.prescribed readDocument call archive).2
      (prescribed readDocument (.persistence call) stamped).2 := by
  obtain ⟨rfl, printed⟩ := printed
  refine ⟨rfl, ?_⟩
  intro c stamp
  cases call with
  | sync call =>
      change (stamped.archive.afterSync call).metadata c stamp.metadataName = _
      cases call with
      | deleteCentroid d =>
          rw [Archive.afterSync]
          change _ = ((if d ∈ stamped.archive.catalogue.cents then
            Function.update stamped.stamp d fun _ => none
            else stamped.stamp) c stamp).map printStamp
          split
          · change
              Function.update stamped.archive.metadata d (fun _ => none) c stamp.metadataName = _
            by_cases same : c = d
            · rw [same, Function.update_self, Function.update_self]
              rfl
            · rw [Function.update_of_ne same, Function.update_of_ne same, printed c stamp]
          · exact printed c stamp
      | _ =>
          rw [metadata_after_sync stamped.archive _ fun _ same => by cases same]
          exact printed c stamp
  | deleteOldUnusedDocuments startTime minAge limit =>
      have kept := metadata_of_removed
        (stamped.archive.outdated (startTime - minAge) limit) stamped.archive
      exact (congrFun (congrFun kept c) _).trans (printed c stamp)
  | setCentroidMetadata d metadataName value =>
      have different : stamp.metadataName ≠ metadataName := by
        rintro rfl
        cases stamp <;> cases noStamp
      change Function.update stamped.archive.metadata d _ c stamp.metadataName = _
      by_cases same : c = d
      · rw [same, Function.update_self, Function.update_of_ne different]
        exact printed d stamp
      · rw [Function.update_of_ne same]
        exact printed c stamp
  | debugEraseAllData => rfl
  | _ => exact printed c stamp

theorem set (printed : Printed archive stamped) (c : Bytes) (stamp : Stamp) (timestamp : UInt64) :
    Printed (archive.setMetadata c stamp.metadataName (printStamp timestamp))
      (prescribed readDocument (.setTimestamp stamp c timestamp) stamped).2 := by
  obtain ⟨rfl, printed⟩ := printed
  refine ⟨rfl, ?_⟩
  intro d other
  change Function.update stamped.archive.metadata c _ d other.metadataName =
    (Function.update stamped.stamp c _ d other).map printStamp
  by_cases sameCentroid : d = c
  · rw [sameCentroid, Function.update_self, Function.update_self]
    by_cases same : other = stamp
    · rw [same, Function.update_self, Function.update_self]
      rfl
    · have different := mt metadata_name_injective same
      rw [Function.update_of_ne different, Function.update_of_ne same, printed c other]
  · rw [Function.update_of_ne sameCentroid, Function.update_of_ne sameCentroid, printed d other]

theorem run_get (printed : Printed archive stamped)
    (readDocument : ProcessedDocument F → ProcessedDocument F) (readsStamps : ReadsStamps toUint64)
    (c : Bytes) (stamp : Stamp) :
    (CentroidMetadataDb.getMetadata toUint64 c stamp.metadataName).run
      (Archive.prescribed readDocument) archive = (some (stamped.stamp c stamp), archive) := by
  obtain ⟨rfl, printed⟩ := printed
  rw [CentroidMetadataDb.getMetadata, Program.run_bind, Program.run_perform, Archive.prescribed]
  dsimp only
  rw [printed c stamp]
  cases stamped.stamp c stamp with
  | none => rfl
  | some timestamp =>
      rw [Option.map_some]
      dsimp only
      rw [Program.run_pure, readsStamps timestamp]
      rfl

theorem run_is_up_to_date (printed : Printed archive stamped)
    (readDocument : ProcessedDocument F → ProcessedDocument F) (readsStamps : ReadsStamps toUint64)
    (c : Bytes) :
    (CentroidMetadataDb.isCentroidUpToDate toUint64 c).run
        (Archive.prescribed readDocument) archive =
      ((prescribed readDocument (.isCentroidUpToDate c) stamped).1, archive) := by
  have calculated : (CentroidMetadataDb.getLastCalculatedTimestamp toUint64 c).run
      (Archive.prescribed readDocument) archive =
        (some (stamped.stamp c .lastCalculated), archive) :=
    printed.run_get readDocument readsStamps c .lastCalculated
  have changed : (CentroidMetadataDb.getLastDocumentChangeTimestamp toUint64 c).run
      (Archive.prescribed readDocument) archive =
        (some (stamped.stamp c .lastDocumentChange), archive) :=
    printed.run_get readDocument readsStamps c .lastDocumentChange
  obtain ⟨rfl, _⟩ := printed
  rw [CentroidMetadataDb.isCentroidUpToDate, Program.run_bind, calculated, Program.run_bind,
    changed, prescribed]
  cases stamped.stamp c .lastCalculated with
  | none =>
      cases stamped.stamp c .lastDocumentChange with
      | none => rfl
      | some change => rfl
  | some calculation =>
      cases stamped.stamp c .lastDocumentChange with
      | none => rfl
      | some change =>
          dsimp only
          rw [Option.map_some, Option.map_some, Server.isCentroidUpToDate]
          by_cases later : change > calculation
          · rw [if_pos later, decide_eq_true (UInt64.lt_iff_toNat_lt.mp later)]
            rfl
          · rw [if_neg later, decide_eq_false (mt UInt64.lt_iff_toNat_lt.mpr later)]
            rfl

end StampedArchive.Printed

end Table

theorem stamps_simulate (readsStamps : ReadsStamps toUint64) :
    Program.Simulates
      (Program.Handler.layered (J := DatabaseIf F) (Archive.prescribed readDocument)
        (DatabaseCall.method toUint64))
      (StampedArchive.prescribed readDocument) DatabaseCall.Proper StampedArchive.Printed := by
  intro call archive stamped proper printed
  cases call with
  | persistence call =>
      refine ⟨?_, printed.call readDocument call proper.2⟩
      obtain ⟨rfl, _⟩ := printed
      rfl
  | getTimestamp stamp c =>
      have get := printed.run_get readDocument readsStamps c stamp
      have method : Program.Handler.layered (J := DatabaseIf F) (Archive.prescribed readDocument)
          (DatabaseCall.method toUint64) (.getTimestamp stamp c) archive =
            (some (stamped.stamp c stamp), archive) := by
        cases stamp <;> exact get
      rw [method]
      exact ⟨rfl, printed⟩
  | setTimestamp stamp c timestamp =>
      have method : Program.Handler.layered (J := DatabaseIf F) (Archive.prescribed readDocument)
          (DatabaseCall.method toUint64) (.setTimestamp stamp c timestamp) archive =
            (.ok true, archive.setMetadata c stamp.metadataName (printStamp timestamp)) := by
        cases stamp <;> rfl
      rw [method]
      exact ⟨rfl, printed.set c stamp timestamp⟩
  | isCentroidUpToDate c =>
      have method := printed.run_is_up_to_date readDocument readsStamps c
      change (Program.run (Archive.prescribed readDocument)
        (CentroidMetadataDb.isCentroidUpToDate toUint64 c) archive).1 = _ ∧
          StampedArchive.Printed (Program.run (Archive.prescribed readDocument)
            (CentroidMetadataDb.isCentroidUpToDate toUint64 c) archive).2 stamped
      rw [method]
      exact ⟨rfl, printed⟩

theorem database_simulates (readsBack : ReadsBack serialization readDocument)
    (readsTimes : ReadsTimes toInt64) (readsStamps : ReadsStamps toUint64) :
    Program.Simulates
      (Program.Handler.layered (J := DatabaseIf F) (publicPersistence serialization toInt64)
        (DatabaseCall.method toUint64))
      (StampedArchive.prescribed readDocument) DatabaseCall.Proper fun store stamped =>
        ∃ archive, Archived serialization store archive ∧
          StampedArchive.Printed archive stamped :=
  ((persistence_simulates readsBack readsTimes).layered method_calls_colon_free).trans
    (stamps_simulate readsStamps)

end Refinement

/-- From the empty store, any sequence of calls of `Persistence` and `CentroidMetadataDb` is
answered by the table of stamps and the archive: the freshness test never fails to convert a stamp
and sees those that were set last since the centroid was deleted. -/
theorem centroid_metadata_refines_stamps {F : Type} [Zero F] [One F]
    (documents : ThriftBinary (ProcessedDocumentPersistenceDTO F))
    (centroids : ThriftBinary (CentroidDTO F)) (toInt64 : Bytes → Option Int64)
    (toUint64 : Bytes → Option UInt64) (documentsDecode : documents.Decodes)
    (centroidsDecode : centroids.Decodes) (readsTimes : ReadsTimes toInt64)
    (readsStamps : ReadsStamps toUint64) (calls : List (DatabaseCall F))
    (proper : ∀ call ∈ calls, call.Proper) :
    Program.Handler.transcript
        (Program.Handler.layered (J := DatabaseIf F)
          (publicPersistence (thriftSerialization documents centroids) toInt64)
          (DatabaseCall.method toUint64)) calls ∅ =
      Program.Handler.transcript (StampedArchive.prescribed readBack) calls .empty := by
  apply (database_simulates (thrift_reads_back documentsDecode centroidsDecode) readsTimes
    readsStamps).transcript calls proper
  exact ⟨.empty, archived_empty, rfl, fun _ _ => rfl⟩

/-- A centroid is stamped and asked about, deleted and created again. -/
def stampedAndForgotten : List (DatabaseCall Nat) :=
  [.persistence (.sync (.createNewCentroid (ascii "c"))), .isCentroidUpToDate (ascii "c"),
    .setTimestamp .lastDocumentChange (ascii "c") 12, .isCentroidUpToDate (ascii "c"),
    .setTimestamp .lastCalculated (ascii "c") 1754, .isCentroidUpToDate (ascii "c"),
    .getTimestamp .lastCalculated (ascii "c"), .persistence (.sync (.deleteCentroid (ascii "c"))),
    .isCentroidUpToDate (ascii "c"), .getTimestamp .lastCalculated (ascii "c")]

theorem stamped_and_forgotten_refines :
    Program.Handler.transcript
        (Program.Handler.layered (J := DatabaseIf Nat)
          (publicPersistence (thriftSerialization (.wire (wireDocument WireFormat.number))
            (.wire (wireCentroid WireFormat.number))) readInt64)
          (DatabaseCall.method readUInt64)) stampedAndForgotten ∅ =
      Program.Handler.transcript (StampedArchive.prescribed readBack) stampedAndForgotten .empty :=
  centroid_metadata_refines_stamps _ _ readInt64 readUInt64 (wire_decodes _) (wire_decodes _)
    read_int64_of_printed read_uint64_of_printed stampedAndForgotten (by decide)

end Relevanced.Persistence

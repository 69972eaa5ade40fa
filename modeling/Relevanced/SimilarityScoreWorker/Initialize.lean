import Relevanced.Foundation.Layers
import Relevanced.Persistence.Contents
import Relevanced.Util.MapHistory

/-!
# The start of the score worker

`SimilarityScoreWorker::initialize` lists the centroids and loads each of them, while no other
call is made. What it puts into its map is compared here with the archive of all that was saved
before the start.
-/

namespace Relevanced.SimilarityScoreWorker

open Foundation
open Models
open Persistence
open Serialization
open Util (emptyMap)

set_option autoImplicit false

section Start

variable {F : Type}

/-- The loop of `initialize`. An exception out of a load ends the start. -/
def loadEach : List Bytes → (Bytes → Option (Centroid F)) →
    Program (PublicIf F) (Option (Bytes → Option (Centroid F)))
  | [], centroids => pure (some centroids)
  | id :: centroidIds, centroids => do
      match ← Program.perform (I := PublicIf F) (.loadCentroidUniqueOption id) with
      | none => pure none
      | some none => loadEach centroidIds centroids
      | some (some centroid) =>
          loadEach centroidIds (Function.update centroids id (some centroid))

def initializeScoreWorker : Program (PublicIf F) (Option (Bytes → Option (Centroid F))) := do
  let centroidIds ← Program.perform (I := PublicIf F) (.sync .listAllCentroids)
  loadEach centroidIds emptyMap

end Start

section Loads

variable {F : Type} [Zero F] [One F] {serialization : Serialization F}
  {toInt64 : Bytes → Option Int64} {readDocument : ProcessedDocument F → ProcessedDocument F}
  {store : Store} {archive : Archive F}

/-- The map after the loop: what is stored comes before what the map had. -/
structure LoadedOver (archive : Archive F) (centroidIds : List Bytes)
    (centroids loaded : Bytes → Option (Centroid F)) : Prop where
  listed : ∀ id ∈ centroidIds, loaded id = (archive.centroid id).or (centroids id)
  others : ∀ id, id ∉ centroidIds → loaded id = centroids id

section Loop

variable {id : Bytes} {centroidIds : List Bytes} {centroids loaded : Bytes → Option (Centroid F)}

omit [Zero F] [One F] in
theorem loaded_over_absent (absent : archive.centroid id = none)
    (isOver : LoadedOver archive centroidIds centroids loaded) :
    LoadedOver archive (id :: centroidIds) centroids loaded where
  listed other member := by
    by_cases later : other ∈ centroidIds
    · exact isOver.listed other later
    · rcases List.mem_cons.mp member with rfl | isLater
      · rw [isOver.others other later, absent, Option.none_or]
      · exact absurd isLater later
  others other absentHere := isOver.others other fun later =>
    absentHere (List.mem_cons_of_mem id later)

omit [Zero F] [One F] in
theorem loaded_over_stored {centroid : Centroid F} (stored : archive.centroid id = some centroid)
    (isOver : LoadedOver archive centroidIds (Function.update centroids id (some centroid))
      loaded) :
    LoadedOver archive (id :: centroidIds) centroids loaded where
  listed other member := by
    by_cases same : other = id
    · subst same
      rw [stored, Option.some_or]
      by_cases later : other ∈ centroidIds
      · rw [isOver.listed other later, stored, Option.some_or]
      · rw [isOver.others other later, Function.update_self]
    · have later : other ∈ centroidIds := (List.mem_cons.mp member).resolve_left same
      rw [isOver.listed other later, Function.update_of_ne same]
  others other absentHere := by
    have same : other ≠ id := fun isHead => absentHere (isHead ▸ List.mem_cons_self)
    rw [isOver.others other fun later => absentHere (List.mem_cons_of_mem id later),
      Function.update_of_ne same]

omit [Zero F] [One F] in
theorem loaded_over_all (isOver : LoadedOver archive archive.catalogue.centroids emptyMap loaded) :
    loaded = archive.centroid := by
  funext id
  by_cases listed : id ∈ archive.catalogue.centroids
  · rw [isOver.listed id listed]
    exact Option.or_none
  · have absent : archive.centroid id = none := by
      apply Option.not_isSome_iff_eq_none.mp
      intro isStored
      exact listed ((Finset.mem_sort _).mpr ((archive.centroids id).mp isStored))
    rw [isOver.others id listed, absent]
    rfl

end Loop

theorem run_load_each (toInt64 : Bytes → Option Int64)
    (archived : Archived serialization store archive)
    (readsBack : ReadsBack serialization readDocument) (centroidIds : List Bytes)
    (centroids : Bytes → Option (Centroid F)) : ∃ loaded,
      (loadEach centroidIds centroids).run (publicPersistence serialization toInt64) store =
        (some loaded, store) ∧ LoadedOver archive centroidIds centroids loaded := by
  have load (id : Bytes) :
      publicPersistence serialization toInt64 (.loadCentroidUniqueOption id) store =
        (some (archive.centroid id), store) :=
    (archived.run_load_centroid readsBack id).2
  induction centroidIds generalizing centroids with
  | nil =>
      refine ⟨centroids, rfl, ?_, fun _ _ => rfl⟩
      intro id member
      cases member
  | cons id centroidIds ih =>
      rw [loadEach, Program.run_bind, Program.run_perform, load]
      cases holds : archive.centroid id with
      | none =>
          obtain ⟨loaded, ran, isOver⟩ := ih centroids
          exact ⟨loaded, ran, loaded_over_absent holds isOver⟩
      | some centroid =>
          obtain ⟨loaded, ran, isOver⟩ := ih (Function.update centroids id (some centroid))
          exact ⟨loaded, ran, loaded_over_stored holds isOver⟩

/-- A start loads exactly the archive and changes nothing that the archive describes. -/
theorem run_start (archived : Archived serialization store archive)
    (readsBack : ReadsBack serialization readDocument) (readsTimes : ReadsTimes toInt64) :
    (initializeScoreWorker.run (publicPersistence serialization toInt64) store).1 =
      some archive.centroid ∧
      Archived serialization
        (initializeScoreWorker.run (publicPersistence serialization toInt64) store).2 archive := by
  have noIds : (PublicCall.sync (F := F) .listAllCentroids).ColonFree := by
    intro id member
    cases member
  obtain ⟨listing, stillArchived⟩ :=
    call_as_archived readsBack readsTimes (.sync .listAllCentroids) noIds archived
  change Archived serialization _ archive at stillArchived
  obtain ⟨loaded, ran, isOver⟩ :=
    run_load_each toInt64 stillArchived readsBack archive.catalogue.centroids emptyMap
  rw [initializeScoreWorker, Program.run_bind, Program.run_perform, listing]
  change ((loadEach archive.catalogue.centroids emptyMap).run _ _).1 = _ ∧
    Archived serialization ((loadEach archive.catalogue.centroids emptyMap).run _ _).2 archive
  rw [ran]
  exact ⟨congrArg some (loaded_over_all isOver), stillArchived⟩

end Loads

section Restarts

variable {F : Type} [Zero F] [One F]

/-- After any public calls on ids without a colon, a start of the score worker loads for every id
the centroid that was saved last, and none where it was deleted since or never saved. Calls after
the start are answered as if there had been no start. -/
theorem start_loads_archive (documents : ThriftBinary (ProcessedDocumentPersistenceDTO F))
    (centroids : ThriftBinary (CentroidDTO F)) (toInt64 : Bytes → Option Int64)
    (documentsDecode : documents.Decodes) (centroidsDecode : centroids.Decodes)
    (readsTimes : ReadsTimes toInt64) (before later : List (PublicCall F))
    (free : ∀ call ∈ before ++ later, call.ColonFree) :
    let persistence := publicPersistence (thriftSerialization documents centroids) toInt64
    let archive := (Archive.prescribed readBack).final before .empty
    let started := initializeScoreWorker.run persistence (persistence.final before ∅)
    started.1 = some archive.centroid ∧
      persistence.transcript later started.2 =
        (Archive.prescribed readBack).transcript later archive := by
  intro persistence archive started
  have readsBack := thrift_reads_back documentsDecode centroidsDecode
  have simulates : Program.Simulates persistence (Archive.prescribed readBack) PublicCall.ColonFree
      (Archived (thriftSerialization documents centroids)) :=
    fun call _ _ callFree archived => call_as_archived readsBack readsTimes call callFree archived
  have archived : Archived (thriftSerialization documents centroids)
      (persistence.final before ∅) archive :=
    simulates.final before (fun call member => free call (List.mem_append_left later member))
      archived_empty
  obtain ⟨loaded, stillArchived⟩ := run_start archived readsBack readsTimes
  exact ⟨loaded, simulates.transcript later
    (fun call member => free call (List.mem_append_right before member)) stillArchived⟩

theorem started_after_saves :
    let persistence := publicPersistence (thriftSerialization
      (.wire (wireDocument WireFormat.number)) (.wire (wireCentroid WireFormat.number))) readInt64
    let archive := (Archive.prescribed readBack).final (savedAndLoaded.take 6) .empty
    let started := initializeScoreWorker.run persistence
      (persistence.final (savedAndLoaded.take 6) ∅)
    started.1 = some archive.centroid ∧
      persistence.transcript (savedAndLoaded.drop 6) started.2 =
        (Archive.prescribed readBack).transcript (savedAndLoaded.drop 6) archive :=
  start_loads_archive _ _ readInt64 (wire_decodes _) (wire_decodes _) read_int64_of_printed
    (savedAndLoaded.take 6) (savedAndLoaded.drop 6) (by decide)

end Restarts

end Relevanced.SimilarityScoreWorker

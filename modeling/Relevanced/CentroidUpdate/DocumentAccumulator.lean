import Relevanced.Models

/-!
# DocumentAccumulator

The sums of the word scores of the documents of a centroid. A word is known by the C
string its 24 bytes begin with.
-/

namespace Relevanced.Models

open Foundation

/-- `string key = elem.word`. -/
def ScoredWord.key {F : Type} (elem : ScoredWord F) : Bytes :=
  elem.word.toList.takeWhile (· ≠ 0)

end Relevanced.Models

namespace Relevanced.CentroidUpdate

open Foundation
open Models

set_option autoImplicit false

structure DocumentAccumulator (F : Type) where
  documentCount : Nat
  scores : OrderedMap Bytes F
  magnitude : F
  staleMagnitude : Bool

namespace DocumentAccumulator

variable {F : Type}

def new [Zero F] : DocumentAccumulator F where
  documentCount := 0
  scores := ∅
  magnitude := 0
  staleMagnitude := true

def addScore [Add F] (scores : OrderedMap Bytes F) (elem : ScoredWord F) : OrderedMap Bytes F :=
  match scores[elem.key]? with
  | none => scores.insert elem.key elem.score
  | some sum => scores.insert elem.key (sum + elem.score)

def addDocument [Add F] (accumulator : DocumentAccumulator F) (document : ProcessedDocument F) :
    DocumentAccumulator F :=
  { accumulator with
    staleMagnitude := true
    documentCount := accumulator.documentCount + 1
    scores := document.scoredWords.foldl addScore accumulator.scores }

/-- The magnitude is computed anew when documents have been added since it was last asked for. -/
def getMagnitude [Zero F] [Add F] [Mul F] (sqrt : F → F) (accumulator : DocumentAccumulator F) :
    F × DocumentAccumulator F :=
  if accumulator.staleMagnitude then
    let magnitude := sqrt (accumulator.scores.toList.foldl
      (fun sum elem => sum + elem.2 * elem.2) 0)
    (magnitude, { accumulator with magnitude := magnitude, staleMagnitude := false })
  else (accumulator.magnitude, accumulator)

def getCount (accumulator : DocumentAccumulator F) : Nat := accumulator.documentCount

theorem count_added [Add F] (accumulator : DocumentAccumulator F)
    (documents : List (ProcessedDocument F)) :
    (documents.foldl addDocument accumulator).documentCount =
      accumulator.documentCount + documents.length := by
  induction documents generalizing accumulator with
  | nil => rfl
  | cons document rest ih =>
      rw [List.foldl_cons, ih, List.length_cons]
      simp only [addDocument]
      omega

theorem count_of_magnitude [Zero F] [Add F] [Mul F] (sqrt : F → F)
    (accumulator : DocumentAccumulator F) :
    (accumulator.getMagnitude sqrt).2.documentCount = accumulator.documentCount := by
  rw [getMagnitude]
  split
  · rfl
  · rfl

end DocumentAccumulator

end Relevanced.CentroidUpdate

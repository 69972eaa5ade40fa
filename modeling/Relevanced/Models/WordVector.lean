import Relevanced.CentroidUpdate.DocumentAccumulator

/-!
# Scores of word vectors

The product of a vector with another one or with the words of a document, divided by the
magnitudes. The words of a document are looked up one by one.
-/

namespace Relevanced.Models

open Foundation

set_option autoImplicit false

namespace WordVector

variable {F : Type} [Zero F] [Add F] [Mul F]

/-- The body of the loops of `score`. -/
def addProduct (vector : WordVector F) (dotProd : F) (key : Bytes) (otherScore : F) : F :=
  match vector.scores[key]? with
  | none => dotProd
  | some selfScore => dotProd + otherScore * selfScore

/-- The loop of `score` over another vector's scores in the order its hash table yields them. -/
def dotProductVisiting (vector : WordVector F) (visited : List (Bytes × F)) : F :=
  visited.foldl (fun dotProd elem => vector.addProduct dotProd elem.1 elem.2) 0

/-- The loop of `score` over the scores of another vector. -/
def dotProduct (vector : WordVector F) (otherScores : OrderedMap Bytes F) : F :=
  otherScores.toList.foldl (fun dotProd elem => vector.addProduct dotProd elem.1 elem.2) 0

/-- The loop of `score` over the words of a document. -/
def dotProductDocument (vector : WordVector F) (other : ProcessedDocument F) : F :=
  other.scoredWords.foldl (fun dotProd elem => vector.addProduct dotProd elem.key elem.score) 0

variable [Div F]

def scoreAgainst (vector : WordVector F) (otherScores : OrderedMap Bytes F)
    (otherMagnitude : F) : F :=
  vector.dotProduct otherScores / (vector.magnitude * otherMagnitude)

def score (vector other : WordVector F) : F := vector.scoreAgainst other.scores other.magnitude

def scoreDocument (vector : WordVector F) (other : ProcessedDocument F) : F :=
  vector.dotProductDocument other / (vector.magnitude * other.magnitude)

end WordVector

end Relevanced.Models

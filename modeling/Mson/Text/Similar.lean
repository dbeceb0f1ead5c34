/-!
# Similar texts

Two texts are similar if most of their characters lie in common runs: the longest run that both
have, and then, in turn, the longest ones to the left and to the right of it. The similarity is
twice the number of these characters by the number of all.
-/
namespace Mson.Text

/-- The length of the longest start that two texts share. -/
def sharedStart : List Char → List Char → Nat
  | a :: as, b :: bs => if a = b then sharedStart as bs + 1 else 0
  | _, _ => 0

/-- A run that two texts share: where it begins in each, and its length. -/
structure SharedRun where
  left : Nat
  right : Nat
  length : Nat
  deriving DecidableEq, Repr

def longer (best next : SharedRun) : SharedRun := if best.length < next.length then next else best

/-- The longest shared run; of several the leftmost in the first text, then in the second. -/
def longestRun (a b : List Char) : SharedRun :=
  (List.range a.length).foldl (fun best i =>
    (List.range b.length).foldl (fun best j =>
      longer best ⟨i, j, sharedStart (a.drop i) (b.drop j)⟩) best) ⟨0, 0, 0⟩

/-- How many characters lie in shared runs. -/
def sharedCount (fuel : Nat) (a b : List Char) : Nat :=
  match fuel with
  | 0 => 0
  | fuel + 1 =>
      let run := longestRun a b
      if run.length = 0 then 0
      else
        sharedCount fuel (a.take run.left) (b.take run.right) + run.length +
          sharedCount fuel (a.drop (run.left + run.length)) (b.drop (run.right + run.length))

/-- A text and how similar it is to another, as a fraction. -/
structure Similarity where
  text : String
  shared : Nat
  total : Nat
  deriving DecidableEq, Repr

def similarity (word candidate : String) : Similarity :=
  let a := candidate.toList
  let b := word.toList
  ⟨candidate, 2 * sharedCount (a.length + 1) a b, a.length + b.length⟩

/-- Whether the similarity is three fifths or more. -/
def Similarity.isClose (found : Similarity) : Bool := 3 * found.total ≤ 5 * found.shared

/-- The more similar text comes first; of equally similar ones the later in order. -/
def Similarity.precedes (left right : Similarity) : Bool :=
  let a := left.shared * right.total
  let b := right.shared * left.total
  b < a || (a == b && decide (right.text ≤ left.text))

/-- The three texts most similar to a word, if they are close to it, in order. -/
def closeTexts (word : String) (candidates : List String) : List String :=
  let close := (candidates.map (similarity word)).filter Similarity.isClose
  let best := (close.mergeSort Similarity.precedes).take 3
  (best.map Similarity.text).mergeSort fun left right => decide (left ≤ right)

end Mson.Text

/-
How alike two words are.

The likeness of two words is measured by the blocks they share.  The longest run of characters that
stands in both is one block (the earliest one, if there are several), and more blocks are found in
the same way in front of it and behind it.  Twice the number of shared characters, over the number
of characters in both words, is between zero and one.

A word that is not known is answered with the known words that are at least three fifths alike, at
most three of them.
-/
import GroqSnippets.Text.Basic

namespace GroqSnippets

namespace Text

/-! ### Shared blocks -/

/-- A run of characters that stands in two words. -/
structure SharedBlock where
  first : Nat
  second : Nat
  size : Nat
deriving DecidableEq, Repr

/-- The number of characters that two texts have in common at their starts. -/
def commonStart : Text → Text → Nat
  | a :: as, b :: bs => if a == b then commonStart as bs + 1 else 0
  | _, _ => 0

/-- The longer of two blocks, the first one if they are as long. -/
def SharedBlock.longer (a b : SharedBlock) : SharedBlock :=
  if a.size < b.size then b else a

/-- The longest block that two words share: of several, the one that starts earliest in the first
word, and then earliest in the second one. -/
def longestShared (a b : Text) : SharedBlock :=
  (List.range a.length).foldl
    (fun found i =>
      (List.range b.length).foldl
        (fun found j => found.longer ⟨i, j, commonStart (a.drop i) (b.drop j)⟩) found)
    ⟨0, 0, 0⟩

/-- The number of characters in the blocks that two words share. -/
def sharedSize (a b : Text) : Nat :=
  match longestShared a b with
  | ⟨first, second, size⟩ =>
    if 0 < size ∧ first + size ≤ a.length then
      sharedSize (a.take first) (b.take second) + size
        + sharedSize (a.drop (first + size)) (b.drop (second + size))
    else 0
termination_by a.length
decreasing_by all_goals (simp only [List.length_take, List.length_drop]; omega)

/-! ### Close words -/

/-- Whether a text stands before another one in the dictionary, or is the same. -/
def isInOrder : Text → Text → Bool
  | [], _ => true
  | _ :: _, [] => false
  | a :: as, b :: bs => a.toNat < b.toNat || (a == b && isInOrder as bs)

/-- A word with its likeness to another one, as a fraction. -/
structure Likeness where
  word : Text
  /-- Twice the number of shared characters. -/
  shared : Nat
  total : Nat
deriving DecidableEq, Repr

namespace Likeness

def of (given word : Text) : Likeness :=
  ⟨word, 2 * sharedSize word given, word.length + given.length⟩

def isClose (likeness : Likeness) : Bool :=
  3 * likeness.total ≤ 5 * likeness.shared

/-- Whether a word comes before another one: it is more alike, or as alike and later in the
dictionary. -/
def isBefore (a b : Likeness) : Bool :=
  b.shared * a.total < a.shared * b.total
    || (b.shared * a.total == a.shared * b.total && isInOrder b.word a.word)

end Likeness

/-- The known words that are close to a given one, at most three of them, as in a dictionary. -/
def closeWords (known : List Text) (given : Text) : List Text :=
  let close := (known.map (Likeness.of given)).filter (·.isClose)
  ((close.mergeSort Likeness.isBefore).take 3).map (·.word) |>.mergeSort isInOrder

example : closeWords (["--help", "--helper", "--header", "--format"].map String.toList) "--helpr".toList
    = ["--header", "--help", "--helper"].map String.toList := by
  cbv

example : closeWords (["--version", "--help"].map String.toList) "--verbose".toList = ["--version".toList] := by
  cbv

example : closeWords ["parse".toList] "print".toList = [] := by
  cbv

end Text

end GroqSnippets

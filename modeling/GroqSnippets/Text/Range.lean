/-
Sets of characters written as ranges of codes.

A character class of Unicode is a sorted list of disjoint ranges.  A look-up walks the list and
stops at the first range that starts above the code, so classes that begin with ASCII are cheap
for ASCII.
-/
namespace GroqSnippets

/-- The codes from the first through the last one. -/
abbrev CodeRange := Nat × Nat

/-- Whether a code lies in one of the ranges of a sorted list. -/
def inRanges : List CodeRange → Nat → Bool
  | [], _ => false
  | (first, last) :: rest, code => decide (first ≤ code) && (decide (code ≤ last) || inRanges rest code)

end GroqSnippets

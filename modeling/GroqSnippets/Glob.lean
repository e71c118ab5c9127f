/-
Glob patterns.

A glob stands for whole texts.  A star is any run of characters, a question mark any one character,
and a bracketed set one character out of the set; everything else stands for itself.  No character
is special to a star, a question mark or a negated set: not the dot, not the line feed.

A set ends at the first closing bracket after its first character, and a bracket that nothing
closes stands for itself.  In a set a hyphen between two characters makes a range, and a range that
runs backwards holds nothing and is dropped.  A set whose text begins with an exclamation mark is
negated.  The text that counts is the one left after the dropping: when dropped ranges uncover an
exclamation mark, the set is negated too, and a range that then begins with the mark falls apart
into its hyphen and its last character.  A set with nothing left matches nothing, and its negation
matches every character.
-/
import GroqSnippets.Text.Basic

namespace GroqSnippets

/-! ### Sets of characters

Ranges that run backwards are dropped before the set is looked at again, so what begins a set may be
something that the text does not begin with.
-/

/-- A member of a bracketed set. -/
inductive SetItem where
  | single (char : Char)
  | range (first last : Char)
deriving DecidableEq, Repr

namespace SetItem

def holds (c : Char) : SetItem → Bool
  | single char => c == char
  | range first last => decide (first ≤ c) && decide (c ≤ last)

/-- Whether a member holds anything. -/
def isInhabited : SetItem → Bool
  | single _ => true
  | range first last => decide (first ≤ last)

/-- The members that a text lists. -/
def listOfText : Text → List SetItem
  | [] => []
  | first :: '-' :: last :: rest => range first last :: listOfText rest
  | c :: rest => single c :: listOfText rest

end SetItem

structure CharSet where
  negated : Bool
  items : List SetItem
deriving DecidableEq, Repr

namespace CharSet

def contains (set : CharSet) (c : Char) : Bool :=
  set.items.any (·.holds c) != set.negated

/-- The set that the members left after the dropping stand for. -/
def ofItems : List SetItem → CharSet
  | .single '!' :: items => ⟨true, items⟩
  | .range '!' last :: items => ⟨true, .single '-' :: .single last :: items⟩
  | items => ⟨false, items⟩

/-- The set between two brackets. -/
def ofText : Text → CharSet
  | '!' :: rest => ⟨true, (SetItem.listOfText rest).filter (·.isInhabited)⟩
  | text => ofItems ((SetItem.listOfText text).filter (·.isInhabited))

end CharSet

/-! ### Globs -/

/-- A part of a glob. -/
inductive GlobPart where
  | char (char : Char)
  | anyChar
  | anyRun
  | oneOf (set : CharSet)
deriving DecidableEq, Repr

structure Glob where
  parts : List GlobPart
deriving DecidableEq, Repr

/-- The characters at the start of a set that cannot close it. -/
def setLead : Text → Text
  | '!' :: ']' :: _ => ['!', ']']
  | '!' :: _ => ['!']
  | ']' :: _ => [']']
  | _ => []

/-- The text of a set, given what follows its opening bracket, if the set is closed. -/
def setText? (rest : Text) : Option Text :=
  let lead := setLead rest
  let tail := rest.drop lead.length
  if tail.contains ']' then some (lead ++ tail.takeWhile (· != ']')) else none

namespace Glob

/-- The parts of a glob's text.  `skip` counts the characters of a set that are still to be passed
over. -/
def partsFrom : (skip : Nat) → Text → List GlobPart
  | _, [] => []
  | skip + 1, _ :: rest => partsFrom skip rest
  | 0, '*' :: rest => .anyRun :: partsFrom 0 rest
  | 0, '?' :: rest => .anyChar :: partsFrom 0 rest
  | 0, '[' :: rest =>
    match setText? rest with
    | some text => .oneOf (.ofText text) :: partsFrom (text.length + 1) rest
    | none => .char '[' :: partsFrom 0 rest
  | 0, c :: rest => .char c :: partsFrom 0 rest

/-- The glob that a text stands for. -/
def ofText (text : Text) : Glob :=
  ⟨partsFrom 0 text⟩

/-! ### What a glob accepts

A text is accepted when the parts, one after the other, use it up.  A run may use up any amount, so
there are several possibilities for what is left, and they are all followed at once, the longest
one first.  What is left in one case is always a tail of what is left in the cases before it, so
after a run the tails of the longest one are all there are, and no possibility is followed twice.
-/

/-- Whether `p` holds of a text or of one of its tails. -/
def someTail (p : Text → Bool) : Text → Bool
  | [] => p []
  | c :: rest => p (c :: rest) || someTail p rest

/-- Whether a row of parts stands for a text. -/
def partsAccept : List GlobPart → Text → Bool
  | [], text => text.isEmpty
  | .anyRun :: parts, text => someTail (partsAccept parts) text
  | _ :: _, [] => false
  | .anyChar :: parts, _ :: rest => partsAccept parts rest
  | .char char :: parts, c :: rest => c == char && partsAccept parts rest
  | .oneOf set :: parts, c :: rest => set.contains c && partsAccept parts rest

def tailsOf : Text → List Text
  | [] => [[]]
  | c :: rest => (c :: rest) :: tailsOf rest

/-- What a part that is no run leaves of a text. -/
def leftBy? (part : GlobPart) : Text → Option Text
  | [] => none
  | c :: rest =>
    match part with
    | .char char => if c == char then some rest else none
    | .oneOf set => if set.contains c then some rest else none
    | _ => some rest

/-- What a part may leave, given what is left before it, the longest first. -/
def leftBy (lefts : List Text) : GlobPart → List Text
  | .anyRun => (lefts.head?.map tailsOf).getD []
  | part => lefts.filterMap (leftBy? part)

/-- Whether a glob stands for a text. -/
def accepts (glob : Glob) (text : Text) : Bool :=
  (glob.parts.foldl leftBy [text]).any (·.isEmpty)

/-! ### Following all possibilities at once finds what trying them one by one finds -/

theorem someTail_of_suffix {p : Text → Bool} {short long : Text} (hsuffix : short <:+ long)
    (hshort : someTail p short = true) : someTail p long = true := by
  induction long with
  | nil =>
    rw [List.suffix_nil.mp hsuffix] at hshort
    exact hshort
  | cons c rest ih =>
    rcases List.suffix_cons_iff.mp hsuffix with rfl | hrest
    · exact hshort
    · simp [someTail, ih hrest]

theorem any_tailsOf (p : Text → Bool) (text : Text) : (tailsOf text).any p = someTail p text := by
  induction text with
  | nil => simp [tailsOf, someTail]
  | cons c rest ih => simp [tailsOf, someTail, ih]

theorem partsAccept_cons_of_ne {part : GlobPart} (hpart : part ≠ .anyRun) (parts : List GlobPart) (text : Text) :
    partsAccept (part :: parts) text = ((leftBy? part text).map (partsAccept parts)).getD false := by
  cases text with
  | nil => cases part <;> simp_all [partsAccept, leftBy?]
  | cons c rest =>
    cases part with
    | anyRun => exact absurd rfl hpart
    | anyChar => simp [partsAccept, leftBy?]
    | char char => by_cases h : c = char <;> simp [partsAccept, leftBy?, h]
    | oneOf set => by_cases h : set.contains c = true <;> simp [partsAccept, leftBy?, h]

/-- Every text is a tail of those before it. -/
def IsNested (texts : List Text) : Prop :=
  texts.Pairwise fun long short => short <:+ long

theorem isNested_tailsOf (text : Text) : IsNested (tailsOf text) ∧ ∀ tail ∈ tailsOf text, tail <:+ text := by
  induction text with
  | nil => simp [tailsOf, IsNested]
  | cons c rest ih =>
    have hrest : ∀ tail ∈ tailsOf rest, tail <:+ c :: rest := fun tail htail =>
      (ih.2 tail htail).trans (List.suffix_cons c rest)
    refine ⟨List.pairwise_cons.mpr ⟨hrest, ih.1⟩, fun tail htail => ?_⟩
    rcases List.mem_cons.mp htail with rfl | htail
    · exact List.suffix_refl _
    · exact hrest tail htail

theorem suffix_of_leftBy? {part : GlobPart} {long short long' short' : Text} (hsuffix : short <:+ long)
    (hlong : leftBy? part long = some long') (hshort : leftBy? part short = some short') : short' <:+ long' := by
  cases long with
  | nil => simp [leftBy?] at hlong
  | cons c rest =>
    cases short with
    | nil => simp [leftBy?] at hshort
    | cons d tail =>
      have hrest : rest = long' := by cases part <;> simp_all [leftBy?]
      have htail : tail = short' := by cases part <;> simp_all [leftBy?]
      subst hrest htail
      rcases List.suffix_cons_iff.mp hsuffix with heq | hin
      · exact (List.cons.inj heq).2 ▸ List.suffix_refl tail
      · exact (List.suffix_cons d tail).trans hin

theorem any_foldl_leftBy (parts : List GlobPart) {lefts : List Text} (hnested : IsNested lefts) :
    (parts.foldl leftBy lefts).any (·.isEmpty) = lefts.any (partsAccept parts) := by
  induction parts generalizing lefts with
  | nil => simp [partsAccept]
  | cons part parts ih =>
    by_cases hpart : part = .anyRun
    · subst hpart
      cases lefts with
      | nil => simpa [leftBy] using ih (show IsNested [] from List.Pairwise.nil)
      | cons long shorts =>
        have hlong : (parts.foldl leftBy (tailsOf long)).any (·.isEmpty) = someTail (partsAccept parts) long :=
          (ih (isNested_tailsOf long).1).trans (any_tailsOf _ _)
        have hshort (hany : shorts.any (someTail (partsAccept parts)) = true) :
            someTail (partsAccept parts) long = true := by
          obtain ⟨short, hmem, hshort⟩ := List.any_eq_true.mp hany
          exact someTail_of_suffix ((List.pairwise_cons.mp hnested).1 short hmem) hshort
        simp only [List.foldl_cons, leftBy, List.head?_cons, Option.map_some, Option.getD_some, hlong, List.any_cons,
          partsAccept]
        cases hcase : someTail (partsAccept parts) long with
        | true => simp
        | false => simpa [hcase] using hshort
    · have hleft : leftBy lefts part = lefts.filterMap (leftBy? part) := by
        cases part <;> simp_all [leftBy]
      have hnext : IsNested (lefts.filterMap (leftBy? part)) :=
        List.Pairwise.filterMap (leftBy? part)
          (fun _ _ hsuffix _ hlong _ hshort => suffix_of_leftBy? hsuffix hlong hshort) hnested
      rw [List.foldl_cons, hleft, ih hnext, List.any_filterMap]
      congr 1
      funext text
      rw [partsAccept_cons_of_ne hpart]
      cases leftBy? part text <;> rfl

/-- A glob accepts exactly the texts that its parts stand for. -/
theorem accepts_eq (glob : Glob) (text : Text) : glob.accepts text = partsAccept glob.parts text := by
  simp [accepts, any_foldl_leftBy glob.parts (List.pairwise_singleton _ text)]

example : (ofText "a*[!x-z]?".toList).accepts "abc\n".toList = true
    ∧ (ofText "[z-a]".toList).accepts "z".toList = false
    ∧ (ofText "[!z-a]".toList).accepts "z".toList = true
    ∧ (ofText "[]a]".toList).accepts "]".toList = true
    ∧ (ofText "[a".toList).accepts "[a".toList = true := by
  decide +kernel

end Glob

end GroqSnippets

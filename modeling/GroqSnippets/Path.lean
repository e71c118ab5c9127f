/-
Paths.

A path is a row of steps between slashes.  An empty step and a dot stay where they are, two dots go
up, and any other step names something.  Names and paths have a greatest length in bytes, and a
null character stands in no path.
-/
import GroqSnippets.Text.Basic

namespace GroqSnippets

namespace Path

/-! ### Steps

Idle steps are dropped where a path is shown or used to name a file; nothing is done about steps
that go up, since what they lead to depends on where they start.
-/

/-- The steps of a path. -/
def steps (path : Text) : List Text :=
  Text.pieces '/' path

def isIdle (step : Text) : Bool :=
  step.isEmpty || step == ['.']

def isUp (step : Text) : Bool :=
  step == ['.', '.']

def isAbsolute (path : Text) : Bool :=
  path.head? == some '/'

def ofSteps (steps : List Text) : Text :=
  ['/'].intercalate steps

/-- A path without the steps that stay where they are. -/
def tidy (path : Text) : Text :=
  let tidied := ofSteps ((steps path).filter (!isIdle ·))
  if isAbsolute path then '/' :: tidied
  else if tidied.isEmpty then ['.']
  else tidied

/-- A path inside a directory, without the steps that stay where they are. -/
def inside (directory path : Text) : Text :=
  ofSteps (directory :: (steps path).filter (!isIdle ·))

/-! ### Limits -/

def isLongName (step : Text) : Bool :=
  255 < Text.byteSize step

def isLong (path : Text) : Bool :=
  4095 < Text.byteSize path

def hasNull (path : Text) : Bool :=
  path.contains '\x00'

/-- Whether looking for a path fails over its length where there are no files: the path is too long,
or the first thing that it names has too long a name.  What comes after a name that leads nowhere
is not looked at. -/
def isUnusable (path : Text) : Bool :=
  !hasNull path
    && (isLong path || ((steps path).find? fun step => !isIdle step && !isUp step).any isLongName)

example : steps "a//b/".toList = ["a", "", "b", ""].map String.toList ∧ steps [] = [[]]
    ∧ inside "/d".toList "a//./b".toList = "/d/a/b".toList ∧ tidy "./a/.//b/".toList = "a/b".toList
    ∧ tidy "./".toList = ".".toList := by
  decide +kernel

end Path

end GroqSnippets

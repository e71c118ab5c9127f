/-
A directory held in memory.

A workspace is a host: a directory with all that is in it, variables, an input, and what has been
printed and remarked.  A place in it is the row of steps that lead there from the top.

A path is followed step by step, and each step has to start in a directory.  What lies above the
top is a directory too, but nothing in it is known.
-/
import GroqSnippets.CommandLine.Host
import GroqSnippets.Path

namespace GroqSnippets

/-- A place in a workspace: the steps from the top. -/
abbrev Place := List Text

/-- A directory held in memory, with what else a host has. -/
structure Workspace where
  name : Text := []
  /-- The files, the latest first. -/
  files : List (Place × ByteArray) := []
  /-- The directories; the top is always one. -/
  directories : List Place := [[]]
  /-- The files that have been written, in order. -/
  written : List (Place × Text) := []
  environment : List (Text × Text) := []
  input : ByteArray := .empty
  printed : Text := []
  remarked : Text := []

namespace Workspace

/-! ### Places

The files are searched from the front, so the file that was written last hides the others at its
place.
-/

/-- A place and those above it, from the top down. -/
def wayTo (place : Place) : List Place :=
  (List.range (place.length + 1)).map place.take

def kindAt (workspace : Workspace) (place : Place) : PathKind :=
  if (workspace.files.lookup place).isSome then .file
  else if workspace.directories.contains place then .directory
  else .missing

def addDirectory (workspace : Workspace) (place : Place) : Workspace :=
  { workspace with directories := workspace.directories ++ wayTo place }

/-! ### Paths -/

def follow (workspace : Workspace) : Option Place → List Text → Except Fault (Option Place)
  | place, [] => .ok place
  | none, step :: steps =>
    if Path.isIdle step || Path.isUp step then workspace.follow none steps
    else .error (if Path.isLongName step then .tooLong else .noDirectory)
  | some place, step :: steps =>
    match workspace.kindAt place with
    | .directory =>
      if Path.isIdle step then workspace.follow (some place) steps
      else if Path.isUp step then workspace.follow (if place.isEmpty then none else some place.dropLast) steps
      else if Path.isLongName step then .error .tooLong
      else workspace.follow (some (place ++ [step])) steps
    | .file => .error .throughFile
    | _ => .error .noDirectory

def find (workspace : Workspace) (path : Text) : Except Fault (Option Place) :=
  if Path.hasNull path then .error .noPath
  else if Path.isLong path then .error .tooLong
  else if path.isEmpty then .error .noDirectory
  else workspace.follow (if Path.isAbsolute path then none else some []) (Path.steps path)

def kindOf (workspace : Workspace) (path : Text) : PathKind :=
  match workspace.find path with
  | .ok none => .directory
  | .ok (some place) => workspace.kindAt place
  | .error .tooLong => .tooLong
  | .error .noPath => .noPath
  | .error _ => .missing

def bytesOf (workspace : Workspace) (path : Text) : ByteArray :=
  match workspace.find path with
  | .ok (some place) => (workspace.files.lookup place).getD .empty
  | _ => .empty

/-- The place of a path whose steps need not lead through directories. -/
def placeOf (path : Text) : Place :=
  (Path.steps path).foldl
    (fun place step =>
      if Path.isIdle step then place else if Path.isUp step then place.dropLast else place ++ [step]) []

def fullPath (workspace : Workspace) (place : Place) : Text :=
  Path.ofSteps (workspace.name :: place)

/-! ### Changes

A change is refused for the first reason on the way down.  A refused change leaves nothing behind,
not even the directories that could have been made.
-/

def addFile (workspace : Workspace) (path : Text) (bytes : ByteArray) : Workspace :=
  let place := placeOf path
  { workspace.addDirectory place.dropLast with files := (place, bytes) :: workspace.files }

/-- Why a place in a row, from the top down, keeps a directory from being made, if it does. -/
def obstacle? (workspace : Workspace) (goal place : Place) : Option Fault :=
  if workspace.kindAt place == .file then some (if place == goal then .fileInPlace else .throughFile)
  else if place.getLast?.any Path.isLongName then some .tooLong
  else none

/-- Makes a directory and those above it. -/
def makeDirectory (workspace : Workspace) (path : Text) : Except Fault (Text × Workspace) :=
  let place := placeOf path
  let fullPath := workspace.fullPath place
  if Path.hasNull path then .error .noPath
  else if Path.isLong fullPath then .error .tooLong
  else
    match (wayTo place).findSome? (workspace.obstacle? place) with
    | some fault => .error fault
    | none => .ok (fullPath, workspace.addDirectory place)

def writeFile (workspace : Workspace) (path content : Text) : Except Fault Workspace := do
  if Path.hasNull path then throw .noPath
  if Path.isLong path then throw .tooLong
  let steps := (Path.steps path).drop (Path.steps workspace.name).length
  match ← workspace.follow (some []) (steps.dropLast ++ [[]]) with
  | none => throw .noDirectory
  | some directory =>
    let place := directory ++ steps.getLast?.toList
    if place.getLast?.any Path.isLongName then throw .tooLong
    if workspace.kindAt place == .directory then throw .directoryInPlace
    return { workspace with
      files := (place, (String.ofList content).toUTF8) :: workspace.files
      written := workspace.written ++ [(place, content)] }

end Workspace

/-- A workspace is a host. -/
instance : Host (StateM Workspace) where
  kind path := do return (← get).kindOf path
  readFile path := do return (← get).bytesOf path
  readInput := do return (← get).input
  lookUp name := do return (← get).environment.lookup name
  makeDirectory path := do
    match (← get).makeDirectory path with
    | .error fault => return .error fault
    | .ok (fullPath, workspace) => do set workspace; return .ok fullPath
  writeFile path content := do
    match (← get).writeFile path content with
    | .error fault => return .error fault
    | .ok workspace => do set workspace; return .ok ()
  print text := modify fun workspace => { workspace with printed := workspace.printed ++ text }
  remark text := modify fun workspace => { workspace with remarked := workspace.remarked ++ text }

end GroqSnippets

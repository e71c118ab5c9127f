/-
The program.

The computer is a host, and the program runs its command line on it.
-/
import GroqSnippets.CommandLine.Run

namespace GroqSnippets

/-- What a failure over a path means. -/
def pathFault? : IO.Error → Option Fault
  | .noFileOrDirectory .. => some .noDirectory
  | .inappropriateType .. => some .throughFile
  | .alreadyExists .. => some .fileInPlace
  | .invalidArgument .. => some .tooLong
  | _ => none

def attempt {α : Type} (path : Text) (action : IO α) : IO (Except Fault α) := do
  if Path.hasNull path then return .error .noPath
  try
    return .ok (← action)
  catch error =>
    match pathFault? error with
    | some fault => return .error fault
    | none => throw error

/-- What a failure to follow a path makes of it. -/
def deadEndKind : IO.Error → PathKind
  | .permissionDenied .. => .forbidden
  | error => if pathFault? error == some .tooLong then .tooLong else .missing

/-- Whether something on the computer may be read. -/
def isReadable {α : Type} (read : IO α) : IO Bool := do
  try
    let _ ← read
    return true
  catch error => return deadEndKind error != .forbidden

def kindOnComputer (path : Text) : IO PathKind := do
  if Path.hasNull path then return .noPath
  let opened := IO.FS.Handle.mk (String.ofList path) .read
  try
    let place ← IO.FS.realPath (String.ofList path)
    if ← place.isDir then return if ← isReadable place.readDir then .directory else .lockedDirectory
    else return if ← isReadable opened then .file else .lockedFile
  catch _ =>
    try
      let _ ← opened
      return .missing
    catch error => return deadEndKind error

/-- The computer is a host. -/
instance : Host IO where
  kind := kindOnComputer
  readFile path := IO.FS.readBinFile (String.ofList path)
  readInput := do (← IO.getStdin).readBinToEnd
  lookUp name := do return (← IO.getEnv (String.ofList name)).map String.toList
  makeDirectory path := attempt path do
    let path := if path.isEmpty then "." else String.ofList path
    IO.FS.createDirAll path
    return (← IO.FS.realPath path).toString.toList
  writeFile path content := attempt path (IO.FS.writeFile (String.ofList path) (String.ofList content))
  print text := do (← IO.getStdout).putStr (String.ofList text)
  remark text := do (← IO.getStderr).putStr (String.ofList text)

/-- Runs the program on its words, and gives the number that it ends with. -/
def runProgram (words : List String) : IO UInt32 := do
  let outcome ← runCommandLine (m := IO) (words.map String.toList)
  if let .error stop := outcome then
    if !stop.isReported then IO.eprintln ("Error: " ++ String.ofList stop.message)
  return (exitCode outcome).toUInt32

end GroqSnippets

def main (words : List String) : IO UInt32 :=
  GroqSnippets.runProgram words

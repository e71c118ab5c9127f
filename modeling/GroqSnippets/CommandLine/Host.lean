/-
What the command line runs on.

A host has a tree of files and directories, variables, an input, and two outputs: one for results
and one for remarks.  Commands are written for every host, so a directory that is held in memory
serves as well as a computer.

What is read are bytes.  They are taken as UTF-8, and line breaks become line feeds.
-/
import GroqSnippets.Text.Line
import GroqSnippets.Text.Terminal

namespace GroqSnippets

/-- What a path leads to.  What is locked is there but may not be read. -/
inductive PathKind where
  | missing
  | file
  | directory
  | lockedFile
  | lockedDirectory
  /-- It may not be followed. -/
  | forbidden
  /-- It cannot be followed, because it is too long or holds too long a name. -/
  | tooLong
  /-- It is no path, because it holds a null character. -/
  | noPath
deriving DecidableEq, Repr

/-- What a host cannot do. -/
inductive Fault where
  | undecodable
  /-- There is no directory for a file. -/
  | noDirectory
  | throughFile
  | fileInPlace
  | directoryInPlace
  | tooLong
  | noPath
deriving DecidableEq, Repr

def Fault.message : Fault → Text
  | undecodable => "The input is not valid UTF-8.".toList
  | noDirectory => "There is no directory for the file.".toList
  | throughFile => "A part of the path is a file.".toList
  | fileInPlace => "There is a file in the place of the directory.".toList
  | directoryInPlace => "There is a directory in the place of the file.".toList
  | tooLong => "The path is too long.".toList
  | noPath => "The path holds a null character.".toList

class Host (m : Type → Type) where
  kind (path : Text) : m PathKind
  readFile (path : Text) : m ByteArray
  readInput : m ByteArray
  lookUp (name : Text) : m (Option Text)
  /-- Makes a directory and those above it, and gives its full path. -/
  makeDirectory (path : Text) : m (Except Fault Text)
  writeFile (path content : Text) : m (Except Fault Unit)
  print (text : Text) : m Unit
  remark (text : Text) : m Unit

namespace Host

variable {m : Type → Type} [Monad m] [Host m]

/-- The text that bytes stand for. -/
def decode (bytes : ByteArray) : Except Fault Text :=
  match String.fromUTF8? bytes with
  | some text => .ok (Text.normalizeNewlines text.toList)
  | none => .error .undecodable

def printLine (line : Text) : m Unit :=
  print (line.withoutControls ++ ['\n'])

def remarkLine (line : Text) : m Unit :=
  remark (line.withoutControls ++ ['\n'])

end Host

end GroqSnippets

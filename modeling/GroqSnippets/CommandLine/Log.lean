/-
The log of a run.

What is noticed while a schema is read goes to the log, and so does the end of the work on its
queries.  A line of the log names its level, the part of the program that speaks, and what it says.
Left-out duplicates are warnings; everything else is detail that only a verbose run shows.
-/
import GroqSnippets.Schema.Reading

namespace GroqSnippets

/-- How much a line of the log matters. -/
inductive LogLevel where
  | debug
  | warning
deriving DecidableEq, Repr

/-- A line of the log. -/
structure LogLine where
  level : LogLevel
  speaker : Text
  message : Text
deriving DecidableEq, Repr

def LogLevel.name : LogLevel → Text
  | debug => "DEBUG".toList
  | warning => "WARNING".toList

def readingSpeaker : Text :=
  "groq_gen.core.parser".toList

def generationSpeaker : Text :=
  "groq_gen.core.pipeline".toList

namespace LogLine

def ofNote : Note → LogLine
  | .foundField name type => ⟨.debug, readingSpeaker, "Found field ".toList ++ name ++ " (".toList ++ type ++ [')']⟩
  | .duplicateNested nested array => ⟨.warning, readingSpeaker, duplicateWarning nested array⟩
  | .noObjectFields array =>
    ⟨.debug, readingSpeaker, "Array field ".toList ++ array ++ " has no recognizable object fields".toList⟩

/-- The line at the end of the work on the queries of a type. -/
def generated (typeName : Text) : LogLine :=
  ⟨.debug, generationSpeaker, "Generated queries for ".toList ++ typeName⟩

def isShown (isVerbose : Bool) (line : LogLine) : Bool :=
  isVerbose || line.level == .warning

def render (line : LogLine) : Text :=
  line.level.name ++ ':' :: line.speaker ++ ':' :: line.message ++ ['\n']

end LogLine

end GroqSnippets

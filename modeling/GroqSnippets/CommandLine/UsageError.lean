/-
Mistakes in a command line.

A command line may name what does not exist, leave out what is needed, or give values that do not
fit.  Every mistake is kept with what there is to say about it; names that nearly fit are part of
that.
-/
import GroqSnippets.CommandLine.Parameter

namespace GroqSnippets

/-- The formats that a command line may ask for. -/
def offeredFormats : List Text :=
  ["ts", "js", "groq"].map String.toList

/-- Why a value does not fit its parameter. -/
inductive Misfit where
  | notOffered (value : Text)
  | noFile (path : Text)
  | notFile (path : Text)
  | notDirectory (path : Text)
  | lockedFile (path : Text)
  | lockedDirectory (path : Text)
  | noPath (value : Text)
deriving DecidableEq, Repr

inductive UsageError where
  /-- There is no parameter of this name; some names are close to it. -/
  | unknownParameter (name : Text) (close : List Text)
  /-- A value should follow. -/
  | valueMissing (name : Text)
  /-- A switch is given a value. -/
  | valueRefused (name : Text)
  | unknownCommand (name : Text) (close : List Text)
  | commandMissing
  | parameterMissing (parameter : Parameter)
  | unfit (parameter : Parameter) (misfit : Misfit)
  /-- There are words that belong to nothing. -/
  | extraWords (words : List Text)
deriving DecidableEq, Repr

/-- What is said about a value that does not fit. -/
def Misfit.message : Misfit → Text
  | notOffered value =>
    value.quoted ++ " is not one of ".toList ++ ", ".toList.intercalate (offeredFormats.map Text.quoted) ++ ['.']
  | noFile path => "File ".toList ++ path.quoted ++ " does not exist.".toList
  | notFile path => "File ".toList ++ path.quoted ++ " is a directory.".toList
  | notDirectory path => "Directory ".toList ++ path.quoted ++ " is a file.".toList
  | lockedFile path => "File ".toList ++ path.quoted ++ " is not readable.".toList
  | lockedDirectory path => "Directory ".toList ++ path.quoted ++ " is not readable.".toList
  | noPath value => value.quoted ++ " is no path.".toList

/-- The names that may have been meant, behind a message. -/
def suggestion : List Text → Text
  | [] => []
  | [name] => " Did you mean ".toList ++ name.quoted ++ ['?']
  | names => " (Did you mean one of: ".toList ++ ", ".toList.intercalate (names.map Text.quoted) ++ "?)".toList

def UsageError.message : UsageError → Text
  | unknownParameter name close => "No such option ".toList ++ name.quoted ++ ['.'] ++ suggestion close
  | valueMissing name => "Option ".toList ++ name.quoted ++ " requires an argument.".toList
  | valueRefused name => "Option ".toList ++ name.quoted ++ " does not take a value.".toList
  | unknownCommand name close => "No such command ".toList ++ name.quoted ++ ['.'] ++ suggestion close
  | commandMissing => "Missing command.".toList
  | parameterMissing parameter => "Missing option ".toList ++ parameter.hint ++ ['.']
  | unfit parameter misfit => "Invalid value for ".toList ++ parameter.hint ++ ": ".toList ++ misfit.message
  | extraWords words =>
    (if words.length = 1 then "Got unexpected extra argument (" else "Got unexpected extra arguments (").toList
      ++ [' '].intercalate words ++ [')']

end GroqSnippets

/-
Comment headers.

A header is put in front of a snippet as a block of comment lines and a blank line.  It may mention
the kind of the query by a placeholder.  A line that is neither blank nor a comment yet is made one;
the languages a snippet may be pasted into all take two slashes for a comment to the end of the
line.

The header is cut at every character that could end a line, not at line feeds alone, so no part of
it can slip out of its comment.
-/
import GroqSnippets.Query.Basic
import GroqSnippets.Text.Blank
import GroqSnippets.Text.Line

namespace GroqSnippets

/-- What a header may hold in place of the kind of the query. -/
def kindPlaceholder : Text :=
  "{kind}".toList

/-- A line of a header as a comment. -/
def commentLine (line : Text) : Text :=
  if line.isBlank || "//".toList.isPrefixOf line.trimStart then line else "// ".toList ++ line

/-- The comment lines that a header makes for a kind of query. -/
def headerLines (header : Text) (kind : QueryKind) : List Text :=
  (Text.stripWhile (· == '\n') (Text.replace kindPlaceholder kind.name header)).lines.map commentLine

def withHeader (header : Text) (kind : QueryKind) (snippet : Text) : Text :=
  ['\n'].intercalate (headerLines header kind) ++ "\n\n".toList ++ snippet

end GroqSnippets

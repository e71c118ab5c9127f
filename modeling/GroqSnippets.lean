import GroqSnippets.CommandLine.Workspace
import GroqSnippets.Main
import GroqSnippets.Session
import GroqSnippets.Proofs.Exclusion.Composition
import GroqSnippets.Proofs.Exclusion.Reach
import GroqSnippets.Proofs.Generation.Run
import GroqSnippets.Proofs.Generation.Warnings
import GroqSnippets.Proofs.Query.OutputKeys
import GroqSnippets.Proofs.Query.ReadBack
import GroqSnippets.Proofs.Query.Repeats
import GroqSnippets.Proofs.Schema.Comments
import GroqSnippets.Proofs.Schema.Nameless
import GroqSnippets.Proofs.Schema.Origin
import GroqSnippets.Proofs.Schema.Prefix
import GroqSnippets.Proofs.Schema.RoundTrip
import GroqSnippets.Proofs.Session.Steps
import GroqSnippets.Proofs.Source.Enumeration
import GroqSnippets.Proofs.Source.Form
import GroqSnippets.Proofs.Source.Partner
import GroqSnippets.Proofs.Source.Items
import GroqSnippets.Proofs.Schema.Keys
import GroqSnippets.Proofs.Schema.Leftmost
import GroqSnippets.Proofs.Schema.Verbatim
import GroqSnippets.Proofs.Schema.Decoding
import GroqSnippets.Proofs.Source.OneLine
import GroqSnippets.Proofs.Snippet.CommentHeader
import GroqSnippets.Proofs.Snippet.Wrapping

/-
A header never leaves its comment.

Whatever a header holds, every line of the block that is put in front of a snippet is blank or a
comment, and nothing in it ends a line of code.  What makes it so is that the header is cut at more
characters than any language ends a comment at, and that the placeholder is filled in before the
cut: a line is made a comment only once nothing in it can end it.

Nothing of the header is lost on the way.  Its lines, with the placeholder filled in and without the
line feeds at both ends, come out in order, each as it is or behind two slashes.

A stack of headers is the same block after block.  The hook that acts last stands first, because
each puts its block in front of everything that is there already.
-/
import Mathlib.Control.Lawful
import Mathlib.Data.List.Forall2
import GroqSnippets.Proofs.Generation.Calls
import GroqSnippets.Proofs.Text.Parts

namespace GroqSnippets

/-! ### Lines -/

/-- Whether a line says nothing as code: it is blank, or a comment behind blanks. -/
def Silent (line : Text) : Prop :=
  (∀ c ∈ line, isBlank c = true) ∨ "//".toList <+: line.trimStart

/-- A line of a header and what is written for it: two slashes stand in front if it is neither blank
nor a comment yet. -/
inductive Written (line : Text) : Text → Prop where
  | kept (h : Silent line) : Written line line
  | marked (h : ¬ Silent line) : Written line ("// ".toList ++ line)

theorem written_commentLine (line : Text) : Written line (commentLine line) := by
  have hiff : Silent line ↔ (line.isBlank || "//".toList.isPrefixOf line.trimStart) = true := by
    rw [Bool.or_eq_true, Text.isBlank, List.all_eq_true, List.isPrefixOf_iff_prefix]
    rfl
  unfold commentLine
  by_cases h : Silent line
  · rw [if_pos (hiff.mp h)]
    exact .kept h
  · rw [if_neg (hiff.not.mp h)]
    exact .marked h

theorem Written.silent {line written : Text} (h : Written line written) : Silent written := by
  cases h with
  | kept h => exact h
  | marked _ =>
    -- the slashes are no blanks, so nothing is taken away in front of them
    right
    have htrim : Text.trimStart ("// ".toList ++ line) = "// ".toList ++ line :=
      List.dropWhile_cons_of_neg (by decide)
    rw [htrim]
    exact ⟨' ' :: line, rfl⟩

/-- What is put in front of a line does not break it. -/
theorem Written.unbroken {line written : Text} (h : Written line written)
    (hline : ∀ c ∈ line, isLineBreak c = false) : ∀ c ∈ written, isLineBreak c = false := by
  cases h with
  | kept _ => exact hline
  | marked _ =>
    have hslashes : "// ".toList.all (!isLineBreak ·) = true := by decide
    intro c hc
    rcases List.mem_append.mp hc with hc | hc
    · simpa using List.all_eq_true.mp hslashes c hc
    · exact hline c hc

/-! ### Blocks

The lines of a header are cut at every break, and put together again at line feeds alone.  What
remains of the other breaks is nothing, so the two ways to count the lines of a block agree.
-/

/-- The lines that a header has for a kind of query, before any of them becomes a comment. -/
def HeaderTells (kind : QueryKind) (header : Text) (lines : List Text) : Prop :=
  ∃ replaced middle, Text.Replaced kindPlaceholder kind.name header replaced
    ∧ Text.Stripped (· == '\n') replaced middle ∧ Text.Lined middle lines

/-- A block of comment lines for a header.  A header without lines leaves one empty line. -/
structure HeaderBlock (kind : QueryKind) (header block : Text) : Prop where
  told : ∃ lines, HeaderTells kind header lines
    ∧ (lines = [] ∧ block = [] ∨ List.Forall₂ Written lines (Text.pieces '\n' block))
  /-- Every line says nothing as code. -/
  silent : ∀ line ∈ Text.pieces '\n' block, Silent line
  unbroken : ∀ line ∈ Text.pieces '\n' block, ∀ c ∈ line, isLineBreak c = false

def headerBlock (kind : QueryKind) (header : Text) : Text :=
  ['\n'].intercalate (headerLines header kind)

theorem headerTells (kind : QueryKind) (header : Text) :
    HeaderTells kind header
      (Text.stripWhile (· == '\n') (Text.replace kindPlaceholder kind.name header)).lines :=
  ⟨_, _, Text.replaced_replace (by decide) header, Text.stripped_stripWhile _ _, Text.lined_lines _⟩

theorem headerBlock_spec (kind : QueryKind) (header : Text) :
    HeaderBlock kind header (headerBlock kind header) := by
  have htells := headerTells kind header
  unfold headerBlock headerLines
  generalize (Text.stripWhile (· == '\n') (Text.replace kindPlaceholder kind.name header)).lines = lines
    at htells ⊢
  have hunbroken : ∀ line ∈ lines.map commentLine, ∀ c ∈ line, isLineBreak c = false := by
    obtain ⟨replaced, middle, -, -, hlined⟩ := htells
    intro line hline
    obtain ⟨told, htold, rfl⟩ := List.mem_map.mp hline
    exact (written_commentLine told).unbroken (hlined.isLineBreak_eq_false htold)
  by_cases hlines : lines = []
  · subst hlines
    refine ⟨⟨[], htells, .inl ⟨rfl, rfl⟩⟩, ?_, ?_⟩
    · intro line hline
      obtain rfl : line = [] := by simpa [Text.pieces] using hline
      exact .inl (by simp)
    · intro line hline
      obtain rfl : line = [] := by simpa [Text.pieces] using hline
      simp
  · have hpieces : Text.pieces '\n' (['\n'].intercalate (lines.map commentLine))
        = lines.map commentLine := by
      rw [Text.pieces_eq_splitOn]
      refine List.splitOn_intercalate '\n' ?_ (by simpa using hlines)
      intro line hline hfeed
      exact absurd (hunbroken line hline '\n' hfeed) (by decide)
    refine ⟨⟨lines, htells, .inr ?_⟩, ?_, ?_⟩
    · rw [hpieces, List.forall₂_map_right_iff, List.forall₂_same]
      intro line _
      exact written_commentLine line
    · rw [hpieces]
      intro line hline
      obtain ⟨told, -, rfl⟩ := List.mem_map.mp hline
      exact (written_commentLine told).silent
    · rw [hpieces]
      exact hunbroken

theorem withHeader_eq (kind : QueryKind) (header snippet : Text) :
    withHeader header kind snippet = headerBlock kind header ++ "\n\n".toList ++ snippet := rfl

/-! ### Stacks -/

/-- Some blocks, each with a blank line behind it. -/
def stacked (blocks : List Text) : Text :=
  blocks.flatMap fun block => block ++ "\n\n".toList

theorem pieces_stacked (blocks : List Text) (snippet : Text) :
    Text.pieces '\n' (stacked blocks ++ snippet)
      = blocks.flatMap (fun block => Text.pieces '\n' block ++ [[]]) ++ Text.pieces '\n' snippet := by
  induction blocks with
  | nil => rfl
  | cons block blocks ih =>
    have hcut : stacked (block :: blocks) ++ snippet
        = block ++ '\n' :: '\n' :: (stacked blocks ++ snippet) := by
      simp [stacked]
    rw [hcut, Text.pieces_append_cons, Text.pieces, if_pos (by rfl), ih]
    simp

section

variable {m : Type → Type} [Monad m] [LawfulMonad m]

/-- What headers leave: each puts its block in front of what is there. -/
theorem runPost_header (kind : QueryKind) (headers : List Text) (snippet : Text) :
    Hook.runPost (headers.map Hook.header : List (Hook m)) kind snippet
      = pure (stacked (headers.reverse.map (headerBlock kind)) ++ snippet) := by
  induction headers generalizing snippet with
  | nil => rfl
  | cons header headers ih =>
    have hstep : Hook.runPost ((header :: headers).map Hook.header : List (Hook m)) kind snippet
        = Hook.runPost (headers.map Hook.header) kind (withHeader header kind snippet) := by
      simp only [Hook.runPost, Hook.header, List.map_cons, List.filterMap_cons, List.foldlM_cons,
        pure_bind]
    rw [hstep, ih, withHeader_eq]
    simp [stacked]

end

/-- The header of a configuration, unless it is empty. -/
def Config.ownHeaders (config : Config) : List Text :=
  config.header.toList.filter (!·.isEmpty)

theorem Config.hooks_header {m : Type → Type} [Monad m] (config : Config) (given : List Text) :
    config.hooks (given.map Hook.header : List (Hook m))
      = (given ++ config.ownHeaders).map Hook.header := by
  unfold hooks ownHeaders
  cases config.header with
  | none => simp
  | some header => cases header <;> simp

/-! ### Comments all the way -/

/-- **A header stays in its comment.**  One header leaves its block, a blank line and the snippet.
Any number of them leave their blocks with a blank line behind each, the last header's first, and
then the snippet; the header of a configuration is one of them, and the last.  A block tells the
lines of its header, each as it is or as a comment, and its own lines are blank or comments.  None
of them holds what ends a line, which the four characters that end a line of code all do. -/
theorem headers_stay_comments (kind : QueryKind) (snippet : Text) :
    ['\n', '\r', '\u2028', '\u2029'].all isLineBreak = true
      ∧ (∀ header, ∃ block, HeaderBlock kind header block
        ∧ withHeader header kind snippet = block ++ "\n\n".toList ++ snippet)
      ∧ ∀ (m : Type → Type) [Monad m] [LawfulMonad m] (headers : List Text),
        (∃ blocks, List.Forall₂ (HeaderBlock kind) headers.reverse blocks
          ∧ Hook.runPost (headers.map Hook.header : List (Hook m)) kind snippet
            = pure (stacked blocks ++ snippet)
          ∧ Text.pieces '\n' (stacked blocks ++ snippet)
            = blocks.flatMap (fun block => Text.pieces '\n' block ++ [[]]) ++ Text.pieces '\n' snippet)
        ∧ ∀ config : Config, config.hooks (headers.map Hook.header : List (Hook m))
          = (headers ++ config.ownHeaders).map Hook.header := by
  refine ⟨by decide, ?_, ?_⟩
  · intro header
    exact ⟨headerBlock kind header, headerBlock_spec kind header, withHeader_eq kind header snippet⟩
  · intro m _ _ headers
    refine ⟨⟨headers.reverse.map (headerBlock kind), ?_, ?_, ?_⟩, ?_⟩
    · rw [List.forall₂_map_right_iff, List.forall₂_same]
      intro header _
      exact headerBlock_spec kind header
    · exact runPost_header kind headers snippet
    · exact pieces_stacked (headers.reverse.map (headerBlock kind)) snippet
    · intro config
      exact config.hooks_header headers

example :
    withHeader "\n// by\t{kind}\r\u2028alert()\x0c \t// kept\n\n".toList .list "q".toList
      = "// by\tList\n\n// alert()\n \t// kept\n\nq".toList := by
  decide +kernel

end GroqSnippets

/-
Regex literals and the ends of lines.

A slash opens a regex literal only if another slash closes it before the line ends, and is an ordinary
character otherwise.  The search for the closing slash takes a backslash together with the character
behind it, whatever that is, so it does not see a line feed that is escaped, and goes on in the next
line.  This is the one way for a regex literal to get over the end of its line.

Hence the line that a slash stands on tells what it is, as long as no backslash escapes the line feed
at its end: the literal ends on the line if it can, and the slash stands for itself if it cannot.
-/
import GroqSnippets.Proofs.Source.Form

namespace GroqSnippets

/-! ### Lines behind a slash -/

namespace Text

/-- Whether a slash in the first line of a text closes a regex literal that is open before the text. -/
def ClosesLiteral (text : Text) : Prop :=
  ∃ body back, text = body ++ back ∧ ClosesRegex body back ∧ '\n' ∉ body

def ContinuesLine (text : Text) : Prop :=
  ∃ line more, text = line ++ '\n' :: more ∧ '\n' ∉ line ∧ line.EndsEscaping

/-- A character in front that is no backslash escapes nothing behind the text. -/
theorem endsEscaping_cons {c : Char} (hc : c ≠ '\\') (text : Text) :
    EndsEscaping (c :: text) ↔ EndsEscaping text := by
  induction text using List.reverseRecOn with
  | nil =>
    have hone : ¬ EndsEscaping ([] ++ [c]) := not_endsEscaping_append_singleton hc
    exact iff_of_false hone not_endsEscaping_nil
  | append_singleton text d ih =>
    rw [← List.cons_append, endsEscaping_append_singleton, endsEscaping_append_singleton, ih]

end Text

section

variable {body back rest : Text}

/-- No line ends in a text just when all its line feeds are escaped. -/
theorem nowhere_breaksLine_iff :
    Nowhere BreaksLine body
      ↔ ∀ before after, body = before ++ '\n' :: after → before.EndsEscaping := by
  constructor
  · intro hline before after hsplit
    by_contra hescaped
    exact hline before ('\n' :: after) hsplit ⟨rfl, hescaped⟩
  · intro hescaped before after hsplit hbreak
    obtain ⟨hhead, hnot⟩ := hbreak
    cases after with
    | nil => cases hhead
    | cons c after =>
      obtain rfl : c = '\n' := Option.some.inj hhead
      exact hnot (hescaped before after hsplit)

/-- A line with a slash that closes a literal has a first one, and no line ends before it. -/
theorem Text.ClosesLiteral.opensRegex (h : rest.ClosesLiteral) : Lexeme.OpensRegex rest := by
  obtain ⟨body, back, rfl, hcloses, hline⟩ := h
  have hend : Lexeme.IsRegexEnd [] (body ++ back) (Lexeme.regexRest? false (body ++ back)) :=
    Lexeme.isRegexEnd_regexRest? Text.not_endsEscaping_nil (by simp [Text.not_endsInClass_nil])
  have hunbroken : Nowhere BreaksLine body := by
    rw [nowhere_breaksLine_iff]
    intro before after hsplit
    exact absurd (by simp [hsplit]) hline
  cases hread : Lexeme.regexRest? false (body ++ back) with
  | none =>
    rw [hread] at hend
    exact absurd hunbroken (hend body back rfl hcloses)
  | some literal =>
    rw [hread] at hend
    obtain ⟨first, flags, more, hsplit, -, hfirst, hbreaks, -⟩ := hend
    exact ⟨first, _, hsplit, hfirst, hbreaks⟩

/-- A literal that is closed before its line ends has no line feed in it, or it is not closed in the
first line, and a backslash leads over the end of that line. -/
theorem ClosesOnLine.cases (h : ClosesOnLine body back) :
    '\n' ∉ body ∧ (body ++ back).ClosesLiteral
    ∨ '\n' ∈ body ∧ ¬ (body ++ back).ClosesLiteral ∧ (body ++ back).ContinuesLine := by
  by_cases hbreak : '\n' ∈ body
  · refine .inr ⟨hbreak, ?_, ?_⟩
    · rintro ⟨before, after, hsplit, hcloses, hline⟩
      -- The literal is not closed earlier, so it would lie in the first line as a whole.
      have hle := h.closes.first before after hsplit hcloses
      have hwithin : body <+: before :=
        List.prefix_of_prefix_length_le ⟨back, rfl⟩ ⟨after, hsplit.symm⟩ hle
      exact hline (hwithin.subset hbreak)
    · obtain ⟨line, more, hsplit, hline⟩ := List.eq_append_cons_of_mem hbreak
      refine ⟨line, more ++ back, by simp [hsplit], hline, ?_⟩
      exact nowhere_breaksLine_iff.mp h.unbroken line more hsplit
  · exact .inl ⟨hbreak, body, back, rfl, h.closes.here, hbreak⟩

end

/-! ### What a slash is

A backslash may lead over the end of a line.  Then there is a third case between closed and not
closed in its line, which has to be told apart from both.
-/

namespace Lexeme

variable {lexeme : Lexeme} {mayOpen : Prop} {more rest : Text}

/-- A lexeme of more than one character that starts with a slash is a comment or a regex literal. -/
theorem Formed.isRegex_of_slash (h : lexeme.Formed mayOpen more)
    (hcomment : lexeme.isComment = false) (hlong : 1 < lexeme.text.length)
    (hslash : lexeme.text.head? = some '/') : ∃ literal, lexeme = .regex literal := by
  cases h with
  | lineComment | blockComment | openComment => cases hcomment
  | @quoted quote _ _ mark =>
    obtain rfl : quote = '/' := Option.some.inj hslash
    cases mark
  | @openQuoted quote _ mark =>
    obtain rfl : quote = '/' := Option.some.inj hslash
    cases mark
  | regex => exact ⟨_, rfl⟩
  | code => simp [text] at hlong

/-- The line feeds of a regex literal are escaped; there is none among its flags. -/
theorem Formed.endsEscaping_of_regex {literal before after : Text}
    (h : (Lexeme.regex literal).Formed mayOpen more) (hsplit : literal = before ++ '\n' :: after) :
    before.EndsEscaping := by
  cases h with
  | @regex body flags _ opens noComment closes letters ends =>
    cases before with
    | nil => simp at hsplit
    | cons c before =>
      obtain ⟨rfl, htail⟩ := List.cons.inj hsplit
      rw [Text.endsEscaping_cons (by decide)]
      obtain ⟨line, rfl, hmore⟩ | ⟨line, rfl, hmore⟩ := List.append_eq_append_iff.mp htail
      · have hmem : '\n' ∈ '/' :: flags := by simp [hmore]
        rcases List.mem_cons.mp hmem with hslash | hflag
        · exact absurd hslash (by decide)
        · exact absurd (letters '\n' hflag) (by decide)
      · cases line with
        | nil => exact absurd (List.cons.inj hmore).1 (by decide)
        | cons d line =>
          obtain ⟨rfl, -⟩ := List.cons.inj hmore
          exact nowhere_breaksLine_iff.mp closes.unbroken before line rfl

/-- What a slash is that opens no comment.  Closed in its line, it is a regex literal where one may
open, and there is no line feed in the literal; not closed in its line, it is an ordinary character
unless a backslash leads on into the next line. -/
theorem Formed.slash_cases (h : lexeme.Formed mayOpen more)
    (hslash : '/' :: rest = lexeme.text ++ more) (hcomment : ¬ OpensComment rest) :
    (∃ literal, lexeme = .regex literal ∧ '\n' ∉ literal ∧ rest.ClosesLiteral)
    ∨ (∃ literal, lexeme = .regex literal ∧ '\n' ∈ literal ∧ ¬ rest.ClosesLiteral
        ∧ rest.ContinuesLine)
    ∨ lexeme = .code '/' ∧ rest = more ∧ (mayOpen → ¬ rest.ClosesLiteral) := by
  cases h with
  | lineComment | blockComment | openComment =>
    obtain ⟨-, rfl⟩ := List.cons.inj hslash
    exact absurd (by simp [OpensComment]) hcomment
  | @quoted quote _ _ mark =>
    obtain ⟨rfl, -⟩ := List.cons.inj hslash
    cases mark
  | @openQuoted quote _ mark =>
    obtain ⟨rfl, -⟩ := List.cons.inj hslash
    cases mark
  | @regex body flags _ opens noComment closes letters ends =>
    have hrest : rest = body ++ '/' :: (flags ++ more) := by
      simpa [text] using (List.cons.inj hslash).2
    have hflags : '\n' ∉ flags := by
      intro hmem
      exact absurd (letters _ hmem) (by decide)
    rw [hrest]
    rcases closes.cases with ⟨hline, hclosed⟩ | ⟨hline, hopen, hcontinued⟩
    · exact .inl ⟨_, rfl, by simp [hline, hflags], hclosed⟩
    · exact .inr (.inl ⟨_, rfl, by simp [hline], hopen, hcontinued⟩)
  | @code c _ noQuote noSlash =>
    obtain ⟨rfl, rfl⟩ := List.cons.inj hslash
    refine .inr (.inr ⟨rfl, rfl, ?_⟩)
    intro hopens hclosed
    exact (noSlash rfl).2 ⟨hopens, hclosed.opensRegex⟩

end Lexeme

/-! ### Slashes of a scan -/

/-- **A regex literal stays on its line, unless a backslash leads over the end of it.**  The line feeds
in a token of more than one character that starts with a slash are escaped.  A slash that opens no
comment, and that is closed in its line, is a regex literal of that line where one may open.  One that
is not closed in its line is an ordinary character if the line feed at the end of the line is not
escaped, and behind a slash that is an ordinary character the scan goes on with the next one.  So a
regex literal holds a line feed just when it is not closed in the line that it starts on. -/
theorem slash_read_in_line (text : Text) (start : Nat) :
    (∀ token ∈ (Cursor.ofOffset text start).tokens, 1 < token.lexeme.text.length →
      token.lexeme.text.head? = some '/' →
      ∀ before after, token.lexeme.text = before ++ '\n' :: after → before.EndsEscaping)
    ∧ ∀ front token back, text.scan start = front ++ token :: back →
      ∀ rest : Text, text.drop token.place.offset = '/' :: rest → ¬ Lexeme.OpensComment rest →
        (RegexMayFollow (front.map (·.lexeme)) → rest.ClosesLiteral →
          ∃ literal, token.lexeme = .regex literal ∧ '\n' ∉ literal)
        ∧ (¬ rest.ClosesLiteral → ¬ rest.ContinuesLine → token.lexeme = .code '/')
        ∧ (token.lexeme = .code '/' → rowText (back.map (·.lexeme)) = rest
          ∧ ∀ next ∈ back.head?, next.place.offset = token.place.offset + 1)
        ∧ ∀ literal, token.lexeme = .regex literal → ('\n' ∈ literal ↔ ¬ rest.ClosesLiteral) := by
  constructor
  · intro token htoken hlong hslash before after hsplit
    obtain ⟨hmem, hcomment⟩ := List.mem_filter.mp htoken
    obtain ⟨front, back, hscan⟩ := List.append_of_mem hmem
    have hformed := formed_of_lexemes (lexemes_of_scan hscan)
    obtain ⟨literal, hliteral⟩ := hformed.isRegex_of_slash (by simpa using hcomment) hlong hslash
    rw [hliteral] at hformed hsplit
    exact hformed.endsEscaping_of_regex hsplit
  · intro front token back hscan rest hrest hcomment
    have hrow := lexemes_of_scan hscan
    have hread : '/' :: rest = token.lexeme.text ++ rowText (back.map (·.lexeme)) := by
      rw [← hrest, offset_of_scan hscan, drop_of_split hrow, rowText_cons]
    have hcases := (formed_of_lexemes hrow).slash_cases hread hcomment
    rw [opensRegex_lastAfterRow hrow] at hcases
    refine ⟨?_, ?_, ?_, ?_⟩
    · intro hopens hclosed
      rcases hcases with ⟨literal, hliteral, hline, -⟩ | ⟨-, -, -, hopen, -⟩ | ⟨-, -, hnone⟩
      · exact ⟨literal, hliteral, hline⟩
      · exact absurd hclosed hopen
      · exact absurd hclosed (hnone hopens)
    · intro hopen hends
      rcases hcases with ⟨-, -, -, hclosed⟩ | ⟨-, -, -, -, hcontinued⟩ | ⟨hcode, -⟩
      · exact absurd hclosed hopen
      · exact absurd hcontinued hends
      · exact hcode
    · intro hcode
      rw [hcode] at hread
      refine ⟨(List.cons.inj hread).2.symm, ?_⟩
      intro next hnext
      obtain ⟨back, rfl⟩ : ∃ more, back = next :: more := by
        cases back <;> simp_all
      have hbehind : text.scan start = (front ++ [token]) ++ next :: back := by simp [hscan]
      rw [offset_of_scan hbehind, offset_of_scan hscan]
      simp [rowText_append, hcode, Lexeme.text, rowText_cons]
      omega
    · intro literal hliteral
      rcases hcases with ⟨other, hother, hline, hclosed⟩ | ⟨other, hother, hline, hopen, -⟩
        | ⟨hcode, -⟩
      · obtain rfl : literal = other := by simpa [hliteral] using hother
        exact iff_of_false hline (not_not_intro hclosed)
      · obtain rfl : literal = other := by simpa [hliteral] using hother
        exact iff_of_true hline hopen
      · rw [hliteral] at hcode
        cases hcode

/-- A backslash before the line feed leads a regex literal over the end of its line, on which no other
slash stands. -/
theorem regex_over_escaped_break :
    let text : Text := "/a\\\nb/".toList
    '/' ∉ (text.drop 1).takeWhile (· != '\n')
    ∧ ∃ token ∈ (Cursor.ofOffset text 0).tokens, 1 < token.lexeme.text.length
      ∧ token.lexeme.text.head? = some '/' ∧ '\n' ∈ token.lexeme.text := by
  decide +kernel

end GroqSnippets

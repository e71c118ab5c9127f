/-
The token stream.

Scanning a text from a place yields its lexemes in order, each with the place where it starts.  The
tokens are the lexemes that are no comments.  The scan remembers only the last code character, and
forgets it when it starts, so a scan may begin at any place of a text.

Every lexeme has at least one character, which is what makes the scan end.
-/
import GroqSnippets.Source.Cursor
import GroqSnippets.Source.Lexeme

namespace GroqSnippets

structure Token where
  place : Cursor
  lexeme : Lexeme
deriving DecidableEq, Repr

/-- The lexemes from a place to the end of the text, comments included. -/
def lexemesFrom (last : Option Char) (place : Cursor) : List Token :=
  match _ : place.rest with
  | [] => []
  | c :: rest =>
    let lexeme := Lexeme.first last c rest
    ⟨place, lexeme⟩ :: lexemesFrom (lexeme.lastAfter last) (place.skip lexeme.text.length)
termination_by place.rest.length
decreasing_by
  exact Cursor.length_rest_skip_lt (List.length_pos_iff.mpr (Lexeme.text_first_ne_nil _ _ _)) (by simp_all)

theorem lexemesFrom_of_nil {last : Option Char} {place : Cursor} (h : place.rest = []) :
    lexemesFrom last place = [] := by
  rw [lexemesFrom]
  split <;> simp_all

theorem lexemesFrom_of_cons {last : Option Char} {place : Cursor} {c : Char} {rest : Text}
    (h : place.rest = c :: rest) :
    lexemesFrom last place
      = ⟨place, .first last c rest⟩ ::
          lexemesFrom ((Lexeme.first last c rest).lastAfter last)
            (place.skip (Lexeme.first last c rest).text.length) := by
  rw [lexemesFrom]
  split <;> simp_all

namespace Cursor

/-- The tokens from a place to the end of the text. -/
def tokens (place : Cursor) : List Token :=
  (lexemesFrom none place).filter fun token => !token.lexeme.isComment

end Cursor

/-- A token stands at a place that still has text behind it, and no earlier than the scan starts. -/
theorem rest_of_mem_lexemesFrom {last : Option Char} {place : Cursor} {token : Token}
    (h : token ∈ lexemesFrom last place) :
    token.place.rest ≠ [] ∧ token.place.rest.length ≤ place.rest.length := by
  fun_induction lexemesFrom last place with
  | case1 => simp at h
  | case2 last place c rest hrest lexeme ih =>
    rcases List.mem_cons.mp h with rfl | h
    · simp [hrest]
    · exact ⟨(ih h).1, Nat.le_trans (ih h).2 (Cursor.length_rest_skip_le _ _)⟩

theorem Cursor.rest_of_mem_tokens {place : Cursor} {token : Token} (h : token ∈ place.tokens) :
    token.place.rest ≠ [] ∧ token.place.rest.length ≤ place.rest.length :=
  rest_of_mem_lexemesFrom (List.mem_filter.mp h).1

end GroqSnippets

/-
The lists of a block's own.

The list behind a key is looked for in all the code of a block, whatever brackets it stands in, and
the first one is taken.  The lists that belong to the block are those whose key stands directly in
it, at depth one.  The two agree when no list of that key within something else comes before the
block's own: the first key that is found is then one that stands directly in the block.
-/
import GroqSnippets.Proofs.Source.BlockRow

namespace GroqSnippets

/-! ### Occurrences -/

/-- The occurrences of a pattern in the code of a text, in order. -/
def Pattern.occurrences (pattern : Pattern) (text : Text) : List Match :=
  (Cursor.ofText text).tokens.filterMap pattern.matchToken?

def Match.contents (found : Match) : Text :=
  (found.bracket.skip 1).window found.bracket.closing?

/-- A section is what the first occurrence holds. -/
theorem Pattern.section?_eq (pattern : Pattern) (text : Text) :
    pattern.section? text
      = ((Cursor.ofText text).tokens.findSome? pattern.matchToken?).map Match.contents := by
  rw [section?, firstInCode?_eq]
  rfl

/-! ### What stands directly in a block -/

/-- The tokens at depth one, up to the bracket that closes the first one. -/
def directTokensAmong (depth : Nat) : List Token → List Token
  | [] => []
  | token :: tokens =>
    match token.lexeme with
    | .code c =>
      if isOpener c then directTokensAmong (depth + 1) tokens
      else if isCloser c then
        if depth = 1 then [] else directTokensAmong (depth - 1) tokens
      else if depth = 1 then token :: directTokensAmong depth tokens
      else directTokensAmong depth tokens
    | _ =>
      if depth = 1 then token :: directTokensAmong depth tokens else directTokensAmong depth tokens

def directTokens (block : Text) : List Token :=
  directTokensAmong 0 ((Cursor.ofText block).seek '{').tokens

theorem directTokensAmong_sublist (depth : Nat) (tokens : List Token) :
    (directTokensAmong depth tokens).Sublist tokens := by
  induction tokens generalizing depth with
  | nil => exact .slnil
  | cons token tokens ih =>
    rw [directTokensAmong]
    split
    · split
      · exact (ih _).cons token
      · split
        · split
          · exact List.nil_sublist _
          · exact (ih _).cons token
        · split
          · exact (ih _).cons_cons token
          · exact (ih _).cons token
    · split
      · exact (ih _).cons_cons token
      · exact (ih _).cons token

/-- What stands directly in a block is among its tokens. -/
theorem directTokens_subset {block : Text} (hblock : IsBlock block) :
    directTokens block ⊆ (Cursor.ofText block).tokens := by
  obtain ⟨run, row, hrun, htext, hrow⟩ := hblock
  have hbrace : ∀ d ∈ (rowText (.code '{' :: row)).head?, d = '{' := by simp [Lexeme.text]
  have hseek : (Cursor.ofText block).seek '{' = (Cursor.ofText block).skip run.length := by
    rw [htext]
    exact Cursor.seek_ofText hrun hbrace
  have hreads : Reads (.code '{' :: row) := by
    have hall := Reads.of_text none block
    rw [hrow] at hall
    exact hall.right
  have hrest : ((Cursor.ofText block).skip run.length).rest = rowText (.code '{' :: row) := by
    rw [Cursor.rest_skip, htext]
    exact List.drop_left
  have htokens : (Cursor.ofText block).tokens
      = rowTokens (Cursor.ofText block) (run.map .code)
        ++ rowTokens ((Cursor.ofText block).skip run.length) (.code '{' :: row) := by
    rw [tokens_eq_rowTokens]
    show rowTokens _ (lexemes none block) = _
    rw [hrow, rowTokens_append, rowText_map_code]
  intro token htoken
  have hmem := (directTokensAmong_sublist 0 _).subset htoken
  rw [hseek, tokens_eq_rowTokens, hrest, hreads.of_isSettling (by decide)] at hmem
  rw [htokens]
  exact List.mem_append_right _ hmem

/-! ### Lists of a key -/

namespace Pattern

/-- The occurrences of a pattern that stand directly in a block. -/
def ownOccurrences (pattern : Pattern) (block : Text) : List Match :=
  (directTokens block).filterMap pattern.matchToken?

def ownLists (pattern : Pattern) (block : Text) : List Text :=
  (pattern.ownOccurrences block).map Match.contents

/-- Whether an occurrence that stands directly in a block comes before any other. -/
def OwnFirst (pattern : Pattern) (block : Text) : Prop :=
  ∀ found ∈ pattern.occurrences block,
    ∃ own ∈ pattern.ownOccurrences block, own.place.offset ≤ found.place.offset

instance (pattern : Pattern) (block : Text) : Decidable (pattern.OwnFirst block) :=
  decidable_of_iff ((pattern.occurrences block).all fun found =>
      (pattern.ownOccurrences block).any (·.place.offset ≤ found.place.offset))
    (by simp only [List.all_eq_true, List.any_eq_true, decide_eq_true_eq, OwnFirst])

end Pattern

/-- **The list that is taken is one of the block's own** if no list of that key within something else
comes before it. -/
theorem Pattern.mem_ownLists_of_section? {pattern : Pattern} {block list : Text}
    (hblock : IsBlock block) (hown : pattern.OwnFirst block)
    (h : pattern.section? block = some list) : list ∈ pattern.ownLists block := by
  rw [section?_eq, Option.map_eq_some_iff] at h
  obtain ⟨found, hfound, rfl⟩ := h
  obtain ⟨before, token, after, htokens, htoken, hnone⟩ := List.findSome?_eq_some_iff.mp hfound
  have hmem : token ∈ (Cursor.ofText block).tokens := by simp [htokens]
  obtain ⟨own, hdirect, hle⟩ := hown found (List.mem_filterMap.mpr ⟨token, hmem, htoken⟩)
  obtain ⟨other, hother, hmatch⟩ := List.mem_filterMap.mp hdirect
  rw [place_of_matchToken? hmatch, place_of_matchToken? htoken] at hle
  have hsorted : (Cursor.ofText block).tokens.Pairwise fun a b =>
      a.place.offset < b.place.offset := by
    have hseen := pairwise_seen block 0
    rwa [Text.seen, List.pairwise_map] at hseen
  have hplaced := directTokens_subset hblock hother
  rw [htokens] at hsorted hplaced
  -- The other token is not before the one that is found, nor behind it.
  rcases List.mem_append.mp hplaced with hbefore | hbehind
  · rw [hnone other hbefore] at hmatch
    cases hmatch
  · rcases List.mem_cons.mp hbehind with rfl | hafter
    · rw [hmatch] at htoken
      obtain rfl := Option.some.inj htoken
      exact List.mem_map_of_mem hdirect
    · have hlt := (List.pairwise_cons.mp (List.pairwise_append.mp hsorted).2.1).1 other hafter
      omega

end GroqSnippets

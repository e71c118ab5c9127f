/-
Balanced rows.

A row that someone has written down lexeme by lexeme spells a text, and a scan of that text need not
see the row again: a slash may swallow what follows it, a quote may close early.  It does when each
lexeme is steady, that is, reads as itself wherever it stands.

When the brackets of a row are balanced as well, everything that the reader asks about brackets can
be told from the row: a bracket around it is closed behind it, and what stands directly in that
bracket is what stands outside the brackets of the row.  `Balanced` builds such rows up, and keeps
that text along.
-/
import GroqSnippets.Proofs.Source.Shape
import GroqSnippets.Proofs.Source.Window

namespace GroqSnippets

/-! ### Steady lexemes -/

/-- Whether a lexeme reads as itself wherever it stands. -/
inductive Lexeme.Steady : Lexeme → Prop where
  | code {c : Char} (h : isPlain c = true) : Steady (.code c)
  | quoted {quote : Char} {body : Text} (hquote : isQuote quote = true)
      (hbody : ∀ c ∈ body, c ≠ quote ∧ c ≠ '\\') :
      Steady (.quoted (quote :: (body ++ [quote])))

theorem Lexeme.Steady.isComment {lexeme : Lexeme} (h : lexeme.Steady) :
    lexeme.isComment = false := by
  cases h <;> rfl

theorem Lexeme.quotedRest_of_closed {quote : Char} {body : Text} (hquote : isQuote quote = true)
    (hbody : ∀ c ∈ body, c ≠ quote ∧ c ≠ '\\') (more : Text) :
    quotedRest quote (body ++ quote :: more) = body ++ [quote] := by
  induction body with
  | nil =>
    have hslash : quote ≠ '\\' := by
      rintro rfl
      revert hquote
      decide
    simp [quotedRest, hslash]
  | cons c body ih =>
    obtain ⟨⟨hc, hslash⟩, hbody'⟩ := List.forall_mem_cons.mp hbody
    simp [quotedRest, hc, hslash, ih hbody']

theorem Lexeme.Steady.first {lexeme : Lexeme} (h : lexeme.Steady)
    (last : Option Char) (more : Text) :
    ∃ c rest, lexeme.text ++ more = c :: rest ∧ Lexeme.first last c rest = lexeme := by
  cases h with
  | code hc => exact ⟨_, more, rfl, first_of_isPlain hc last more⟩
  | @quoted quote body hquote hbody =>
    refine ⟨quote, body ++ quote :: more, by simp [text], ?_⟩
    rw [Lexeme.first, if_pos hquote, quotedRest_of_closed hquote hbody]

/-- A row of steady lexemes reads as itself, whatever follows it. -/
theorem lexemes_append_of_steady {row : List Lexeme} (h : ∀ lexeme ∈ row, lexeme.Steady)
    (last : Option Char) (more : Text) :
    lexemes last (rowText row ++ more) = row ++ lexemes (lastAfterRow last row) more := by
  induction row generalizing last with
  | nil => rfl
  | cons lexeme row ih =>
    obtain ⟨hlexeme, hrow⟩ := List.forall_mem_cons.mp h
    obtain ⟨c, rest, htext, hfirst⟩ := hlexeme.first last (rowText row ++ more)
    have hdrop : (c :: rest).drop lexeme.text.length = rowText row ++ more := by
      rw [← htext, List.drop_left]
    rw [rowText_cons, List.append_assoc, htext, lexemes_cons, hfirst, hdrop, ih hrow]
    rfl

theorem lexemes_of_steady {row : List Lexeme} (h : ∀ lexeme ∈ row, lexeme.Steady)
    (last : Option Char) :
    lexemes last (rowText row) = row := by
  simpa using lexemes_append_of_steady h last []

theorem tokens_of_steady {row : List Lexeme} (h : ∀ lexeme ∈ row, lexeme.Steady) {place : Cursor}
    (hplace : place.rest = rowText row) : place.tokens = placed place row := by
  rw [Cursor.tokens, lexemesFrom_eq, hplace, lexemes_of_steady h]
  refine List.filter_eq_self.mpr ?_
  intro token htoken
  obtain ⟨before, after, hrow, -⟩ := mem_placed_iff.mp htoken
  have hlexeme : token.lexeme ∈ row := by simp [hrow]
  rw [(h _ hlexeme).isComment]
  rfl

/-! ### Balanced brackets

Balance follows how a row is put together, and not the depth along it.  What a search by depth does
with a balanced row is proved by induction on how it is built.
-/

/-- The brackets of a row are balanced, and a text is what stands outside them. -/
inductive Balanced : List Lexeme → Text → Prop where
  | nil : Balanced [] []
  | cons {lexeme : Lexeme} {row : List Lexeme} {direct : Text}
      (hlexeme : ∀ c, lexeme = .code c → isOpener c = false ∧ isCloser c = false)
      (hrow : Balanced row direct) :
      Balanced (lexeme :: row) (lexeme.text ++ direct)
  /-- A bracket, what it holds, and its partner. -/
  | bracket {opener closer : Char} {inner row : List Lexeme} {hidden direct : Text}
      (hopener : isOpener opener = true) (hcloser : isCloser closer = true)
      (hinner : Balanced inner hidden) (hrow : Balanced row direct) :
      Balanced (.code opener :: (inner ++ .code closer :: row)) direct

namespace Balanced

variable {row : List Lexeme} {direct : Text}

theorem append (h : Balanced row direct) {more : List Lexeme} {rest : Text}
    (hmore : Balanced more rest) :
    Balanced (row ++ more) (direct ++ rest) := by
  induction h with
  | nil => exact hmore
  | cons hlexeme _ ih =>
    rw [List.cons_append, List.append_assoc]
    exact .cons hlexeme ih
  | bracket hopener hcloser hinner _ _ ih =>
    rw [List.cons_append, List.append_assoc, List.cons_append]
    exact .bracket hopener hcloser hinner ih

/-- A balanced row keeps a positive depth open, and ends where it began. -/
theorem staysOpen (h : Balanced row direct) {depth : Int} (hdepth : 1 ≤ depth) :
    StaysOpen depth row ∧ depthThrough depth row = depth := by
  induction h generalizing depth with
  | nil => exact ⟨trivial, rfl⟩
  | @cons lexeme row direct hlexeme _ ih =>
    have hsame : closesAt depth lexeme = false ∧ depthAfter depth lexeme = depth := by
      cases lexeme with
      | code c => simp [closesAt, depthAfter, hlexeme c rfl]
      | quoted _ | regex _ | comment _ => exact ⟨rfl, rfl⟩
    rw [staysOpen_cons, depthThrough_cons, hsame.1, hsame.2]
    exact ⟨⟨rfl, (ih hdepth).1⟩, (ih hdepth).2⟩
  | @bracket opener closer inner row _ _ hopener hcloser _ _ ihInner ih =>
    have hdeeper : 1 ≤ depth + 1 := by omega
    obtain ⟨hopen, hthrough⟩ := ihInner hdeeper
    have hback : closesAt (depth + 1) (.code closer) = false
        ∧ depthAfter (depth + 1) (.code closer) = depth := by
      simp [closesAt, depthAfter, not_isOpener_of_isCloser hcloser, hcloser]
      omega
    rw [staysOpen_cons, depthThrough_cons, depthAfter_of_isOpener hopener,
      staysOpen_append, depthThrough_append, hthrough, staysOpen_cons,
      depthThrough_cons, hback.1, hback.2]
    exact ⟨⟨closesAt_of_isOpener hopener depth, hopen, rfl, (ih hdepth).1⟩, (ih hdepth).2⟩

/-- A bracket around a balanced row is closed behind it. -/
theorem closingAmong_placed (h : Balanced row direct) {opener closer : Char}
    (hopener : isOpener opener = true) (hcloser : isCloser closer = true)
    (place : Cursor) (more : List Lexeme) :
    closingAmong 0 (placed place (.code opener :: (row ++ .code closer :: more)))
      = some (place.skip (rowText (.code opener :: row)).length) := by
  obtain ⟨hopen, hthrough⟩ := h.staysOpen (Int.le_refl 1)
  rw [← List.cons_append, closingAmong_placed_closer]
  · exact ⟨closesAt_of_isOpener hopener 0, by rwa [depthAfter_of_isOpener hopener]⟩
  · simp [depthAfter_of_isOpener hopener, hthrough, closesAt, hcloser]

theorem closing? (h : Balanced row direct) {opener closer : Char} (hopener : isOpener opener = true)
    (hcloser : isCloser closer = true) {place : Cursor} {more : List Lexeme}
    (hplace : lexemes none place.rest = .code opener :: (row ++ .code closer :: more)) :
    place.closing? = some (place.skip (rowText (.code opener :: row)).length) := by
  rw [closing?_eq_placed, hplace, h.closingAmong_placed hopener hcloser]

/-- What stands in deeper brackets is no direct text. -/
theorem directTextAmong_hidden (h : Balanced row direct) {depth : Nat}
    (hdepth : 2 ≤ depth) (place : Cursor) (tokens : List Token) :
    directTextAmong depth (placed place row ++ tokens) = directTextAmong depth tokens := by
  induction h generalizing depth place tokens with
  | nil => rfl
  | @cons lexeme row _ hlexeme _ ih =>
    have hne : depth ≠ 1 := by omega
    rw [placed, List.cons_append, directTextAmong]
    cases lexeme with
    | code c => simp [hlexeme c rfl, hne, ih hdepth]
    | quoted _ | regex _ | comment _ => simp [hne, ih hdepth]
  | @bracket opener closer inner row _ _ hopener hcloser _ _ ihInner ih =>
    have hne : depth + 1 ≠ 1 := by omega
    rw [placed, placed_append, List.cons_append, List.append_assoc, directTextAmong]
    simp only [hopener, if_true]
    rw [ihInner (by omega), placed, List.cons_append, directTextAmong]
    simp only [not_isOpener_of_isCloser hcloser, hcloser, hne, if_true,
      if_false, Bool.false_eq_true, Nat.add_sub_cancel]
    exact ih hdepth _ _

/-- What stands outside the brackets of a balanced row is its direct text. -/
theorem directTextAmong_eq (h : Balanced row direct) (place : Cursor) (tokens : List Token) :
    directTextAmong 1 (placed place row ++ tokens) = direct ++ directTextAmong 1 tokens := by
  induction h generalizing place tokens with
  | nil => rfl
  | @cons lexeme row _ hlexeme _ ih =>
    rw [placed, List.cons_append, directTextAmong]
    cases lexeme with
    | code c => simp [hlexeme c rfl, ih, Lexeme.text]
    | quoted _ | regex _ | comment _ => simp [ih]
  | @bracket opener closer inner row _ _ hopener hcloser hinner _ _ ih =>
    rw [placed, placed_append, List.cons_append, List.append_assoc, directTextAmong]
    simp only [hopener, if_true]
    rw [hinner.directTextAmong_hidden (Nat.le_refl 2), placed, List.cons_append, directTextAmong]
    simp only [not_isOpener_of_isCloser hcloser, hcloser, if_true, if_false, Bool.false_eq_true]
    exact ih _ _

end Balanced

/-! ### Objects -/

def braced (inner : List Lexeme) : List Lexeme :=
  .code '{' :: (inner ++ [.code '}'])

theorem steady_braced {inner : List Lexeme} (h : ∀ lexeme ∈ inner, lexeme.Steady) :
    ∀ lexeme ∈ braced inner, lexeme.Steady := by
  intro lexeme hmem
  simp only [braced, List.mem_cons, List.mem_append, List.not_mem_nil, or_false] at hmem
  rcases hmem with rfl | hmem | rfl
  · exact .code (by decide)
  · exact h lexeme hmem
  · exact .code (by decide)

/-- The direct text of a block is the direct text of what its first brace holds. -/
theorem directText_braced {front : Text} {inner : List Lexeme}
    {direct : Text} (hfront : '{' ∉ front) (hinner : Balanced inner direct)
    (hsteady : ∀ lexeme ∈ inner, lexeme.Steady) :
    directText (front ++ rowText (braced inner)) = direct := by
  have hstart : (Cursor.ofText (front ++ rowText (braced inner))).seek '{'
      = (Cursor.ofText (front ++ rowText (braced inner))).skip front.length :=
    Cursor.seek_ofText hfront (by simp [braced, Lexeme.text])
  have hrest : ((Cursor.ofText (front ++ rowText (braced inner))).skip front.length).rest
      = rowText (braced inner) := by
    rw [Cursor.rest_skip]
    exact List.drop_left
  rw [directText, if_pos (by simp [braced, Lexeme.text]), hstart,
    tokens_of_steady (steady_braced hsteady) hrest, braced, placed, placed_append, directTextAmong]
  simp only [show isOpener '{' = true by decide, if_true]
  rw [hinner.directTextAmong_eq, placed, directTextAmong]
  simp [isOpener, isCloser]

/-- Tokens that an object has taken are passed over. -/
theorem objectsAmong_of_before {depth resume : Nat} {taken : List Token}
    (h : ∀ token ∈ taken, token.place.offset < resume) (tokens : List Token) :
    objectsAmong depth resume (taken ++ tokens) = objectsAmong depth resume tokens := by
  induction taken with
  | nil => rfl
  | cons token taken ih =>
    obtain ⟨htoken, hrest⟩ := List.forall_mem_cons.mp h
    rw [List.cons_append, objectsAmong, if_pos htoken]
    exact ih hrest

/-- Code characters that are no brackets are passed over. -/
theorem objectsAmong_of_flat {resume : Nat} {gap : Text}
    (h : ∀ c ∈ gap, isOpener c = false ∧ isCloser c = false) (place : Cursor)
    (tokens : List Token) :
    objectsAmong 0 resume (placed place (gap.map .code) ++ tokens)
      = objectsAmong 0 resume tokens := by
  induction gap generalizing place with
  | nil => rfl
  | cons c gap ih =>
    obtain ⟨hc, hgap⟩ := List.forall_mem_cons.mp h
    simp only [isOpener, isCloser, Bool.or_eq_false_iff, beq_eq_false_iff_ne, ne_eq] at hc
    have hrest := ih hgap (place.skip 1)
    rw [List.map_cons, placed, List.cons_append, objectsAmong]
    split
    · exact hrest
    · simp only
      split <;> simp_all [Lexeme.text]

/-- The place behind an object, and the object as the text up to it. -/
theorem place_behind_braced {inner : List Lexeme} {place : Cursor} {more : Text}
    (h : place.rest = rowText (braced inner) ++ more) :
    (place.skip (rowText (.code '{' :: inner)).length).skip 1
        = place.skip (rowText (braced inner)).length
      ∧ (place.skip (rowText (.code '{' :: inner)).length).offset + 1
        = (place.skip (rowText (braced inner)).length).offset
      ∧ (place.skip (rowText (braced inner)).length).offset
        = place.offset + (rowText (braced inner)).length
      ∧ place.upTo (place.skip (rowText (braced inner)).length) = rowText (braced inner) := by
  have hlength : (rowText (braced inner)).length = (rowText (.code '{' :: inner)).length + 1 := by
    simp [braced, Lexeme.text]
  have hoffset : (place.skip (rowText (braced inner)).length).offset
      = place.offset + (rowText (braced inner)).length := by
    rw [Cursor.offset_skip, h, List.length_append, Nat.min_eq_left (Nat.le_add_right _ _)]
  refine ⟨by rw [Cursor.skip_skip, hlength], ?_, hoffset, ?_⟩
  · rw [hoffset, hlength, Cursor.offset_skip, h, List.length_append, hlength]
    omega
  · rw [Cursor.upTo, hoffset, Nat.add_sub_cancel_left, h, List.take_left]

/-- The tokens of an object stand before the place behind it. -/
theorem offset_lt_of_mem_placed_braced {inner : List Lexeme}
    (hsteady : ∀ lexeme ∈ inner, lexeme.Steady) {place : Cursor} {more : Text}
    (hplace : place.rest = rowText (braced inner) ++ more) {token : Token}
    (htoken : token ∈ placed place (braced inner)) :
    token.place.offset < (place.skip (rowText (braced inner)).length).offset := by
  have hmem : (token.place.offset, token.lexeme) ∈ located place.offset (braced inner) := by
    rw [← map_placed place (braced inner) more hplace]
    exact List.mem_map_of_mem htoken
  have hne : ∀ lexeme ∈ braced inner, lexeme.text ≠ [] := by
    intro lexeme hlexeme
    cases steady_braced hsteady lexeme hlexeme <;> simp [Lexeme.text]
  obtain ⟨-, -, hoffset, -⟩ := place_behind_braced hplace
  rw [hoffset]
  exact (offset_of_mem_located hne hmem).2

/-- An object at the head of a list is found, and the search goes on behind it. -/
theorem objectsAmong_braced {inner : List Lexeme} {direct : Text} (hinner : Balanced inner direct)
    (hsteady : ∀ lexeme ∈ inner, lexeme.Steady) {resume : Nat} {place : Cursor} {more : List Lexeme}
    (hplace : place.rest = rowText (braced inner ++ more)) (hresume : resume ≤ place.offset) :
    objectsAmong 0 resume (placed place (braced inner ++ more))
      = rowText (braced inner) ::
          objectsAmong 0 (place.skip (rowText (braced inner)).length).offset
            (placed (place.skip (rowText (braced inner)).length) more) := by
  have htext : place.rest = rowText (braced inner) ++ rowText more := by rw [hplace, rowText_append]
  obtain ⟨hbehind, hclose, -, hcut⟩ := place_behind_braced htext
  have hrow : braced inner ++ more = .code '{' :: (inner ++ .code '}' :: more) := by simp [braced]
  have hopener : isOpener '{' = true := by decide
  have hcloser : isCloser '}' = true := by decide
  have hclosing := hinner.closingAmong_placed hopener hcloser place more
  rw [hrow, placed, objectsAmong, if_neg (by simpa using hresume)]
  simp only [if_true]
  rw [placed] at hclosing
  rw [hclosing]
  simp only [hbehind, hclose, hcut, List.cons.injEq, true_and]
  rw [show inner ++ .code '}' :: more = (inner ++ [.code '}']) ++ more by simp, placed_append]
  rw [objectsAmong_of_before]
  · rw [Cursor.skip_skip, ← List.length_append]
    rfl
  · -- What is left of the object stands before the place where the search goes on.
    intro token htoken
    exact offset_lt_of_mem_placed_braced hsteady htext (List.mem_cons_of_mem _ htoken)

/-- A row of objects with code characters that are no brackets before and behind each. -/
inductive Listed : List (List Lexeme) → List Lexeme → Prop where
  | nil {gap : Text} (hgap : ∀ c ∈ gap, isOpener c = false ∧ isCloser c = false) :
      Listed [] (gap.map .code)
  | cons {gap : Text} {inner more : List Lexeme} {direct : Text} {objects : List (List Lexeme)}
      (hgap : ∀ c ∈ gap, isOpener c = false ∧ isCloser c = false) (hinner : Balanced inner direct)
      (hsteady : ∀ lexeme ∈ inner, lexeme.Steady) (hmore : Listed objects more) :
      Listed (braced inner :: objects) (gap.map .code ++ (braced inner ++ more))

theorem rowText_map_code (text : Text) : rowText (text.map .code) = text := by
  induction text with
  | nil => rfl
  | cons c text ih => simp [Lexeme.text, ih]

theorem objectsAmong_of_listed {rows : List (List Lexeme)} {row : List Lexeme}
    (h : Listed rows row) {resume : Nat} {place : Cursor} (hplace : place.rest = rowText row)
    (hresume : resume ≤ place.offset) :
    objectsAmong 0 resume (placed place row) = rows.map rowText := by
  induction h generalizing resume place with
  | nil hgap => simpa [objectsAmong] using objectsAmong_of_flat hgap place []
  | @cons gap inner more direct rows hgap hinner hsteady _ ih =>
    rw [rowText_append, rowText_map_code] at hplace
    have hgapped : (place.skip gap.length).rest = rowText (braced inner ++ more) := by
      rw [Cursor.rest_skip, hplace, List.drop_left]
    have hlater : resume ≤ (place.skip gap.length).offset := by
      rw [Cursor.offset_skip]
      omega
    rw [placed_append, rowText_map_code, objectsAmong_of_flat hgap,
      objectsAmong_braced hinner hsteady hgapped hlater, List.map_cons]
    refine congrArg _ (ih ?_ (Nat.le_refl _))
    rw [Cursor.rest_skip, hgapped, rowText_append, List.drop_left]

theorem objects_of_listed {rows : List (List Lexeme)} {row : List Lexeme} (h : Listed rows row)
    (hsteady : ∀ lexeme ∈ row, lexeme.Steady) : objects (rowText row) = rows.map rowText := by
  have hplace : (Cursor.ofText (rowText row)).rest = rowText row := rfl
  rw [objects, tokens_of_steady hsteady hplace]
  exact objectsAmong_of_listed h hplace (Nat.zero_le _)

end GroqSnippets

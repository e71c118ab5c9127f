/-
Plain templates.

A plain template is text to be copied with slots in between, and holds nothing else that a language
of templates could read: no brace in the text opens anything, and every slot names a value that
there is.  The packaged template is one.

That a plain template comes out with its text copied and its values inserted as they are is all
that is asked of a language of templates here.  It is a promise of the engine, and what rests on it
says so.  The language that the program itself brings keeps it.
-/
import GroqSnippets.Snippet.Formatter

namespace GroqSnippets

/-- A piece of a plain template: text to copy, or the slot for the value with a name. -/
inductive TemplatePiece where
  | copied (text : Text)
  | slot (name : Text)
deriving DecidableEq, Repr

namespace TemplatePiece

def written : TemplatePiece → Text
  | copied text => text
  | slot name => ['{', '{', ' '] ++ name ++ [' ', '}', '}']

def filled (values : SnippetValues) : TemplatePiece → Text
  | copied text => text
  | slot name => (values.value? name).getD []

/-- Whether a text stands for itself.  A brace opens something together with the character behind
it, so the text must not end in one; and a carriage return may come out as a line feed. -/
def isLiteral : Text → Bool
  | [] => true
  | ['{'] => false
  | '{' :: c :: rest => c != '{' && c != '%' && c != '#' && isLiteral (c :: rest)
  | c :: rest => c != '\r' && isLiteral rest

/-- Whether a piece may stand in a plain template. -/
def isPlain : TemplatePiece → Bool
  | copied text => isLiteral text
  | slot name =>
    (["query", "query_name", "helper_name", "helper_module", "output_format"].map String.toList).contains name

end TemplatePiece

/-- What an engine promises of plain templates: it copies their text, inserts the values as they
are, and drops the line feed at the very end. -/
def TemplateEngine.InsertsValues {m : Type → Type} [Monad m] {ε : Type} (engine : TemplateEngine m ε) : Prop :=
  ∀ (pieces : List TemplatePiece) (values : SnippetValues), pieces.all TemplatePiece.isPlain = true →
    engine.fill (pieces.flatMap TemplatePiece.written ++ ['\n']) values
      = pure (pieces.flatMap (TemplatePiece.filled values))

/-- The pieces of the packaged template. -/
def packagedPieces : List TemplatePiece :=
  [.copied ("import ".toList ++ ['{', ' ']), .slot "helper_name".toList,
   .copied ([' ', '}'] ++ " from '".toList), .slot "helper_module".toList,
   .copied "';\n\nexport const ".toList, .slot "query_name".toList,
   .copied " = ".toList, .slot "helper_name".toList,
   .copied "(`\n".toList, .slot "query".toList, .copied "\n`);".toList]

theorem packagedTemplate_eq :
    packagedTemplate = packagedPieces.flatMap TemplatePiece.written ++ ['\n'] := by
  decide +kernel

/-- An engine that keeps its promise puts every value of the packaged template in its place. -/
theorem TemplateEngine.InsertsValues.fill_packaged {m : Type → Type} [Monad m] {ε : Type}
    {engine : TemplateEngine m ε} (h : engine.InsertsValues) (values : SnippetValues) :
    engine.fill packagedTemplate values = pure (packagedPieces.flatMap (TemplatePiece.filled values)) := by
  have hplain : packagedPieces.all TemplatePiece.isPlain = true := by decide +kernel
  rw [packagedTemplate_eq]
  exact h packagedPieces values hplain

/-! ### Where nothing can fail

Without a directory there is nothing to look for.  A bare format asks for no template at all, and
any other format for the packaged one.
-/

/-- Whether a configuration leaves it to the packaged template. -/
def Config.IsPackaged (config : Config) : Prop :=
  config.templateDir = none ∨ config.templateDir = some []

namespace TemplateEngine

variable {m : Type → Type} [Monad m] {ε : Type}

theorem directory?_of_isPackaged (engine : TemplateEngine m ε) {config : Config} (h : config.IsPackaged) :
    engine.directory? config = pure none := by
  unfold directory?
  rcases h with h | h <;> rw [h]

/-- A format that wraps nothing leaves the trimmed query. -/
theorem formatAs_of_bare (engine : TemplateEngine m ε) {format : Text} (hbare : isWrapping format = false)
    (config : Config) (directory : Option Text) (query typeName kind : Text) :
    engine.formatAs config directory format query typeName kind = pure query.trim := by
  rw [formatAs, hbare]
  rfl

variable [LawfulMonad m]

theorem InsertsValues.exists_format {engine : TemplateEngine m ε} {config : Config}
    (h : isWrapping config.outputFormat = false ∨ engine.InsertsValues) (query typeName kind : Text) :
    ∃ snippet, engine.format config none query typeName kind = pure snippet := by
  by_cases hbare : isWrapping config.outputFormat = false
  · exact ⟨query.trim, engine.formatAs_of_bare hbare config none query typeName kind⟩
  · have hinserts := h.resolve_left hbare
    rw [Bool.not_eq_false] at hbare
    rw [format, formatAs, if_pos hbare, template, pure_bind, hinserts.fill_packaged]
    exact ⟨_, rfl⟩

end TemplateEngine

/-! ### The language of the program

Reading stops at no character of a literal text, and a slot is read whole, so the tokens of a plain
template are those of its pieces in a row.  None of them takes blanks away, so they are the parts of
the template as they stand, and all of them have a value.
-/

namespace Template

/-- What is passed over leaves no token. -/
theorem tokensFrom_skip (front rest : Text) :
    tokensFrom front.length (front ++ rest) = tokensFrom 0 rest := by
  induction front with
  | nil => rfl
  | cons c front ih =>
    rw [List.length_cons, List.cons_append, ← ih]
    rfl

/-- A character that opens nothing is a token. -/
theorem tokensFrom_cons {c : Char} {rest : Text}
    (h : c = '{' → ∀ d, rest.head? = some d → d ≠ '{' ∧ d ≠ '#' ∧ d ≠ '%') :
    tokensFrom 0 (c :: rest) = (tokensFrom 0 rest).map (.char c :: ·) := by
  by_cases hc : c = '{'
  · subst hc
    cases rest with
    | nil => rfl
    | cons d rest =>
      obtain ⟨hbrace, hhash, hpercent⟩ := h rfl d rfl
      rw [tokensFrom] <;> simp_all
  · rw [tokensFrom] <;> simp_all

/-- What a literal text begins with opens nothing, whatever stands behind the text. -/
theorem opensNothing_of_isLiteral {c : Char} {text : Text} (h : TemplatePiece.isLiteral (c :: text) = true)
    (rest : Text) (hc : c = '{') (d : Char) (hd : (text ++ rest).head? = some d) :
    d ≠ '{' ∧ d ≠ '#' ∧ d ≠ '%' := by
  subst hc
  cases text with
  | nil => simp [TemplatePiece.isLiteral] at h
  | cons e text =>
    obtain rfl : e = d := by simpa using hd
    simp only [TemplatePiece.isLiteral, Bool.and_eq_true, bne_iff_ne] at h
    exact ⟨h.1.1.1, h.1.2, h.1.1.2⟩

theorem isLiteral_of_cons {c : Char} {text : Text} (h : TemplatePiece.isLiteral (c :: text) = true) :
    c ≠ '\r' ∧ TemplatePiece.isLiteral text = true := by
  by_cases hc : c = '{'
  · subst hc
    cases text with
    | nil => simp [TemplatePiece.isLiteral] at h
    | cons e text =>
      simp only [TemplatePiece.isLiteral, Bool.and_eq_true] at h
      exact ⟨by decide, h.2⟩
  · rw [TemplatePiece.isLiteral, Bool.and_eq_true, bne_iff_ne] at h <;> simp_all

theorem tokensFrom_copied {text : Text} (h : TemplatePiece.isLiteral text = true) (rest : Text) :
    tokensFrom 0 (text ++ rest) = (tokensFrom 0 rest).map (text.map .char ++ ·) := by
  induction text with
  | nil => simp
  | cons c text ih =>
    rw [List.cons_append, tokensFrom_cons (opensNothing_of_isLiteral h rest),
      ih (isLiteral_of_cons h).2, Option.map_map]
    rfl

/-- A slot is read up to its closing braces. -/
theorem slotAt?_of_notMem {word : Text} (hword : '}' ∉ word) (rest : Text) :
    slotAt? (' ' :: word ++ [' ', '}', '}'] ++ rest)
      = (Slot.ofText? (' ' :: word ++ [' '])).map fun slot => ([.slot slot], rest) := by
  have hbody : (' ' :: word ++ [' ', '}', '}'] ++ rest).takeWhile (· != '}') = ' ' :: word ++ [' '] := by
    have hsplit : ' ' :: word ++ [' ', '}', '}'] ++ rest = (' ' :: word ++ [' ']) ++ '}' :: '}' :: rest := by
      simp
    rw [hsplit, List.takeWhile_append_of_pos]
    · simp
    · intro c hc
      have hne : c ≠ '}' := by
        rintro rfl
        simp [hword] at hc
      simpa using hne
  have hsign : openingSign (' ' :: word ++ [' ', '}', '}'] ++ rest)
      = ([], ' ' :: word ++ [' ', '}', '}'] ++ rest) := rfl
  have hafter : (' ' :: word ++ [' ', '}', '}'] ++ rest).drop (' ' :: word ++ [' ']).length
      = '}' :: '}' :: rest := by
    simp
  unfold slotAt?
  simp only [hsign, hbody, hafter]
  rw [List.getLast?_concat]
  cases Slot.ofText? (' ' :: word ++ [' ']) <;> rfl

theorem tokensFrom_slot {name : Text} (h : (TemplatePiece.slot name).isPlain = true) (rest : Text) :
    tokensFrom 0 ((TemplatePiece.slot name).written ++ rest)
      = (tokensFrom 0 rest).map (.slot ⟨.value name, []⟩ :: ·) := by
  have hname : '}' ∉ name ∧ Slot.ofText? (' ' :: name ++ [' ']) = some ⟨.value name, []⟩ := by
    simp only [TemplatePiece.isPlain, List.contains_eq_mem, decide_eq_true_eq] at h
    revert name
    decide +kernel
  have hslot : slotAt? (' ' :: name ++ [' ', '}', '}'] ++ rest) = some ([.slot ⟨.value name, []⟩], rest) := by
    rw [slotAt?_of_notMem hname.1, hname.2]
    rfl
  let written := ' ' :: name ++ [' ', '}', '}']
  have hskip : (written ++ rest).length - rest.length + 1 = ('{' :: written).length := by simp
  show tokensFrom 0 ('{' :: '{' :: (written ++ rest)) = _
  rw [tokensFrom, hslot]
  show (do return _ ++ (← tokensFrom ((written ++ rest).length - rest.length + 1) ('{' :: written ++ rest))) = _
  rw [hskip, tokensFrom_skip]
  cases tokensFrom 0 rest <;> rfl

def partsOf : TemplatePiece → List TemplatePart
  | .copied text => text.map .char
  | .slot name => [.slot ⟨.value name, []⟩]

def tokenOf : TemplatePart → TemplateToken
  | .char c => .char c
  | .slot slot => .slot slot

theorem tokensFrom_pieces {pieces : List TemplatePiece} (h : pieces.all TemplatePiece.isPlain = true) :
    tokensFrom 0 (pieces.flatMap TemplatePiece.written) = some ((pieces.flatMap partsOf).map tokenOf) := by
  induction pieces with
  | nil => rfl
  | cons piece pieces ih =>
    rw [List.all_cons, Bool.and_eq_true] at h
    rw [List.flatMap_cons, List.flatMap_cons, List.map_append]
    cases piece with
    | copied text =>
      show tokensFrom 0 (text ++ _) = _
      rw [tokensFrom_copied h.1, ih h.2]
      simp [partsOf, tokenOf, Function.comp_def]
    | slot name =>
      rw [tokensFrom_slot h.1, ih h.2]
      rfl

/-- Without a place where blanks are taken away, all blanks stay. -/
theorem settle_map_tokenOf (parts : List TemplatePart) : settle (parts.map tokenOf) = parts := by
  have hstays (parts : List TemplatePart) : leadsToTrim (parts.map tokenOf) = false := by
    induction parts with
    | nil => rfl
    | cons part parts ih => cases part <;> simp [tokenOf, leadsToTrim, ih]
  induction parts with
  | nil => rfl
  | cons part parts ih => cases part <;> simp [tokenOf, settle, hstays, ih]

theorem knowsFilters_partsOf (piece : TemplatePiece) : (partsOf piece).all knowsFilters = true := by
  cases piece with
  | copied text => simp [partsOf, knowsFilters]
  | slot name => rfl

/-- Parts in a row come out in a row. -/
theorem render_append {parts more : List TemplatePart} {value? : Text → Option Text} {front back : Text}
    (hfront : render ⟨parts⟩ value? = .ok front) (hback : render ⟨more⟩ value? = .ok back) :
    render ⟨parts ++ more⟩ value? = .ok (front ++ back) := by
  unfold render at *
  rw [List.mapM_append]
  cases hparts : parts.mapM (renderPart value?) with
  | error error =>
    rw [hparts] at hfront
    cases hfront
  | ok texts =>
    cases hmore : more.mapM (renderPart value?) with
    | error error =>
      rw [hmore] at hback
      cases hback
    | ok moreTexts =>
      rw [hparts] at hfront
      rw [hmore] at hback
      rw [← Except.ok.inj hfront, ← Except.ok.inj hback, ← List.flatten_append]
      rfl

/-- Copied text comes out as it is. -/
theorem render_copied (text : Text) (value? : Text → Option Text) :
    render ⟨text.map .char⟩ value? = .ok text := by
  induction text with
  | nil => rfl
  | cons c text ih =>
    have hchar : render ⟨[.char c]⟩ value? = .ok [c] := rfl
    exact render_append hchar ih

theorem render_partsOf (pieces : List TemplatePiece) (values : SnippetValues) :
    render ⟨pieces.flatMap partsOf⟩ values.value? = .ok (pieces.flatMap (TemplatePiece.filled values)) := by
  induction pieces with
  | nil => rfl
  | cons piece pieces ih =>
    rw [List.flatMap_cons, List.flatMap_cons]
    refine render_append ?_ ih
    cases piece with
    | copied text => exact render_copied text values.value?
    | slot name =>
      unfold render partsOf TemplatePiece.filled
      cases hvalue : values.value? name <;> simp [renderPart, hvalue]

end Template

/-- A text without carriage returns has only line feeds to begin with. -/
theorem Text.normalizeNewlines_of_notMem {text : Text} (h : '\r' ∉ text) : text.normalizeNewlines = text := by
  induction text with
  | nil => rfl
  | cons c text ih =>
    rw [List.mem_cons, not_or] at h
    have hc : c ≠ '\r' := Ne.symm h.1
    rw [normalizeNewlines, ih h.2] <;> simp [hc]

/-- There is no carriage return in a plain template. -/
theorem TemplatePiece.notMem_written {piece : TemplatePiece} (h : piece.isPlain = true) :
    '\r' ∉ piece.written := by
  cases piece with
  | copied text =>
    show '\r' ∉ text
    have hliteral : isLiteral text = true := h
    induction text with
    | nil => simp
    | cons c text ih =>
      obtain ⟨hc, hmore⟩ := Template.isLiteral_of_cons hliteral
      rw [List.mem_cons, not_or]
      exact ⟨hc.symm, ih hmore hmore⟩
  | slot name =>
    simp only [isPlain, List.contains_eq_mem, decide_eq_true_eq] at h
    revert name
    decide +kernel

/-- **The language of the program keeps the promise.** -/
theorem Template.fill_plain {pieces : List TemplatePiece} (hplain : pieces.all TemplatePiece.isPlain = true)
    (values : SnippetValues) :
    fill (pieces.flatMap TemplatePiece.written ++ ['\n']) values.value?
      = .ok (pieces.flatMap (TemplatePiece.filled values)) := by
  have hreturns : '\r' ∉ pieces.flatMap TemplatePiece.written ++ ['\n'] := by
    rw [List.mem_append, not_or, List.mem_flatMap]
    refine ⟨?_, by simp⟩
    rintro ⟨piece, hpiece, hmem⟩
    exact TemplatePiece.notMem_written (List.all_eq_true.mp hplain piece hpiece) hmem
  have hfinal : dropFinalNewline (Text.normalizeNewlines (pieces.flatMap TemplatePiece.written ++ ['\n']))
      = pieces.flatMap TemplatePiece.written := by
    rw [Text.normalizeNewlines_of_notMem hreturns]
    simp [dropFinalNewline]
  have hknown : (pieces.flatMap partsOf).all knowsFilters = true := by
    rw [List.all_flatMap, List.all_eq_true]
    exact fun piece _ => knowsFilters_partsOf piece
  have htemplate : ofText (pieces.flatMap TemplatePiece.written ++ ['\n']) = .ok ⟨pieces.flatMap partsOf⟩ := by
    rw [ofText, hfinal, tokensFrom_pieces hplain]
    simp only [settle_map_tokenOf, hknown, if_true]
  rw [fill, htemplate]
  exact render_partsOf pieces values

theorem TemplateEngine.insertsValues_ofFound {m : Type → Type} [Monad m] (found : FoundTemplate) :
    (ofFound (m := m) found).InsertsValues := by
  intro pieces values hplain
  show ExceptT.mk (pure (Template.fill _ values.value?)) = _
  rw [Template.fill_plain hplain]
  rfl

end GroqSnippets

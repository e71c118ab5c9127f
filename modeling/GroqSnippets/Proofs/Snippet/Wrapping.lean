/-
What a snippet wraps is the query itself.

A query is trimmed before it is formatted, and filled into a template when it is wrapped.  Neither
changes it.  Every query begins with an asterisk and ends with a closing brace, so there is nothing
to trim, whatever the names in it are.  And the packaged template is a plain one, so with an engine
that keeps its promise nothing in a value is read as template text or written in another way.

The snippets of a run, and the files they are written to, are told apart by the kind of the query.
No two kinds end in the same letter, so the kind can be read off the end of an exported name, and
what is left in front of it is the type.
-/
import Mathlib.Data.List.Nodup
import GroqSnippets.CommandLine.Run
import GroqSnippets.Proofs.Query.ReadBack
import GroqSnippets.Proofs.Snippet.Plain
import GroqSnippets.Proofs.Text.Parts

namespace GroqSnippets

/-! ### Trimming -/

/-- A query stands between an asterisk and a closing brace. -/
theorem Projection.exists_query_eq (projection : Projection) (selector : Text) :
    ∃ inner, projection.query selector = '*' :: (inner ++ ['}']) := by
  have hopen : "*[_type == \"".toList = '*' :: "[_type == \"".toList := rfl
  unfold query
  rw [hopen]
  refine ⟨"[_type == \"".toList ++ (projection.typeName ++ ("\"]".toList ++ (selector
    ++ (" ".toList ++ '{' :: "\n    ".toList ++ (projection.renderBody ++ "\n  ".toList))))), ?_⟩
  simp only [List.cons_append, List.append_assoc]

theorem Projection.trim_query (projection : Projection) (selector : Text) :
    (projection.query selector).trim = projection.query selector := by
  obtain ⟨inner, hinner⟩ := projection.exists_query_eq selector
  rw [hinner]
  refine Text.stripWhile_eq_self ?_ ?_
  · intro c hc
    rw [List.head?_cons, Option.mem_some] at hc
    rw [← hc]
    decide
  · intro c hc
    rw [← List.cons_append, List.getLast?_concat, Option.mem_some] at hc
    rw [← hc]
    decide

/-! ### Snippets

What an engine makes of the packaged template follows from its promise about plain templates alone.
Nothing else is asked of it, and nothing about any other template.
-/

/-- A query between an import of the helper and the end of an exported constant. -/
def Config.wrapped (config : Config) (name query : Text) : Text :=
  "import ".toList ++ ['{', ' '] ++ config.helperName ++ [' ', '}'] ++ " from '".toList
    ++ config.helperModule ++ "';\n\nexport const ".toList ++ name ++ " = ".toList ++ config.helperName
    ++ "(`\n".toList ++ query ++ "\n`);".toList

theorem filled_packaged (config : Config) (query name format : Text) :
    packagedPieces.flatMap (TemplatePiece.filled
        { query, queryName := name, helperName := config.helperName, helperModule := config.helperModule
          outputFormat := format })
      = config.wrapped name query := by
  have hslots (values : SnippetValues) :
      packagedPieces.flatMap (TemplatePiece.filled values)
        = "import ".toList ++ ['{', ' '] ++ (values.helperName ++ ([' ', '}'] ++ " from '".toList
          ++ (values.helperModule ++ ("';\n\nexport const ".toList ++ (values.queryName ++ (" = ".toList
          ++ (values.helperName ++ ("(`\n".toList ++ (values.query ++ ("\n`);".toList ++ [])))))))))) := rfl
  rw [hslots]
  unfold Config.wrapped
  simp only [List.append_assoc, List.append_nil]

/-- The packaged template wraps the trimmed query, and nothing else is done to it. -/
theorem TemplateEngine.InsertsValues.formatAs_eq {m : Type → Type} [Monad m] [LawfulMonad m] {ε : Type}
    {engine : TemplateEngine m ε} (hinserts : engine.InsertsValues) {directory : Option Text}
    (htemplate : engine.template directory = pure packagedTemplate) {format : Text}
    (hformat : isWrapping format = true) (config : Config) (query typeName kind : Text) :
    engine.formatAs config directory format query typeName kind
      = pure (config.wrapped (exportName typeName kind) query.trim) := by
  rw [formatAs, if_pos hformat, htemplate, pure_bind, hinserts.fill_packaged, filled_packaged]

/-! ### Names

The name of the type is a text of any length in the middle of the name, so the kind is read off the
end, where the last letters differ.
-/

/-- The names of the kinds end in different letters. -/
theorem QueryKind.eq_of_getLast? {kind other : QueryKind}
    (h : kind.name.getLast? = other.name.getLast?) : kind = other := by
  cases kind <;> cases other <;> first | rfl | exact absurd h (by decide)

/-- A kind can be read off the end of a text. -/
theorem QueryKind.eq_of_append {front back : Text} {kind other : QueryKind}
    (h : front ++ kind.name = back ++ other.name) : kind = other ∧ front = back := by
  have hlast (text : Text) (kind : QueryKind) :
      (text ++ kind.name).getLast? = kind.name.getLast? := by
    rw [List.getLast?_append]
    cases kind <;> rfl
  obtain rfl : kind = other := eq_of_getLast? (by rw [← hlast front, h, hlast back])
  exact ⟨rfl, List.append_cancel_right h⟩

/-- The kind and the capitalized type can be read off an exported name. -/
theorem exportName_eq_iff {typeName otherName : Text} {kind other : QueryKind} :
    exportName typeName kind.name = exportName otherName other.name
      ↔ kind = other ∧ capitalize typeName = capitalize otherName := by
  unfold exportName
  rw [List.append_cancel_right_eq, List.append_assoc, List.append_assoc, List.append_cancel_left_eq]
  constructor
  · exact QueryKind.eq_of_append
  · rintro ⟨rfl, hnames⟩
    rw [hnames]

/-! ### Files

A type name may hold slashes, and then the file stands further down.  Since all files of a run share
the type name, they stand in the same directory nevertheless.
-/

namespace Path

/-- A path inside a directory ends in its last step, if that step names something, and only the
last step depends on how the path ends. -/
theorem exists_inside_append (directory front : Text) :
    ∃ folder start, '/' ∉ start ∧ ∀ text : Text, '/' ∉ text → 1 < text.length →
      inside directory (front ++ text) = folder ++ '/' :: (start ++ text) := by
  obtain ⟨before, start, hstart, hpieces⟩ := Text.exists_pieces_append '/' front
  refine ⟨['/'].intercalate (directory :: before.filter (!isIdle ·)), start, hstart, ?_⟩
  intro text htext hlong
  have hnames : isIdle (start ++ text) = false := by
    rw [← Bool.not_eq_true]
    intro hidle
    rw [isIdle, Bool.or_eq_true, List.isEmpty_iff, beq_iff_eq] at hidle
    rcases hidle with hidle | hidle <;> replace hidle := congrArg List.length hidle <;>
      simp only [List.length_append, List.length_nil, List.length_singleton] at hidle <;> omega
  have hsteps : (steps (front ++ text)).filter (!isIdle ·)
      = before.filter (!isIdle ·) ++ [start ++ text] := by
    rw [steps, hpieces text htext, List.filter_append, List.filter_singleton, hnames]
    rfl
  rw [inside, hsteps, ofSteps, ← List.cons_append,
    intercalate_append (List.cons_ne_nil _ _) (List.cons_ne_nil _ _),
    List.intercalate_singleton, List.append_assoc]
  rfl

end Path

/-- The files of a run stand in one directory, and their names differ in the kind of the query. -/
theorem exists_inside_snippetFile (config : Config) (snippets : Snippets) (directory : Text) :
    ∃ folder start, '/' ∉ start ∧ ∀ kind, Path.inside directory (snippetFile config snippets kind)
      = folder ++ '/' :: (start ++ (kind.name ++ ("Query".toList ++ config.fileExtension))) := by
  obtain ⟨folder, start, hstart, hinside⟩ :=
    Path.exists_inside_append directory ("get".toList ++ capitalize snippets.typeName)
  refine ⟨folder, start, hstart, ?_⟩
  intro kind
  have hextension : '/' ∉ config.fileExtension := by
    unfold Config.fileExtension
    repeat' split
    all_goals decide
  have hkind : '/' ∉ kind.name := by cases kind <;> decide
  have hquery : '/' ∉ "Query".toList := by decide
  have hfile : snippetFile config snippets kind = "get".toList ++ capitalize snippets.typeName
      ++ (kind.name ++ ("Query".toList ++ config.fileExtension)) := by
    simp only [snippetFile, exportName, List.append_assoc]
  rw [hfile]
  refine hinside _ ?_ ?_
  · simp only [List.mem_append, not_or]
    exact ⟨hkind, hquery, hextension⟩
  · have hlong : "Query".toList.length = 5 := rfl
    simp only [List.length_append]
    omega

theorem inside_snippetFile_injective (config : Config) (snippets : Snippets) (directory : Text) :
    Function.Injective fun kind => Path.inside directory (snippetFile config snippets kind) := by
  obtain ⟨folder, start, -, hinside⟩ := exists_inside_snippetFile config snippets directory
  intro kind other h
  simp only [hinside] at h
  have hname := (List.cons.inj (List.append_cancel_left h)).2
  simp only [← List.append_assoc] at hname
  exact (QueryKind.eq_of_append (List.append_cancel_right (List.append_cancel_right hname))).1

theorem Snippets.nodup_kinds (snippets : Snippets) : (snippets.items.map (·.1)).Nodup := by
  unfold items
  cases snippets.bySlug with
  | none => exact (by decide : [QueryKind.single, QueryKind.list].Nodup)
  | some snippet => exact (by decide : [QueryKind.single, QueryKind.list, QueryKind.bySlug].Nodup)

/-- What tells kinds apart tells the snippets of a run apart. -/
theorem Snippets.nodup_of_injective (snippets : Snippets) (name : QueryKind → Text)
    (hname : Function.Injective name) : (snippets.items.map fun (kind, _) => name kind).Nodup := by
  have hmap := List.Nodup.map hname snippets.nodup_kinds
  rwa [List.map_map] at hmap

/-! ### Snippets and their names -/

/-- **A snippet wraps exactly the query.**  No query loses anything when it is trimmed.  A format
that wraps nothing gives the query itself, and with the packaged template, in an engine that inserts
values as they are, both other formats give the import, the query under its exported name, and
nothing else.  The names tell the kinds and the capitalized types apart, so the snippets of a run
have different names.  Their files have different names too, and stand in one directory, whatever
slashes and dots there are in the type. -/
theorem snippets_wrap_queries {m : Type → Type} [Monad m] [LawfulMonad m] {ε : Type}
    (engine : TemplateEngine m ε) (hinserts : engine.InsertsValues) :
    (∀ (schema : Schema) kind query, schema.queries.query? kind = some query →
      query.trim = query
        ∧ ∀ (config : Config) directory (typeName kindName : Text),
          (∀ format, format ≠ "ts".toList → format ≠ "js".toList →
            engine.formatAs config directory format query typeName kindName = pure query)
          ∧ (directory = none ∨ engine.template directory = pure packagedTemplate →
            ∀ format ∈ ["ts".toList, "js".toList],
              engine.formatAs config directory format query typeName kindName
                = pure (config.wrapped
                  ("get".toList ++ capitalize typeName ++ kindName ++ "Query".toList) query)))
      ∧ (∀ typeName otherName (kind other : QueryKind),
        exportName typeName kind.name = exportName otherName other.name
          ↔ kind = other ∧ capitalize typeName = capitalize otherName)
      ∧ ∀ (config : Config) (snippets : Snippets),
        (snippets.items.map fun (kind, _) => exportName snippets.typeName kind.name).Nodup
          ∧ ∀ directory,
            (snippets.items.map fun (kind, _) =>
              Path.inside directory (snippetFile config snippets kind)).Nodup
            ∧ ∃ folder start, '/' ∉ start
              ∧ ∀ kind, Path.inside directory (snippetFile config snippets kind)
                = folder ++ '/' :: (start ++ (kind.name ++ ("Query".toList ++ config.fileExtension))) := by
  refine ⟨?_, fun _ _ _ _ => exportName_eq_iff, ?_⟩
  · intro schema kind query hquery
    have htrim : query.trim = query := by
      rw [Schema.query_of_query? hquery]
      exact schema.projection.trim_query kind.selector
    refine ⟨htrim, ?_⟩
    intro config directory typeName kindName
    refine ⟨?_, ?_⟩
    · intro format hts hjs
      have hbare : isWrapping format = false := by
        rw [isWrapping, beq_false_of_ne hts, beq_false_of_ne hjs]
        rfl
      rw [engine.formatAs_of_bare hbare, htrim]
    · intro hpackaged format hformat
      have hwraps : isWrapping format = true := by
        simpa [isWrapping] using hformat
      have htemplate : engine.template directory = pure packagedTemplate := by
        rcases hpackaged with rfl | htemplate
        · rfl
        · exact htemplate
      rw [hinserts.formatAs_eq htemplate hwraps, htrim]
      rfl
  · intro config snippets
    refine ⟨?_, ?_⟩
    · refine snippets.nodup_of_injective (fun kind => exportName snippets.typeName kind.name) ?_
      intro kind other h
      exact (exportName_eq_iff.mp h).1
    · intro directory
      exact ⟨snippets.nodup_of_injective _ (inside_snippetFile_injective config snippets directory),
        exists_inside_snippetFile config snippets directory⟩

/-- A schema with names that a template or a page could take for its own. -/
def marked : Schema where
  typeName := " {{ q }}<b>&".toList
  fields := [{ name := "c&d".toList, type := "string".toList }]

/-- Nothing becomes of them. -/
theorem snippets_wrap_queries_marked :
    (TemplateEngine.ofFound (m := Id) .nothing).InsertsValues
    ∧ (TemplateEngine.ofFound (m := Id) .nothing).formatAs {} none "ts".toList marked.queries.list
        marked.typeName "List".toList
      = pure "import { defineQuery } from 'sanity';

export const get {{ q }}<b>&ListQuery = defineQuery(`
*[_type == \" {{ q }}<b>&\"] {
    c&d
  }
`);".toList := by
  have hinserts := TemplateEngine.insertsValues_ofFound (m := Id) .nothing
  have hquery : marked.queries.query? .list = some marked.queries.list := rfl
  obtain ⟨-, hformats⟩ :=
    (snippets_wrap_queries (.ofFound .nothing) hinserts).1 marked .list marked.queries.list hquery
  refine ⟨hinserts, ?_⟩
  rw [(hformats {} none marked.typeName "List".toList).2 (.inl rfl) "ts".toList (by simp)]
  exact congrArg pure (by decide +kernel)

end GroqSnippets

/-
What patterns without dots reach.

A pattern without a dot is written for top-level fields, and as long as it has no wildcard for a dot
that is all it reaches.  But no character is special to a wildcard: a star, a question mark or a set
of characters can stand for a dot of a path as well, and then the pattern takes nested fields and
attributes away from fields that stay.

So a field that stays is left as it is exactly when no wildcard bridges one of the dots in the paths
inside it.  That every dot of a path would have to be bridged goes without saying, because there is
no other way for such a pattern to get across.
-/
import GroqSnippets.Proofs.Exclusion.Levels
import GroqSnippets.Proofs.Exclusion.Wildcard

namespace GroqSnippets

/-! ### Getting across a dot

A path below a field is longer than the name of the field by a dot and a name.  A pattern without a
dot matches it only if a wildcard stands for that dot, and then the rest of the pattern has to fit
the names on both sides.
-/

/-- Whether some pattern gets across the dot between a path and a name inside it. -/
def Enters (patterns : List Text) (parent name : Text) : Prop :=
  ∃ pattern ∈ patterns, (Glob.ofText pattern).Bridges parent '.' name

/-- Whether some pattern gets across a dot in one of the paths inside a field. -/
def Field.IsEntered (patterns : List Text) (field : Field) : Prop :=
  ∃ nested ∈ field.nestedFields.getD [],
    Enters patterns field.name nested.name
      ∨ ∃ sub ∈ nested.subFields.getD [],
          Enters patterns (childPath field.name nested.name) sub.name

/-- A schema without the fields whose names match, and with the others as they are. -/
def Schema.dropFields (patterns : List Text) (schema : Schema) : Schema :=
  { schema with fields := schema.fields.filter fun field => !excludes patterns field.name }

/-- A schema loses nothing but whole fields when every field that stays is left as it is. -/
theorem Schema.exclude_eq_dropFields_iff {patterns : List Text} {schema : Schema} :
    schema.exclude patterns = schema.dropFields patterns
      ↔ ∀ field ∈ schema.fields, excludes patterns field.name = false →
          field.exclude patterns = field := by
  have hfields : schema.exclude patterns = schema.dropFields patterns
      ↔ (schema.fields.filter fun field => !excludes patterns field.name).map
          (Field.exclude patterns)
        = (schema.fields.filter fun field => !excludes patterns field.name).map id := by
    rw [List.map_id, exclude, dropFields, Schema.mk.injEq]
    simp
  rw [hfields, List.map_inj_left]
  simp

section

variable {patterns : List Text} (hdotless : ∀ pattern ∈ patterns, '.' ∉ pattern)

include hdotless

/-- A pattern without dots matches a path below another one only by getting across the dot. -/
theorem excludes_childPath_iff (parent name : Text) :
    excludes patterns (childPath parent name) = true ↔ Enters patterns parent name := by
  rw [excludes, List.any_eq_true]
  refine exists_congr fun pattern => and_congr_right fun hpattern => ?_
  exact Glob.accepts_iff_bridges (hdotless pattern hpattern) parent name

theorem Field.exclude_eq_self_iff_not_isEntered (field : Field) :
    field.exclude patterns = field ↔ ¬ field.IsEntered patterns := by
  have hstays (parent name : Text) :
      excludes patterns (childPath parent name) = false ↔ ¬ Enters patterns parent name := by
    rw [← excludes_childPath_iff hdotless, Bool.not_eq_true]
  simp only [Field.exclude_eq_self_iff, NestedField.exclude_eq_self_iff, hstays, IsEntered,
    not_exists, not_and, not_or]

end

/-- Patterns without a wildcard for a dot get across none. -/
theorem not_enters_of_not_covers {patterns : List Text}
    (h : ∀ pattern ∈ patterns, ∀ part ∈ (Glob.ofText pattern).parts,
      part.isWild = true → part.covers '.' = false) (parent name : Text) :
    ¬ Enters patterns parent name := by
  rintro ⟨pattern, hpattern, left, part, right, hparts, hwild, hcovers, -⟩
  have hmem : part ∈ (Glob.ofText pattern).parts := by simp [hparts]
  rw [h pattern hpattern part hmem hwild] at hcovers
  cases hcovers

/-- **What patterns without dots reach.**  A field that stays is left as it is, with everything inside
it, exactly when no wildcard of a pattern gets across a dot in one of the paths inside it; so a schema
loses nothing but whole fields exactly when that is so for every field that stays.  Patterns whose
wildcards cannot stand for a dot never lose it anything else. -/
theorem Schema.exclude_of_dotless {patterns : List Text}
    (hdotless : ∀ pattern ∈ patterns, '.' ∉ pattern) (schema : Schema) :
    (∀ field ∈ schema.fields, excludes patterns field.name = false →
      field.exclude patterns ∈ (schema.exclude patterns).fields
        ∧ (field.exclude patterns = field ↔ ¬ field.IsEntered patterns))
    ∧ (schema.exclude patterns = schema.dropFields patterns
      ↔ ∀ field ∈ schema.fields, excludes patterns field.name = false →
          ¬ field.IsEntered patterns)
    ∧ ((∀ pattern ∈ patterns, ∀ part ∈ (Glob.ofText pattern).parts,
          part.isWild = true → part.covers '.' = false) →
        schema.exclude patterns = schema.dropFields patterns) := by
  have hdrops : schema.exclude patterns = schema.dropFields patterns
      ↔ ∀ field ∈ schema.fields, excludes patterns field.name = false →
          ¬ field.IsEntered patterns := by
    simp only [exclude_eq_dropFields_iff, Field.exclude_eq_self_iff_not_isEntered hdotless]
  refine ⟨?_, hdrops, ?_⟩
  · intro field hfield hstays
    refine ⟨List.mem_map_of_mem ?_, Field.exclude_eq_self_iff_not_isEntered hdotless field⟩
    exact List.mem_filter.mpr ⟨hfield, by simp [hstays]⟩
  · intro hclosed
    refine hdrops.mpr ?_
    rintro field - - ⟨nested, -, henters | ⟨sub, -, henters⟩⟩
    · exact not_enters_of_not_covers hclosed _ _ henters
    · exact not_enters_of_not_covers hclosed _ _ henters

def diary : Schema where
  typeName := "diary".toList
  fields :=
    [{ name := "_note".toList, type := "text".toList },
      { name := "days".toList, type := "array".toList, of := some "object".toList
        nestedFields := some
          [{ name := "photo".toList, type := "image".toList
             subFields := some [⟨"alt".toList, "string".toList, false⟩] },
            { name := "caption".toList, type := "text".toList }] }]

/-- The hidden field is dropped by its set of first characters, and the name of a nested field
reaches nothing. -/
theorem exclude_of_dotless_diary :
    let patterns := ["[^_]note".toList, "caption".toList]
    (∀ pattern ∈ patterns, '.' ∉ pattern)
    ∧ (∀ pattern ∈ patterns, ∀ part ∈ (Glob.ofText pattern).parts,
        part.isWild = true → part.covers '.' = false)
    ∧ diary.exclude patterns = diary.dropFields patterns
    ∧ (diary.dropFields patterns).fields.map (·.name) = ["days".toList] := by
  have hdotless : ∀ pattern ∈ ["[^_]note".toList, "caption".toList], '.' ∉ pattern := by decide
  have hclosed : ∀ pattern ∈ ["[^_]note".toList, "caption".toList],
      ∀ part ∈ (Glob.ofText pattern).parts, part.isWild = true → part.covers '.' = false := by
    decide +kernel
  exact ⟨hdotless, hclosed, (Schema.exclude_of_dotless hdotless diary).2.2 hclosed,
    by decide +kernel⟩

/-- A star, a question mark or a set with the dot in it, in a pattern without dots, takes a nested
field away from an array that stays, or all of them and with them what it holds. -/
theorem exclude_wildcard_ne_dropFields :
    (∀ pattern ∈ ["*caption".toList, "days?caption".toList, "days[+-/]caption".toList, "days?*".toList],
      '.' ∉ pattern ∧ excludes [pattern] "days".toList = false
        ∧ diary.exclude [pattern] ≠ diary.dropFields [pattern])
    ∧ ((diary.exclude ["*caption".toList]).fields.flatMap (·.nestedFields.getD [])).map (·.name)
      = ["photo".toList]
    ∧ (diary.exclude ["days?*".toList]).fields.map (·.of) = [none, none] := by
  decide +kernel

end GroqSnippets

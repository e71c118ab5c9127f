/-
Schemas as source.

A schema is written down as one call of `defineType`, whose fields are calls of `defineField`.  A
key is written only when there is something to say: a title, a rule, the list of what an array
holds, the list of what an image has.  Values stand in single quotes.

What is written is a row of lexemes, and how it is set out is a separate matter: blanks may stand
behind each opening bracket, comma and colon, and before each closing brace, as many and of whatever
kind one likes.  A layout settles them, and every text that spells the row with such blanks is the
schema printed with some layout.
-/
import GroqSnippets.Proofs.Source.Passage
import GroqSnippets.Schema.Basic

namespace GroqSnippets

/-! ### What can be written between single quotes

A colon could begin a key, and a backslash could escape the quote that ends the value.  Everything
else may stand there, also what looks like brackets or a comment.
-/

/-- Whether a text can be printed: it can stand between quotes, and holds no backslash and no
colon. -/
structure Text.IsPrintable (text : Text) : Prop extends Text.IsValue text where
  no_backslash : '\\' ∉ text
  no_colon : ':' ∉ text

instance (text : Text) : Decidable text.IsPrintable :=
  decidable_of_iff (text ≠ [] ∧ '\'' ∉ text ∧ '"' ∉ text ∧ '\\' ∉ text ∧ ':' ∉ text)
    ⟨fun ⟨hne, hsingle, hdouble, hslash, hcolon⟩ => ⟨⟨hne, hsingle, hdouble⟩, hslash, hcolon⟩,
      fun h => ⟨h.nonempty, h.no_single, h.no_double, h.no_backslash, h.no_colon⟩⟩

/-- An attribute can be printed if its name and type can. -/
structure SubField.Printable (sub : SubField) : Prop where
  name : sub.name.IsPrintable
  type : sub.type.IsPrintable

/-- A nested field can be printed if only images have attributes, and then at least one. -/
structure NestedField.Printable (nested : NestedField) : Prop where
  name : nested.name.IsPrintable
  type : nested.type.IsPrintable
  subFields : ∀ subs, nested.subFields = some subs →
    nested.type = "image".toList ∧ subs ≠ [] ∧ ∀ sub ∈ subs, sub.Printable

/-- A field can be printed if only arrays of objects have nested fields, and then at least one, each
with a name of its own. -/
structure Field.Printable (field : Field) : Prop where
  name : field.name.IsPrintable
  type : field.type.IsPrintable
  title : ∀ title, field.title = some title → title.IsPrintable
  of_none : field.nestedFields = none → field.of = none
  nestedFields : ∀ nested, field.nestedFields = some nested →
    field.type = "array".toList ∧ field.of = some "object".toList ∧ nested ≠ []
      ∧ (nested.map (·.name)).Nodup ∧ ∀ item ∈ nested, item.Printable

/-- A schema can be printed if its fields can, have names of their own, and nothing is remarked. -/
structure Schema.Printable (schema : Schema) : Prop where
  typeName : schema.typeName.IsPrintable
  warnings : schema.warnings = []
  names : (schema.fields.map (·.name)).Nodup
  fields : ∀ field ∈ schema.fields, field.Printable

/-! ### What is written -/

abbrev word (text : Text) : List Lexeme :=
  text.map .code

def literal (value : Text) : Lexeme :=
  .quoted ('\'' :: (value ++ ['\'']))

/-- Rows behind commas. -/
def commaLed (rows : List (List Lexeme)) : List Lexeme :=
  rows.flatMap (.code ',' :: ·)

def separated : List (List Lexeme) → List Lexeme
  | [] => []
  | row :: rows => row ++ commaLed rows

def entry (key value : Text) : List Lexeme :=
  word (key ++ [':']) ++ [literal value]

def keyedList (key : Text) (items : List (List Lexeme)) : List Lexeme :=
  word (key ++ [':', '[']) ++ separated items ++ word [']']

def rules (validation : Bool) : List (List Lexeme) :=
  if validation then [word "validation:(Rule) => Rule.required()".toList] else []

def declaration (name : Text) (title : Option Text) (type : Text)
    (more : List (List Lexeme)) : List Lexeme :=
  braced (separated (entry "name".toList name ::
    (title.toList.map (entry "title".toList) ++ entry "type".toList type :: more)))

def SubField.row (sub : SubField) : List Lexeme :=
  declaration sub.name none sub.type (rules sub.validation)

def NestedField.row (nested : NestedField) : List Lexeme :=
  declaration nested.name none nested.type
    (rules nested.validation
      ++ nested.subFields.toList.map fun subs => keyedList "fields".toList (subs.map SubField.row))

/-- What an array holds, written down. -/
def memberRow (of : Text) (nested : List NestedField) : List Lexeme :=
  braced (separated
    [entry "type".toList of, keyedList "fields".toList (nested.map NestedField.row)])

def Field.row (field : Field) : List Lexeme :=
  word "defineField(".toList
    ++ declaration field.name field.title field.type
      (rules field.validation
        ++ field.of.toList.map fun of =>
          keyedList "of".toList [memberRow of (field.nestedFields.getD [])])
    ++ word ")".toList

def Schema.row (schema : Schema) : List Lexeme :=
  word "defineType(".toList
    ++ declaration schema.typeName none "document".toList
      [keyedList "fields".toList (schema.fields.map Field.row)]
    ++ word ");".toList

/-! ### How it is set out

Blanks come from a layout that is asked lexeme by lexeme, so a statement about all layouts is one
about all ways to set blanks, line by line, close together or at random.
-/

/-- The blanks of a printed row, by the number of the lexeme that they belong to. -/
structure Layout where
  before : Nat → Text
  /-- The blanks behind an opening bracket, a comma or a colon. -/
  behind : Nat → Text
  isBlank_before : ∀ n, ∀ c ∈ before n, isBlank c = true
  isBlank_behind : ∀ n, ∀ c ∈ behind n, isBlank c = true

/-- Whether blanks may stand behind a lexeme. -/
def isSeam : Lexeme → Bool
  | .code c => isOpener c || c == ',' || c == ':'
  | _ => false

namespace Layout

/-- A row with the blanks of a layout, which counts the lexemes from a number on. -/
def lay (layout : Layout) : Nat → List Lexeme → List Lexeme
  | _, [] => []
  | n, lexeme :: row =>
    word (if lexeme = .code '}' then layout.before n else [])
      ++ lexeme :: (word (if isSeam lexeme then layout.behind n else []) ++ layout.lay (n + 1) row)

def tight : Layout where
  before _ := []
  behind _ := []
  isBlank_before := by simp
  isBlank_behind := by simp

/-- The layout with one space wherever blanks may stand. -/
def spaced : Layout where
  before _ := [' ']
  behind _ := [' ']
  isBlank_before := by simp; decide
  isBlank_behind := by simp; decide

theorem lay_append (layout : Layout) (n : Nat) (a b : List Lexeme) :
    layout.lay n (a ++ b) = layout.lay n a ++ layout.lay (n + a.length) b := by
  induction a generalizing n with
  | nil => rfl
  | cons lexeme a ih =>
    rw [List.cons_append, lay, lay, ih, List.length_cons, Nat.add_assoc, Nat.add_comm 1]
    simp

end Layout

/-- A schema as source. -/
def Schema.print (layout : Layout) (schema : Schema) : Text :=
  rowText (layout.lay 0 schema.row)

example : Schema.print .tight ⟨"t".toList, [⟨"a".toList, "b".toList, none, false, none, none⟩], []⟩
    = "defineType(".toList ++ '{' :: "name:'t',type:'document',fields:[defineField(".toList
      ++ '{' :: "name:'a',type:'b'".toList ++ ['}', ')', ']', '}', ')', ';'] := by
  decide

/-! ### What is read back

A rule is found anywhere in a declaration, so the rule of an attribute counts as a rule of the
nested field that has it, and the rule of a nested field as one of the array.
-/

def NestedField.spread (nested : NestedField) : NestedField :=
  { nested with validation := nested.validation || (nested.subFields.getD []).any (·.validation) }

def Field.spread (field : Field) : Field :=
  { field with
    validation := field.validation || (field.nestedFields.getD []).any (·.spread.validation)
    nestedFields := field.nestedFields.map (·.map NestedField.spread) }

/-- A schema whose fields and nested fields have the rules of what is in them as well. -/
def Schema.spread (schema : Schema) : Schema :=
  { schema with fields := schema.fields.map Field.spread }

/-- Whether a nested field has a rule as soon as one of its attributes has one. -/
def NestedField.RulesSpread (nested : NestedField) : Prop :=
  ∀ subs, nested.subFields = some subs → ∀ sub ∈ subs, sub.validation = true →
    nested.validation = true

/-- Whether a field has a rule as soon as one of its nested fields has one, and these likewise. -/
def Field.RulesSpread (field : Field) : Prop :=
  ∀ nested, field.nestedFields = some nested →
    ∀ item ∈ nested, item.RulesSpread ∧ (item.validation = true → field.validation = true)

/-- Whether rules are spread in all fields of a schema. -/
def Schema.RulesSpread (schema : Schema) : Prop :=
  ∀ field ∈ schema.fields, field.RulesSpread

theorem map_eq_self_iff {α : Type} {f : α → α} {items : List α} :
    items.map f = items ↔ ∀ item ∈ items, f item = item := by
  simpa using List.map_inj_left (g := id)

theorem NestedField.spread_eq_self_iff {nested : NestedField} :
    nested.spread = nested ↔ nested.RulesSpread := by
  obtain ⟨name, type, validation, subFields⟩ := nested
  cases subFields with
  | none => simp [spread, RulesSpread]
  | some subs => cases validation <;> simp [spread, RulesSpread]

theorem Field.spread_eq_self_iff {field : Field} : field.spread = field ↔ field.RulesSpread := by
  obtain ⟨name, type, title, validation, of, nestedFields⟩ := field
  cases nestedFields with
  | none => simp [spread, RulesSpread]
  | some nested =>
    simp only [spread, RulesSpread, Option.map_some, Field.mk.injEq, true_and,
      Option.some.injEq, Option.getD_some, map_eq_self_iff, NestedField.spread_eq_self_iff,
      forall_eq']
    constructor
    · rintro ⟨hrules, hall⟩ item hitem
      refine ⟨hall item hitem, ?_⟩
      intro hrule
      rw [← hrules, Bool.or_eq_true, List.any_eq_true]
      exact Or.inr ⟨item, hitem, by rwa [NestedField.spread_eq_self_iff.mpr (hall item hitem)]⟩
    · intro hall
      constructor
      · rw [Bool.or_eq_left_iff_imp, List.any_eq_true]
        rintro ⟨item, hitem, hrule⟩
        rw [NestedField.spread_eq_self_iff.mpr (hall item hitem).1] at hrule
        exact (hall item hitem).2 hrule
      · intro item hitem
        exact (hall item hitem).1

/-- Nothing is added to a schema exactly if its rules are spread. -/
theorem Schema.spread_eq_self_iff {schema : Schema} :
    schema.spread = schema ↔ schema.RulesSpread := by
  obtain ⟨typeName, fields, warnings⟩ := schema
  simp only [spread, RulesSpread, Schema.mk.injEq, true_and, and_true, map_eq_self_iff,
    Field.spread_eq_self_iff]

end GroqSnippets

/-
Comments are no part of a schema.

A comment line put into a source leaves the fields as they were.  The blocks of the two sources
correspond, and so do the sections and objects in them, and what a declaration says about itself is
the same, or the text between the two quotes around the line.  If no field has that text for a name, a
type or a title, all of these are the same, and with the names the same blocks are found again for
arrays and the same nested fields are kept.

Whether a declaration has a validation rule is looked up in its text as it stands, comments
included, so that is left out of the comparison.
-/
import Mathlib.Data.List.Forall2
import GroqSnippets.Proofs.Source.Insertion

namespace GroqSnippets

/-! ### Fields without their rules

Whether a rule is mentioned is asked of a whole block, comments included.  So a comment may well
change that, and it is left out where fields are compared.
-/

def SubField.withoutRules (sub : SubField) : SubField :=
  { sub with validation := false }

def NestedField.withoutRules (nested : NestedField) : NestedField :=
  { nested with
    validation := false
    subFields := nested.subFields.map fun subs => subs.map SubField.withoutRules }

/-- A field without what is known of validation, at any level. -/
def Field.withoutRules (field : Field) : Field :=
  { field with
    validation := false
    nestedFields := field.nestedFields.map fun nested => nested.map NestedField.withoutRules }

/-! ### Values

A text that reaches over the line is one of those between the quotes around the line feed, so
whether a value is such a text can be asked before anything is read.
-/

def SubField.values (sub : SubField) : List Text :=
  [sub.name, sub.type]

def NestedField.values (nested : NestedField) : List Text :=
  nested.name :: nested.type :: (nested.subFields.getD []).flatMap SubField.values

/-- The texts that a field and its nested fields were given. -/
def Field.values (field : Field) : List Text :=
  field.name :: field.type ::
    (field.title.toList ++ (field.nestedFields.getD []).flatMap NestedField.values)

/-- Whether no text in a list reaches over a line. -/
def Line.Spares (line : Line) (values : List Text) : Prop :=
  ∀ value ∈ values, value ∉ line.across

/-! ### Declarations that correspond

Values are the same or reach over the line.  Once those of one declaration do not, both are equal, so
what is asked is asked of the first source only.
-/

/-- Attributes whose texts are the same but for the line. -/
structure SubField.Near (line : Line) (sub other : SubField) : Prop where
  name : line.Moves sub.name other.name
  type : line.Moves sub.type other.type

structure NestedField.Near (line : Line) (nested other : NestedField) : Prop where
  name : line.Moves nested.name other.name
  type : line.Moves nested.type other.type
  subFields : Option.Rel (List.Forall₂ (SubField.Near line)) nested.subFields other.subFields

/-- Fields whose texts are the same but for the line. -/
structure Field.Near (line : Line) (field other : Field) : Prop where
  name : line.Moves field.name other.name
  type : line.Moves field.type other.type
  title : Option.Rel line.Moves field.title other.title
  of : field.of = other.of
  nestedFields :
    Option.Rel (List.Forall₂ (NestedField.Near line)) field.nestedFields other.nestedFields

section

variable {line : Line}

/-- Lists of declarations that correspond are the same once what was given does not reach over the
line. -/
theorem map_map_eq {α β : Type} {near : α → α → Prop} {f : α → β} {values : α → List Text}
    {x y : Option (List α)} (h : Option.Rel (List.Forall₂ near) x y)
    (heq : ∀ a b, near a b → line.Spares (values a) → f a = f b)
    (hvalues : line.Spares ((x.getD []).flatMap values)) :
    x.map (List.map f) = y.map (List.map f) := by
  cases h with
  | none => rfl
  | @some l l' h =>
    refine congrArg some ?_
    replace hvalues : line.Spares (l.flatMap values) := hvalues
    induction h with
    | nil => rfl
    | cons hab _ ih =>
      rw [List.flatMap_cons] at hvalues
      obtain ⟨hhead, htail⟩ := List.forall_mem_append.mp hvalues
      rw [List.map_cons, List.map_cons, heq _ _ hab hhead, ih htail]

theorem eq_of_rel {x y : Option Text} (h : Option.Rel line.Moves x y)
    (hvalues : line.Spares x.toList) : x = y := by
  cases h with
  | none => rfl
  | some h => rw [h.eq_of_notMem (hvalues _ (by simp))]

theorem SubField.Near.eq {sub other : SubField} (h : sub.Near line other)
    (hvalues : line.Spares sub.values) : sub.withoutRules = other.withoutRules := by
  obtain ⟨hname, hrest⟩ := List.forall_mem_cons.mp hvalues
  have htype := List.forall_mem_singleton.mp hrest
  simp [withoutRules, h.name.eq_of_notMem hname, h.type.eq_of_notMem htype]

theorem NestedField.Near.eq {nested other : NestedField} (h : nested.Near line other)
    (hvalues : line.Spares nested.values) : nested.withoutRules = other.withoutRules := by
  obtain ⟨hname, hrest⟩ := List.forall_mem_cons.mp hvalues
  obtain ⟨htype, hsubs⟩ := List.forall_mem_cons.mp hrest
  have hsame := map_map_eq h.subFields (fun _ _ => SubField.Near.eq) hsubs
  simp [withoutRules, h.name.eq_of_notMem hname, h.type.eq_of_notMem htype, hsame]

theorem Field.Near.eq {field other : Field} (h : field.Near line other)
    (hvalues : line.Spares field.values) : field.withoutRules = other.withoutRules := by
  obtain ⟨hname, hrest⟩ := List.forall_mem_cons.mp hvalues
  obtain ⟨htype, hrest⟩ := List.forall_mem_cons.mp hrest
  obtain ⟨htitle, hnested⟩ := List.forall_mem_append.mp hrest
  have hsame := map_map_eq h.nestedFields (fun _ _ => NestedField.Near.eq) hnested
  have htitles := eq_of_rel h.title htitle
  simp [withoutRules, h.name.eq_of_notMem hname, h.type.eq_of_notMem htype, htitles, h.of, hsame]

end

/-! ### Reading declarations -/

section

variable {line : Line} {text other : Text}

/-- Windows whose rows differ in a comment at most. -/
def RowNoted (line : Line) (text other : Text) : Prop :=
  ∃ back, Remarked line none back (lexemes none text) (lexemes none other)

theorem fieldsSection_noted (h : RowNoted line text other) :
    Option.Rel (RowNoted line) (fieldsPattern.section? text) (fieldsPattern.section? other) := by
  obtain ⟨back, h⟩ := h
  exact section?_remarked rfl (by decide) (List.all_eq_true.mp (by decide)) h

theorem ofSection_noted (h : RowNoted line text other) :
    Option.Rel (RowNoted line) (ofPattern.section? text) (ofPattern.section? other) := by
  obtain ⟨back, h⟩ := h
  exact section?_remarked rfl (by decide) (List.all_eq_true.mp (by decide)) h

theorem declaredSubField?_noted (h : Noted line text other) :
    Option.Rel (SubField.Near line) (declaredSubField? text) (declaredSubField? other) := by
  refine rel_bind (nameAndType?_beside h.direct) ?_
  intro found found' ⟨hname, htype⟩
  exact .some ⟨hname, htype⟩

theorem declaredSubFields?_noted (h : RowNoted line text other) :
    Option.Rel (List.Forall₂ (SubField.Near line)) (declaredSubFields? text)
      (declaredSubFields? other) := by
  refine rel_bind (fieldsSection_noted h) ?_
  intro body body' ⟨back, hbody⟩
  have hsubs := List.rel_filterMap (@declaredSubField?_noted line) (forall₂_objects hbody)
  generalize (objects body).filterMap declaredSubField? = subs at hsubs
  generalize (objects body').filterMap declaredSubField? = subs' at hsubs
  cases hsubs with
  | nil => exact .none
  | cons hsub hsubs => exact .some (.cons hsub hsubs)

theorem beq_eq_of_moves {a b text : Text} (h : line.Moves a b) (htext : '\n' ∉ text) :
    (a == text) = (b == text) := by
  rw [Bool.eq_iff_iff, beq_iff_eq, beq_iff_eq]
  exact h.eq_iff (Line.notMem_across htext)

theorem declaredNestedField?_noted (h : Noted line text other) :
    Option.Rel (NestedField.Near line) (declaredNestedField? text) (declaredNestedField? other) := by
  refine rel_bind (nameAndType?_beside h.direct) ?_
  intro ⟨name, type⟩ ⟨name', type'⟩ ⟨hname, htype⟩
  have himage := beq_eq_of_moves htype (by decide : '\n' ∉ "image".toList)
  refine .some ⟨hname, htype, ?_⟩
  dsimp only
  rw [himage]
  split
  · exact declaredSubFields?_noted h.row
  · exact .none

theorem declaredField?_noted (h : Noted line text other) :
    Option.Rel (Field.Near line) (declaredField? text) (declaredField? other) := by
  refine rel_bind (nameAndType?_beside h.direct) ?_
  intro found found' ⟨hname, htype⟩
  exact .some ⟨hname, htype, Pattern.firstValue?_beside (by decide) h.direct, rfl, .none⟩

/-! ### Arrays -/

theorem memberFields?_noted (h : RowNoted line text other) :
    Option.Rel (RowNoted line) (memberFields? text) (memberFields? other) := by
  refine rel_bind (ofSection_noted h) ?_
  intro members members' hmembers
  have hobject : Option.Rel (fun _ _ => True) (objectPattern.firstInCode? (Cursor.ofText members))
      (objectPattern.firstInCode? (Cursor.ofText members')) := by
    obtain ⟨back, hrows⟩ := hmembers
    have hseeks : objectPattern.Seeks _ := Pattern.seeks_keyValue rfl
    have hsearch : Option.Rel _ (objectPattern.firstInCode? (Cursor.ofText members))
        (objectPattern.firstInCode? (Cursor.ofText members')) :=
      firstInCode?_remarked (by decide) hseeks hrows rfl
    exact rel_mono hsearch fun _ _ _ => trivial
  exact rel_bind hobject fun _ _ _ => fieldsSection_noted hmembers

theorem keepFirstNames_of_taken {seen : List Text} {first : NestedField} (h : first.name ∈ seen)
    (rest : List NestedField) :
    (keepFirstNames seen (first :: rest)).1 = (keepFirstNames seen rest).1 := by
  rw [keepFirstNames, if_pos (List.contains_iff_mem.mpr h)]

theorem keepFirstNames_of_new {seen : List Text} {first : NestedField} (h : first.name ∉ seen)
    (rest : List NestedField) :
    (keepFirstNames seen (first :: rest)).1
      = first :: (keepFirstNames (first.name :: seen) rest).1 := by
  rw [keepFirstNames, if_neg (by rwa [List.contains_iff_mem])]

/-- The nested fields that are kept correspond, as long as their names do not reach over the line. -/
theorem forall₂_keepFirstNames {seen : List Text} {nested nested' : List NestedField}
    (h : List.Forall₂ (NestedField.Near line) nested nested') (hseen : line.Spares seen)
    (hkept : ∀ kept ∈ (keepFirstNames seen nested).1, kept.name ∉ line.across) :
    List.Forall₂ (NestedField.Near line) (keepFirstNames seen nested).1
      (keepFirstNames seen nested').1 := by
  induction h generalizing seen with
  | nil => exact .nil
  | @cons first first' rest rest' hfirst _ ih =>
    by_cases htaken : first.name ∈ seen
    · have hname := hfirst.name.eq_of_notMem (hseen _ htaken)
      rw [keepFirstNames_of_taken htaken] at hkept ⊢
      rw [keepFirstNames_of_taken (hname ▸ htaken)]
      exact ih hseen hkept
    · rw [keepFirstNames_of_new htaken] at hkept ⊢
      obtain ⟨hfirstName, hrest⟩ := List.forall_mem_cons.mp hkept
      have hname := hfirst.name.eq_of_notMem hfirstName
      rw [keepFirstNames_of_new (hname ▸ htaken), ← hname]
      exact .cons hfirst (ih (List.forall_mem_cons.mpr ⟨hfirstName, hseen⟩) hrest)

/-- The nested fields of an array correspond, and so do the arrays. -/
theorem withMembers_near {field field' : Field} (h : field.Near line field')
    (hbody : RowNoted line text other)
    (hvalues : line.Spares (field.withMembers text).1.values) :
    (field.withMembers text).1.Near line (field'.withMembers other).1 := by
  obtain ⟨back, hrows⟩ := hbody
  have hnested := List.rel_filterMap (@declaredNestedField?_noted line) (forall₂_objects hrows)
  unfold Field.withMembers at hvalues ⊢
  generalize (objects text).filterMap declaredNestedField? = nested at hnested hvalues
  generalize (objects other).filterMap declaredNestedField? = nested' at hnested
  have hkept : (∀ kept ∈ (keepFirstNames [] nested).1, kept.name ∉ line.across) →
      List.Forall₂ (NestedField.Near line) (keepFirstNames [] nested).1 (keepFirstNames [] nested').1 :=
    forall₂_keepFirstNames hnested (by simp [Line.Spares])
  generalize keepFirstNames [] nested = kept at hkept hvalues
  generalize keepFirstNames [] nested' = kept' at hkept
  obtain ⟨kept, dropped⟩ := kept
  obtain ⟨kept', dropped'⟩ := kept'
  cases kept with
  | nil =>
    obtain rfl : kept' = [] := by simpa using hkept
    exact h
  | cons first kept =>
    have hnames : ∀ nested ∈ first :: kept, nested.name ∉ line.across := by
      intro nested hmem
      obtain ⟨-, hrest⟩ := List.forall_mem_cons.mp hvalues
      obtain ⟨-, hrest⟩ := List.forall_mem_cons.mp hrest
      obtain ⟨-, hnested⟩ := List.forall_mem_append.mp hrest
      exact hnested _ (List.mem_flatMap.mpr ⟨nested, hmem, List.mem_cons_self⟩)
    have hall := hkept hnames
    cases kept' with
    | nil => cases hall
    | cons first' kept' => exact ⟨h.name, h.type, h.title, rfl, .some hall⟩

/-- Blocks with names that correspond. -/
def NamedNoted (line : Line) (named named' : Option Text × Text) : Prop :=
  Option.Rel line.Moves named.1 named'.1 ∧ Noted line named.2 named'.2

theorem ofBlocks_noted {blocks blocks' : List Text} (h : List.Forall₂ (Noted line) blocks blocks') :
    List.Forall₂ (NamedNoted line) (NamedBlocks.ofBlocks blocks)
      (NamedBlocks.ofBlocks blocks') := by
  refine List.rel_map ?_ h
  intro block block' hblock
  exact ⟨Pattern.firstValue?_beside (by decide) hblock.direct, hblock⟩

/-- The same block is found again under a name that does not reach over the line. -/
theorem find?_noted {blocks blocks' : NamedBlocks}
    (h : List.Forall₂ (NamedNoted line) blocks blocks') {name : Text}
    (hname : name ∉ line.across) :
    Option.Rel (Noted line) (blocks.find? name) (blocks'.find? name) := by
  unfold NamedBlocks.find?
  induction h with
  | nil => exact .none
  | @cons named named' rest rest' hnamed _ ih =>
    obtain ⟨key, block⟩ := named
    obtain ⟨key', block'⟩ := named'
    obtain ⟨hkey, hblock⟩ := hnamed
    have hsame : (some name == key) = (some name == key') := by
      cases hkey with
      | none => rfl
      | some hkey =>
        rw [Bool.eq_iff_iff, beq_iff_eq, beq_iff_eq, Option.some_inj, Option.some_inj, eq_comm,
          hkey.eq_iff hname, eq_comm]
    rw [List.lookup_cons, List.lookup_cons, hsame]
    split
    · exact .some hblock
    · exact ih

theorem complete_near {blocks blocks' : NamedBlocks}
    (hblocks : List.Forall₂ (NamedNoted line) blocks blocks') {field field' : Field}
    (h : field.Near line field') (hvalues : line.Spares (field.complete blocks).1.values) :
    (field.complete blocks).1.Near line (field'.complete blocks').1 := by
  have hspared : field.name ∉ line.across := by
    rw [← complete_name blocks field]
    exact hvalues _ List.mem_cons_self
  have hname := h.name.eq_of_notMem hspared
  have harray : field.isArray = field'.isArray := beq_eq_of_moves h.type (by decide)
  have hmembers : Option.Rel (RowNoted line) ((blocks.find? field.name).bind memberFields?)
      ((blocks'.find? field'.name).bind memberFields?) := by
    rw [← hname]
    exact rel_bind (find?_noted hblocks hspared) fun _ _ hblock => memberFields?_noted hblock.row
  unfold Field.complete at hvalues ⊢
  rw [← harray]
  split
  · rename_i hyes
    rw [if_pos hyes] at hvalues
    generalize (blocks.find? field.name).bind memberFields? = body at hmembers hvalues
    generalize (blocks'.find? field'.name).bind memberFields? = body' at hmembers
    cases hmembers with
    | none => exact h
    | some hbody => exact withMembers_near h hbody hvalues
  · exact h

end

/-! ### The whole source

Each search for a block is a scan of its own.  Up to the line feed they must agree that it is code
and that it splits no mark; behind it there is nothing more to ask.
-/

/-- Fields that correspond are completed to the same fields. -/
theorem map_complete_eq {line : Line} {blocks blocks' : NamedBlocks}
    (hblocks : List.Forall₂ (NamedNoted line) blocks blocks') {fields fields' : List Field}
    (hfields : List.Forall₂ (Field.Near line) fields fields')
    (hvalues : ∀ field ∈ fields, line.Spares (field.complete blocks).1.values) :
    fields.map (fun field => (field.complete blocks).1.withoutRules)
      = fields'.map fun field => (field.complete blocks').1.withoutRules := by
  induction hfields with
  | nil => rfl
  | cons hfield _ ih =>
    obtain ⟨hfirst, hrest⟩ := List.forall_mem_cons.mp hvalues
    rw [List.map_cons, List.map_cons, ih hrest, (complete_near hblocks hfield hfirst).eq hfirst]

/-- Where the searches for the blocks of a source start: with the source, and behind each block. -/
def searchStarts (source : Text) : List Nat :=
  0 :: (fieldPattern.blockSpans source).map (·.2)

/-- Whether all scans from some offsets read the character at an offset as code, if they start no
later. -/
def ReadAsCode (source : Text) (starts : List Nat) (offset : Nat) (c : Char) : Prop :=
  ∀ start ∈ starts, start ≤ offset → (offset, .code c) ∈ source.seen start

/-- Where all blocks end in a closing brace, this is what the scan of the whole source reads as
code. -/
theorem readAsCode_of_braces {source : Text} {offset : Nat} {c : Char}
    (hseen : (offset, .code c) ∈ source.seen 0)
    (hbraces : ∀ block ∈ fieldPattern.blocks source, block.getLast? = some '}') :
    ReadAsCode source (searchStarts source) offset c := by
  intro start hstart hle
  rcases List.mem_cons.mp hstart with rfl | hstart
  · exact hseen
  · obtain ⟨span, hspan, rfl⟩ := List.mem_map.mp hstart
    rw [Pattern.blocks_eq_slices, List.forall_mem_map] at hbraces
    have hname : ∀ c ∈ "efineField".toList, isPlain c = true := List.all_eq_true.mp (by decide)
    exact Pattern.mem_seen_behind_block (by decide) hname _ 0 rfl (Nat.zero_le _) hbraces span hspan
      _ hseen hle

/-- The texts that reach over the line feed between two texts, for the scans that start no later: the
text between the quotes around it, and the same with a line feed more. -/
def textsOver (before after : Text) (starts : List Nat) : List Text :=
  (starts.filter (· ≤ before.length)).flatMap fun start =>
    [textOver before after start, textOver before ('\n' :: after) start]

theorem mem_textsOver {before after : Text} {starts : List Nat} {start : Nat} (h : start ∈ starts)
    (hle : start ≤ before.length) :
    textOver before after start ∈ textsOver before after starts
      ∧ textOver before ('\n' :: after) start ∈ textsOver before after starts := by
  have hmem : start ∈ starts.filter (· ≤ before.length) := by simpa [h] using hle
  exact ⟨List.mem_flatMap.mpr ⟨start, hmem, by simp⟩, List.mem_flatMap.mpr ⟨start, hmem, by simp⟩⟩

theorem newline_mem_of_mem_textsOver {before after : Text} {starts : List Nat} :
    ∀ text ∈ textsOver before after starts, '\n' ∈ text := by
  intro text htext
  obtain ⟨start, -, htext⟩ := List.mem_flatMap.mp htext
  simp only [List.mem_cons, List.not_mem_nil, or_false] at htext
  rcases htext with rfl | rfl <;> simp [textOver, betweenQuotes]

/-- **A comment line is no part of a schema.**  Behind a line feed that all searches for blocks read
as code and that is none of the blanks of a mark they see there, a comment line leaves the fields as
they are, validation rules apart, as long as no value is the text between the quotes around the line.
Behind a backslash the line feed has to be read as code with the comment as well. -/
theorem Schema.fields_withComment (before comment after : Text) (hcomment : '\n' ∉ comment)
    (hcode : ReadAsCode (before ++ '\n' :: after) (searchStarts (before ++ '\n' :: after))
      before.length '\n')
    (hescape : before.getLast? = some '\\' →
      ReadAsCode (withComment before comment after) (searchStarts (before ++ '\n' :: after))
        before.length '\n')
    (hsplits : ∀ start ∈ searchStarts (before ++ '\n' :: after), ¬ SplitsMark before after start)
    (hvalues : ∀ field ∈ (Schema.ofSource (before ++ '\n' :: after)).fields,
      ∀ value ∈ field.values,
        value ∉ textsOver before after (searchStarts (before ++ '\n' :: after))) :
    (Schema.ofSource (withComment before comment after)).fields.map Field.withoutRules
      = (Schema.ofSource (before ++ '\n' :: after)).fields.map Field.withoutRules := by
  let line : Line := ⟨comment, textsOver before after (searchStarts (before ++ '\n' :: after)),
    newline_mem_of_mem_textsOver⟩
  have hseen : ∀ start ∈ searchStarts (before ++ '\n' :: after), start ≤ before.length →
      line.Seen before after start := by
    intro start hstart hle
    have hhere := hcode start hstart hle
    obtain ⟨hover, hover'⟩ := mem_textsOver hstart hle
    refine ⟨hhere, ?_, hsplits start hstart, hover, hover'⟩
    by_cases hlast : before.getLast? = some '\\'
    · exact hescape hlast start hstart hle
    · exact seen_of_break hle hhere hlast _
  have hfunction : IsCallName "defineField".toList := by decide
  have hblocks : List.Forall₂ (Noted line) (fieldPattern.blocks (before ++ '\n' :: after))
      (fieldPattern.blocks (withComment before comment after)) :=
    forall₂_blocks hfunction (by decide) hcomment hseen
  have hfields := List.rel_filterMap (@declaredField?_noted line) hblocks
  rw [fields_ofSource] at hvalues
  rw [fields_ofSource, fields_ofSource, List.map_map, List.map_map]
  refine (map_complete_eq (ofBlocks_noted hblocks) hfields ?_).symm
  intro field hfield
  exact hvalues _ (List.mem_map.mpr ⟨field, hfield, rfl⟩)

/-- A source up to a line feed in the list of an image in an array.  A title has a line feed, and the
last line ends in a comment. -/
def galleryBefore : Text :=
  "defineField(".toList ++ '{' :: (r#" name: "a", type: "string", title: "two"#).toList
    ++ '\n' :: (r#"lines" "#).toList ++ '}' :: "), defineField(".toList
    ++ '{' :: (r#" name: "g", type: "array", of: ["#).toList
    ++ '{' :: (r#" type: "object", fields: ["#).toList
    ++ '{' :: (r#" name: "i", type: "image", fields: [ // of:"#).toList

/-- The rest of that source, which begins with a list. -/
def galleryAfter : Text :=
  (r#"[], { name: "alt", type: "string" }"#).toList ++ [']', ' ', '}', ']', ' ', '}', ']', ' ', '}', ')']

/-- A comment there may even look like fields, open a string and leave brackets open. -/
theorem fields_withComment_gallery :
    let comment : Text :=
      (r#" { name: "old", type: "string" }, defineField("#).toList ++ '{' :: " it's".toList
    let source := galleryBefore ++ '\n' :: galleryAfter
    ReadAsCode source (searchStarts source) galleryBefore.length '\n'
      ∧ (∀ start ∈ searchStarts source, ¬ SplitsMark galleryBefore galleryAfter start)
      ∧ (∀ field ∈ (Schema.ofSource source).fields, ∀ value ∈ field.values,
          value ∉ textsOver galleryBefore galleryAfter (searchStarts source))
      ∧ (Schema.ofSource (withComment galleryBefore comment galleryAfter)).fields.map
          Field.withoutRules
        = (Schema.ofSource source).fields.map Field.withoutRules := by
  intro comment source
  have hcomment : '\n' ∉ comment := by decide
  have hseen : (galleryBefore.length, .code '\n') ∈ source.seen 0 := by decide +kernel
  have hbraces : ∀ block ∈ fieldPattern.blocks source, block.getLast? = some '}' := by
    decide +kernel
  have hcode := readAsCode_of_braces hseen hbraces
  have hescape : ¬ galleryBefore.getLast? = some '\\' := by decide +kernel
  have hsplits : ∀ start ∈ searchStarts source,
      ¬ SplitsMark galleryBefore galleryAfter start := by
    decide +kernel
  have hvalues : ∀ field ∈ (Schema.ofSource source).fields, ∀ value ∈ field.values,
      value ∉ textsOver galleryBefore galleryAfter (searchStarts source) := by
    decide +kernel
  exact ⟨hcode, hsplits, hvalues, Schema.fields_withComment galleryBefore comment galleryAfter
    hcomment hcode (fun hlast => absurd hlast hescape) hsplits hvalues⟩

/-- Whether a comment line behind a line feed that the scan of a source reads as code changes a
field. -/
def ChangesFields (before comment after : Text) : Prop :=
  '\n' ∉ comment ∧ (before.length, .code '\n') ∈ (before ++ '\n' :: after).seen 0
    ∧ (Schema.ofSource (withComment before comment after)).fields.map Field.withoutRules
      ≠ (Schema.ofSource (before ++ '\n' :: after)).fields.map Field.withoutRules

/-- A comment line changes the fields among the blanks of a mark, where a value reaches over the
line feed, and where the search behind a block with a wrong bracket is inside a literal. -/
theorem changesFields_of_comment :
    ChangesFields "defineField(".toList [] (r#"{ name: "a", type: "string" })"#).toList
    ∧ ChangesFields ("defineField(".toList ++ '{' :: " name: 'a', info: \"type:\",".toList) []
        ("kind: 'x', type: 'string' ".toList ++ ['}', ')'])
    ∧ ChangesFields ("defineField(".toList ++ '{' :: " name: 'a', type: 'string' ) / '/'".toList) "'".toList
        ("defineField(".toList ++ '{' :: " name: 'b', type: 'string' ".toList ++ ['}', ')']) := by
  unfold ChangesFields
  decide +kernel

end GroqSnippets

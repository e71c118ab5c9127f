/-
The keys that the objects of an array come out with.

Every line in the body of an array gives one key: a nested field its name, an image its name for the
address, and each attribute the name of its image followed by its own name with a capital.  The names
of the nested fields are all different, because only the first of each name is projected.  Nothing
looks after the attributes: what their names are joined to may be a name that is taken.

So keys can only come out twice through an attribute, and there are three ways.  Two attributes of
one image have the same name but for the capital; an attribute without a name takes the key of the
image itself; or the name of a second entry begins with the name of the image, and what is left of
it is where the name of the attribute begins.
-/
import Mathlib.Data.List.Nodup
import Mathlib.Data.List.Pairwise
import GroqSnippets.Proofs.Query.ReadBack
import GroqSnippets.Proofs.Query.Repeats

namespace GroqSnippets

/-! ### Keys and lines -/

/-- What a line in the body of an array gives: a key, and the path that is read for it, unless the
key says that itself. -/
structure OutputLine where
  key : Text
  /-- The path behind the key. -/
  path : Option Text
deriving DecidableEq, Repr

def OutputLine.render (line : OutputLine) : Text :=
  match line.path with
  | none => line.key
  | some path => aliased line.key path

namespace Entry

def subFields : Entry → List Text
  | plain _ => []
  | image _ subFields => subFields

def attributeLine (name sub : Text) : OutputLine :=
  { key := name ++ capitalize sub, path := some (name ++ '.' :: sub) }

def outputLines : Entry → List OutputLine
  | plain name => [{ key := name, path := none }]
  | image name subFields =>
    { key := name, path := some (name ++ ".asset->url".toList) } :: subFields.map (attributeLine name)

/-- The keys that an entry gives. -/
def keys (entry : Entry) : List Text :=
  entry.outputLines.map (·.key)

theorem lines_eq (entry : Entry) : entry.lines = entry.outputLines.map OutputLine.render := by
  cases entry with
  | plain name => rfl
  | image name subFields =>
    rw [lines, outputLines, List.map_cons, List.map_map]
    rfl

theorem keys_eq (entry : Entry) :
    entry.keys = entry.name :: entry.subFields.map fun sub => entry.name ++ capitalize sub := by
  cases entry with
  | plain name => rfl
  | image name subFields =>
    rw [keys, outputLines, List.map_cons, List.map_map]
    rfl

theorem mem_keys_iff {entry : Entry} {key : Text} :
    key ∈ entry.keys
      ↔ key = entry.name ∨ ∃ sub ∈ entry.subFields, key = entry.name ++ capitalize sub := by
  rw [keys_eq, List.mem_cons, List.mem_map]
  simp only [eq_comm]

end Entry

/-! ### Capitals

A capital may be several letters, but it is never nothing, so an attribute with a name always makes
a key that is longer than the name of its image.
-/

theorem upperCase_ne_nil (c : Char) : upperCase c ≠ [] := by
  have hexpands : ∀ entry ∈ expandingCapitals, entry.2 ≠ [] := by decide
  unfold upperCase
  split
  · exact List.cons_ne_nil _ _
  · split
    · rename_i codes hcodes
      obtain ⟨front, back, htable, -⟩ := List.lookup_eq_some_iff.mp hcodes
      have hmem : (c.toNat, codes) ∈ expandingCapitals := by simp [htable]
      simpa using hexpands _ hmem
    · exact List.cons_ne_nil _ _

theorem capitalize_eq_nil_iff {name : Text} : capitalize name = [] ↔ name = [] := by
  cases name with
  | nil => simp [capitalize]
  | cons c rest => simp [capitalize, upperCase_ne_nil]

/-! ### Keys that come out twice

Within one entry the keys are the name and the name with each attribute behind it.  Between two
entries with different names a key can only be shared where one name begins with the other, so that
is what running into each other says.
-/

namespace Entry

/-- Whether the name of an entry goes on from the name of an image, and the name of an attribute of
that image begins like what it goes on with: it is just that, or that and the name of an attribute
of the entry. -/
def RunsInto (image entry : Entry) : Prop :=
  ∃ rest, rest ≠ [] ∧ entry.name = image.name ++ rest
    ∧ ∃ sub ∈ image.subFields, capitalize sub = rest
      ∨ ∃ other ∈ entry.subFields, capitalize sub = rest ++ capitalize other

/-- The keys of one entry are different when its attributes have names, and different ones when
capitals are not counted. -/
theorem nodup_keys_iff (entry : Entry) :
    entry.keys.Nodup ↔ [] ∉ entry.subFields ∧ (entry.subFields.map capitalize).Nodup := by
  have hown : entry.name ∉ entry.subFields.map (fun sub => entry.name ++ capitalize sub)
      ↔ [] ∉ entry.subFields := by
    simp [List.mem_map, capitalize_eq_nil_iff]
  have hjoined : entry.subFields.map (fun sub => entry.name ++ capitalize sub)
      = (entry.subFields.map capitalize).map (entry.name ++ ·) := by
    rw [List.map_map]
    rfl
  rw [keys_eq, List.nodup_cons, hown, hjoined,
    List.nodup_map_iff (List.append_right_injective entry.name)]

theorem RunsInto.name_ne {first second : Entry} (h : first.RunsInto second) :
    first.name ≠ second.name := by
  obtain ⟨rest, hrest, hname, -⟩ := h
  intro hsame
  rw [hname, List.self_eq_append_right] at hsame
  exact hrest hsame

/-- An entry that runs into another one gives a key that the other one gives as well. -/
theorem RunsInto.not_disjoint {first second : Entry} (h : first.RunsInto second) :
    ¬ List.Disjoint first.keys second.keys := by
  obtain ⟨rest, -, hname, sub, hsub, hcapital⟩ := h
  intro hdisjoint
  have hfirst : first.name ++ capitalize sub ∈ first.keys := mem_keys_iff.mpr (.inr ⟨sub, hsub, rfl⟩)
  refine hdisjoint hfirst (mem_keys_iff.mpr ?_)
  rcases hcapital with hcapital | ⟨other, hother, hcapital⟩
  · exact .inl (by rw [hname, hcapital])
  · exact .inr ⟨other, hother, by rw [hname, hcapital, List.append_assoc]⟩

/-- Two entries with different names give no key both unless one of them runs into the other. -/
theorem disjoint_keys {first second : Entry} (hname : first.name ≠ second.name)
    (hfirst : ¬ first.RunsInto second) (hsecond : ¬ second.RunsInto first) :
    List.Disjoint first.keys second.keys := by
  intro key hkey hkey'
  rcases mem_keys_iff.mp hkey with rfl | ⟨sub, hsub, rfl⟩
  · rcases mem_keys_iff.mp hkey' with hsame | ⟨other, hother, hjoined⟩
    · exact hname hsame
    · refine hsecond ⟨capitalize other, ?_, hjoined, other, hother, .inl rfl⟩
      intro hnil
      exact hname (by rw [hjoined, hnil, List.append_nil])
  · rcases mem_keys_iff.mp hkey' with hjoined | ⟨other, hother, hjoined⟩
    · refine hfirst ⟨capitalize sub, ?_, hjoined.symm, sub, hsub, .inl rfl⟩
      intro hnil
      exact hname (by rw [← hjoined, hnil, List.append_nil])
    · rcases List.append_eq_append_iff.mp hjoined with ⟨rest, hlonger, hrest⟩ | ⟨rest, hlonger, hrest⟩
      · refine hfirst ⟨rest, ?_, hlonger, sub, hsub, .inr ⟨other, hother, hrest⟩⟩
        rintro rfl
        exact hname (by rw [hlonger, List.append_nil])
      · refine hsecond ⟨rest, ?_, hlonger, other, hother, .inr ⟨sub, hsub, hrest⟩⟩
        rintro rfl
        exact hname (by rw [hlonger, List.append_nil])

/-- Entries with names of their own give different keys when each of them does and none runs into
another. -/
theorem nodup_flatMap_keys_iff {entries : List Entry} (hnames : (entries.map name).Nodup) :
    (entries.flatMap keys).Nodup
      ↔ (∀ entry ∈ entries, [] ∉ entry.subFields ∧ (entry.subFields.map capitalize).Nodup)
        ∧ ∀ first ∈ entries, ∀ second ∈ entries, ¬ first.RunsInto second := by
  have hdifferent : entries.Pairwise fun first second => first.name ≠ second.name :=
    List.pairwise_map.mp hnames
  rw [List.nodup_flatMap]
  simp only [nodup_keys_iff]
  refine and_congr_right fun _ => ?_
  constructor
  · intro hdisjoint first hfirst second hsecond hruns
    have hne : first ≠ second := fun hsame => hruns.name_ne (congrArg name hsame)
    have : Std.Symm (Function.onFun List.Disjoint keys) :=
      ⟨fun _ _ hapart _ hkey hkey' => hapart hkey' hkey⟩
    exact hruns.not_disjoint (hdisjoint.forall hfirst hsecond hne)
  · intro hapart
    refine hdifferent.imp_of_mem ?_
    intro first second hfirst hsecond hname
    exact disjoint_keys hname (hapart first hfirst second hsecond) (hapart second hsecond first hfirst)

end Entry

/-! ### Whole queries -/

theorem infix_intercalate {separator item : Text} {items : List Text} (h : item ∈ items) :
    item <:+: separator.intercalate items := by
  induction items with
  | nil => cases h
  | cons first items ih =>
    cases items with
    | nil => exact ⟨[], [], by simp [List.mem_singleton.mp h]⟩
    | cons next items =>
      rw [List.intercalate_cons_cons]
      rcases List.mem_cons.mp h with rfl | h
      · exact ⟨[], separator ++ separator.intercalate (next :: items), by simp⟩
      · exact (ih h).trans (List.suffix_append _ _).isInfix

/-- What a projection says about an array stands in its queries. -/
theorem Projection.render_infix_query {projection : Projection} {array : ArrayProjection}
    (h : array ∈ projection.arrays) (selector : Text) :
    array.render <:+: projection.query selector := by
  have harrays : array.render <:+: projection.renderArrays :=
    infix_intercalate (List.mem_map_of_mem h)
  have hbody : projection.renderArrays <:+: projection.renderBody :=
    (List.suffix_append _ _).isInfix
  have hquery : projection.renderBody <:+: projection.query selector :=
    ⟨_, "\n  ".toList ++ ['}'], rfl⟩
  exact (harrays.trans hbody).trans hquery

/-- The lines in the body of an array. -/
def Field.outputLines (field : Field) : List OutputLine :=
  ((firstsOf (field.nestedFields.getD [])).map Entry.ofNested).flatMap Entry.outputLines

/-- What an array with nested fields contributes. -/
theorem ArrayProjection.ofField_of_ne_nil {field : Field} (h : field.nestedFields.getD [] ≠ []) :
    ofField field
      = ⟨field.name, some ((firstsOf (field.nestedFields.getD [])).map Entry.ofNested)⟩ := by
  rw [ofField_eq, NestedTable.ofList_eq]
  cases hfirsts : firstsOf (field.nestedFields.getD []) with
  | nil => exact absurd (firstsOf_eq_nil_iff.mp hfirsts) h
  | cons first rest => rfl

/-- The body of an array is the lines of its entries. -/
theorem ArrayProjection.render_some (name : Text) (entries : List Entry) :
    render ⟨name, some entries⟩
      = name ++ ("[] ".toList ++ '{' :: "\n        ".toList)
        ++ entrySeparator.intercalate ((entries.flatMap Entry.outputLines).map OutputLine.render)
        ++ ("\n      ".toList ++ ['}']) := by
  have hlines : entries.flatMap Entry.lines
      = (entries.flatMap Entry.outputLines).map OutputLine.render := by
    rw [List.map_flatMap]
    exact List.flatMap_congr fun entry _ => entry.lines_eq
  rw [← hlines]
  rfl

/-- **When keys come out twice.**  The body of an array with nested fields, as it stands in every query
of its schema, is made of the lines of its entries, the first nested field of each name.  These have
different names, so no two bare names or addresses come out under one key.  All keys are different
exactly when the attributes of every image have names, and different ones when capitals are not
counted, and when no image runs into another entry by the name of an attribute. -/
theorem keys_nodup_iff {schema : Schema} {field : Field} (hfield : field ∈ schema.arrayFields)
    (hnested : field.nestedFields.getD [] ≠ []) :
    let entries := (firstsOf (field.nestedFields.getD [])).map Entry.ofNested
    field.outputLines = entries.flatMap Entry.outputLines
    ∧ (∀ kind query, schema.queries.query? kind = some query →
      field.name ++ ("[] ".toList ++ '{' :: "\n        ".toList)
          ++ entrySeparator.intercalate (field.outputLines.map OutputLine.render)
          ++ ("\n      ".toList ++ ['}'])
        <:+: query)
    ∧ (entries.map Entry.name).Nodup
    ∧ ((field.outputLines.map (·.key)).Nodup
      ↔ (∀ entry ∈ entries, [] ∉ entry.subFields ∧ (entry.subFields.map capitalize).Nodup)
        ∧ ∀ image ∈ entries, ∀ entry ∈ entries, ¬ image.RunsInto entry) := by
  intro entries
  have hnames : (entries.map Entry.name).Nodup := by
    have hname : Entry.name ∘ Entry.ofNested = NestedField.name := funext Entry.name_ofNested
    rw [List.map_map, hname]
    exact nodup_firstsOf _
  refine ⟨rfl, ?_, hnames, ?_⟩
  · intro kind query hquery
    have harray : ArrayProjection.ofField field ∈ schema.projection.arrays :=
      List.mem_map_of_mem hfield
    have hinfix := Projection.render_infix_query harray kind.selector
    rw [ArrayProjection.ofField_of_ne_nil hnested, ArrayProjection.render_some] at hinfix
    rw [Schema.query_of_query? hquery]
    exact hinfix
  · rw [Field.outputLines, List.map_flatMap]
    exact Entry.nodup_flatMap_keys_iff hnames

def slidesField (nested : List NestedField) : Field :=
  { name := "slides".toList, type := "array".toList, of := some "object".toList
    nestedFields := some nested }

def slides (nested : List NestedField) : Schema :=
  { typeName := "show".toList, fields := [slidesField nested] }

def imageWith (name : Text) (subFields : List Text) : NestedField :=
  { name, type := "image".toList
    subFields := some (subFields.map fun sub => { name := sub, type := "string".toList }) }

/-- Names that begin alike, and one that is repeated, without a key that comes out twice. -/
theorem keys_nodup_iff_slides :
    let nested : List NestedField :=
      [imageWith "hero".toList ["alt".toList, "credit".toList],
        imageWith "heroA".toList ["lt2".toList], ⟨"heroine".toList, [], false, none⟩,
        ⟨"hero".toList, [], false, none⟩]
    let entries : List Entry :=
      [.image "hero".toList ["alt".toList, "credit".toList], .image "heroA".toList ["lt2".toList],
        .plain "heroine".toList]
    slidesField nested ∈ (slides nested).arrayFields
    ∧ (slidesField nested).nestedFields.getD [] ≠ []
    ∧ ((slidesField nested).outputLines.map (·.key)).Nodup
    ∧ (∀ image ∈ entries, ∀ entry ∈ entries, ¬ image.RunsInto entry) := by
  intro nested entries
  have hfield : slidesField nested ∈ (slides nested).arrayFields := by decide
  have hnested : (slidesField nested).nestedFields.getD [] ≠ [] := by decide
  have hentries : (firstsOf ((slidesField nested).nestedFields.getD [])).map Entry.ofNested = entries := by
    decide +kernel
  have hkeys : ((slidesField nested).outputLines.map (·.key)).Nodup := by decide +kernel
  have hiff := (keys_nodup_iff hfield hnested).2.2.2
  rw [hentries] at hiff
  exact ⟨hfield, hnested, hkeys, (hiff.mp hkeys).2⟩

/-- Keys that come out twice: through an attribute that is repeated, also with a capital; through
one without a name; through the name of another nested field; and through two images. -/
theorem keys_of_attributes_not_nodup :
    let twice (nested : List NestedField) : Prop :=
      slidesField nested ∈ (slides nested).arrayFields
        ∧ ¬ ((slidesField nested).outputLines.map (·.key)).Nodup
    twice [imageWith "hero".toList ["alt".toList, "alt".toList]]
    ∧ twice [imageWith "hero".toList ["alt".toList, "Alt".toList]]
    ∧ twice [imageWith "hero".toList [[]]]
    ∧ twice [imageWith "hero".toList ["alt".toList], ⟨"heroAlt".toList, [], false, none⟩]
    ∧ twice [imageWith "a".toList ["bC".toList], imageWith "aB".toList ["c".toList]] := by
  decide +kernel

end GroqSnippets

/-
What each step of the reading answers.

Every step is a search, a cut or both, and every value that it answers with is what stood between
two quotes.  Here the steps are written out once, as what must hold of a text for a step to answer
with something, and what is known of the values.  What is said about whole schemas later is said
from this.
-/
import GroqSnippets.Proofs.Source.Layer

namespace GroqSnippets

/-! ### Values -/

/-- A key is found with a value. -/
theorem Pattern.exists_value_of_first? {name : Text} {place : Cursor} {found : Match}
    (h : (key name).first? place = some found) :
    ∃ value, found.value = some value ∧ value.IsValue := by
  obtain ⟨n, -, hmatch, -⟩ := first?_eq_some_iff.mp h
  obtain ⟨-, gap, q, body, q', more, -, -, -, hne, hbody, -, rfl⟩ := match?_key.mp hmatch
  exact ⟨body, rfl, .of_not_isValueQuote hne hbody⟩

theorem Pattern.isValue_of_firstValue? {name text value : Text}
    (h : (key name).firstValue? text = some value) :
    value.IsValue := by
  obtain ⟨found, hfound, hvalue⟩ := Option.bind_eq_some_iff.mp h
  obtain ⟨value', hvalue', hok⟩ := exists_value_of_first? hfound
  rw [hvalue] at hvalue'
  obtain rfl := Option.some.inj hvalue'
  exact hok

/-- A name and its type, written out. -/
theorem nameAndType?_eq_some_iff {text name type : Text} :
    nameAndType? text = some (name, type)
      ↔ ∃ first second, namePattern.first? (Cursor.ofText text) = some first
          ∧ first.value = some name
          ∧ (typePattern.first? first.stop).or (typePattern.first? (Cursor.ofText text))
            = some second
          ∧ second.value = some type := by
  simp only [nameAndType?, Option.bind_eq_bind, Option.bind_eq_some_iff,
    Option.pure_def, Option.some.injEq, Prod.mk.injEq]
  constructor
  · rintro ⟨first, hfirst, second, hsecond, _, hname, _, htype, rfl, rfl⟩
    exact ⟨first, second, hfirst, hname, hsecond, htype⟩
  · rintro ⟨first, second, hfirst, hname, hsecond, htype⟩
    exact ⟨first, hfirst, second, hsecond, name, hname, type, htype, rfl, rfl⟩

theorem isValue_of_nameAndType? {text name type : Text}
    (h : nameAndType? text = some (name, type)) :
    name.IsValue ∧ type.IsValue := by
  obtain ⟨first, second, hfirst, hname, hsecond, htype⟩ := nameAndType?_eq_some_iff.mp h
  have hkey : ∃ place, typePattern.first? place = some second := by
    rcases Option.or_eq_some_iff.mp hsecond with h | ⟨-, h⟩
    · exact ⟨_, h⟩
    · exact ⟨_, h⟩
  obtain ⟨place, hplace⟩ := hkey
  obtain ⟨_, hname', hokname⟩ := Pattern.exists_value_of_first? hfirst
  obtain ⟨_, htype', hoktype⟩ := Pattern.exists_value_of_first? hplace
  rw [hname] at hname'
  rw [htype] at htype'
  obtain rfl := Option.some.inj hname'
  obtain rfl := Option.some.inj htype'
  exact ⟨hokname, hoktype⟩

/-! ### Declarations

Each reader is written out as what its result says of the block.  From here on the readers are not
opened again.
-/

theorem declaredSubField?_eq_some_iff {item : Text} {sub : SubField} :
    declaredSubField? item = some sub
      ↔ nameAndType? (directText item) = some (sub.name, sub.type)
          ∧ sub.validation = mentionsValidation item := by
  simp only [declaredSubField?, Option.bind_eq_bind, Option.bind_eq_some_iff,
    Option.pure_def, Option.some.injEq, Prod.exists]
  constructor
  · rintro ⟨name, type, h, rfl⟩
    exact ⟨h, rfl⟩
  · rintro ⟨h, hvalidation⟩
    refine ⟨_, _, h, ?_⟩
    rw [← hvalidation]

theorem declaredSubFields?_eq_some_iff {image : Text} {subs : List SubField} :
    declaredSubFields? image = some subs
      ↔ ∃ body, fieldsPattern.section? image = some body
          ∧ (objects body).filterMap declaredSubField? = subs ∧ subs ≠ [] := by
  simp only [declaredSubFields?, Option.bind_eq_bind, Option.bind_eq_some_iff]
  refine exists_congr fun body => and_congr_right fun _ => ?_
  cases (objects body).filterMap declaredSubField? with
  | nil => simp [eq_comm]
  | cons sub subs' =>
    simp only [Option.some.injEq]
    constructor
    · rintro rfl
      exact ⟨rfl, List.cons_ne_nil _ _⟩
    · intro h
      exact h.1

theorem declaredNestedField?_eq_some_iff {item : Text} {nested : NestedField} :
    declaredNestedField? item = some nested
      ↔ nameAndType? (directText item) = some (nested.name, nested.type)
          ∧ nested.validation = mentionsValidation item
          ∧ nested.subFields
            = if nested.type == "image".toList then declaredSubFields? item else none := by
  simp only [declaredNestedField?, Option.bind_eq_bind, Option.bind_eq_some_iff, Option.pure_def,
    Option.some.injEq, Prod.exists]
  constructor
  · rintro ⟨name, type, h, rfl⟩
    exact ⟨h, rfl, rfl⟩
  · rintro ⟨h, hvalidation, hsubs⟩
    refine ⟨_, _, h, ?_⟩
    rw [← hvalidation, ← hsubs]

theorem declaredField?_eq_some_iff {block : Text} {field : Field} :
    declaredField? block = some field
      ↔ nameAndType? (directText block) = some (field.name, field.type)
          ∧ field.title = titlePattern.firstValue? (directText block)
          ∧ field.validation = mentionsValidation block
          ∧ field.of = none ∧ field.nestedFields = none := by
  simp only [declaredField?, Option.bind_eq_bind, Option.bind_eq_some_iff, Option.pure_def,
    Option.some.injEq, Prod.exists]
  constructor
  · rintro ⟨name, type, h, rfl⟩
    exact ⟨h, rfl, rfl, rfl, rfl⟩
  · rintro ⟨h, htitle, hvalidation, hof, hnested⟩
    refine ⟨_, _, h, ?_⟩
    cases field
    simp_all

theorem declaredName?_of_declaredField? {block : Text} {field : Field}
    (h : declaredField? block = some field) :
    declaredName? block = some field.name := by
  obtain ⟨hnamed, -⟩ := declaredField?_eq_some_iff.mp h
  obtain ⟨first, _, hfirst, hname, -⟩ := nameAndType?_eq_some_iff.mp hnamed
  rw [declaredName?, Pattern.firstValue?, hfirst, Option.bind_some, hname]

/-! ### Validation rules

A rule is looked for in all of a text, and what is cut out of a text stands in it.  So a rule goes
up from an object to whatever it stands in.
-/

theorem Text.occursIn_iff {needle text : Text} :
    occursIn needle text = true ↔ needle <:+: text := by
  induction text with
  | nil => simp [occursIn, List.isEmpty_iff]
  | cons c rest ih =>
    rw [occursIn, Bool.or_eq_true, ih, List.isPrefixOf_iff_prefix, List.infix_cons_iff]

theorem mentionsValidation_iff {block : Text} :
    mentionsValidation block = true ↔ "validation:".toList <:+: block :=
  Text.occursIn_iff

theorem Text.slice_infix (text : Text) (start stop : Nat) : text.slice start stop <:+: text :=
  (List.take_prefix _ _).isInfix.trans (List.drop_suffix _ _).isInfix

/-- What an object in a list of fields mentions, the text around the list mentions. -/
theorem mentionsValidation_of_object {text body item : Text}
    (hbody : fieldsPattern.section? text = some body) (hitem : item ∈ objects body)
    (h : mentionsValidation item = true) : mentionsValidation text = true := by
  obtain ⟨_, -, rfl⟩ := Pattern.exists_opener_of_section? (List.all_eq_true.mp (by decide)) hbody
  obtain ⟨_, -, rfl⟩ := exists_opener_of_mem_objects hitem
  rw [mentionsValidation_iff] at h ⊢
  exact (h.trans (Text.slice_infix _ _ _)).trans (Text.slice_infix _ _ _)

/-! ### Nested fields -/

/-- The nested fields that are kept have names of their own, and none that is taken. -/
theorem keepFirstNames_spec (seen : List Text) (nested : List NestedField) :
    (keepFirstNames seen nested).1.Sublist nested
      ∧ ((keepFirstNames seen nested).1.map (·.name)).Nodup
      ∧ ∀ kept ∈ (keepFirstNames seen nested).1, kept.name ∉ seen := by
  induction nested generalizing seen with
  | nil => simp [keepFirstNames]
  | cons first rest ih =>
    rw [keepFirstNames]
    split
    · obtain ⟨hsub, hnodup, hseen⟩ := ih seen
      exact ⟨hsub.cons first, hnodup, hseen⟩
    · rename_i hfresh
      obtain ⟨hsub, hnodup, hseen⟩ := ih (first.name :: seen)
      refine ⟨hsub.cons_cons first, List.nodup_cons.mpr ⟨?_, hnodup⟩, ?_⟩
      · intro hmem
        obtain ⟨kept, hkept, hname⟩ := List.mem_map.mp hmem
        exact hseen kept hkept (hname ▸ List.mem_cons_self)
      · intro kept hkept
        rcases List.mem_cons.mp hkept with rfl | hkept
        · simpa using hfresh
        · intro hmem
          exact hseen kept hkept (List.mem_cons_of_mem _ hmem)

/-- Nested fields with names of their own, none of them taken, are all kept. -/
theorem keepFirstNames_of_nodup {seen : List Text} {nested : List NestedField}
    (hnodup : (nested.map (·.name)).Nodup) (hseen : ∀ item ∈ nested, item.name ∉ seen) :
    keepFirstNames seen nested = (nested, []) := by
  induction nested generalizing seen with
  | nil => rfl
  | cons first rest ih =>
    obtain ⟨hfirst, hrest⟩ := List.nodup_cons.mp hnodup
    have hfresh : ¬ seen.contains first.name = true := by simpa using hseen first (by simp)
    have hlater : ∀ item ∈ rest, item.name ∉ first.name :: seen := by
      intro item hitem htaken
      rcases List.mem_cons.mp htaken with heq | htaken
      · exact hfirst (List.mem_map.mpr ⟨item, hitem, heq⟩)
      · exact hseen item (by simp [hitem]) htaken
    rw [keepFirstNames, if_neg hfresh, ih hrest hlater]

/-- What an array is completed to: itself, or itself with the nested fields that objects declare. -/
theorem complete_cases (blocks : NamedBlocks) (field : Field) :
    (field.complete blocks).1 = field
    ∨ field.isArray = true ∧ ∃ body kept, kept ≠ []
        ∧ kept = (keepFirstNames [] ((objects body).filterMap declaredNestedField?)).1
        ∧ (field.complete blocks).1
          = { field with of := some "object".toList, nestedFields := some kept } := by
  rw [Field.complete]
  split
  · rename_i harray
    split
    · rename_i body hbody
      rw [Field.withMembers]
      split
      · exact Or.inl rfl
      · rename_i kept dropped hne hkeep
        exact Or.inr ⟨harray, body, kept, hne, by rw [hkeep], rfl⟩
    · exact Or.inl rfl
  · exact Or.inl rfl

theorem complete_name (blocks : NamedBlocks) (field : Field) :
    (field.complete blocks).1.name = field.name := by
  rcases complete_cases blocks field with hsame | ⟨-, _, _, -, -, hwith⟩
  · rw [hsame]
  · rw [hwith]

/-- The fields of a schema are the declared ones, each completed. -/
theorem fields_ofSource (source : Text) :
    (Schema.ofSource source).fields
      = ((fieldPattern.blocks source).filterMap declaredField?).map fun field =>
          (field.complete (NamedBlocks.ofBlocks (fieldPattern.blocks source))).1 := by
  show (readFields source).map (·.1) = _
  rw [readFields, List.map_map]
  rfl

/-- A block that declares a field brings one of that name, type and title into the schema. -/
theorem exists_mem_fields_of_declaredField? {source block : Text} {field : Field}
    (hblock : block ∈ fieldPattern.blocks source) (h : declaredField? block = some field) :
    ∃ complete ∈ (Schema.ofSource source).fields, complete.name = field.name
      ∧ complete.type = field.type ∧ complete.title = field.title := by
  rw [fields_ofSource]
  refine ⟨_, List.mem_map_of_mem (List.mem_filterMap.mpr ⟨block, hblock, h⟩), ?_⟩
  rcases complete_cases (NamedBlocks.ofBlocks (fieldPattern.blocks source)) field with
    hsame | ⟨-, _, _, -, -, hwith⟩
  · rw [hsame]
    exact ⟨rfl, rfl, rfl⟩
  · rw [hwith]
    exact ⟨rfl, rfl, rfl⟩

end GroqSnippets

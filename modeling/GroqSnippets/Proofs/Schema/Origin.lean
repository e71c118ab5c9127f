/-
Where nested fields come from.

The nested fields of an array are read in three steps: a block by the name of the array, the list
behind `of` in it, and the list behind `fields` in that.  Each list is the first one that is found,
in whatever brackets it stands, and nothing ties the field list to the member of type `object` which
has to be somewhere in the same list.

The lists belong together where they stand first.  If no list of the same key within something else
comes before the block's own, it is the block's own that is taken.  If field lists stand in members
only, the first member with a field list provides it, whatever its type.  So the nested fields come
from an object's own list exactly as far as the first member with a list is an object.
-/
import GroqSnippets.Proofs.Schema.Duplicates
import GroqSnippets.Proofs.Schema.Lookup
import GroqSnippets.Proofs.Schema.WellFormed
import GroqSnippets.Proofs.Source.Members

namespace GroqSnippets

/-! ### Lists that stand first

The first list in a text is not always the list that is meant: it may belong to a member that stands
further up.  Whether it does can be told from the order of the members.
-/

def declaredType? (object : Text) : Option Text :=
  typePattern.firstValue? (directText object)

/-- The field lists of their own that the objects in a block's own lists have. -/
def objectLists (block : Text) : List Text :=
  (ofPattern.ownLists block).flatMap fun members =>
    ((objects members).filter fun member => declaredType? member == some "object".toList).flatMap
      fieldsPattern.ownLists

/-- Whether there is a field list anywhere in an object. -/
def hasFieldList (object : Text) : Bool :=
  (fieldsPattern.section? object).isSome

/-- Whether the first field list in a list of members is an object's own. -/
def ObjectFirst (members : Text) : Prop :=
  fieldsPattern.KeepsInside members
    ∧ ∀ member ∈ (objects members).find? hasFieldList,
        declaredType? member = some "object".toList ∧ fieldsPattern.OwnFirst member

instance (members : Text) : Decidable (ObjectFirst members) :=
  decidable_of_iff (fieldsPattern.KeepsInside members
      ∧ ((objects members).find? hasFieldList).all fun member =>
          declaredType? member == some "object".toList && decide (fieldsPattern.OwnFirst member))
    (by simp only [Option.all_eq_true, Bool.and_eq_true, beq_iff_eq, decide_eq_true_eq, ObjectFirst,
          Option.mem_def])

theorem mem_objectLists_iff {block body : Text} :
    body ∈ objectLists block
      ↔ ∃ members ∈ ofPattern.ownLists block, ∃ member ∈ objects members,
          declaredType? member = some "object".toList ∧ body ∈ fieldsPattern.ownLists member := by
  simp only [objectLists, List.mem_flatMap, List.mem_filter, beq_iff_eq, and_assoc]

/-- The field list of the members is that of the first member with one. -/
theorem exists_member_of_section? {members body : Text} (hkeeps : fieldsPattern.KeepsInside members)
    (h : fieldsPattern.section? members = some body) :
    ∃ member ∈ objects members, (objects members).find? hasFieldList = some member
      ∧ fieldsPattern.section? member = some body
      ∧ (fieldsPattern.OwnFirst member → body ∈ fieldsPattern.ownLists member) := by
  have hfirst : fieldsPattern.section? members
      = (objects members).findSome? fieldsPattern.section? :=
    Pattern.section?_eq_findSome?_objects rfl (by decide) (by decide)
      (List.all_eq_true.mp (by decide)) hkeeps
  rw [hfirst] at h
  obtain ⟨before, member, after, hmembers, hbody, hnone⟩ := List.findSome?_eq_some_iff.mp h
  have hmember : member ∈ objects members := by simp [hmembers]
  refine ⟨member, hmember, ?_, hbody, ?_⟩
  · rw [List.find?_eq_some_iff_append]
    refine ⟨by rw [hasFieldList, hbody, Option.isSome_some], before, after, hmembers, ?_⟩
    intro earlier hearlier
    rw [hasFieldList, hnone earlier hearlier]
    rfl
  · intro hown
    exact Pattern.mem_ownLists_of_section? (isBlock_of_mem_objects hmember) hown hbody

/-! ### The three steps -/

/-- Whether the nested fields of an array are read from a block, a list of members in it and a field
list in that. -/
structure ReadFrom (source : Text) (array : Text) (kept : List NestedField)
    (block members body : Text) : Prop where
  block_eq : (fieldPattern.blocks source).find? (declaresName array) = some block
  members_eq : ofPattern.section? block = some members
  /-- There is an object among the members, or within one of them. -/
  object_found : (objectPattern.firstInCode? (Cursor.ofText members)).isSome = true
  body_eq : fieldsPattern.section? members = some body
  kept_eq : kept = firstsOf ((objects body).filterMap declaredNestedField?)

theorem memberFields?_eq_some_iff {block body : Text} :
    memberFields? block = some body
      ↔ ∃ members, ofPattern.section? block = some members
          ∧ (objectPattern.firstInCode? (Cursor.ofText members)).isSome = true
          ∧ fieldsPattern.section? members = some body := by
  simp only [memberFields?, Option.bind_eq_bind, Option.bind_eq_some_iff, Option.isSome_iff_exists,
    exists_and_right]

/-- Nested fields have been read in three steps. -/
theorem exists_readFrom {source : Text} {field : Field} {kept : List NestedField}
    (hfield : field ∈ (Schema.ofSource source).fields) (hkept : field.nestedFields = some kept) :
    ∃ block members body, ReadFrom source field.name kept block members body := by
  rw [fields_ofSource] at hfield
  obtain ⟨declared, hdeclared, rfl⟩ := List.mem_map.mp hfield
  obtain ⟨own, -, hown⟩ := List.mem_filterMap.mp hdeclared
  obtain ⟨-, -, -, -, hnone⟩ := declaredField?_eq_some_iff.mp hown
  rw [(Field.complete_spec hnone _).1, Field.listItems] at hkept
  rw [complete_name]
  split at hkept
  · split at hkept
    · rename_i body hbody
      obtain ⟨block, hblock, hmembers⟩ := Option.bind_eq_some_iff.mp hbody
      obtain ⟨members, hof, hobject, hfields⟩ := memberFields?_eq_some_iff.mp hmembers
      obtain ⟨hfirsts, -⟩ := nonEmpty?_eq_some_iff.mp hkept
      rw [NamedBlocks.find?_ofBlocks] at hblock
      exact ⟨block, members, body, hblock, hof, hobject, hfields, hfirsts.symm⟩
    · cases hkept
  · cases hkept

/-- The attributes of an image come from the first field list in its own braces. -/
theorem exists_image_of_subFields {body : Text} {nested : NestedField} {subs : List SubField}
    (h : nested ∈ firstsOf ((objects body).filterMap declaredNestedField?))
    (hsubs : nested.subFields = some subs) :
    ∃ image ∈ objects body, ∃ list, declaredNestedField? image = some nested
      ∧ nested.type = "image".toList
      ∧ fieldsPattern.section? image = some list
      ∧ subs = (objects list).filterMap declaredSubField?
      ∧ (fieldsPattern.OwnFirst image → list ∈ fieldsPattern.ownLists image) := by
  obtain ⟨image, himage, hdeclared⟩ := List.mem_filterMap.mp (firstsOf_subset _ h)
  obtain ⟨-, -, hlist⟩ := declaredNestedField?_eq_some_iff.mp hdeclared
  rw [hsubs] at hlist
  split at hlist
  · rename_i htype
    obtain ⟨list, hsection, hitems, -⟩ := declaredSubFields?_eq_some_iff.mp hlist.symm
    refine ⟨image, himage, list, hdeclared, beq_iff_eq.mp htype, hsection, hitems.symm, ?_⟩
    intro hown
    exact Pattern.mem_ownLists_of_section? (isBlock_of_mem_objects himage) hown hsection
  · cases hlist

/-- **Nested fields come from the lists that stand first.**  They are read from the first list of the
block and the first field list in it.  The first is the block's own if no other comes before it; the
second is that of the first member with one if none begins between the members.  If both hold and that
member is an object with its own list first, the nested fields come from an object's own list.  The
attributes of an image come from the first field list in it, its own if no other comes before it. -/
theorem exists_lists_of_nestedFields {source : Text} {field : Field} {kept : List NestedField}
    (hfield : field ∈ (Schema.ofSource source).fields) (hkept : field.nestedFields = some kept) :
    ∃ block members body, ReadFrom source field.name kept block members body
      ∧ (ofPattern.OwnFirst block → members ∈ ofPattern.ownLists block)
      ∧ (fieldsPattern.KeepsInside members → ∃ member ∈ objects members,
          (objects members).find? hasFieldList = some member
            ∧ fieldsPattern.section? member = some body
            ∧ (fieldsPattern.OwnFirst member → body ∈ fieldsPattern.ownLists member))
      ∧ (ofPattern.OwnFirst block → ObjectFirst members → body ∈ objectLists block)
      ∧ ∀ nested ∈ kept, ∀ subs, nested.subFields = some subs →
          ∃ image ∈ objects body, ∃ list, declaredNestedField? image = some nested
            ∧ nested.type = "image".toList
            ∧ fieldsPattern.section? image = some list
            ∧ subs = (objects list).filterMap declaredSubField?
            ∧ (fieldsPattern.OwnFirst image → list ∈ fieldsPattern.ownLists image) := by
  obtain ⟨block, members, body, hread⟩ := exists_readFrom hfield hkept
  have hblock : IsBlock block :=
    (Pattern.isBlock_of_mem_blocksFrom (by decide : IsCallName "defineField".toList)
      (List.mem_of_find?_eq_some hread.block_eq)).1
  refine ⟨block, members, body, hread, ?_, ?_, ?_, ?_⟩
  · intro hown
    exact Pattern.mem_ownLists_of_section? hblock hown hread.members_eq
  · intro hkeeps
    exact exists_member_of_section? hkeeps hread.body_eq
  · rintro hown ⟨hkeeps, hobject⟩
    obtain ⟨member, hmember, hfirst, -, hlist⟩ := exists_member_of_section? hkeeps hread.body_eq
    obtain ⟨htype, hinside⟩ := hobject member hfirst
    exact mem_objectLists_iff.mpr
      ⟨members, Pattern.mem_ownLists_of_section? hblock hown hread.members_eq, member, hmember, htype,
        hlist hinside⟩
  · intro nested hnested subs hsubs
    exact exists_image_of_subFields (hread.kept_eq ▸ hnested) hsubs

def objectMember : Text :=
  (r#"{type:"object",fields:[{name:"b",type:"image",fields:[{name:"c",type:"d"}]}]}"#).toList

def imageMember : Text :=
  (r#"{type:"image",fields:[{name:"alt",type:"d"}]}"#).toList

/-- The declaration of an array of two members. -/
def arrayOf (first second : Text) : Text :=
  "defineField(".toList ++ '{' :: (r#"name:"a",type:"array",of:["#).toList ++ first ++ ',' :: second
    ++ [']', '}', ')']

def imageField : NestedField :=
  { name := "b".toList, type := "image".toList, validation := false
    subFields := some [⟨"c".toList, "d".toList, false⟩] }

def imageArray : Field :=
  { name := "a".toList, type := "array".toList, title := none, validation := false
    of := some "object".toList, nestedFields := some [imageField] }

/-- With the object in front of the image, the nested fields are the object's own. -/
theorem exists_lists_of_nestedFields_arrayOf :
    let source := arrayOf objectMember imageMember
    imageArray ∈ (Schema.ofSource source).fields ∧ imageArray.nestedFields = some [imageField]
      ∧ ∃ block members body, ReadFrom source "a".toList [imageField] block members body
        ∧ members ∈ ofPattern.ownLists block ∧ body ∈ objectLists block := by
  have hfield : imageArray ∈ (Schema.ofSource (arrayOf objectMember imageMember)).fields := by
    decide +kernel
  have hfits : ∀ block ∈ fieldPattern.blocks (arrayOf objectMember imageMember),
      ofPattern.OwnFirst block ∧ ∀ members ∈ ofPattern.section? block, ObjectFirst members := by
    decide +kernel
  obtain ⟨block, members, body, hread, hof, -, hobject, -⟩ :=
    exists_lists_of_nestedFields hfield rfl
  obtain ⟨hown, hfirst⟩ := hfits block (List.mem_of_find?_eq_some hread.block_eq)
  exact ⟨hfield, rfl, block, members, body, hread, hof hown,
    hobject hown (hfirst members hread.members_eq)⟩

/-- With the image in front of the object, the attribute of the image becomes the nested field, though
no own list of an object declares it. -/
theorem nestedFields_ne_of_ownLists :
    let source := arrayOf imageMember objectMember
    ∃ nested, { imageArray with nestedFields := some [nested] } ∈ (Schema.ofSource source).fields
      ∧ ∀ block ∈ fieldPattern.blocks source, ∀ body ∈ objectLists block,
          nested ∉ (objects body).filterMap declaredNestedField? := by
  refine ⟨⟨"alt".toList, "d".toList, false, none⟩, ?_, ?_⟩
  all_goals decide +kernel

end GroqSnippets

/-
What follows a declaration does not change it.

A field is read from its own block, and an array is looked at again in the first block that declares
its name.  That block is the array's own or one before it, so neither reading looks at what follows.
A source that is cut off where a block ends has the same blocks up to there, and therefore the same
fields, each completed the same way, and the same notes about them.

The lookup by name is the one place where this could fail: had it picked the last block of a name,
a later declaration would reach back into an earlier array.
-/
import GroqSnippets.Proofs.Schema.Reading

namespace GroqSnippets

/-! ### The lookup by name

A block behind others cannot take a name away from them, since the first block of a name is the one
that counts.
-/

/-- The name of a field that one of the blocks declares is found among them. -/
theorem NamedBlocks.exists_find? {blocks : List Text} {field : Field}
    (h : field ∈ blocks.filterMap declaredField?) :
    ∃ block, (NamedBlocks.ofBlocks blocks).find? field.name = some block := by
  obtain ⟨block, hmem, hfield⟩ := List.mem_filterMap.mp h
  refine Option.isSome_iff_exists.mp (List.lookup_isSome_iff.mpr ⟨(some field.name, block),
    ?_, beq_self_eq_true _⟩)
  rw [← declaredName?_of_declaredField? hfield]
  exact List.mem_map_of_mem hmem

/-- A field that the first blocks declare is completed the same way when more blocks follow. -/
theorem Field.complete_append {before after : List Text} {field : Field}
    (h : field ∈ before.filterMap declaredField?) :
    field.complete (NamedBlocks.ofBlocks (before ++ after))
      = field.complete (NamedBlocks.ofBlocks before) := by
  obtain ⟨block, hblock⟩ := NamedBlocks.exists_find? h
  have hprefix : NamedBlocks.ofBlocks before <+: NamedBlocks.ofBlocks (before ++ after) :=
    (List.prefix_append before after).map _
  have hmore : (NamedBlocks.ofBlocks (before ++ after)).find? field.name = some block :=
    hprefix.lookup_eq_some hblock
  rw [Field.complete, Field.complete, hmore, hblock]

/-! ### The fields of a source -/

/-- The fields that blocks declare, each completed with the blocks and with what was noticed about
it. -/
def fieldsOfBlocks (named : NamedBlocks) (blocks : List Text) : List (Field × List Note) :=
  (blocks.filterMap declaredField?).map fun field =>
    ((field.complete named).1, .foundField field.name field.type :: (field.complete named).2)

theorem readFields_eq (source : Text) :
    readFields source
      = fieldsOfBlocks (NamedBlocks.ofBlocks (fieldPattern.blocks source))
        (fieldPattern.blocks source) := rfl

/-- The first blocks give the first fields. -/
theorem fieldsOfBlocks_append (before after : List Text) :
    fieldsOfBlocks (NamedBlocks.ofBlocks (before ++ after)) (before ++ after)
      = fieldsOfBlocks (NamedBlocks.ofBlocks before) before
        ++ fieldsOfBlocks (NamedBlocks.ofBlocks (before ++ after)) after := by
  unfold fieldsOfBlocks
  rw [List.filterMap_append, List.map_append]
  congr 1
  refine List.map_congr_left ?_
  intro field hfield
  rw [Field.complete_append hfield]

/-- The fields of a source that is cut off where a block ends. -/
theorem readFields_take {source : Text} {front back : List (Nat × Nat)} {span : Nat × Nat}
    (h : fieldPattern.blockSpans source = front ++ span :: back) :
    readFields (source.take span.2)
      = (readFields source).take (((fieldPattern.blocks source).take (front.length + 1)).filterMap
        declaredField?).length := by
  have hblocks : fieldPattern.blocks (source.take span.2)
      = (fieldPattern.blocks source).take (front.length + 1) :=
    Pattern.blocks_take h
  have hsplit := fieldsOfBlocks_append ((fieldPattern.blocks source).take (front.length + 1))
    ((fieldPattern.blocks source).drop (front.length + 1))
  rw [List.take_append_drop, ← readFields_eq] at hsplit
  rw [readFields_eq, hblocks, hsplit, List.take_left' (by simp [fieldsOfBlocks])]

/-- **What follows a declaration does not change it.**  A source that is cut off where one of its
blocks ends has the fields that the blocks up to there declare, as the whole source has them, and no
warning that the whole source does not begin with. -/
theorem ofSource_take {source : Text} {front back : List (Nat × Nat)} {span : Nat × Nat}
    (h : fieldPattern.blockSpans source = front ++ span :: back) :
    let read := (fieldPattern.blocks source).take (front.length + 1)
    (fieldPattern.blocks source)[front.length]? = some (source.slice span.1 span.2)
    ∧ (Schema.ofSource (source.take span.2)).fields
        = (Schema.ofSource source).fields.take (read.filterMap declaredField?).length
    ∧ (Schema.ofSource (source.take span.2)).warnings <+: (Schema.ofSource source).warnings := by
  refine ⟨Pattern.getElem?_blocks h, ?_, ?_⟩
  · simp only [Schema.ofSource, Reading.ofSource]
    rw [readFields_take h, List.map_take]
  · simp only [Schema.ofSource, Reading.ofSource]
    rw [readFields_take h]
    obtain ⟨rest, hrest⟩ := List.take_prefix
      (((fieldPattern.blocks source).take (front.length + 1)).filterMap declaredField?).length
      (readFields source)
    have hnotes := congrArg (List.flatMap Prod.snd) hrest
    rw [List.flatMap_append] at hnotes
    exact List.IsPrefix.filterMap _ ⟨_, hnotes⟩

def twoFields : Text :=
  (r#"defineField({name:"a",type:"b"}) defineField("#).toList ++ '{' :: " name: \"c\", type: \"d".toList

theorem ofSource_take_twoFields :
    fieldPattern.blockSpans twoFields = [] ++ (0, 31) :: [(33, 66)]
    ∧ (Schema.ofSource (twoFields.take 31)).fields = (Schema.ofSource twoFields).fields.take 1 := by
  have h : fieldPattern.blockSpans twoFields = [] ++ (0, 31) :: [(33, 66)] := by decide +kernel
  refine ⟨h, ?_⟩
  have hcount : (((fieldPattern.blocks twoFields).take 1).filterMap declaredField?).length = 1 := by
    decide +kernel
  have hfields := (ofSource_take h).2.1
  rwa [List.length_nil, Nat.zero_add, hcount] at hfields

end GroqSnippets

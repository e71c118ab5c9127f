/-
From which block an array field is completed.

The blocks of a source are read once for the fields and looked at again for the arrays among them.
The second look goes by name alone: it takes the first block that declares the name of the array,
whether or not that block gave a field, and whatever type it declares.

A block that declares a field also declares its name, so the look never fails, and it cannot go
beyond the array's own block.  It goes wrong exactly to the front.  Where an earlier block declares
the same name, the array takes its nested fields from there; where none does, the array is completed
from its own declaration.
-/
import GroqSnippets.Proofs.Schema.Reading

namespace GroqSnippets

/-! ### The first block of a name

Blocks are searched by the name that stands directly in them, whether or not they have a type, so a
block that gives no field may be the one that is found.
-/

/-- Whether a block declares a name. -/
def declaresName (name block : Text) : Bool :=
  declaredName? block == some name

theorem declaresName_of_declaredField? {block : Text} {field : Field}
    (h : declaredField? block = some field) : declaresName field.name block = true := by
  rw [declaresName, declaredName?_of_declaredField? h]
  exact beq_self_eq_true _

theorem NamedBlocks.find?_ofBlocks (blocks : List Text) (name : Text) :
    (NamedBlocks.ofBlocks blocks).find? name = blocks.find? (declaresName name) := by
  induction blocks with
  | nil => rfl
  | cons block blocks ih =>
    have hrest : List.lookup (some name) (NamedBlocks.ofBlocks blocks)
        = blocks.find? (declaresName name) := ih
    show List.lookup (some name) ((declaredName? block, block) :: NamedBlocks.ofBlocks blocks) = _
    rw [List.lookup_cons, List.find?_cons, hrest, BEq.comm]
    rfl

/-! ### Completing from a given block -/

/-- A field with the nested fields that one block describes, and what was noticed. -/
def Field.completeFrom (block : Text) (field : Field) : Field × List Note :=
  if field.isArray then
    match memberFields? block with
    | some body => field.withMembers body
    | none => (field, [])
  else (field, [])

/-- A field is completed from the block that is found by its name. -/
theorem Field.complete_eq_completeFrom {blocks : List Text} {field : Field} {block : Text}
    (h : blocks.find? (declaresName field.name) = some block) :
    field.complete (NamedBlocks.ofBlocks blocks) = field.completeFrom block := by
  rw [Field.complete, NamedBlocks.find?_ofBlocks, h, Field.completeFrom]
  rfl

/-- The look by name ends at the block itself, or at one before it. -/
theorem find?_declaresName_append {before after : List Text} {block : Text} {field : Field}
    (h : declaredField? block = some field) :
    (before ++ block :: after).find? (declaresName field.name)
      = (before ++ [block]).find? (declaresName field.name) := by
  have hown := declaresName_of_declaredField? h
  rw [List.find?_append, List.find?_append, List.find?_cons_of_pos hown, List.find?_cons_of_pos hown]

/-- A field that the blocks declare, with the blocks around the one that declares it. -/
theorem exists_block_of_getElem?_declared {blocks : List Text} {i : Nat} {field : Field}
    (h : (blocks.filterMap declaredField?)[i]? = some field) :
    ∃ before block after, blocks = before ++ block :: after
      ∧ (before.filterMap declaredField?).length = i ∧ declaredField? block = some field := by
  obtain ⟨hi, hfield⟩ := List.getElem?_eq_some_iff.mp h
  have hsplit : blocks.filterMap declaredField?
      = (blocks.filterMap declaredField?).take i
        ++ field :: (blocks.filterMap declaredField?).drop (i + 1) := by
    rw [← hfield, ← List.drop_eq_getElem_cons hi, List.take_append_drop]
  obtain ⟨front, back, hblocks, hfront, hback⟩ := List.filterMap_eq_append_iff.mp hsplit
  obtain ⟨passed, block, after, hcut, hpassed, hdeclared, -⟩ := List.filterMap_eq_cons_iff.mp hback
  refine ⟨front ++ passed, block, after, by rw [hblocks, hcut, List.append_assoc], ?_, hdeclared⟩
  -- The blocks between the field before and this one declare nothing.
  rw [List.filterMap_append, hfront, List.filterMap_eq_nil_iff.mpr hpassed, List.append_nil,
    List.length_take]
  omega

/-- **An array field is completed from the first block that declares its name.**  That is the very
block which gave the field, unless a block before it declares the same name: then it is the first of
those, whatever type it declares and even if it gave no field itself. -/
theorem ofSource_fields_of_block {source : Text} {i : Nat} {field : Field}
    (h : (Schema.ofSource source).fields[i]? = some field) :
    ∃ before block after declared first,
      fieldPattern.blocks source = before ++ block :: after
      ∧ (before.filterMap declaredField?).length = i
      ∧ declaredField? block = some declared
      ∧ (before ++ [block]).find? (declaresName declared.name) = some first
      ∧ field = (declared.completeFrom first).1
      ∧ ((∀ earlier ∈ before, declaredName? earlier ≠ some declared.name) → first = block) := by
  rw [fields_ofSource, List.getElem?_map, Option.map_eq_some_iff] at h
  obtain ⟨declared, hget, rfl⟩ := h
  obtain ⟨before, block, after, hblocks, hlength, hdeclared⟩ := exists_block_of_getElem?_declared hget
  have hown := declaresName_of_declaredField? hdeclared
  obtain ⟨first, hfirst⟩ : ∃ first, (before ++ [block]).find? (declaresName declared.name) = some first := by
    rw [← Option.isSome_iff_exists, List.find?_isSome]
    exact ⟨block, by simp, hown⟩
  refine ⟨before, block, after, declared, first, hblocks, hlength, hdeclared, hfirst, ?_, ?_⟩
  · rw [hblocks, Field.complete_eq_completeFrom ((find?_declaresName_append hdeclared).trans hfirst)]
  · intro hnone
    have hmiss : before.find? (declaresName declared.name) = none := by
      rw [List.find?_eq_none]
      intro earlier hearlier hname
      exact hnone earlier hearlier (beq_iff_eq.mp hname)
    rw [List.find?_append, hmiss, Option.none_or, List.find?_cons_of_pos hown] at hfirst
    exact (Option.some.inj hfirst).symm

def objectList : Text :=
  (r#"defineField({name:"a",type:"array",of:[{type:"object",fields:[{name:"b",type:"c"}]}]}"#).toList

def plainList : Text :=
  (r#"defineField({name:"a",type:"array",of:[{type:"c"}]}"#).toList

def objectArray : Field :=
  { name := "a".toList, type := "array".toList, title := none, validation := false
    of := some "object".toList
    nestedFields :=
      some [⟨"b".toList, "c".toList, false, none⟩] }

/-- The second array of a source is completed from the first one. -/
theorem ofSource_fields_of_block_lists :
    (Schema.ofSource (objectList ++ plainList)).fields[1]? = some objectArray
    ∧ ∃ before block after declared first,
      fieldPattern.blocks (objectList ++ plainList) = before ++ block :: after
      ∧ (before.filterMap declaredField?).length = 1
      ∧ declaredField? block = some declared
      ∧ (before ++ [block]).find? (declaresName declared.name) = some first
      ∧ objectArray = (declared.completeFrom first).1
      ∧ ((∀ earlier ∈ before, declaredName? earlier ≠ some declared.name) → first = block) := by
  have h : (Schema.ofSource (objectList ++ plainList)).fields[1]? = some objectArray := by
    decide +kernel
  exact ⟨h, ofSource_fields_of_block h⟩

/-- Its own block would leave the second array without nested fields. -/
theorem ofSource_fields_ne_completeFrom :
    ∃ declared, fieldPattern.blocks (objectList ++ plainList) = [objectList] ++ plainList :: []
      ∧ ([objectList].filterMap declaredField?).length = 1
      ∧ declaredField? plainList = some declared ∧ declared.isArray = true
      ∧ (Schema.ofSource (objectList ++ plainList)).fields[1]?
        ≠ some (declared.completeFrom plainList).1 := by
  refine ⟨{ objectArray with of := none, nestedFields := none }, ?_, ?_, ?_, ?_, ?_⟩
  all_goals decide +kernel

end GroqSnippets

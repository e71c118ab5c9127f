/-
Reading undoes printing.

Each field of a printed schema is one block, and the block of a field tells all that was printed of
it.  Since the fields have names of their own, an array is looked at again in its own block, and its
nested fields are found there.  What comes back is the schema that was printed, up to rules: a rule
of an attribute or of a nested field is found in the declarations around it as well, so exactly the
schemas whose rules are spread already come back as they were.
-/
import GroqSnippets.Proofs.Schema.Member

namespace GroqSnippets

/-! ### Arrays -/

/-- What an array holds, set out: its list of fields can be cut out, and is read back. -/
theorem reads_members {nested : List NestedField} (hprintable : ∀ item ∈ nested, item.Printable)
    {out : List Lexeme} (hout : Laid (memberRow "object".toList nested) out) {front : Text}
    (hfront : Blanks front) :
    IsInside (nested.any (·.spread.validation)) (word front ++ out)
      ∧ (∃ found,
          objectPattern.firstInCode? (Cursor.ofText (rowText (word front ++ out))) = some found)
      ∧ ∃ body, fieldsPattern.section? (rowText (word front ++ out)) = some body
          ∧ (objects body).filterMap declaredNestedField? = nested.map NestedField.spread := by
  obtain ⟨start, back, x, hstart, hback, rfl, hx⟩ := hout.braced
  obtain ⟨typeRow, rest, rfl, htypeRow, hrest⟩ := hx.append
  obtain ⟨gapType, hgapType, rfl⟩ := htypeRow.entry (by decide)
  obtain ⟨comma, y, ends, hcomma, rfl, hy, hends⟩ := hrest.commaLed_cons
  obtain ⟨gap, space, z, hgap, hspace, rfl, hz⟩ := hy.keyedList (by decide)
  rw [hends.nil, List.append_nil, ← List.append_assoc (word start)]
  have hlists : ListsAs declaredNestedField? (nested.any (·.spread.validation))
      (nested.map NestedField.spread) (word space ++ z) := by
    refine listsAs_separated ?_ hz hspace
    intro item hitem out hout
    exact readsAs_nestedField (hprintable item hitem) hout
  have hobject : Text.IsPrintable "object".toList := by decide
  have hhead : IsInert (word start ++ entryRow "type".toList gapType "object".toList) :=
    (IsInert.blanks hstart).append (.entry (by decide) hgapType hobject)
  have hlist : IsTail _ (listRow "fields".toList gap (word space ++ z)) _ :=
    isTail_listRow (by decide) hgap hlists.isInside
  have hinside : IsInside (nested.any (·.spread.validation)) (word front ++ braced
      (word start ++ entryRow "type".toList gapType "object".toList
        ++ (word (',' :: comma) ++ listRow "fields".toList gap (word space ++ z))
        ++ word back)) := by
    have hwhole := (IsInside.of_isInert (.blanks hfront)).append
      (((IsInside.of_isInert hhead).append (.of_isTail ((isTail_comma hcomma).append hlist))).append
        (.of_isInert (.blanks hback))).braced
    simpa only [Bool.false_or, Bool.or_false] using hwhole
  refine ⟨hinside, ?_, _, ?_, hlists.filterMap_objects⟩
  · have hread : lexemes none (rowText (word front ++ braced
          (word start ++ entryRow "type".toList gapType "object".toList
            ++ (word (',' :: comma) ++ listRow "fields".toList gap (word space ++ z))
            ++ word back)))
        = word (front ++ '{' :: start) ++ (word ("type".toList ++ ':' :: gapType)
            ++ .quoted ('\'' :: ("object".toList ++ ['\'']))
              :: ((word (',' :: comma) ++ listRow "fields".toList gap (word space ++ z))
                ++ word back ++ [.code '}'])) := by
      rw [lexemes_of_steady hinside.steady]
      simp [braced, entryRow, literal]
    refine Pattern.exists_firstInCode?_keyValue hread ?_ ?_ (by decide) hgapType
    · have hbrace : Avoids "type:".toList ['{'] := Avoids.of_clears (by decide)
      exact (isMark_type.avoids_blanks hfront).append
        (hbrace.append (isMark_type.avoids_blanks hstart))
    · rw [rowText_map_code]
      exact breaks_seam (by decide) hstart front
  · rw [rowText_append, rowText_map_code]
    exact section?_listRow "fields".toList front (by decide) hcomma hgap
      hlists.isInside hinside.steady (isMark_fields.avoids_blanks hfront) hhead.passes_fields

/-! ### Fields

A field is read twice, once from its own block and once from the block that its name leads to.
Names are different, so the two are the same block.
-/

/-- A field as it is before an array is looked at again. -/
def Field.bare (field : Field) : Field :=
  { field with of := none, nestedFields := none }

/-- Whether a block is read as a field, up to the nested fields, and these are found in it. -/
structure IsBlockOf (field : Field) (block : Text) : Prop where
  declared : declaredField? block = some field.spread.bare
  members : ∀ nested, field.nestedFields = some nested →
    ∃ body, memberFields? block = some body
      ∧ (objects body).filterMap declaredNestedField? = nested.map NestedField.spread
  no_members : field.nestedFields = none → memberFields? block = none

/-- A declaration in a call is read as a field. -/
theorem Declares.declaredField? {field : Field} {inner : List Lexeme} {front : Text}
    (h : Declares field.name field.title field.type field.validation inner) (hbrace : '{' ∉ front)
    (hfront : Avoids "validation:".toList front) :
    GroqSnippets.declaredField? (front ++ rowText (braced inner)) = some field.bare :=
  declaredField?_eq_some_iff.mpr ⟨h.nameAndType front hbrace, (h.title front hbrace).symm,
    (h.mentionsValidation hfront).symm, rfl, rfl⟩

def callName : Text :=
  "defineField".toList

/-- How a call begins, up to its object. -/
def callText (name gap : Text) : Text :=
  name ++ '(' :: gap

/-- A call, set out, in which a block of a field stands. -/
def CallsFor (field : Field) (row : List Lexeme) : Prop :=
  ∃ gap inner, row = word (callText callName gap) ++ (braced inner ++ word [')']) ∧ Blanks gap
    ∧ IsInside field.spread.validation inner
    ∧ IsBlockOf field (callText callName gap ++ rowText (braced inner))

theorem brace_notMem_callText {gap : Text} (hgap : Blanks gap) : '{' ∉ callText callName gap := by
  have hword : '{' ∉ callName ++ ['('] := by decide
  have hblanks : '{' ∉ gap := by
    intro hmem
    have hblank := hgap _ hmem
    revert hblank
    decide
  rw [callText, List.append_cons, List.mem_append, not_or]
  exact ⟨hword, hblanks⟩

theorem steadyRow_callText {gap : Text} (hgap : Blanks gap) :
    SteadyRow (word (callText callName gap)) :=
  .seam (by decide) hgap

section

variable {field : Field} {head rulesOut : List Lexeme} {gap back direct : Text}

theorem isBlockOf_plain (hnone : field.nestedFields = none)
    (hhead : IsHead field.name field.title field.type head)
    (hrules : IsTail field.validation rulesOut direct) (hpasses : Passes "of:".toList rulesOut)
    (hgap : Blanks gap) (hback : Blanks back) :
    IsInside field.spread.validation (head ++ rulesOut ++ word back)
      ∧ IsBlockOf field
        (callText callName gap ++ rowText (braced (head ++ rulesOut ++ word back))) := by
  have hspread : field.spread = field :=
    Field.spread_eq_self_iff.mpr (by simp [Field.RulesSpread, hnone])
  have hdeclares := declares hhead hrules hback
  have hnorule : Avoids "validation:".toList (callText callName gap) :=
    isMark_rule.avoids_seam (by decide) hgap
  have hnolist : Avoids "of:".toList (callText callName gap) :=
    isMark_of.avoids_seam (by decide) hgap
  have hpassed : Passes "of:".toList (head ++ rulesOut ++ word back) :=
    (hhead.passes_of.append hpasses).append (isMark_of.avoids_blanks hback)
  have hsteady := (steadyRow_callText hgap).append hdeclares.toIsInside.braced.steady
  have hsection := section?_eq_none "of".toList (callText callName gap) (by decide) hsteady
    hnolist hpassed
  rw [hspread]
  refine ⟨hdeclares.toIsInside, ?_, by simp [hnone], ?_⟩
  · rw [hspread]
    exact hdeclares.declaredField? (brace_notMem_callText hgap) hnorule
  · intro _
    rw [memberFields?, ofPattern, hsection]
    rfl

theorem isBlockOf_array {nested : List NestedField} {comma space front : Text}
    {member : List Lexeme} (hnested : field.nestedFields = some nested)
    (hprintable : ∀ item ∈ nested, item.Printable)
    (hhead : IsHead field.name field.title field.type head)
    (hrules : IsTail field.validation rulesOut direct) (hpasses : Passes "of:".toList rulesOut)
    (hmember : Laid (memberRow "object".toList nested) member) (hcomma : Blanks comma)
    (hspace : Blanks space) (hfront : Blanks front) (hgap : Blanks gap) (hback : Blanks back) :
    let inner := head ++ rulesOut
      ++ (word (',' :: comma) ++ listRow "of".toList space (word front ++ member)) ++ word back
    IsInside field.spread.validation inner
      ∧ IsBlockOf field (callText callName gap ++ rowText (braced inner)) := by
  obtain ⟨hinside, ⟨found, hfound⟩, body, hbody, hobjects⟩ :=
    reads_members hprintable hmember hfront
  have hkey : "of".toList ∈ listKeys := by decide
  have hdeclares := declares_listRow hhead hrules hkey hcomma hspace hinside hback
  have hflag : (field.validation || nested.any (·.spread.validation)) = field.spread.validation := by
    simp [Field.spread, hnested]
  rw [hflag] at hdeclares
  have hnorule : Avoids "validation:".toList (callText callName gap) :=
    isMark_rule.avoids_seam (by decide) hgap
  have hnolist : Avoids "of:".toList (callText callName gap) :=
    isMark_of.avoids_seam (by decide) hgap
  have hsteady := (steadyRow_callText hgap).append hdeclares.toIsInside.braced.steady
  have hsection := section?_listRow "of".toList (callText callName gap) hkey hcomma hspace hinside
    hsteady hnolist (hhead.passes_of.append hpasses)
  refine ⟨hdeclares.toIsInside,
    Declares.declaredField? hdeclares (brace_notMem_callText hgap) hnorule, ?_, ?_⟩
  · intro same hsame
    obtain rfl := Option.some.inj (hnested.symm.trans hsame)
    refine ⟨body, ?_, hobjects⟩
    rw [memberFields?, ofPattern, hsection, Option.bind_eq_bind, Option.bind_some, hfound,
      Option.bind_eq_bind, Option.bind_some, hbody]
  · intro hnone
    rw [hnested] at hnone
    cases hnone

end

theorem callsFor {field : Field} (h : field.Printable) {out : List Lexeme}
    (hout : Laid field.row out) : CallsFor field out := by
  obtain ⟨_, closer, rfl, hcalled, hcloser⟩ := hout.append
  obtain ⟨call, _, rfl, hcall, hobject⟩ := hcalled.append
  rw [show "defineField(".toList = callName ++ ['('] by decide] at hcall
  obtain ⟨gap, hgap, rfl⟩ := hcall.seam_word (by decide) (by decide)
  obtain ⟨head, tail, back, hback, rfl, hhead, htail⟩ := hobject.declaration h.name h.type h.title
  obtain ⟨rulesOut, listOut, rfl, hrulesOut, hlistOut⟩ := htail.commaLed_append
  obtain ⟨hpasses, -, direct, hrules⟩ := isTail_rules hrulesOut
  rw [hcloser.firm (by decide) (by decide), List.append_assoc]
  cases hnested : field.nestedFields with
  | none =>
    rw [h.of_none hnested] at hlistOut
    rw [hlistOut.nil, List.append_nil]
    exact ⟨gap, _, rfl, hgap, isBlockOf_plain hnested hhead hrules hpasses hgap hback⟩
  | some nested =>
    obtain ⟨-, hof, -, -, hprintable⟩ := h.nestedFields nested hnested
    rw [hof, hnested] at hlistOut
    obtain ⟨comma, x, ends, hcomma, rfl, hx, hends⟩ := hlistOut.commaLed_cons
    obtain ⟨space, front, z, hspace, hfront, rfl, hz⟩ := hx.keyedList (by decide)
    obtain ⟨member, more, rfl, hmember, hmore⟩ := hz.append
    rw [hends.nil, hmore.nil, List.append_nil, List.append_nil, ← List.append_assoc head]
    exact ⟨gap, _, rfl, hgap, isBlockOf_array hnested hprintable hhead hrules hpasses hmember
      hcomma hspace hfront hgap hback⟩

/-- A field whose own block is found again comes back whole. -/
theorem complete_of_isBlockOf {field : Field} {block : Text}
    {blocks : NamedBlocks} (h : field.Printable) (hblock : IsBlockOf field block)
    (hfind : blocks.find? field.name = some block) :
    field.spread.bare.complete blocks = (field.spread, []) := by
  cases hnested : field.nestedFields with
  | none =>
    have hsame : field.spread.bare = field.spread := by
      simp [Field.bare, Field.spread, hnested, h.of_none hnested]
    have hmembers : (blocks.find? field.spread.name).bind memberFields? = none := by
      rw [show field.spread.name = field.name from rfl, hfind, Option.bind_some,
        hblock.no_members hnested]
    rw [hsame, Field.complete, hmembers, ite_self]
  | some nested =>
    obtain ⟨htype, hof, hne, hnodup, -⟩ := h.nestedFields nested hnested
    obtain ⟨body, hbody, hobjects⟩ := hblock.members nested hnested
    have harray : field.spread.bare.isArray = true := by
      simp [Field.isArray, Field.bare, Field.spread, htype]
    have hmembers : (blocks.find? field.spread.bare.name).bind memberFields? = some body := by
      rw [show field.spread.bare.name = field.name from rfl, hfind, Option.bind_some, hbody]
    have hnames : ((nested.map NestedField.spread).map (·.name)).Nodup := by
      rw [List.map_map]
      exact hnodup
    have hkept : keepFirstNames [] (nested.map NestedField.spread)
        = (nested.map NestedField.spread, []) :=
      keepFirstNames_of_nodup hnames fun item _ => List.not_mem_nil
    obtain ⟨first, rest, rfl⟩ := List.exists_cons_of_ne_nil hne
    rw [List.map_cons] at hobjects hkept
    rw [Field.complete, if_pos harray, hmembers]
    simp only [Field.withMembers, hobjects, hkept, List.map_nil]
    simp [Field.bare, Field.spread, hnested, hof]

/-- Each field has its own block, and finds it by its name. -/
theorem exists_find?_of_forall₂ {fields : List Field} {blocks : List Text}
    (h : List.Forall₂ IsBlockOf fields blocks) (hnodup : (fields.map (·.name)).Nodup) :
    ∀ field ∈ fields, ∃ block, (NamedBlocks.ofBlocks blocks).find? field.name = some block
      ∧ IsBlockOf field block := by
  induction h with
  | nil => simp
  | @cons first block fields blocks hfirst _ ih =>
    obtain ⟨hfresh, hrest⟩ := List.nodup_cons.mp hnodup
    have hname : declaredName? block = some first.spread.bare.name :=
      declaredName?_of_declaredField? hfirst.declared
    intro field hfield
    rcases List.mem_cons.mp hfield with rfl | hfield
    · refine ⟨block, ?_, hfirst⟩
      simp [NamedBlocks.find?, NamedBlocks.ofBlocks, hname, Field.bare, Field.spread]
    · obtain ⟨found, hfound, hblock⟩ := ih hrest field hfield
      have hne : (some field.name == declaredName? block) = false := by
        rw [hname, beq_eq_false_iff_ne]
        intro heq
        exact hfresh (List.mem_map.mpr ⟨field, hfield, Option.some.inj heq⟩)
      refine ⟨found, ?_, hblock⟩
      rwa [NamedBlocks.find?, NamedBlocks.ofBlocks, List.map_cons, List.lookup_cons, hne]

theorem filterMap_declaredField? {fields : List Field} {blocks : List Text}
    (h : List.Forall₂ IsBlockOf fields blocks) :
    blocks.filterMap declaredField? = fields.map (·.spread.bare) := by
  induction h with
  | nil => rfl
  | cons hfirst _ ih => rw [List.filterMap_cons, hfirst.declared, ih, List.map_cons]

/-- The fields of a source whose blocks belong to printed fields. -/
theorem readFields_of_forall₂ {source : Text} {fields : List Field}
    (hprintable : ∀ field ∈ fields, field.Printable) (hnodup : (fields.map (·.name)).Nodup)
    (h : List.Forall₂ IsBlockOf fields (fieldPattern.blocks source)) :
    readFields source = fields.map fun field =>
      (field.spread, [.foundField field.name field.type]) := by
  rw [readFields, filterMap_declaredField? h, List.map_map]
  refine List.map_congr_left ?_
  intro field hfield
  obtain ⟨block, hfind, hblock⟩ := exists_find?_of_forall₂ h hnodup field hfield
  simp only [Function.comp_apply, complete_of_isBlockOf (hprintable field hfield) hblock hfind]
  rfl

/-! ### Calls -/

/-- Calls, set out in a row, in which blocks of fields stand. -/
def CallsForAll (fields : List Field) (row : List Lexeme) : Prop :=
  ∃ blocks, List.Forall₂ IsBlockOf fields blocks ∧ Pattern.Strung callName blocks row

namespace CallsForAll

theorem nil {row : List Lexeme} (h : Passes "defineField(".toList row) : CallsForAll [] row :=
  ⟨[], .nil, .nil h⟩

theorem cons {field : Field} {fields : List Field} {before x more : List Lexeme}
    (hbefore : Passes "defineField(".toList before) (hx : CallsFor field x)
    (hmore : CallsForAll fields (word [')'] ++ more)) :
    CallsForAll (field :: fields) (before ++ (x ++ more)) := by
  obtain ⟨gap, inner, rfl, hgap, hinner, hblock⟩ := hx
  obtain ⟨blocks, hblocks, hstrung⟩ := hmore
  obtain ⟨_, hbalanced⟩ := hinner.balanced
  refine ⟨_, .cons hblock hblocks, ?_⟩
  rw [List.append_assoc, List.append_assoc]
  exact .cons hbefore hgap hbalanced hstrung

end CallsForAll

theorem CallsFor.steady {field : Field} {row : List Lexeme}
    (h : CallsFor field row) : SteadyRow row := by
  obtain ⟨gap, inner, rfl, hgap, hinner, -⟩ := h
  have hcloser : SteadyRow (word [')']) := .word (by decide)
  exact (steadyRow_callText hgap).append (hinner.braced.steady.append hcloser)

theorem callsForAll_commaLed {fields : List Field} (hprintable : ∀ field ∈ fields, field.Printable)
    {out : List Lexeme} (hout : Laid (commaLed (fields.map Field.row)) out)
    {before after : List Lexeme} (hbefore : Passes "defineField(".toList before)
    (hafter : Passes "defineField(".toList after) :
    SteadyRow out ∧ CallsForAll fields (before ++ (out ++ after)) := by
  induction fields generalizing out before with
  | nil =>
    rw [hout.nil]
    exact ⟨by simp [SteadyRow], .nil (hbefore.append hafter)⟩
  | cons field fields ih =>
    obtain ⟨gap, x, y, hgap, rfl, hx, hy⟩ := hout.commaLed_cons
    obtain ⟨hfield, hfields⟩ := List.forall_mem_cons.mp hprintable
    have hcall := callsFor hfield hx
    have hcloser : Passes "defineField(".toList (word [')']) := Avoids.of_clears (by decide)
    obtain ⟨hsteady, hcalls⟩ := ih hfields hy hcloser
    refine ⟨(IsInert.comma hgap).steady.append (hcall.steady.append hsteady), ?_⟩
    have hwhole := hcalls.cons (hbefore.append (IsInert.comma hgap).passes_call) hcall
    simpa only [List.append_assoc] using hwhole

/-- A list of fields, set out, is a row of calls. -/
theorem callsForAll_separated {fields : List Field} (hprintable : ∀ field ∈ fields, field.Printable)
    {out : List Lexeme} (hout : Laid (separated (fields.map Field.row)) out)
    {before after : List Lexeme} (hbefore : Passes "defineField(".toList before)
    (hafter : Passes "defineField(".toList after) :
    SteadyRow out ∧ CallsForAll fields (before ++ (out ++ after)) := by
  cases fields with
  | nil =>
    rw [hout.nil]
    exact ⟨by simp [SteadyRow], .nil (hbefore.append hafter)⟩
  | cons field fields =>
    obtain ⟨x, y, rfl, hx, hy⟩ := hout.append
    obtain ⟨hfield, hfields⟩ := List.forall_mem_cons.mp hprintable
    have hcall := callsFor hfield hx
    have hcloser : Passes "defineField(".toList (word [')']) := Avoids.of_clears (by decide)
    obtain ⟨hsteady, hcalls⟩ := callsForAll_commaLed hfields hy hcloser hafter
    refine ⟨hcall.steady.append hsteady, ?_⟩
    have hwhole := hcalls.cons hbefore hcall
    simpa only [List.append_assoc] using hwhole

/-! ### Schemas

The name of the type is the first one in the source because it stands in front of the fields.  The
rest of what stands there begins no call of a field.
-/

def typeCallName : Text :=
  "defineType".toList

/-- The name of a schema is the first one in its source. -/
theorem IsHead.firstValue?_name {name type : Text} {title : Option Text} {head : List Lexeme}
    (h : IsHead name title type head) (hname : name.IsValue) {gap : Text}
    (hgap : Blanks gap) (rest : Text) :
    namePattern.firstValue? (callText typeCallName gap ++ '{' :: (rowText head ++ rest))
      = some name := by
  obtain ⟨front, space, more, hfront, hspace, htext⟩ := h.opens
  have hcall : Avoids "name:".toList (callText typeCallName gap) :=
    isMark_name.avoids_seam (by decide) hgap
  have hbrace : Avoids "name:".toList ['{'] := Avoids.of_clears (by decide)
  have hkey : "name".toList.head?.any isWordChar = true := by decide
  have hread := firstValue?_eq hkey (breaks_seam (by decide) hfront (callText typeCallName gap))
    (hcall.append (hbrace.append (isMark_name.avoids_blanks hfront))) hspace hname (more ++ rest)
  rw [htext]
  simpa [namePattern] using hread

/-- What stands before the fields of a schema. -/
def opening (gap : Text) (head : List Lexeme) (comma space front : Text) : List Lexeme :=
  word (callText typeCallName gap) ++ (word ['{'] ++ (head ++ (word (',' :: comma)
    ++ (word ("fields".toList ++ ':' :: space) ++ word ('[' :: front)))))

def closing (back : Text) : List Lexeme :=
  word (']' :: back) ++ word ['}', ')', ';']

section

variable {gap comma space front back : Text} {head : List Lexeme}

theorem passes_opening (hgap : Blanks gap) (hhead : IsInert head) (hcomma : Blanks comma)
    (hspace : Blanks space) (hfront : Blanks front) :
    Passes "defineField(".toList (opening gap head comma space front) := by
  have hcall : Avoids "defineField(".toList (callText typeCallName gap) :=
    isInked_call.avoids_seam (by decide) hgap
  have hbrace : Avoids "defineField(".toList ['{'] := Avoids.of_clears (by decide)
  have hkey : Avoids "defineField(".toList ("fields".toList ++ ':' :: space) :=
    isInked_call.avoids_seam (by decide) hspace
  have hlist : Avoids "defineField(".toList ([] ++ '[' :: front) :=
    isInked_call.avoids_seam (by decide) hfront
  exact Passes.append hcall (Passes.append hbrace (hhead.passes_call.append
    (Passes.append (isInked_call.avoids_comma (by decide) hcomma) (Passes.append hkey hlist))))

theorem steadyRow_opening (hgap : Blanks gap) (hhead : IsInert head) (hcomma : Blanks comma)
    (hspace : Blanks space) (hfront : Blanks front) :
    SteadyRow (opening gap head comma space front) := by
  have hcall : SteadyRow (word (callText typeCallName gap)) := .seam (by decide) hgap
  have hlist : SteadyRow (word ([] ++ '[' :: front)) := .seam (by decide) hfront
  exact hcall.append (SteadyRow.append (.word (by decide))
    (hhead.steady.append ((IsInert.comma hcomma).steady.append
    ((steadyRow_key (by decide) hspace).append hlist))))

theorem passes_closing (hback : Blanks back) : Passes "defineField(".toList (closing back) := by
  have hlist : Avoids "defineField(".toList ([] ++ ']' :: back) :=
    isInked_call.avoids_seam (by decide) hback
  exact Passes.append hlist (Avoids.of_clears (by decide))

theorem steadyRow_closing (hback : Blanks back) : SteadyRow (closing back) := by
  have hlist : SteadyRow (word ([] ++ ']' :: back)) := .seam (by decide) hback
  exact hlist.append (.word (by decide))

end

theorem Laid.schema {schema : Schema} {out : List Lexeme} (hout : Laid schema.row out)
    (htypeName : schema.typeName.IsPrintable) :
    ∃ gap head comma space front back fields,
      out = opening gap head comma space front ++ (fields ++ closing back)
      ∧ Blanks gap ∧ IsHead schema.typeName none "document".toList head
      ∧ Blanks comma ∧ Blanks space ∧ Blanks front ∧ Blanks back
      ∧ Laid (separated (schema.fields.map Field.row)) fields := by
  have hdocument : Text.IsPrintable "document".toList := by decide
  obtain ⟨_, closer, rfl, hcalled, hcloser⟩ := hout.append
  obtain ⟨call, _, rfl, hcall, hobject⟩ := hcalled.append
  rw [show "defineType(".toList = typeCallName ++ ['('] by decide] at hcall
  obtain ⟨gap, hgap, rfl⟩ := hcall.seam_word (by decide) (by decide)
  obtain ⟨head, tail, back, hback, rfl, hhead, htail⟩ :=
    hobject.declaration htypeName hdocument (by simp)
  obtain ⟨comma, x, ends, hcomma, rfl, hx, hends⟩ := htail.commaLed_cons
  obtain ⟨space, front, fields, hspace, hfront, rfl, hfields⟩ := hx.keyedList (by decide)
  rw [hcloser.firm_word (by decide), hends.nil, List.append_nil]
  refine ⟨gap, head, comma, space, front, back, fields, ?_, hgap, hhead, hcomma, hspace,
    hfront, hback, hfields⟩
  simp [opening, closing, callText, listRow, GroqSnippets.braced]

theorem ofSource_eq {schema : Schema} (h : schema.Printable) {source : Text}
    (hname : namePattern.firstValue? source = some schema.typeName)
    (hblocks : List.Forall₂ IsBlockOf schema.fields (fieldPattern.blocks source)) :
    Schema.ofSource source = schema.spread := by
  have hfields := readFields_of_forall₂ h.fields h.names hblocks
  have hnotes : ((readFields source).flatMap (·.2)).filterMap Note.warning? = [] := by
    simp [hfields, List.flatMap_map, List.filterMap_flatMap, Note.warning?]
  simp only [Schema.ofSource, Reading.ofSource, hname, Option.getD_some, hnotes]
  simp [Schema.spread, hfields, h.warnings]

/-- A schema, set out, is read back with its rules spread. -/
theorem ofSource_of_laid {schema : Schema} (h : schema.Printable) {out : List Lexeme}
    (hout : Laid schema.row out) :
    Schema.ofSource (rowText out) = schema.spread := by
  obtain ⟨gap, head, comma, space, front, back, fields, rfl, hgap, hhead, hcomma, hspace,
    hfront, hback, hfields⟩ :=
    hout.schema h.typeName
  obtain ⟨hsteady, blocks, hblocks, hstrung⟩ := callsForAll_separated h.fields hfields
    (passes_opening hgap hhead.toIsInert hcomma hspace hfront) (passes_closing hback)
  have hwhole : SteadyRow (opening gap head comma space front ++ (fields ++ closing back)) :=
    (steadyRow_opening hgap hhead.toIsInert hcomma hspace hfront).append
      (hsteady.append (steadyRow_closing hback))
  refine ofSource_eq h ?_ ?_
  · have hread := hhead.firstValue?_name h.typeName.toIsValue hgap (rowText (word (',' :: comma)
      ++ (word ("fields".toList ++ ':' :: space) ++ word ('[' :: front))
      ++ (fields ++ closing back)))
    rw [opening]
    simp only [rowText_append, rowText_map_code] at hread ⊢
    simpa using hread
  · have hread : fieldPattern.blocks
        (rowText (opening gap head comma space front ++ (fields ++ closing back))) = blocks :=
      Pattern.blocksFrom_of_strung (by decide) hstrung hwhole rfl
    rwa [hread]

/-- **Reading undoes printing, up to the rules that are spread.** -/
theorem ofSource_print (layout : Layout) (schema : Schema) (h : schema.Printable) :
    Schema.ofSource (schema.print layout) = schema.spread
      ∧ (Schema.ofSource (schema.print layout) = schema ↔ schema.RulesSpread) := by
  have hread : Schema.ofSource (schema.print layout) = schema.spread :=
    ofSource_of_laid h ⟨layout, 0, rfl⟩
  exact ⟨hread, by rw [hread, Schema.spread_eq_self_iff]⟩

def gallery : Schema where
  typeName := "gallery".toList
  fields := [
    { name := "title".toList, type := "string".toList,
      title := some "Name (or [number] // of it".toList, validation := true },
    { name := "photos".toList, type := "array".toList, validation := true,
      of := some "object".toList,
      nestedFields := some [
        { name := "caption".toList, type := "string".toList },
        { name := "photo".toList, type := "image".toList, validation := true,
          subFields := some [⟨"alt".toList, "string".toList, true⟩] }] }]

theorem printable_gallery : gallery.Printable where
  typeName := by decide
  warnings := rfl
  names := by decide
  fields := by
    refine List.forall_mem_cons.mpr ⟨?_, List.forall_mem_singleton.mpr ?_⟩
    · exact ⟨by decide, by decide, by rintro _ ⟨⟩; decide, fun _ => rfl, nofun⟩
    · refine ⟨by decide, by decide, nofun, nofun, ?_⟩
      rintro _ ⟨⟩
      refine ⟨rfl, rfl, by decide, by decide,
        List.forall_mem_cons.mpr ⟨?_, List.forall_mem_singleton.mpr ?_⟩⟩
      · exact ⟨by decide, by decide, nofun⟩
      · refine ⟨by decide, by decide, ?_⟩
        rintro _ ⟨⟩
        exact ⟨rfl, by decide, List.forall_mem_singleton.mpr ⟨by decide, by decide⟩⟩

theorem rulesSpread_gallery : gallery.RulesSpread := by
  rw [← Schema.spread_eq_self_iff]
  decide

/-- The gallery comes back as it was. -/
theorem ofSource_print_gallery :
    gallery.Printable ∧ gallery.RulesSpread ∧ Schema.ofSource (gallery.print .spaced) = gallery :=
  ⟨printable_gallery, rulesSpread_gallery,
    (ofSource_print .spaced gallery printable_gallery).2.mpr rulesSpread_gallery⟩

end GroqSnippets

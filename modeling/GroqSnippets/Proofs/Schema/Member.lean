/-
What a printed list holds.

A list of objects is read object by object, so it is enough to know what each of them is read as.
Behind the key of a list, the reader cuts out what the list holds, provided that no such key stands
before.  From these two a nested field with its attributes comes back, and with them the rule that
one of its attributes has, for the reader finds a rule anywhere in the declaration.
-/
import GroqSnippets.Proofs.Schema.Declaration

namespace GroqSnippets

/-! ### Insides

An inside is what stands between two braces or two brackets of a declaration.  It is put together
from rows that read as themselves and from further brackets, which hide what is in them.
-/

namespace IsInside

theorem nil : IsInside false [] :=
  ⟨by simp [SteadyRow], ⟨[], .nil⟩, Avoids.nil⟩

theorem append {a b : Bool} {x y : List Lexeme} (hx : IsInside a x) (hy : IsInside b y) :
    IsInside (a || b) (x ++ y) where
  steady := hx.steady.append hy.steady
  balanced := by
    obtain ⟨_, hx⟩ := hx.balanced
    obtain ⟨_, hy⟩ := hy.balanced
    exact ⟨_, hx.append hy⟩
  tells := by
    rw [rowText_append]
    exact hx.tells.append hy.tells

theorem of_isInert {row : List Lexeme} (h : IsInert row) : IsInside false row :=
  ⟨h.steady, ⟨_, h.balanced⟩, h.avoids_rule⟩

theorem of_isTail {flag : Bool} {row : List Lexeme} {direct : Text}
    (h : IsTail flag row direct) : IsInside flag row :=
  ⟨h.steady, ⟨direct, h.balanced⟩, h.tells⟩

/-- A bracket around an inside. -/
theorem bracketed {flag : Bool} {inner : List Lexeme} (h : IsInside flag inner)
    {opener closer : Char} (hopener : isOpener opener = true) (hcloser : isCloser closer = true) :
    IsInside flag (.code opener :: (inner ++ [.code closer])) where
  steady := by
    have hlast : isPlain closer = true := by
      simp only [isCloser, Bool.or_eq_true, beq_iff_eq] at hcloser
      rcases hcloser with (rfl | rfl) | rfl <;> decide
    have hfirst : isPlain opener = true :=
      (Bool.and_eq_true_iff.mp (isSettling_of_isOpener hopener)).1
    exact .cons hfirst (h.steady.append (.cons hlast nil.steady))
  balanced := by
    obtain ⟨_, h⟩ := h.balanced
    exact ⟨_, h.hidden hopener hcloser⟩
  tells := by
    have hfirst : Tells false [opener] := by
      simp only [isOpener, Bool.or_eq_true, beq_iff_eq] at hopener
      rcases hopener with (rfl | rfl) | rfl <;> exact Avoids.of_clears (by decide)
    have hlast : Tells false [closer] := by
      simp only [isCloser, Bool.or_eq_true, beq_iff_eq] at hcloser
      rcases hcloser with (rfl | rfl) | rfl <;> exact Avoids.of_clears (by decide)
    have htells : Tells flag ([opener] ++ (rowText inner ++ [closer])) :=
      (hfirst.append (h.tells.append hlast)).of_eq (by simp)
    simpa [Lexeme.text] using htells

theorem braced {flag : Bool} {inner : List Lexeme} (h : IsInside flag inner) :
    IsInside flag (GroqSnippets.braced inner) :=
  h.bracketed (by decide) (by decide)

end IsInside

def listKeys : List Text :=
  ["of".toList, "fields".toList]

/-- A key with a list may follow the type of a declaration. -/
theorem isTail_listRow {key gap : Text} {flag : Bool} {inner : List Lexeme}
    (hkey : key ∈ listKeys) (hgap : Blanks gap) (hinner : IsInside flag inner) :
    IsTail flag (listRow key gap inner) (key ++ ':' :: gap ++ []) := by
  have hkeys : key ∈ keys := by
    revert key
    decide
  have hbracket : IsInside flag (.code '[' :: (inner ++ [.code ']'])) :=
    hinner.bracketed (by decide) (by decide)
  obtain ⟨_, hbalanced⟩ := hinner.balanced
  refine ⟨(steadyRow_key hkeys hgap).append hbracket.steady,
    (balanced_key hkeys hgap).append (hbalanced.hidden (by decide) (by decide)), ?_, ?_⟩
  · rw [List.append_nil]
    refine isMark_title.avoids_seam ?_ hgap
    revert key
    decide
  · have hclears : clears "validation:".toList (key ++ [':']) = true := by
      revert key
      decide
    have hkeyword : Tells false (key ++ ':' :: gap) := isMark_rule.avoids_seam hclears hgap
    rw [listRow, rowText_append, rowText_map_code]
    exact (hkeyword.append hbracket.tells).of_eq (by simp)

/-- A beginning, a rule or none, and a list make a declaration. -/
theorem declares_listRow {name type key comma gap back direct : Text} {title : Option Text}
    {a b : Bool} {head rulesOut inner : List Lexeme} (hhead : IsHead name title type head)
    (hrules : IsTail a rulesOut direct) (hkey : key ∈ listKeys) (hcomma : Blanks comma)
    (hgap : Blanks gap) (hinner : IsInside b inner) (hback : Blanks back) :
    Declares name title type (a || b)
      (head ++ rulesOut ++ (word (',' :: comma) ++ listRow key gap inner) ++ word back) := by
  have hlist := (isTail_comma hcomma).append (isTail_listRow hkey hgap hinner)
  have hwhole := declares hhead (hrules.append hlist) hback
  rwa [Bool.false_or, ← List.append_assoc head] at hwhole

/-! ### Lists of objects -/

section

variable {α β : Type} {read : Text → Option β}

/-- Whether a row is an object that tells of a rule or not, and that is read as something. -/
def ReadsAs (read : Text → Option β) (flag : Bool) (result : β) (row : List Lexeme) : Prop :=
  ∃ inner, row = braced inner ∧ IsInside flag inner ∧ read (rowText row) = some result

/-- Whether a row lists objects, tells of a rule or not, and has its objects read as something. -/
def ListsAs (read : Text → Option β) (flag : Bool) (results : List β) (row : List Lexeme) : Prop :=
  ∃ rows, Listed rows row ∧ IsInside flag row ∧ (rows.map rowText).filterMap read = results

namespace ListsAs

theorem nil {gap : Text} (hgap : Blanks gap) : ListsAs read false [] (word gap) :=
  ⟨[], .nil (Balanced.not_bracket_of_blanks hgap), .of_isInert (.blanks hgap), rfl⟩

/-- An object before a list, behind characters that are no brackets. -/
theorem cons {gap : Text} {a b : Bool} {result : β} {results : List β} {x y : List Lexeme}
    (hflat : ∀ c ∈ gap, isOpener c = false ∧ isCloser c = false) (hgap : IsInside false (word gap))
    (hx : ReadsAs read a result x) (hy : ListsAs read b results y) :
    ListsAs read (a || b) (result :: results) (word gap ++ (x ++ y)) := by
  obtain ⟨inner, rfl, hinner, hread⟩ := hx
  obtain ⟨rows, hrows, hmore, rfl⟩ := hy
  obtain ⟨_, hbalanced⟩ := hinner.balanced
  refine ⟨braced inner :: rows, .cons hflat hbalanced hinner.steady hrows, ?_, ?_⟩
  · have hwhole := hgap.append (hinner.braced.append hmore)
    rwa [Bool.false_or] at hwhole
  · rw [List.map_cons, List.filterMap_cons, hread]

theorem isInside {flag : Bool} {results : List β} {row : List Lexeme}
    (h : ListsAs read flag results row) : IsInside flag row := by
  obtain ⟨_, _, hinside, _⟩ := h
  exact hinside

theorem filterMap_objects {flag : Bool} {results : List β} {row : List Lexeme}
    (h : ListsAs read flag results row) :
    (objects (rowText row)).filterMap read = results := by
  obtain ⟨rows, hrows, hinside, rfl⟩ := h
  rw [objects_of_listed hrows hinside.steady]

end ListsAs

variable {flag : α → Bool} {row : α → List Lexeme} {result : α → β}
    {items : List α} {out : List Lexeme}

theorem listsAs_commaLed
    (hitems : ∀ item ∈ items, ∀ out, Laid (row item) out →
      ReadsAs read (flag item) (result item) out)
    (h : Laid (commaLed (items.map row)) out) :
    ListsAs read (items.any flag) (items.map result) out := by
  induction items generalizing out with
  | nil =>
    have hnone : Blanks [] := List.forall_mem_nil _
    rw [h.nil]
    exact .nil hnone
  | cons item items ih =>
    obtain ⟨gap, x, y, hgap, rfl, hx, hy⟩ := h.commaLed_cons
    have hflat : ∀ c ∈ ',' :: gap, isOpener c = false ∧ isCloser c = false :=
      List.forall_mem_cons.mpr ⟨by decide, Balanced.not_bracket_of_blanks hgap⟩
    obtain ⟨hitem, hrest⟩ := List.forall_mem_cons.mp hitems
    exact .cons hflat (.of_isInert (.comma hgap)) (hitem x hx) (ih hrest hy)

/-- A list, set out, has its items read one by one. -/
theorem listsAs_separated
    (hitems : ∀ item ∈ items, ∀ out, Laid (row item) out →
      ReadsAs read (flag item) (result item) out)
    (h : Laid (separated (items.map row)) out) {front : Text} (hfront : Blanks front) :
    ListsAs read (items.any flag) (items.map result) (word front ++ out) := by
  cases items with
  | nil =>
    rw [h.nil, List.append_nil]
    exact .nil hfront
  | cons item items =>
    obtain ⟨x, y, rfl, hx, hy⟩ := h.append
    obtain ⟨hitem, hrest⟩ := List.forall_mem_cons.mp hitems
    exact .cons (Balanced.not_bracket_of_blanks hfront) (.of_isInert (.blanks hfront))
      (hitem x hx) (listsAs_commaLed hrest hy)

end

/-! ### Lists behind keys -/

theorem isMark_listKey {key : Text} (hkey : key ∈ listKeys) : IsMark (key ++ [':']) := by
  simp only [listKeys, List.mem_cons, List.not_mem_nil, or_false] at hkey
  rcases hkey with rfl | rfl
  · exact isMark_of
  · exact isMark_fields

theorem clears_listKey : ∀ key ∈ listKeys, key.head?.any isWordChar = true
    ∧ clears (key ++ [':']) ['{'] = true ∧ clears (key ++ [':']) ['}'] = true
    ∧ clears (key ++ [':']) [','] = true := by
  decide

/-- What the list at the end of an object holds is cut out, when no such key stands before. -/
theorem section?_listRow (key front : Text) {comma gap back : Text} {flag : Bool}
    {head inner : List Lexeme} (hkey : key ∈ listKeys) (hcomma : Blanks comma) (hgap : Blanks gap)
    (hinner : IsInside flag inner)
    (hsteady : SteadyRow (word front
      ++ braced (head ++ (word (',' :: comma) ++ listRow key gap inner) ++ word back)))
    (hfront : Avoids (key ++ [':']) front) (hhead : Passes (key ++ [':']) head) :
    (Pattern.keyList key).section?
        (front
          ++ rowText (braced (head ++ (word (',' :: comma) ++ listRow key gap inner) ++ word back)))
      = some (rowText inner) := by
  obtain ⟨_, hbalanced⟩ := hinner.balanced
  obtain ⟨hfirst, hopener, -, hnocomma⟩ := clears_listKey key hkey
  have hread : lexemes none
        (front
          ++ rowText (braced (head ++ (word (',' :: comma) ++ listRow key gap inner) ++ word back)))
      = (word front ++ (word ['{'] ++ (head ++ word (',' :: comma))))
        ++ (word (key ++ ':' :: gap)
          ++ .code '[' :: (inner ++ .code ']' :: (word back ++ [.code '}']))) := by
    rw [← rowText_map_code front, ← rowText_append, lexemes_of_steady hsteady]
    simp [listRow, braced, rowText_map_code]
  have hbefore : Passes (key ++ [':'])
      (word front ++ (word ['{'] ++ (head ++ word (',' :: comma)))) :=
    Passes.append hfront (Passes.append (Avoids.of_clears hopener)
      (hhead.append ((isMark_listKey hkey).avoids_comma hnocomma hcomma)))
  refine Pattern.section?_keyList_eq hread hbefore ?_ hfirst hgap hbalanced
  simp only [rowText_append, rowText_map_code, ← List.append_assoc]
  exact breaks_seam (by decide) hcomma _

/-- Nothing is cut out of an object without such a key. -/
theorem section?_eq_none (key front : Text) {inner : List Lexeme} (hkey : key ∈ listKeys)
    (hsteady : SteadyRow (word front ++ braced inner)) (hfront : Avoids (key ++ [':']) front)
    (hinner : Passes (key ++ [':']) inner) :
    (Pattern.keyList key).section? (front ++ rowText (braced inner)) = none := by
  obtain ⟨-, hopener, hcloser, -⟩ := clears_listKey key hkey
  have hpasses : Passes (key ++ [':']) (word front ++ (word ['{'] ++ (inner ++ word ['}']))) :=
    Passes.append hfront (Passes.append (Avoids.of_clears hopener)
      (hinner.append (Avoids.of_clears hcloser)))
  have hnone : (Pattern.keyList key).firstInCode? (Cursor.ofText (front ++ rowText (braced inner)))
      = none := by
    refine Pattern.firstInCode?_eq_none (Pattern.begins_keyList key) ?_
    rw [Cursor.ofText, ← rowText_map_code front, ← rowText_append, lexemes_of_steady hsteady]
    exact hpasses
  rw [Pattern.section?, hnone, Option.map_none]

/-! ### Attributes and nested fields -/

theorem readsAs_subField {sub : SubField} (h : sub.Printable) {out : List Lexeme}
    (hout : Laid sub.row out) :
    ReadsAs declaredSubField? sub.validation sub out := by
  obtain ⟨head, tail, gap, hgap, rfl, hhead, htail⟩ := Laid.declaration hout h.name h.type (by simp)
  obtain ⟨-, -, direct, hrules⟩ := isTail_rules htail
  have hdeclares := declares hhead hrules hgap
  refine ⟨_, rfl, hdeclares.toIsInside, declaredSubField?_eq_some_iff.mpr ⟨?_, ?_⟩⟩
  · exact hdeclares.nameAndType [] (by simp)
  · exact (hdeclares.mentionsValidation Avoids.nil).symm

theorem declaredSubFields?_eq_none {image : Text} (h : fieldsPattern.section? image = none) :
    declaredSubFields? image = none := by
  rw [declaredSubFields?, h]
  rfl

/-- A nested field is read from its declaration and its attributes. -/
theorem Declares.readsAs_nestedField {nested : NestedField} {inner : List Lexeme}
    (h : Declares nested.name none nested.type nested.validation inner)
    (hsubs : nested.subFields
      = if nested.type == "image".toList then declaredSubFields? (rowText (braced inner))
        else none) :
    ReadsAs declaredNestedField? nested.validation nested (braced inner) := by
  refine ⟨inner, rfl, h.toIsInside, declaredNestedField?_eq_some_iff.mpr ⟨?_, ?_, hsubs⟩⟩
  · exact h.nameAndType [] (by simp)
  · exact (h.mentionsValidation Avoids.nil).symm

section

variable {nested : NestedField} {head rulesOut : List Lexeme} {back direct : Text}

/-- A nested field without attributes is read back. -/
theorem readsAs_nestedField_plain (hnone : nested.subFields = none)
    (hhead : IsHead nested.name none nested.type head)
    (hrules : IsTail nested.validation rulesOut direct)
    (hpasses : Passes "fields:".toList rulesOut) (hback : Blanks back) :
    ReadsAs declaredNestedField? nested.spread.validation nested.spread
      (braced (head ++ rulesOut ++ word back)) := by
  have hspread : nested.spread = nested :=
    NestedField.spread_eq_self_iff.mpr (by simp [NestedField.RulesSpread, hnone])
  have hdeclares := declares hhead hrules hback
  have hpassed : Passes "fields:".toList (head ++ rulesOut ++ word back) :=
    (hhead.passes_fields.append hpasses).append (isMark_fields.avoids_blanks hback)
  have hsection := section?_eq_none "fields".toList [] (by decide)
    hdeclares.toIsInside.braced.steady Avoids.nil hpassed
  rw [List.nil_append] at hsection
  rw [hspread]
  refine hdeclares.readsAs_nestedField ?_
  rw [declaredSubFields?_eq_none hsection, ite_self, hnone]

/-- An image is read back with its attributes, and with their rules. -/
theorem readsAs_nestedField_image {subs : List SubField} {comma gap front : Text}
    {z : List Lexeme} (hsubs : nested.subFields = some subs)
    (htype : nested.type = "image".toList) (hne : subs ≠ [])
    (hprintable : ∀ sub ∈ subs, sub.Printable)
    (hhead : IsHead nested.name none nested.type head)
    (hrules : IsTail nested.validation rulesOut direct)
    (hpasses : Passes "fields:".toList rulesOut)
    (hz : Laid (separated (subs.map SubField.row)) z) (hcomma : Blanks comma) (hgap : Blanks gap)
    (hfront : Blanks front) (hback : Blanks back) :
    ReadsAs declaredNestedField? nested.spread.validation nested.spread
      (braced (head ++ rulesOut
        ++ (word (',' :: comma) ++ listRow "fields".toList gap (word front ++ z)) ++ word back)) := by
  have hlists : ListsAs declaredSubField? (subs.any (·.validation)) (subs.map id)
      (word front ++ z) := by
    refine listsAs_separated ?_ hz hfront
    intro sub hsub out hout
    exact readsAs_subField (hprintable sub hsub) hout
  have hfields : "fields".toList ∈ listKeys := by decide
  have hdeclares := declares_listRow hhead hrules hfields hcomma hgap hlists.isInside hback
  have hflag : (nested.validation || subs.any (·.validation)) = nested.spread.validation := by
    simp [NestedField.spread, hsubs]
  rw [hflag] at hdeclares
  have hsection := section?_listRow "fields".toList [] hfields hcomma hgap hlists.isInside
    hdeclares.toIsInside.braced.steady Avoids.nil (hhead.passes_fields.append hpasses)
  rw [List.nil_append] at hsection
  have hread := declaredSubFields?_eq_some_iff.mpr
    ⟨_, hsection, hlists.filterMap_objects, by simpa using hne⟩
  have himage : (nested.spread.type == "image".toList) = true := by
    simp [NestedField.spread, htype]
  refine Declares.readsAs_nestedField hdeclares ?_
  rw [if_pos himage, hread, List.map_id]
  exact hsubs

end

/-- A nested field is read back, with the rules of its attributes. -/
theorem readsAs_nestedField {nested : NestedField} (h : nested.Printable) {out : List Lexeme}
    (hout : Laid nested.row out) :
    ReadsAs declaredNestedField? nested.spread.validation nested.spread out := by
  obtain ⟨head, tail, back, hback, rfl, hhead, htail⟩ :=
    Laid.declaration hout h.name h.type (by simp)
  obtain ⟨rulesOut, listOut, rfl, hrulesOut, hlistOut⟩ := htail.commaLed_append
  obtain ⟨-, hpasses, direct, hrules⟩ := isTail_rules hrulesOut
  cases hsubs : nested.subFields with
  | none =>
    rw [hsubs] at hlistOut
    rw [hlistOut.nil, List.append_nil]
    exact readsAs_nestedField_plain hsubs hhead hrules hpasses hback
  | some subs =>
    obtain ⟨htype, hne, hprintable⟩ := h.subFields subs hsubs
    rw [hsubs] at hlistOut
    obtain ⟨comma, x, y, hcomma, rfl, hx, hy⟩ := hlistOut.commaLed_cons
    obtain ⟨gap, front, z, hgap, hfront, rfl, hz⟩ := hx.keyedList (by decide)
    rw [hy.nil, List.append_nil, ← List.append_assoc head]
    exact readsAs_nestedField_image hsubs htype hne hprintable hhead hrules hpasses hz hcomma
      hgap hfront hback

end GroqSnippets

/-
What a printed declaration says.

Every declaration begins with a name, perhaps a title, and a type, and goes on with a rule or a
list.  Whatever follows the type, the reader takes name, title and type from that beginning, and
neither a search for a list of fields nor one for the members of an array stops in it.
-/
import GroqSnippets.Proofs.Schema.Setting

namespace GroqSnippets

/-! ### Marks -/

theorem isInked_word (word : Text) (hword : word.all isWordChar = true) (hne : word ≠ [])
    (rest : Text) : IsInked (word ++ rest) := by
  obtain ⟨first, more, rfl⟩ := List.exists_cons_of_ne_nil hne
  refine ⟨first, more ++ rest, rfl, ?_⟩
  have hfirst : isWordChar first = true := List.all_eq_true.mp hword first List.mem_cons_self
  cases hblank : isBlank first with
  | false => rfl
  | true =>
    rw [not_isWordChar_of_isBlank hblank] at hfirst
    cases hfirst

/-- A word and a colon can begin a key. -/
theorem isMark_word (word : Text) (hword : word.all isWordChar = true) (hne : word ≠ []) :
    IsMark (word ++ [':']) where
  toIsInked := isInked_word word hword hne [':']
  colon := by simp
  no_quote := by
    intro hmem
    rcases List.mem_append.mp hmem with hmem | hmem
    · have hquote := List.all_eq_true.mp hword _ hmem
      revert hquote
      decide
    · revert hmem
      decide

theorem isMark_name : IsMark "name:".toList :=
  isMark_word "name".toList (by decide) (by simp)

theorem isMark_title : IsMark "title:".toList :=
  isMark_word "title".toList (by decide) (by simp)

theorem isMark_type : IsMark "type:".toList :=
  isMark_word "type".toList (by decide) (by simp)

theorem isMark_rule : IsMark "validation:".toList :=
  isMark_word "validation".toList (by decide) (by simp)

theorem isMark_of : IsMark "of:".toList :=
  isMark_word "of".toList (by decide) (by simp)

theorem isMark_fields : IsMark "fields:".toList :=
  isMark_word "fields".toList (by decide) (by simp)

theorem isInked_call : IsInked "defineField(".toList :=
  isInked_word "defineField".toList (by decide) (by simp) ['(']

/-! ### Keys -/

def keys : List Text :=
  ["name".toList, "title".toList, "type".toList, "of".toList, "fields".toList]

theorem steadyRow_key {key gap : Text} (hkey : key ∈ keys) (hgap : Blanks gap) :
    SteadyRow (word (key ++ ':' :: gap)) := by
  have hplain : ∀ key ∈ keys, (key ++ [':']).all isPlain = true := by decide
  exact .seam (hplain key hkey) hgap

theorem balanced_key {key gap : Text} (hkey : key ∈ keys) (hgap : Blanks gap) :
    Balanced (word (key ++ ':' :: gap)) (key ++ ':' :: gap) := by
  have hflat : ∀ key ∈ keys, ((key ++ [':']).all fun c => !isOpener c && !isCloser c) = true := by
    decide
  refine Balanced.word ?_
  intro c hc
  rw [List.append_cons] at hc
  rcases List.mem_append.mp hc with hc | hc
  · exact Balanced.not_bracket_of_all (hflat key hkey) c hc
  · exact Balanced.not_bracket_of_isBlank (hgap c hc)

/-! ### Inert rows

What stands between the keys of a declaration must not stop a search before its time.  Values are
inert although they are quoted text, since the printed ones hold no colon.
-/

/-- A row that is its own direct text, and in which no search stops but one for names, titles or
types. -/
structure IsInert (row : List Lexeme) : Prop where
  steady : SteadyRow row
  balanced : Balanced row (rowText row)
  passes_of : Passes "of:".toList row
  passes_fields : Passes "fields:".toList row
  passes_call : Passes "defineField(".toList row
  avoids_rule : Avoids "validation:".toList (rowText row)

namespace IsInert

theorem nil : IsInert [] :=
  ⟨by simp [SteadyRow], .nil, Passes.nil, Passes.nil, Passes.nil, Avoids.nil⟩

theorem append {a b : List Lexeme} (ha : IsInert a) (hb : IsInert b) : IsInert (a ++ b) where
  steady := ha.steady.append hb.steady
  balanced := by
    rw [rowText_append]
    exact ha.balanced.append hb.balanced
  passes_of := ha.passes_of.append hb.passes_of
  passes_fields := ha.passes_fields.append hb.passes_fields
  passes_call := ha.passes_call.append hb.passes_call
  avoids_rule := by
    rw [rowText_append]
    exact ha.avoids_rule.append hb.avoids_rule

theorem blanks {gap : Text} (h : Blanks gap) : IsInert (word gap) where
  steady := .blanks h
  balanced := by
    rw [rowText_map_code]
    exact .blanks h
  passes_of := isMark_of.avoids_blanks h
  passes_fields := isMark_fields.avoids_blanks h
  passes_call := isInked_call.avoids_blanks h
  avoids_rule := by
    rw [rowText_map_code]
    exact isMark_rule.avoids_blanks h

theorem comma {gap : Text} (h : Blanks gap) : IsInert (word (',' :: gap)) where
  steady := .cons (by decide) (.blanks h)
  balanced := by
    have hcomma : isOpener ',' = false ∧ isCloser ',' = false := by decide
    rw [rowText_map_code]
    exact .word (List.forall_mem_cons.mpr ⟨hcomma, Balanced.not_bracket_of_blanks h⟩)
  passes_of := isMark_of.avoids_comma (by decide) h
  passes_fields := isMark_fields.avoids_comma (by decide) h
  passes_call := isInked_call.avoids_comma (by decide) h
  avoids_rule := by
    rw [rowText_map_code]
    exact isMark_rule.avoids_comma (by decide) h

theorem mem_keys : ∀ key ∈ ["name".toList, "title".toList, "type".toList], key ∈ keys := by
  decide

theorem entry {key gap value : Text} (hkey : key ∈ ["name".toList, "title".toList, "type".toList])
    (hgap : Blanks gap) (hvalue : value.IsPrintable) : IsInert (entryRow key gap value) where
  steady := (steadyRow_key (mem_keys key hkey) hgap).append (.literal hvalue)
  balanced := by
    rw [entryRow, rowText_append, rowText_map_code]
    exact (balanced_key (mem_keys key hkey) hgap).append (.literal value)
  passes_of := by
    refine isMark_of.passes_entry ?_ hgap value
    revert key
    decide
  passes_fields := by
    refine isMark_fields.passes_entry ?_ hgap value
    revert key
    decide
  passes_call := by
    refine isInked_call.passes_entry ?_ hgap value
    revert key
    decide
  avoids_rule := by
    rw [rowText_entryRow]
    refine isMark_rule.avoids_valueText ?_ hgap hvalue
    revert key
    decide

end IsInert

/-! ### The beginning of a declaration -/

/-- A row that names something, whatever follows it. -/
structure IsHead (name : Text) (title : Option Text) (type : Text) (row : List Lexeme) :
    Prop extends IsInert row where
  opens : ∃ front gap more, Blanks front ∧ Blanks gap
    ∧ rowText row = front ++ (valueText "name".toList gap name ++ more)
  nameAndType : ∀ rest, nameAndType? (rowText row ++ rest) = some (name, type)
  title : ∀ rest, Avoids "title:".toList rest →
    titlePattern.firstValue? (rowText row ++ rest) = title

/-- A title behind its comma, if there is one. -/
theorem isInert_title {title : Option Text} {out : List Lexeme}
    (htitle : ∀ text, title = some text → text.IsPrintable)
    (h : Laid (commaLed (title.toList.map (entry "title".toList))) out) :
    IsInert out ∧ Avoids "type:".toList (rowText out)
      ∧ (title = none → out = [])
      ∧ ∀ text, title = some text → ∃ gap space, Blanks gap ∧ Blanks space
          ∧ out = word (',' :: gap) ++ entryRow "title".toList space text := by
  cases title with
  | none =>
    rw [h.nil]
    refine ⟨.nil, Avoids.nil, by simp, ?_⟩
    intro text hsome
    cases hsome
  | some text =>
    obtain ⟨gap, x, y, hgap, rfl, hx, hy⟩ := h.commaLed_cons
    obtain ⟨space, hspace, rfl⟩ := hx.entry (by decide)
    rw [hy.nil, List.append_nil]
    refine ⟨(IsInert.comma hgap).append (.entry (by decide) hspace (htitle text rfl)),
      ?_, by simp, ?_⟩
    · rw [rowText_append, rowText_map_code, rowText_entryRow]
      exact (isMark_type.avoids_comma (by decide) hgap).append
        (isMark_type.avoids_valueText (by decide) hspace (htitle text rfl))
    · intro same hsame
      obtain rfl := Option.some.inj hsame
      exact ⟨gap, space, hgap, hspace, rfl⟩

/-- A word may begin behind a character that belongs to none, and blanks. -/
theorem breaks_seam {c : Char} {gap : Text} (hc : isWordChar c = false)
    (hgap : Blanks gap) (front : Text) :
    Breaks (front ++ c :: gap) := by
  rw [List.append_cons]
  refine Breaks.append_blanks ?_ hgap
  intro d hd
  rw [List.getLast?_concat] at hd
  obtain rfl := Option.some.inj hd
  exact hc

/-- A name, and the type behind it, whatever stands between them and follows. -/
theorem nameAndType?_eq {front gapName name between gapType type : Text} (hfront : Blanks front)
    (hgapName : Blanks gapName) (hname : name.IsValue) (hne : between ≠ [])
    (hbreaks : Breaks between) (hbetween : Avoids "type:".toList between)
    (hgapType : Blanks gapType) (htype : type.IsValue) (rest : Text) :
    nameAndType? (front ++ (valueText "name".toList gapName name
      ++ (between ++ (valueText "type".toList gapType type ++ rest)))) = some (name, type) := by
  let place := Cursor.ofText (front ++ (valueText "name".toList gapName name
    ++ (between ++ (valueText "type".toList gapType type ++ rest))))
  let first : Match := ⟨place.skip front.length, valueText "name".toList gapName name, some name⟩
  have hfirst : namePattern.first? place = some first :=
    Pattern.first?_key_eq rfl (by decide) (Or.inr rfl) (Breaks.nil.append_blanks hfront)
      (isMark_name.avoids_blanks hfront) hgapName hname
  have hstop : first.stop.rest = between ++ (valueText "type".toList gapType type ++ rest) := by
    simp only [Match.stop, first, Cursor.rest_skip, place, Cursor.ofText, List.drop_left]
  let second : Match :=
    ⟨first.stop.skip between.length, valueText "type".toList gapType type, some type⟩
  have hsecond : typePattern.first? first.stop = some second :=
    Pattern.first?_key_eq hstop (by decide) (Or.inl hne) hbreaks hbetween hgapType htype
  exact nameAndType?_eq_some_iff.mpr ⟨first, second, hfirst,
    rfl, by rw [hsecond, Option.some_or], rfl⟩

/-- The first value of a key behind a text that avoids it. -/
theorem firstValue?_eq {key pre gap value : Text} (hkey : key.head?.any isWordChar = true)
    (hbreaks : Breaks pre) (hpre : Avoids (key ++ [':']) pre) (hgap : Blanks gap)
    (hvalue : value.IsValue) (rest : Text) :
    (Pattern.key key).firstValue? (pre ++ (valueText key gap value ++ rest)) = some value := by
  have hplace : (Cursor.ofText (pre ++ (valueText key gap value ++ rest))).rest
      = pre ++ (valueText key gap value ++ rest) := rfl
  rw [Pattern.firstValue?, Pattern.first?_key_eq hplace hkey (Or.inr rfl) hbreaks hpre hgap
    hvalue, Option.bind_some]

theorem firstValue?_eq_none {key text : Text} (htext : Avoids (key ++ [':']) text) :
    (Pattern.key key).firstValue? text = none := by
  rw [Pattern.firstValue?, Pattern.first?_eq_none (Pattern.begins_key key) (by simp)
    htext, Option.bind_none]

theorem isHead {name type front gapName gapType gap : Text} {title : Option Text}
    {titleRow : List Lexeme} (hname : name.IsPrintable) (htype : type.IsPrintable)
    (htitle : ∀ text, title = some text → text.IsPrintable) (hfront : Blanks front)
    (hgapName : Blanks gapName) (hgapType : Blanks gapType) (hgap : Blanks gap)
    (hrow : Laid (commaLed (title.toList.map (entry "title".toList))) titleRow) :
    IsHead name title type
      (word front ++ entryRow "name".toList gapName name ++ titleRow
        ++ (word (',' :: gap) ++ entryRow "type".toList gapType type)) := by
  obtain ⟨hinert, havoids, hnone, hsome⟩ := isInert_title htitle hrow
  have htext : rowText (word front ++ entryRow "name".toList gapName name ++ titleRow
        ++ (word (',' :: gap) ++ entryRow "type".toList gapType type))
      = front ++ (valueText "name".toList gapName name
          ++ ((rowText titleRow ++ ',' :: gap) ++ valueText "type".toList gapType type)) := by
    simp only [rowText_append, rowText_map_code, rowText_entryRow, List.append_assoc]
  refine ⟨?_, ?_, ?_, ?_⟩
  · have hnamed : IsInert (word front ++ entryRow "name".toList gapName name) :=
      (IsInert.blanks hfront).append (.entry (by decide) hgapName hname)
    exact (hnamed.append hinert).append
      ((IsInert.comma hgap).append (.entry (by decide) hgapType htype))
  · exact ⟨front, gapName, _, hfront, hgapName, htext⟩
  · intro rest
    have hread := nameAndType?_eq hfront hgapName hname.toIsValue
      (List.append_ne_nil_of_right_ne_nil _ (by simp))
      (breaks_seam (by decide) hgap (rowText titleRow))
      (havoids.append (isMark_type.avoids_comma (by decide) hgap)) hgapType htype.toIsValue rest
    rw [htext]
    simpa only [List.append_assoc] using hread
  · intro rest hrest
    have hbefore : Avoids "title:".toList (front ++ valueText "name".toList gapName name) :=
      (isMark_title.avoids_blanks hfront).append
        (isMark_title.avoids_valueText (by decide) hgapName hname)
    cases hcase : title with
    | none =>
      have hbehind : Avoids "title:".toList (',' :: gap ++ valueText "type".toList gapType type) :=
        (isMark_title.avoids_comma (by decide) hgap).append
          (isMark_title.avoids_valueText (by decide) hgapType htype)
      rw [htext, hnone hcase]
      refine firstValue?_eq_none ?_
      simpa using (hbefore.append hbehind).append hrest
    | some text =>
      obtain ⟨gapComma, space, hgapComma, hspace, rfl⟩ := hsome text hcase
      have hkey : "title".toList.head?.any isWordChar = true := by decide
      have hread := firstValue?_eq hkey (breaks_seam (by decide) hgapComma _)
        (hbefore.append (isMark_title.avoids_comma (by decide) hgapComma)) hspace
        (htitle text hcase).toIsValue
        (',' :: gap ++ valueText "type".toList gapType type ++ rest)
      rw [htext, rowText_append, rowText_map_code, rowText_entryRow]
      simpa [titlePattern] using hread

/-! ### Rules -/

/-- Whether a text mentions a rule if a flag is set, and avoids it otherwise. -/
def Tells : (flag : Bool) → Text → Prop
  | true, text => "validation:".toList <:+: text
  | false, text => Avoids "validation:".toList text

theorem Tells.append {a b : Bool} {x y : Text} (hx : Tells a x) (hy : Tells b y) :
    Tells (a || b) (x ++ y) := by
  cases a with
  | true => exact List.IsInfix.trans hx (List.prefix_append x y).isInfix
  | false =>
    cases b with
    | true => exact List.IsInfix.trans hy (List.suffix_append x y).isInfix
    | false => exact Avoids.append hx hy

theorem Tells.mentionsValidation {flag : Bool} {text : Text} (h : Tells flag text) :
    GroqSnippets.mentionsValidation text = flag := by
  cases flag with
  | true => exact mentionsValidation_iff.mpr h
  | false =>
    rw [← Bool.not_eq_true, mentionsValidation_iff]
    exact Avoids.not_infix h (by decide)

/-- What may follow the type of a declaration: its direct text has no title, and it tells of a rule
or not. -/
structure IsTail (flag : Bool) (row : List Lexeme) (direct : Text) : Prop where
  steady : SteadyRow row
  balanced : Balanced row direct
  avoids_title : Avoids "title:".toList direct
  tells : Tells flag (rowText row)

theorem IsTail.append {a b : Bool} {x y : List Lexeme} {s t : Text}
    (hx : IsTail a x s) (hy : IsTail b y t) :
    IsTail (a || b) (x ++ y) (s ++ t) where
  steady := hx.steady.append hy.steady
  balanced := hx.balanced.append hy.balanced
  avoids_title := hx.avoids_title.append hy.avoids_title
  tells := by
    rw [rowText_append]
    exact hx.tells.append hy.tells

theorem isTail_comma {gap : Text} (hgap : Blanks gap) :
    IsTail false (word (',' :: gap)) (',' :: gap) where
  steady := (IsInert.comma hgap).steady
  balanced := by
    have hbalanced := (IsInert.comma hgap).balanced
    rwa [rowText_map_code] at hbalanced
  avoids_title := isMark_title.avoids_comma (by decide) hgap
  tells := by
    rw [Tells, rowText_map_code]
    exact isMark_rule.avoids_comma (by decide) hgap

def ruleText (a b c : Text) : Text :=
  ruleKey ++ (a ++ (['('] ++ (b ++ (ruleArgument
    ++ ([')'] ++ (ruleCall ++ (['('] ++ (c ++ [')']))))))))

theorem ruleRow_eq_word (a b c : Text) : ruleRow a b c = word (ruleText a b c) := by
  simp [ruleRow, ruleText, word]

/-- A rule is avoided if its words are. -/
theorem IsInked.avoids_ruleText {needle : Text} (h : IsInked needle)
    (hwords : ([ruleKey, ['('], ruleArgument, [')'], ruleCall].all (clears needle)) = true)
    {a b c : Text} (ha : Blanks a) (hb : Blanks b) (hc : Blanks c) :
    Avoids needle (ruleText a b c) := by
  simp only [List.all_cons, List.all_nil, Bool.and_eq_true, Bool.and_true] at hwords
  obtain ⟨hkey, hopen, hargument, hclose, hcall⟩ := hwords
  exact (Avoids.of_clears hkey).append ((h.avoids_blanks ha).append ((Avoids.of_clears hopen).append
    ((h.avoids_blanks hb).append ((Avoids.of_clears hargument).append
    ((Avoids.of_clears hclose).append
      ((Avoids.of_clears hcall).append ((Avoids.of_clears hopen).append ((h.avoids_blanks hc).append
        (Avoids.of_clears hclose)))))))))

theorem isTail_rule {a b c : Text} (ha : Blanks a) (hb : Blanks b) (hc : Blanks c) :
    IsTail true (ruleRow a b c) (ruleKey ++ a ++ ([] ++ (ruleCall ++ []))) where
  steady := by
    have hwords : [ruleKey, ['('], ruleArgument, [')'], ruleCall].all (·.all isPlain) = true := by
      decide
    simp only [List.all_cons, List.all_nil, Bool.and_eq_true, Bool.and_true] at hwords
    obtain ⟨hkey, hopen, hargument, hclose, hcall⟩ := hwords
    rw [ruleRow_eq_word]
    refine SteadyRow.word ?_
    simp only [ruleText, List.all_append, Bool.and_eq_true]
    exact ⟨hkey, all_isPlain_of_blanks ha, hopen, all_isPlain_of_blanks hb, hargument, hclose,
      hcall, hopen, all_isPlain_of_blanks hc, hclose⟩
  balanced := by
    have hkey : ∀ d ∈ ruleKey ++ a, isOpener d = false ∧ isCloser d = false :=
      List.forall_mem_append.mpr
        ⟨Balanced.not_bracket_of_all (by decide), Balanced.not_bracket_of_blanks ha⟩
    have hargument : ∀ d ∈ b ++ ruleArgument, isOpener d = false ∧ isCloser d = false :=
      List.forall_mem_append.mpr
        ⟨Balanced.not_bracket_of_blanks hb, Balanced.not_bracket_of_all (by decide)⟩
    have hcall : ∀ d ∈ ruleCall, isOpener d = false ∧ isCloser d = false :=
      Balanced.not_bracket_of_all (by decide)
    exact (Balanced.word hkey).append
      (((Balanced.word hargument).hidden (by decide) (by decide)).append
      ((Balanced.word hcall).append ((Balanced.blanks hc).hidden (by decide) (by decide))))
  avoids_title := by
    have hkey : Avoids "title:".toList ruleKey := Avoids.of_clears (by decide)
    have hcall : Avoids "title:".toList ruleCall := Avoids.of_clears (by decide)
    exact (hkey.append (isMark_title.avoids_blanks ha)).append
      (Avoids.nil.append (hcall.append Avoids.nil))
  tells := by
    rw [ruleRow_eq_word, rowText_map_code]
    exact (List.prefix_append ruleKey _).isInfix

theorem isTail_rules {flag : Bool} {out : List Lexeme} (h : Laid (commaLed (rules flag)) out) :
    Passes "of:".toList out ∧ Passes "fields:".toList out ∧ ∃ direct, IsTail flag out direct := by
  cases flag with
  | false =>
    rw [h.nil]
    exact ⟨Passes.nil, Passes.nil, [], by simp [SteadyRow], .nil, Avoids.nil, Avoids.nil⟩
  | true =>
    obtain ⟨gap, x, y, hgap, rfl, hx, hy⟩ := h.commaLed_cons
    obtain ⟨a, b, c, ha, hb, hc, rfl⟩ := hx.rule
    rw [hy.nil, List.append_nil]
    refine ⟨?_, ?_, _, (isTail_comma hgap).append (isTail_rule ha hb hc)⟩
    · rw [ruleRow_eq_word]
      exact Passes.append (isMark_of.avoids_comma (by decide) hgap)
        (isMark_of.avoids_ruleText (by decide) ha hb hc)
    · rw [ruleRow_eq_word]
      exact Passes.append (isMark_fields.avoids_comma (by decide) hgap)
        (isMark_fields.avoids_ruleText (by decide) ha hb hc)

/-! ### Whole declarations

A field, a nested field and an attribute differ in the list at their end alone.  What they have in
common is proved here once, for the inside of any pair of braces.
-/

/-- The inside of an object or a list: it reads as itself, its brackets are balanced, and it tells
of a rule or not. -/
structure IsInside (flag : Bool) (inner : List Lexeme) : Prop where
  steady : SteadyRow inner
  balanced : ∃ direct, Balanced inner direct
  tells : Tells flag (rowText inner)

/-- An object that declares a name, perhaps a title, and a type, and that may be the argument of a
call. -/
structure Declares (name : Text) (title : Option Text) (type : Text) (flag : Bool)
    (inner : List Lexeme) : Prop
    extends IsInside flag inner where
  nameAndType : ∀ front, '{' ∉ front → nameAndType? (directText (front ++ rowText (braced inner)))
    = some (name, type)
  title : ∀ front, '{' ∉ front →
    titlePattern.firstValue? (directText (front ++ rowText (braced inner))) = title

theorem Tells.of_eq {a b : Bool} {text : Text} (h : Tells a text) (hab : a = b) : Tells b text :=
  hab ▸ h

theorem IsInside.mentionsValidation {flag : Bool} {inner : List Lexeme}
    (h : IsInside flag inner) {front : Text} (hfront : Avoids "validation:".toList front) :
    GroqSnippets.mentionsValidation (front ++ rowText (braced inner)) = flag := by
  have hopener : Tells false ['{'] := Avoids.of_clears (by decide)
  have hcloser : Tells false ['}'] := Avoids.of_clears (by decide)
  have htells : Tells flag (front ++ (['{'] ++ (rowText inner ++ ['}']))) :=
    (Tells.append (a := false) hfront (hopener.append (h.tells.append hcloser))).of_eq (by simp)
  rw [← htells.mentionsValidation]
  simp [braced, Lexeme.text]

/-- A beginning and what may follow it make a declaration. -/
theorem declares {name type : Text} {title : Option Text} {flag : Bool}
    {head tail : List Lexeme} {direct gap : Text} (hhead : IsHead name title type head)
    (htail : IsTail flag tail direct) (hgap : Blanks gap) :
    Declares name title type flag (head ++ tail ++ word gap) := by
  have hsteady : SteadyRow (head ++ tail ++ word gap) :=
    (hhead.steady.append htail.steady).append (.blanks hgap)
  have hbalanced : Balanced (head ++ tail ++ word gap) (rowText head ++ direct ++ gap) :=
    (hhead.balanced.append htail.balanced).append (.blanks hgap)
  have htells : Tells flag (rowText head ++ (rowText tail ++ gap)) :=
    (Tells.append (a := false) hhead.avoids_rule
      (htail.tells.append (b := false) (isMark_rule.avoids_blanks hgap))).of_eq (by simp)
  refine ⟨⟨hsteady, ⟨_, hbalanced⟩, ?_⟩, ?_, ?_⟩
  · simpa only [rowText_append, rowText_map_code, List.append_assoc] using htells
  · intro front hfront
    rw [directText_braced hfront hbalanced hsteady, List.append_assoc]
    exact hhead.nameAndType _
  · intro front hfront
    rw [directText_braced hfront hbalanced hsteady, List.append_assoc]
    exact hhead.title _ (htail.avoids_title.append (isMark_title.avoids_blanks hgap))

/-- A declaration, set out: its beginning, what else it says, and blanks. -/
theorem Laid.declaration {name type : Text} {title : Option Text}
    {more : List (List Lexeme)} {out : List Lexeme}
    (h : Laid (declaration name title type more) out) (hname : name.IsPrintable)
    (htype : type.IsPrintable) (htitle : ∀ text, title = some text → text.IsPrintable) :
    ∃ head tail gap, Blanks gap ∧ out = GroqSnippets.braced (head ++ tail ++ word gap)
      ∧ IsHead name title type head
      ∧ Laid (commaLed more) tail := by
  obtain ⟨front, back, x, hfront, hback, rfl, hx⟩ := h.braced
  obtain ⟨nameRow, rest, rfl, hnameRow, hrest⟩ := hx.append
  obtain ⟨gapName, hgapName, rfl⟩ := hnameRow.entry (by decide)
  obtain ⟨titleRow, behind, rfl, htitleRow, hbehind⟩ := hrest.commaLed_append
  obtain ⟨gap, typeRow, tail, hgap, rfl, htypeRow, htail⟩ := hbehind.commaLed_cons
  obtain ⟨gapType, hgapType, rfl⟩ := htypeRow.entry (by decide)
  refine ⟨_, tail, back, hback, ?_, isHead hname htype htitle hfront hgapName
    hgapType hgap htitleRow, htail⟩
  simp only [List.append_assoc]

end GroqSnippets

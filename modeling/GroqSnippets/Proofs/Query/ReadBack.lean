/-
Queries can be read back.

A query is written line by line, and how far a line is indented says what it is: a field of the
document, an entry of an array, or the end of an array.  A comma at the end of a line says nothing
more.  So a query is read from its last line to its first: entries are gathered until the line that
opens their array comes, and attributes until the line of their image does.

The reader does not look at the selector, so it is the same for queries of all kinds.  It is meant
for names that are made of ASCII letters, digits and underscores, and a type name without a double
quote; these hold none of the characters that lines are told apart by.
-/
import Mathlib.Data.List.Basic
import GroqSnippets.Proofs.Query.Pruning
import GroqSnippets.Proofs.Source.Shape

namespace GroqSnippets

/-! ### Reading

A query is read from its last line to its first.  Then an array is met after its entries and an
image after its attributes, so whatever has been gathered on the way down belongs to it, and no
state but that is needed.
-/

/-- What has been read of a query, from its end back to some line. -/
structure Gathered where
  /-- The attributes whose image is still to come. -/
  subFields : List Text := []
  /-- The entries whose array is still to come. -/
  entries : List Entry := []
  scalars : List Text := []
  arrays : List ArrayProjection := []
deriving DecidableEq, Repr

namespace Gathered

def addScalar (name : Text) (gathered : Gathered) : Gathered :=
  { scalars := name :: gathered.scalars, arrays := gathered.arrays }

def addArray (array : ArrayProjection) (gathered : Gathered) : Gathered :=
  { scalars := gathered.scalars, arrays := array :: gathered.arrays }

/-- What has been read, and an entry, which takes the attributes if it is an image. -/
def addEntry (entry : Entry) (gathered : Gathered) : Gathered :=
  { gathered with subFields := [], entries := entry :: gathered.entries }

def addSubField (name : Text) (gathered : Gathered) : Gathered :=
  { gathered with subFields := name :: gathered.subFields }

def readField (body : Text) (gathered : Gathered) : Gathered :=
  let name := body.takeWhile (· != '[')
  if body.isEmpty then gathered
  else if body == name then gathered.addScalar name
  else if body == name ++ "[]".toList then gathered.addArray ⟨name, none⟩
  else gathered.addArray ⟨name, some gathered.entries⟩

/-- Reads an entry of an array, or an attribute of an image. -/
def readEntry (body : Text) (gathered : Gathered) : Gathered :=
  match body with
  | [] => gathered
  | '"' :: quoted =>
    let path := (quoted.dropWhile (· != ' ')).drop 1
    let name := path.takeWhile (· != '.')
    let sub := path.drop (name.length + 1)
    if sub == "asset->url".toList then gathered.addEntry (.image name gathered.subFields)
    else gathered.addSubField sub
  | name => gathered.addEntry (.plain name)

def readLine (line : Text) (gathered : Gathered) : Gathered :=
  let inked := line.takeWhile (· != ',')
  let body := inked.dropWhile (· == ' ')
  match inked.length - body.length with
  | 4 => gathered.readField body
  | 6 => { scalars := gathered.scalars, arrays := gathered.arrays }
  | 8 => gathered.readEntry body
  | _ => gathered

def readText (text : Text) (gathered : Gathered) : Gathered :=
  (text.splitOn '\n').foldr readLine gathered

end Gathered

/-- Reads a query, whatever it selects. -/
def Projection.ofQuery (query : Text) : Projection :=
  let behind := query.drop "*[_type == \"".length
  let typeName := behind.takeWhile (· != '"')
  let lines := ((behind.drop typeName.length).dropWhile (· != '\n')).drop 1
  let gathered := Gathered.readText lines {}
  { typeName, scalars := gathered.scalars, arrays := gathered.arrays }

/-! ### Names -/

def isAsciiNameChar (c : Char) : Bool :=
  c.isAlphanum || c == '_'

/-- Whether a text is a name that every reader accepts. -/
def Text.IsName (text : Text) : Prop :=
  text ≠ [] ∧ ∀ c ∈ text, isAsciiNameChar c = true

instance (text : Text) : Decidable text.IsName :=
  decidable_of_iff (text ≠ [] ∧ text.all isAsciiNameChar = true)
    (and_congr_right fun _ => List.all_eq_true)

/-- A character is an ASCII letter, digit or underscore only if its code is small. -/
theorem toNat_lt_of_isAsciiNameChar {c : Char} (h : isAsciiNameChar c = true) : c.toNat < 128 := by
  rw [isAsciiNameChar, Bool.or_eq_true, beq_iff_eq] at h
  rcases h with halphanum | rfl
  · rcases Bool.or_eq_true_iff.mp halphanum with halpha | hdigit
    · rcases Bool.or_eq_true_iff.mp halpha with hupper | hlower
      · have hle := UInt32.le_iff_toNat_le.mp (of_decide_eq_true hupper).2
        exact Nat.lt_of_le_of_lt hle (by decide)
      · have hle := UInt32.le_iff_toNat_le.mp
          (of_decide_eq_true (Bool.and_eq_true_iff.mp hlower).2)
        exact Nat.lt_of_le_of_lt hle (by decide)
    · have hle := (Char.isDigit_iff_toNat.mp hdigit).2
      exact Nat.lt_of_le_of_lt hle (by decide)
  · decide

/-- Names have capital forms that are names. -/
theorem isAsciiNameChar_of_mem_upperCase {c d : Char} (hc : isAsciiNameChar c = true)
    (hd : d ∈ upperCase c) : isAsciiNameChar d = true := by
  have hall : ∀ n < 128, isAsciiNameChar (Char.ofNat n) = true →
      (upperCase (Char.ofNat n)).all isAsciiNameChar = true := by decide +kernel
  have hupper := hall c.toNat (toNat_lt_of_isAsciiNameChar hc)
  rw [Char.ofNat_toNat] at hupper
  exact List.all_eq_true.mp (hupper hc) d hd

namespace Text.IsName

variable {name : Text}

theorem notMem (h : name.IsName) {c : Char} (hc : isAsciiNameChar c = false) : c ∉ name := by
  intro hmem
  rw [h.2 c hmem] at hc
  cases hc

theorem append {other : Text} (h : name.IsName) (hother : ∀ c ∈ other, isAsciiNameChar c = true) :
    (name ++ other).IsName := by
  refine ⟨by simp [h.1], ?_⟩
  intro c hc
  rcases List.mem_append.mp hc with hc | hc
  · exact h.2 c hc
  · exact hother c hc

theorem of_capitalize (h : name.IsName) : ∀ c ∈ capitalize name, isAsciiNameChar c = true := by
  obtain ⟨hne, hall⟩ := h
  cases name with
  | nil => exact absurd rfl hne
  | cons first rest =>
    intro c hc
    rcases List.mem_append.mp hc with hc | hc
    · exact isAsciiNameChar_of_mem_upperCase (hall first (by simp)) hc
    · exact hall c (by simp [hc])

end Text.IsName

/-! ### Up to a character -/

section

variable {c : Char} {body more : Text}

theorem dropWhile_bne (hbody : c ∉ body) (hmore : ∀ d ∈ more.head?, d = c) :
    (body ++ more).dropWhile (· != c) = more := by
  rw [List.dropWhile_append_of_pos fun d hd => bne_iff_ne.mpr (ne_of_mem_of_not_mem hd hbody)]
  cases more with
  | nil => rfl
  | cons d more => simp [hmore d (by simp)]

end

/-! ### Lines -/

namespace Gathered

/-- A line may end in a comma. -/
def IsLineEnd (tail : Text) : Prop :=
  tail = [] ∨ tail = [',']

theorem readText_append_cons (front back : Text) (gathered : Gathered) :
    readText (front ++ '\n' :: back) gathered = readText front (readText back gathered) := by
  rw [readText, List.splitOn_append_cons_self, List.foldr_append]
  rfl

theorem readText_line {line : Text} (h : '\n' ∉ line) (gathered : Gathered) :
    readText line gathered = readLine line gathered := by
  rw [readText, List.splitOn_eq_singleton h]
  rfl

/-- A line is read by its indentation, and its comma is left alone. -/
theorem readLine_eq {body tail : Text} (hcomma : ',' ∉ body) (hspace : body.head? ≠ some ' ')
    (htail : IsLineEnd tail) (indent : Nat) (gathered : Gathered) :
    readLine (List.replicate indent ' ' ++ (body ++ tail)) gathered
      = match indent with
        | 4 => gathered.readField body
        | 6 => { scalars := gathered.scalars, arrays := gathered.arrays }
        | 8 => gathered.readEntry body
        | _ => gathered := by
  have hinked : (List.replicate indent ' ' ++ (body ++ tail)).takeWhile (· != ',')
      = List.replicate indent ' ' ++ body := by
    rw [← List.append_assoc]
    refine takeWhile_bne (by simp [hcomma]) ?_
    rcases htail with rfl | rfl <;> simp
  have hbody : (List.replicate indent ' ' ++ body).dropWhile (· == ' ') = body := by
    rw [List.dropWhile_append_of_pos (by simp)]
    cases body with
    | nil => rfl
    | cons c body => rw [List.dropWhile_cons_of_neg (by simpa using hspace)]
  rw [readLine]
  simp only [hinked, hbody, List.length_append, List.length_replicate, Nat.add_sub_cancel_right]

/-- A text with an indentation adds something, whatever else has been read. -/
def Adds (indent : Nat) (text : Text) (add : Gathered → Gathered) : Prop :=
  ∀ tail, IsLineEnd tail → ∀ gathered,
    readText (List.replicate indent ' ' ++ (text ++ tail)) gathered = add gathered

/-- Texts with separators between them, none before the first and none behind the last, add what
each of them adds. -/
theorem readText_intercalate {α : Type} {indent : Nat} {separator : Text}
    (hseparator : separator = ',' :: '\n' :: List.replicate indent ' ')
    (hempty : ∀ gathered, readText (List.replicate indent ' ') gathered = gathered)
    (text : α → Text) (add : α → Gathered → Gathered) (items : List α)
    (h : ∀ item ∈ items, Adds indent (text item) (add item)) (gathered : Gathered) :
    readText (List.replicate indent ' ' ++ separator.intercalate (items.map text)) gathered
      = items.foldr add gathered := by
  induction items with
  | nil => simpa using hempty gathered
  | cons item items ih =>
    cases items with
    | nil => simpa using h item (by simp) [] (.inl rfl) gathered
    | cons next items =>
      have hmore := ih fun other hother => h other (List.mem_cons_of_mem _ hother)
      have hsplit : List.replicate indent ' '
            ++ separator.intercalate ((item :: next :: items).map text)
          = (List.replicate indent ' ' ++ (text item ++ [',']))
            ++ '\n' :: (List.replicate indent ' '
              ++ separator.intercalate ((next :: items).map text)) := by
        simp [hseparator, List.intercalate_cons_cons]
      rw [hsplit, readText_append_cons, hmore, h item (by simp) [','] (.inr rfl)]
      rfl

/-! ### Fields and entries -/

theorem adds_scalar {name : Text} (h : name.IsName) : Adds 4 name (addScalar name) := by
  intro tail htail gathered
  have hcomma : ',' ∉ name := h.notMem (by decide)
  have hspace : name.head? ≠ some ' ' := by
    intro hhead
    exact h.notMem (by decide) (List.mem_of_mem_head? hhead)
  have hline : '\n' ∉ List.replicate 4 ' ' ++ (name ++ tail) := by
    have hname : '\n' ∉ name := h.notMem (by decide)
    rcases htail with rfl | rfl <;> simp [hname]
  have hopen : (name ++ []).takeWhile (· != '[') = name :=
    takeWhile_bne (h.notMem (by decide)) (by simp)
  rw [List.append_nil] at hopen
  rw [readText_line hline, readLine_eq hcomma hspace htail]
  simp [readField, hopen, h.1]

/-- A line of an entry, as far as lines are told apart. -/
structure IsEntryLine (line : Text) : Prop where
  no_comma : ',' ∉ line
  no_break : '\n' ∉ line
  no_space : line.head? ≠ some ' '

theorem IsEntryLine.adds {line : Text} (h : IsEntryLine line) : Adds 8 line (readEntry line) := by
  intro tail htail gathered
  have hline : '\n' ∉ List.replicate 8 ' ' ++ (line ++ tail) := by
    rcases htail with rfl | rfl <;> simp [h.no_break]
  rw [readText_line hline]
  exact readLine_eq h.no_comma h.no_space htail 8 gathered

theorem readEntry_aliased {quoted name sub : Text} (hquoted : ' ' ∉ quoted) (hname : '.' ∉ name)
    (gathered : Gathered) :
    gathered.readEntry (aliased quoted (name ++ '.' :: sub))
      = if sub = "asset->url".toList then gathered.addEntry (.image name gathered.subFields)
        else gathered.addSubField sub := by
  have hpath : ((quoted ++ "\": ".toList ++ (name ++ '.' :: sub)).dropWhile (· != ' ')).drop 1
      = name ++ '.' :: sub := by
    have hcut : quoted ++ "\": ".toList ++ (name ++ '.' :: sub)
        = (quoted ++ "\":".toList) ++ ' ' :: (name ++ '.' :: sub) := by
      simp
    rw [hcut, dropWhile_bne (by simp [hquoted]) (by simp)]
    rfl
  have hname : (name ++ '.' :: sub).takeWhile (· != '.') = name := takeWhile_bne hname (by simp)
  have hsub : (name ++ '.' :: sub).drop (name.length + 1) = sub := by simp
  simp only [aliased, List.cons_append, readEntry, hpath, hname, hsub, beq_iff_eq]

end Gathered

def Entry.names : Entry → List Text
  | .plain name => [name]
  | .image name subFields => name :: subFields

/-- The names in what an array contributes. -/
def ArrayProjection.names (array : ArrayProjection) : List Text :=
  array.name :: (array.entries.getD []).flatMap Entry.names

/-- The names of the fields in a projection, and of all that is below them. -/
def Projection.names (projection : Projection) : List Text :=
  projection.scalars ++ projection.arrays.flatMap ArrayProjection.names

namespace Gathered

theorem isEntryLine_of_isName {name : Text} (h : name.IsName) : IsEntryLine name where
  no_comma := h.notMem (by decide)
  no_break := h.notMem (by decide)
  no_space := by
    intro hhead
    exact h.notMem (by decide) (List.mem_of_mem_head? hhead)

theorem isEntryLine_aliased {quoted path : Text} (hquoted : quoted.IsName)
    (hcomma : ',' ∉ path) (hbreak : '\n' ∉ path) : IsEntryLine (aliased quoted path) where
  no_comma := by simp [aliased, hcomma, hquoted.notMem (c := ',') (by decide)]
  no_break := by simp [aliased, hbreak, hquoted.notMem (c := '\n') (by decide)]
  no_space := by simp [aliased]

theorem isEntryLine_of_mem_lines {entry : Entry} (hnames : ∀ name ∈ entry.names, name.IsName) :
    ∀ line ∈ entry.lines, IsEntryLine line := by
  cases entry with
  | plain name =>
    intro line hline
    rw [Entry.lines, List.mem_singleton] at hline
    rw [hline]
    exact isEntryLine_of_isName (hnames name (by simp [Entry.names]))
  | image name subFields =>
    have hname : name.IsName := hnames name (by simp [Entry.names])
    have hcomma : ',' ∉ name := hname.notMem (by decide)
    have hbreak : '\n' ∉ name := hname.notMem (by decide)
    intro line hline
    rw [Entry.lines, List.mem_cons, List.mem_map] at hline
    rcases hline with rfl | ⟨sub, hsub, rfl⟩
    · exact isEntryLine_aliased hname (by simp [hcomma]) (by simp [hbreak])
    · have hsub : sub.IsName := hnames sub (by simp [Entry.names, hsub])
      refine isEntryLine_aliased (hname.append hsub.of_capitalize) ?_ ?_
      · simp [hcomma, hsub.notMem (c := ',') (by decide)]
      · simp [hbreak, hsub.notMem (c := '\n') (by decide)]

theorem foldr_subFields {name : Text} (hname : name.IsName) {subFields : List Text}
    (hsubs : ∀ sub ∈ subFields, sub.IsName) (gathered : Gathered) :
    (subFields.map fun sub => aliased (name ++ capitalize sub) (name ++ '.' :: sub)).foldr
        readEntry gathered
      = { gathered with subFields := subFields ++ gathered.subFields } := by
  induction subFields with
  | nil => rfl
  | cons sub subFields ih =>
    have hsub : sub.IsName := hsubs sub (by simp)
    have hquoted : (name ++ capitalize sub).IsName := hname.append hsub.of_capitalize
    have hother : sub ≠ "asset->url".toList := by
      rintro rfl
      exact hsub.notMem (c := '>') (by decide) (by decide)
    rw [List.map_cons, List.foldr_cons,
      ih fun other hmem => hsubs other (List.mem_cons_of_mem _ hmem),
      readEntry_aliased (hquoted.notMem (by decide)) (hname.notMem (by decide)), if_neg hother]
    rfl

/-- The lines of an entry add the entry, when no attributes are left over from below. -/
theorem foldr_lines {entry : Entry} (hnames : ∀ name ∈ entry.names, name.IsName)
    {gathered : Gathered} (hclean : gathered.subFields = []) :
    entry.lines.foldr readEntry gathered = gathered.addEntry entry := by
  cases entry with
  | plain name =>
    have hname : name.IsName := hnames name (by simp [Entry.names])
    rw [Entry.lines, List.foldr_cons, List.foldr_nil]
    unfold readEntry
    split
    · exact absurd rfl hname.1
    · exact absurd List.mem_cons_self (hname.notMem (c := '"') (by decide))
    · rfl
  | image name subFields =>
    have hname : name.IsName := hnames name (by simp [Entry.names])
    have hsubs : ∀ sub ∈ subFields, sub.IsName := by
      intro sub hsub
      exact hnames sub (by simp [Entry.names, hsub])
    have hhead : name ++ ".asset->url".toList = name ++ '.' :: "asset->url".toList := rfl
    rw [Entry.lines, List.foldr_cons, foldr_subFields hname hsubs, hhead,
      readEntry_aliased (hname.notMem (by decide)) (hname.notMem (by decide)), if_pos rfl, hclean,
      List.append_nil]
    rfl

theorem foldr_flatMap_lines {entries : List Entry}
    (hnames : ∀ entry ∈ entries, ∀ name ∈ entry.names, name.IsName) {gathered : Gathered}
    (hclean : gathered.subFields = []) :
    (entries.flatMap Entry.lines).foldr readEntry gathered
      = { gathered with entries := entries ++ gathered.entries } := by
  induction entries with
  | nil => rfl
  | cons entry entries ih =>
    let below : Gathered := { gathered with entries := entries ++ gathered.entries }
    have hbelow : below.subFields = [] := hclean
    rw [List.flatMap_cons, List.foldr_append,
      ih fun other hother => hnames other (List.mem_cons_of_mem _ hother),
      foldr_lines (hnames entry (by simp)) hbelow]
    simp [addEntry, below, hclean]

/-- The line that names an array is read up to its bracket. -/
theorem readLine_array {name tail : Text} (hname : name.IsName) (htail : IsLineEnd tail)
    {opened : Text} (hopened : opened = "[]".toList ∨ opened = "[] ".toList ++ ['{'])
    (gathered : Gathered) :
    readLine (List.replicate 4 ' ' ++ ((name ++ opened) ++ tail)) gathered
      = gathered.addArray
        ⟨name, if opened = "[]".toList then none else some gathered.entries⟩ := by
  have hcomma : ',' ∉ name ++ opened := by
    have hcomma : ',' ∉ name := hname.notMem (by decide)
    rcases hopened with rfl | rfl <;> simp [hcomma]
  have hspace : (name ++ opened).head? ≠ some ' ' := by
    rw [List.head?_append_of_ne_nil _ hname.1]
    intro hhead
    exact hname.notMem (by decide) (List.mem_of_mem_head? hhead)
  have hcut : (name ++ opened).takeWhile (· != '[') = name := by
    refine takeWhile_bne (hname.notMem (by decide)) ?_
    rcases hopened with rfl | rfl <;> simp
  rw [readLine_eq hcomma hspace htail]
  simp only [readField, hcut]
  rcases hopened with rfl | rfl <;> simp [hname.1]

theorem adds_array {array : ArrayProjection} (hnames : ∀ name ∈ array.names, name.IsName) :
    Adds 4 array.render (addArray array) := by
  obtain ⟨name, entries⟩ := array
  have hname : name.IsName := hnames name (by simp [ArrayProjection.names])
  have hbreak : '\n' ∉ name := hname.notMem (by decide)
  intro tail htail gathered
  cases entries with
  | none =>
    have hline : '\n' ∉ List.replicate 4 ' ' ++ ((name ++ "[]".toList) ++ tail) := by
      rcases htail with rfl | rfl <;> simp [hbreak]
    rw [ArrayProjection.render, readText_line hline, readLine_array hname htail (.inl rfl)]
    rfl
  | some entries =>
    have hentries : ∀ entry ∈ entries, ∀ name ∈ entry.names, name.IsName := by
      intro entry hentry name hmem
      refine hnames name (List.mem_cons_of_mem _ (List.mem_flatMap.mpr ⟨entry, hentry, hmem⟩))
    have hopening : '\n' ∉ List.replicate 4 ' ' ++ ((name ++ ("[] ".toList ++ ['{'])) ++ []) := by
      simp [hbreak]
    have hclosing : '\n' ∉ List.replicate 6 ' ' ++ (['}'] ++ tail) := by
      rcases htail with rfl | rfl <;> decide
    have hsplit : List.replicate 4 ' ' ++ (ArrayProjection.render ⟨name, some entries⟩ ++ tail)
        = (List.replicate 4 ' ' ++ ((name ++ ("[] ".toList ++ ['{'])) ++ []))
          ++ '\n' :: ((List.replicate 8 ' '
              ++ entrySeparator.intercalate ((entries.flatMap Entry.lines).map id))
            ++ '\n' :: (List.replicate 6 ' ' ++ (['}'] ++ tail))) := by
      simp [ArrayProjection.render, List.replicate]
    have hseparator : entrySeparator = ',' :: '\n' :: List.replicate 8 ' ' := rfl
    have hlines : ∀ line ∈ entries.flatMap Entry.lines, Adds 8 (id line) (readEntry line) := by
      intro line hline
      obtain ⟨entry, hentry, hmem⟩ := List.mem_flatMap.mp hline
      exact (isEntryLine_of_mem_lines (hentries entry hentry) line hmem).adds
    rw [hsplit, readText_append_cons, readText_append_cons, readText_line hclosing,
      readLine_eq (by decide) (by decide) htail 6,
      readText_intercalate hseparator (fun _ => rfl) id readEntry _ hlines,
      foldr_flatMap_lines hentries rfl, readText_line hopening,
      readLine_array hname (.inl rfl) (.inr rfl)]
    simp [addArray]

end Gathered

/-! ### Whole queries

The two parts of a body may both be empty as text, and a separator stands between them only if
neither is.  Read as one row of fields the body needs no such condition.
-/

theorem intercalate_append {separator : Text} {front back : List Text} (hfront : front ≠ [])
    (hback : back ≠ []) :
    separator.intercalate (front ++ back)
      = separator.intercalate front ++ separator ++ separator.intercalate back := by
  induction front with
  | nil => exact absurd rfl hfront
  | cons item front ih =>
    cases front with
    | nil => simp [List.intercalate_cons_of_ne_nil hback]
    | cons next front =>
      have hmore := ih (by simp)
      simp only [List.cons_append, List.intercalate_cons_cons] at hmore ⊢
      rw [hmore]
      simp only [List.append_assoc]

theorem intercalate_eq_nil_iff (separator : Text) {items : List Text}
    (hitems : ∀ item ∈ items, item ≠ []) : separator.intercalate items = [] ↔ items = [] := by
  cases items with
  | nil => simp
  | cons item items =>
    have hitem : item ≠ [] := hitems item (by simp)
    cases items <;> simp [hitem]

/-- What stands between the braces of a query is the fields with separators between them, none
before the first and none behind the last. -/
theorem Projection.renderBody_eq {projection : Projection}
    (hscalars : ∀ name ∈ projection.scalars, name ≠ []) :
    projection.renderBody
      = fieldSeparator.intercalate
        (projection.scalars ++ projection.arrays.map ArrayProjection.render) := by
  have harrays : ∀ text ∈ projection.arrays.map ArrayProjection.render, text ≠ [] := by
    intro text htext
    obtain ⟨array, -, rfl⟩ := List.mem_map.mp htext
    unfold ArrayProjection.render
    split <;> simp
  rw [renderBody, renderScalars, renderArrays]
  by_cases hnoScalars : projection.scalars = []
  · simp [hnoScalars]
  · by_cases hnoArrays : projection.arrays.map ArrayProjection.render = []
    · simp [hnoArrays]
    · have hscalars := mt (intercalate_eq_nil_iff fieldSeparator hscalars).mp hnoScalars
      have harrays := mt (intercalate_eq_nil_iff fieldSeparator harrays).mp hnoArrays
      simp [hscalars, harrays, intercalate_append hnoScalars hnoArrays]

namespace Gathered

theorem foldr_addArray (arrays : List ArrayProjection) (gathered : Gathered) :
    arrays.foldr addArray { gathered with subFields := [], entries := [] }
      = { scalars := gathered.scalars, arrays := arrays ++ gathered.arrays } := by
  induction arrays with
  | nil => rfl
  | cons array arrays ih => rw [List.foldr_cons, ih]; rfl

theorem foldr_addScalar (scalars : List Text) (gathered : Gathered) :
    scalars.foldr addScalar { gathered with subFields := [], entries := [] }
      = { scalars := scalars ++ gathered.scalars, arrays := gathered.arrays } := by
  induction scalars with
  | nil => rfl
  | cons name scalars ih => rw [List.foldr_cons, ih]; rfl

/-- The body of a query adds every field of the projection. -/
theorem readText_body {projection : Projection} (hnames : ∀ name ∈ projection.names, name.IsName) :
    readText (List.replicate 4 ' ' ++ projection.renderBody) {}
      = { scalars := projection.scalars, arrays := projection.arrays } := by
  have hscalars : ∀ name ∈ projection.scalars, name.IsName := by
    intro name hmem
    exact hnames name (List.mem_append_left _ hmem)
  have harrays : ∀ array ∈ projection.arrays, ∀ name ∈ array.names, name.IsName := by
    intro array harray name hmem
    exact hnames name (List.mem_append_right _ (List.mem_flatMap.mpr ⟨array, harray, hmem⟩))
  let items : List (Text ⊕ ArrayProjection) :=
    projection.scalars.map .inl ++ projection.arrays.map .inr
  let text : Text ⊕ ArrayProjection → Text := Sum.elim id ArrayProjection.render
  let add : Text ⊕ ArrayProjection → Gathered → Gathered := Sum.elim addScalar addArray
  have hbody : projection.renderBody = fieldSeparator.intercalate (items.map text) := by
    rw [Projection.renderBody_eq fun name hmem => (hscalars name hmem).1]
    simp [items, text, Function.comp_def]
  have hadds : ∀ item ∈ items, Adds 4 (text item) (add item) := by
    intro item hitem
    rcases List.mem_append.mp hitem with hmem | hmem
    · obtain ⟨name, hname, rfl⟩ := List.mem_map.mp hmem
      exact adds_scalar (hscalars name hname)
    · obtain ⟨array, harray, rfl⟩ := List.mem_map.mp hmem
      exact adds_array (harrays array harray)
  have hseparator : fieldSeparator = ',' :: '\n' :: List.replicate 4 ' ' := rfl
  rw [hbody, readText_intercalate hseparator (fun _ => rfl) text add items hadds,
    List.foldr_append, List.foldr_map, List.foldr_map]
  have hfoldArrays := foldr_addArray projection.arrays {}
  have hfoldScalars := foldr_addScalar projection.scalars { arrays := projection.arrays }
  rw [List.append_nil] at hfoldArrays hfoldScalars
  exact (congrArg (projection.scalars.foldr addScalar) hfoldArrays).trans hfoldScalars

end Gathered

theorem Projection.ofQuery_eq {typeName opening : Text} (htypeName : '"' ∉ typeName)
    (hopening : '\n' ∉ opening) (lines : Text) :
    ofQuery ("*[_type == \"".toList ++ (typeName ++ '"' :: (opening ++ '\n' :: lines)))
      = { typeName, scalars := (Gathered.readText lines {}).scalars
          arrays := (Gathered.readText lines {}).arrays } := by
  have hbehind : ("*[_type == \"".toList ++ (typeName ++ '"' :: (opening ++ '\n' :: lines))).drop
        "*[_type == \"".length = typeName ++ '"' :: (opening ++ '\n' :: lines) := rfl
  have htype : (typeName ++ '"' :: (opening ++ '\n' :: lines)).takeWhile (· != '"') = typeName :=
    takeWhile_bne htypeName (by simp)
  have hlines : (('"' :: opening) ++ '\n' :: lines).dropWhile (· != '\n') = '\n' :: lines :=
    dropWhile_bne (by simp [hopening]) (by simp)
  rw [List.cons_append] at hlines
  simp only [ofQuery, hbehind, htype, List.drop_left, hlines, List.drop_one, List.tail_cons]

/-- A query of any selector reads back. -/
theorem Projection.ofQuery_query {projection : Projection} (htypeName : '"' ∉ projection.typeName)
    (hnames : ∀ name ∈ projection.names, name.IsName) {selector : Text} (hselector : '\n' ∉ selector) :
    ofQuery (projection.query selector) = projection := by
  have hopen : " ".toList ++ '{' :: "\n    ".toList = [' ', '{'] ++ '\n' :: List.replicate 4 ' ' := rfl
  have hclose : "\n  ".toList ++ ['}'] = '\n' :: [' ', ' ', '}'] := rfl
  have hbracket : "\"]".toList = '"' :: "]".toList := rfl
  have hshape (start typeName bracket brace indent body close : Text) :
      start ++ typeName ++ ('"' :: bracket) ++ selector ++ (brace ++ '\n' :: indent) ++ body
          ++ ('\n' :: close)
        = start ++ (typeName ++ '"' :: ((bracket ++ selector ++ brace)
          ++ '\n' :: ((indent ++ body) ++ '\n' :: close))) := by
    simp only [List.append_assoc, List.cons_append]
  have hopening : '\n' ∉ "]".toList ++ selector ++ [' ', '{'] := by simp [hselector]
  have hclosing : Gathered.readText [' ', ' ', '}'] {} = {} := rfl
  unfold query
  rw [hopen, hclose, hbracket, hshape, ofQuery_eq htypeName hopening,
    Gathered.readText_append_cons, hclosing, Gathered.readText_body hnames]

/-! ### Schemas -/

/-- The table holds the first nested field of each name, in order. -/
theorem NestedTable.firsts_ofList (nested : List NestedField) :
    (ofList nested).firsts = nested.eraseDupsBy fun a b => a.name == b.name := by
  have hfold : ∀ table : NestedTable, (nested.foldl insert table).firsts
      = table.firsts ++ (nested.filter fun item => !table.firsts.any (·.name == item.name)).eraseDupsBy
        fun a b => a.name == b.name := by
    induction nested with
    | nil => simp
    | cons item nested ih =>
      intro table
      rw [List.foldl_cons, ih, insert]
      by_cases htaken : table.firsts.any (·.name == item.name) = true
      · rw [if_pos htaken, List.filter_cons_of_neg (by simp [htaken])]
      · have hkeeps : (fun other : NestedField => !(table.firsts ++ [item]).any (·.name == other.name))
            = fun other => decide ((other.name == item.name) = false)
              && !table.firsts.any (·.name == other.name) := by
          funext other
          by_cases hname : other.name = item.name
          · simp [hname]
          · simp [hname, Ne.symm hname]
        rw [if_neg htaken, List.filter_cons_of_pos (by simp [htaken]), List.eraseDupsBy_cons,
          List.filter_filter, List.append_assoc, hkeeps]
        rfl
  rw [ofList, hfold]
  simp

theorem NestedTable.mem_of_mem_firsts {nested : List NestedField} {item : NestedField}
    (h : item ∈ (ofList nested).firsts) : item ∈ nested := by
  rw [ofList_eq] at h
  exact firstsOf_subset nested h

/-- Whether the names in a schema can be read back from its queries. -/
def Schema.Legible (schema : Schema) : Prop :=
  '"' ∉ schema.typeName
  ∧ ∀ field ∈ schema.fields, field.name.IsName
    ∧ ∀ nested ∈ field.nestedFields.getD [], nested.name.IsName
      ∧ ∀ sub ∈ nested.subFields.getD [], sub.name.IsName

instance (schema : Schema) : Decidable schema.Legible :=
  inferInstanceAs (Decidable (_ ∧ _))

namespace Schema

theorem Legible.names_projection {schema : Schema} (h : schema.Legible) :
    ∀ name ∈ schema.projection.names, name.IsName := by
  have hfields := h.2
  intro name hname
  rcases List.mem_append.mp hname with hscalar | harray
  · obtain ⟨field, hfield, rfl⟩ := List.mem_map.mp hscalar
    exact (hfields field (List.mem_of_mem_filter hfield)).1
  · obtain ⟨array, harray, hname⟩ := List.mem_flatMap.mp harray
    obtain ⟨field, hfield, rfl⟩ := List.mem_map.mp harray
    obtain ⟨hfieldName, hnested⟩ := hfields field (List.mem_of_mem_filter hfield)
    rw [ArrayProjection.ofField_eq, ArrayProjection.names, getD_nonEmpty?] at hname
    rcases List.mem_cons.mp hname with rfl | hname
    · exact hfieldName
    · obtain ⟨entry, hentry, hname⟩ := List.mem_flatMap.mp hname
      obtain ⟨nested, hmem, rfl⟩ := List.mem_map.mp hentry
      obtain ⟨hnestedName, hsubs⟩ := hnested nested (NestedTable.mem_of_mem_firsts hmem)
      unfold Entry.ofNested at hname
      split at hname
      · rcases List.mem_cons.mp hname with rfl | hname
        · exact hnestedName
        · obtain ⟨sub, hsub, rfl⟩ := List.mem_map.mp hname
          exact hsubs sub hsub
      · rw [Entry.names, List.mem_singleton] at hname
        rw [hname]
        exact hnestedName

theorem query_of_query? {schema : Schema} {kind : QueryKind} {query : Text}
    (hquery : schema.queries.query? kind = some query) :
    query = schema.projection.query kind.selector := by
  cases kind with
  | single => exact (Option.some.inj hquery).symm
  | list => exact (Option.some.inj hquery).symm
  | bySlug =>
    have hsome := (Option.ite_none_right_eq_some ..).mp hquery
    exact (Option.some.inj hsome.2).symm

theorem Legible.ofQuery_query {schema : Schema} (h : schema.Legible) {kind : QueryKind}
    {query : Text} (hquery : schema.queries.query? kind = some query) :
    Projection.ofQuery query = schema.projection := by
  have hselector : '\n' ∉ kind.selector := by cases kind <;> decide
  rw [query_of_query? hquery]
  exact Projection.ofQuery_query h.1 h.names_projection hselector

/-- **Queries can be read back.**  One reader recovers what a schema's queries project from each of
them, whatever it selects: the fields that are no arrays, and the arrays, both in order, and for an
array of known objects the first entry of each name.  So two queries of a kind are the same text
exactly when they project the same, and the separators stand between fields and nowhere else. -/
theorem queries_read_back (schema : Schema) (h : schema.Legible) :
    (∀ kind query, schema.queries.query? kind = some query →
      Projection.ofQuery query = schema.projection)
    ∧ schema.projection
      = { typeName := schema.typeName
          scalars := (schema.fields.filter (!·.isArray)).map (·.name)
          arrays := (schema.fields.filter (·.isArray)).map fun field =>
            ⟨field.name, nonEmpty? (((field.nestedFields.getD []).eraseDupsBy
              fun a b => a.name == b.name).map Entry.ofNested)⟩ }
    ∧ schema.projection.renderBody
      = fieldSeparator.intercalate (schema.projection.scalars
        ++ schema.projection.arrays.map ArrayProjection.render)
    ∧ ∀ other : Schema, other.Legible → ∀ kind query query',
        schema.queries.query? kind = some query → other.queries.query? kind = some query' →
        (query = query' ↔ schema.projection = other.projection) := by
  have harray : ArrayProjection.ofField = fun field =>
      ⟨field.name, nonEmpty? (((field.nestedFields.getD []).eraseDupsBy
        fun a b => a.name == b.name).map Entry.ofNested)⟩ := by
    funext field
    rw [ArrayProjection.ofField_eq, NestedTable.firsts_ofList]
  refine ⟨fun _ _ => h.ofQuery_query, ?_, ?_, ?_⟩
  · rw [projection, harray]
    rfl
  · refine Projection.renderBody_eq ?_
    intro name hname
    exact (h.names_projection name (List.mem_append_left _ hname)).1
  · intro other hother kind query query' hquery hquery'
    constructor
    · rintro rfl
      rw [← h.ofQuery_query hquery, hother.ofQuery_query hquery']
    · intro hprojection
      rw [query_of_query? hquery, query_of_query? hquery', hprojection]

/-- A schema with a field of every shape. -/
def album : Schema where
  typeName := "al-bum".toList
  fields :=
    [{ name := "photos".toList, type := "array".toList
       nestedFields := some
        [{ name := "caption".toList, type := "string".toList },
          { name := "photo".toList, type := "image".toList
            subFields := some [⟨"alt".toList, [], false⟩, ⟨"_2".toList, [], false⟩] },
          { name := "caption".toList, type := "image".toList }] },
      { name := "slug".toList, type := "slug".toList },
      { name := "tags".toList, type := "array".toList }]

theorem queries_read_back_album :
    album.Legible ∧ Projection.ofQuery (album.query .bySlug)
      = { typeName := "al-bum".toList, scalars := ["slug".toList]
          arrays :=
            [⟨"photos".toList, some [.plain "caption".toList,
                .image "photo".toList ["alt".toList, "_2".toList]]⟩,
              ⟨"tags".toList, none⟩] } := by
  have h : album.Legible := by decide
  refine ⟨h, ?_⟩
  have hquery : album.queries.query? .bySlug = some (album.query .bySlug) := rfl
  rw [(queries_read_back album h).1 .bySlug _ hquery]
  decide

end Schema

end GroqSnippets

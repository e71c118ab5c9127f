/-
Where the keys begin that values are read from.

A name, a type and a title are looked for in the direct text of a block, and the pattern does not know
which characters of it are code.  But the direct text is spelled by the lexemes that stand directly in
the block, so each occurrence of a key begins in one of them: at a character of code, or within a
literal.  Within a literal it can only begin where the rest of the literal begins the key, or the key
begins the rest of the literal.

A literal in which a key may begin can supply a value, and it can hide the key that follows it.
-/
import GroqSnippets.Proofs.Source.Level
import Mathlib.Data.List.Infix

namespace GroqSnippets

/-! ### The lexeme at a place -/

/-- The lexeme of a row that a character of its text belongs to. -/
def lexemeAt : List Lexeme → Nat → Option Lexeme
  | [], _ => none
  | lexeme :: row, n =>
    if n < lexeme.text.length then some lexeme else lexemeAt row (n - lexeme.text.length)

/-- A character of the text stands in a lexeme, behind those before it. -/
theorem exists_lexemeAt {row : List Lexeme} {n : Nat} (hn : n < (rowText row).length) :
    ∃ front lexeme back, row = front ++ lexeme :: back ∧ lexemeAt row n = some lexeme
      ∧ (rowText front).length ≤ n ∧ n < (rowText front).length + lexeme.text.length := by
  induction row generalizing n with
  | nil => simp at hn
  | cons first row ih =>
    rw [lexemeAt]
    by_cases hfirst : n < first.text.length
    · rw [if_pos hfirst]
      exact ⟨[], first, row, rfl, rfl, Nat.zero_le n, by simpa using hfirst⟩
    · rw [if_neg hfirst]
      rw [rowText_cons, List.length_append] at hn
      obtain ⟨front, lexeme, back, rfl, hthere, hlo, hhi⟩ := @ih (n - first.text.length) (by omega)
      refine ⟨first :: front, lexeme, back, rfl, hthere, ?_, ?_⟩
      · rw [rowText_cons, List.length_append]
        omega
      · rw [rowText_cons, List.length_append]
        omega

theorem drop_rowText {front back : List Lexeme} {lexeme : Lexeme} {n : Nat}
    (hlo : (rowText front).length ≤ n) (hhi : n < (rowText front).length + lexeme.text.length) :
    (rowText (front ++ lexeme :: back)).drop n
      = lexeme.text.drop (n - (rowText front).length) ++ rowText back := by
  obtain ⟨k, rfl⟩ := Nat.exists_eq_add_of_le hlo
  rw [rowText_append, rowText_cons, List.drop_length_add_append, Nat.add_sub_cancel_left,
    List.drop_append_of_le_length (by omega)]

/-! ### Keys within literals

A key may begin anywhere within a literal and go on behind it.  What can be said of the literal is
that what is left of it there begins the key with its colon, or is begun by it.
-/

/-- Whether a text that is not empty begins a key with its colon, or is begun by it. -/
def beginsKey (key tail : Text) : Bool :=
  !tail.isEmpty && (tail.isPrefixOf (key ++ [':']) || (key ++ [':']).isPrefixOf tail)

/-- Whether a lexeme is a literal within which a key may begin. -/
def Lexeme.mayBegin (key : Text) : Lexeme → Bool
  | quoted text | regex text => text.tails.any (beginsKey key)
  | code _ | comment _ => false

/-- An occurrence of a key begins in a lexeme, and the rest of the lexeme begins the key or is begun by
it. -/
theorem exists_begins {key : Text} {row : List Lexeme} {n : Nat} {found : Match}
    (hmatch : (Pattern.key key).match? ((Cursor.ofText (rowText row)).skip n) = some found) :
    ∃ front lexeme back, row = front ++ lexeme :: back
      ∧ lexemeAt row found.place.offset = some lexeme
      ∧ found.place.offset = n
      ∧ (rowText front).length ≤ n ∧ n < (rowText front).length + lexeme.text.length
      ∧ beginsKey key (lexeme.text.drop (n - (rowText front).length)) = true := by
  have hplace := Pattern.place_of_match? hmatch
  obtain ⟨-, gap, q, body, q', more, hrest, -⟩ := Pattern.match?_key.mp hmatch
  rw [Cursor.rest_skip, Cursor.ofText] at hrest
  have hn : n < (rowText row).length := by
    by_contra hlt
    rw [List.drop_eq_nil_of_le (Nat.not_lt.mp hlt)] at hrest
    simp at hrest
  have hoffset : found.place.offset = n := by
    rw [hplace, Cursor.offset_skip, Cursor.ofText, Nat.zero_add, Nat.min_eq_left (Nat.le_of_lt hn)]
  obtain ⟨front, lexeme, back, rfl, hthere, hlo, hhi⟩ := exists_lexemeAt hn
  rw [← hoffset] at hthere
  refine ⟨front, lexeme, back, rfl, hthere, hoffset, hlo, hhi, ?_⟩
  rw [drop_rowText hlo hhi] at hrest
  have hne : lexeme.text.drop (n - (rowText front).length) ≠ [] := by
    rw [ne_eq, List.drop_eq_nil_iff]
    omega
  have htail : lexeme.text.drop (n - (rowText front).length)
      <+: (key ++ [':']) ++ (gap ++ q :: (body ++ q' :: more)) :=
    ⟨rowText back, by simpa using hrest⟩
  have hboth := List.prefix_or_prefix_of_prefix htail (List.prefix_append _ _)
  simpa [beginsKey, hne] using hboth

theorem mayBegin_of_beginsKey {key : Text} {lexeme : Lexeme} {n : Nat}
    (hcode : ∀ c, lexeme ≠ .code c) (hcomment : lexeme.isComment = false)
    (h : beginsKey key (lexeme.text.drop n) = true) : lexeme.mayBegin key = true := by
  cases lexeme with
  | code c => exact absurd rfl (hcode c)
  | comment text => cases hcomment
  | quoted text | regex text =>
    exact List.any_eq_true.mpr ⟨_, (List.mem_tails _ _).mpr (List.drop_suffix _ _), h⟩

/-! ### The occurrences that are taken -/

/-- The occurrence that a name is read from. -/
def nameMatch? (level : Text) : Option Match :=
  namePattern.first? (Cursor.ofText level)

def typeMatch? (level : Text) : Option Match := do
  let name ← nameMatch? level
  (typePattern.first? name.stop).or (typePattern.first? (Cursor.ofText level))

def titleMatch? (level : Text) : Option Match :=
  titlePattern.first? (Cursor.ofText level)

/-- A name and its type are the values of two occurrences. -/
theorem matches_of_nameAndType? {level name type : Text} (h : nameAndType? level = some (name, type)) :
    (∃ found, nameMatch? level = some found ∧ found.value = some name)
      ∧ ∃ found, typeMatch? level = some found ∧ found.value = some type := by
  obtain ⟨first, second, hfirst, hname, hsecond, htype⟩ := nameAndType?_eq_some_iff.mp h
  refine ⟨⟨first, hfirst, hname⟩, second, ?_, htype⟩
  rw [typeMatch?, nameMatch?, hfirst]
  exact hsecond

/-- What a search from a place on finds stands at a place further on. -/
theorem exists_skip_of_first? {pattern : Pattern} {text : Text} {n : Nat} {found : Match}
    (h : pattern.first? ((Cursor.ofText text).skip n) = some found) :
    ∃ k, n ≤ k ∧ pattern.match? ((Cursor.ofText text).skip k) = some found := by
  obtain ⟨k, -, hmatch, -⟩ := Pattern.first?_eq_some_iff.mp h
  rw [Cursor.skip_skip] at hmatch
  exact ⟨n + k, Nat.le_add_right n k, hmatch⟩

theorem exists_of_nameMatch? {level : Text} {found : Match} (h : nameMatch? level = some found) :
    ∃ n, namePattern.match? ((Cursor.ofText level).skip n) = some found := by
  obtain ⟨n, -, hmatch⟩ := exists_skip_of_first? (n := 0) h
  exact ⟨n, hmatch⟩

theorem exists_of_titleMatch? {level : Text} {found : Match} (h : titleMatch? level = some found) :
    ∃ n, titlePattern.match? ((Cursor.ofText level).skip n) = some found := by
  obtain ⟨n, -, hmatch⟩ := exists_skip_of_first? (n := 0) h
  exact ⟨n, hmatch⟩

theorem exists_of_typeMatch? {level : Text} {found : Match} (h : typeMatch? level = some found) :
    ∃ n, typePattern.match? ((Cursor.ofText level).skip n) = some found := by
  obtain ⟨name, hname, hfound⟩ := Option.bind_eq_some_iff.mp h
  obtain ⟨n, hmatch⟩ := exists_of_nameMatch? hname
  rcases Option.or_eq_some_iff.mp hfound with hbehind | ⟨-, hfirst⟩
  · rw [Match.stop, Pattern.place_of_match? hmatch, Cursor.skip_skip] at hbehind
    obtain ⟨k, -, hthere⟩ := exists_skip_of_first? hbehind
    exact ⟨k, hthere⟩
  · obtain ⟨k, -, hthere⟩ := exists_skip_of_first? (n := 0) hfirst
    exact ⟨k, hthere⟩

/-! ### The keys of a block

Occurrences lie in the direct text and not in the source, so where a key begins is told by the
lexeme that it begins in.
-/

/-- Whether a value is read from an occurrence of a key that begins at a character of code directly
inside a brace, or within a literal there that the key may begin in. -/
def Text.ReadFrom (text : Text) (m o : Nat) (key : Text) (taken : Option Match) (value : Text) : Prop :=
  ∃ found lexeme, taken = some found ∧ found.value = some value
    ∧ lexemeAt (text.directRow m o) found.place.offset = some lexeme
    ∧ ((∃ c, lexeme = .code c) ∨ lexeme.mayBegin key = true)

theorem not_isComment_of_mem_directRow {text : Text} {m o : Nat} {lexeme : Lexeme}
    (h : lexeme ∈ text.directRow m o) : lexeme.isComment = false := by
  obtain ⟨⟨p, other⟩, hmem, rfl⟩ := List.mem_map.mp h
  have hseen := (List.mem_filter.mp (List.mem_filter.mp hmem).1).1
  rw [seen_eq (start_le_of_mem_seen hseen)] at hseen
  simpa using (List.mem_filter.mp hseen).2

section

variable {text : Text} {m o : Nat} {block : Text}

theorem readFrom_of_match? {key value : Text} {taken : Option Match} {found : Match} {n : Nat}
    (htaken : taken = some found) (hvalue : found.value = some value)
    (hmatch : (Pattern.key key).match? ((Cursor.ofText (rowText (text.directRow m o))).skip n)
      = some found) : text.ReadFrom m o key taken value := by
  obtain ⟨front, lexeme, back, hrow, hthere, -, -, -, hbegins⟩ := exists_begins hmatch
  refine ⟨found, lexeme, htaken, hvalue, hthere, ?_⟩
  by_cases hcode : ∃ c, lexeme = .code c
  · exact .inl hcode
  · have hmem : lexeme ∈ text.directRow m o := by simp [hrow]
    exact .inr (mayBegin_of_beginsKey (fun c hc => hcode ⟨c, hc⟩)
      (not_isComment_of_mem_directRow hmem) hbegins)

/-- Names and types are read from keys that begin in lexemes directly inside the brace. -/
theorem readFrom_of_nameAndType? {name type : Text}
    (hdirect : directText block = rowText (text.directRow m o))
    (h : nameAndType? (directText block) = some (name, type)) :
    text.ReadFrom m o "name".toList (nameMatch? (directText block)) name
      ∧ text.ReadFrom m o "type".toList (typeMatch? (directText block)) type := by
  rw [hdirect] at h ⊢
  obtain ⟨⟨first, hfirst, hname⟩, second, hsecond, htype⟩ := matches_of_nameAndType? h
  obtain ⟨n, hn⟩ := exists_of_nameMatch? hfirst
  obtain ⟨k, hk⟩ := exists_of_typeMatch? hsecond
  exact ⟨readFrom_of_match? hfirst hname hn, readFrom_of_match? hsecond htype hk⟩

theorem readFrom_of_declaredField? {field : Field}
    (hdirect : directText block = rowText (text.directRow m o)) (h : declaredField? block = some field) :
    text.ReadFrom m o "name".toList (nameMatch? (directText block)) field.name
      ∧ text.ReadFrom m o "type".toList (typeMatch? (directText block)) field.type
      ∧ ∀ title, field.title = some title →
          text.ReadFrom m o "title".toList (titleMatch? (directText block)) title := by
  obtain ⟨hnamed, htitle, -⟩ := declaredField?_eq_some_iff.mp h
  obtain ⟨hname, htype⟩ := readFrom_of_nameAndType? hdirect hnamed
  refine ⟨hname, htype, ?_⟩
  intro title hsome
  rw [htitle] at hsome
  obtain ⟨found, hfound, hvalue⟩ := Option.bind_eq_some_iff.mp hsome
  obtain ⟨n, hn⟩ := exists_of_titleMatch? hfound
  rw [hdirect] at hn
  exact readFrom_of_match? hfound hvalue hn

end

/-- **Names, types and titles are read from keys that begin directly inside the brace of the block or
item**, at a character of code, or within a literal in which the key may begin. -/
theorem keys_begin_directly (text : Text) :
    (∀ block ∈ fieldPattern.blocks text, ∃ m o, text.FirstBrace m o
      ∧ block = text.slice m (closingOffset text o + 1)
      ∧ (∀ name, declaredName? block = some name →
          text.ReadFrom m o "name".toList (nameMatch? (directText block)) name)
      ∧ ∀ field, declaredField? block = some field →
          text.ReadFrom m o "name".toList (nameMatch? (directText block)) field.name
          ∧ text.ReadFrom m o "type".toList (typeMatch? (directText block)) field.type
          ∧ ∀ title, field.title = some title →
              text.ReadFrom m o "title".toList (titleMatch? (directText block)) title)
    ∧ ∀ item ∈ objects text, ∃ o, text.FirstBrace o o
      ∧ item = text.slice o (closingOffset text o + 1)
      ∧ (∀ nested, declaredNestedField? item = some nested →
          text.ReadFrom o o "name".toList (nameMatch? (directText item)) nested.name
          ∧ text.ReadFrom o o "type".toList (typeMatch? (directText item)) nested.type)
      ∧ ∀ sub, declaredSubField? item = some sub →
          text.ReadFrom o o "name".toList (nameMatch? (directText item)) sub.name
          ∧ text.ReadFrom o o "type".toList (typeMatch? (directText item)) sub.type := by
  constructor
  · intro block hblock
    obtain ⟨m, o, hbrace, hslice⟩ := exists_firstBrace_of_mem_blocks hblock
    have hdirect : directText block = rowText (text.directRow m o) := by
      rw [hslice, directText_of_firstBrace hbrace]
    refine ⟨m, o, hbrace, hslice, ?_, fun field => readFrom_of_declaredField? hdirect⟩
    intro name hname
    obtain ⟨found, hfound, hvalue⟩ := Option.bind_eq_some_iff.mp hname
    obtain ⟨n, hn⟩ := exists_of_nameMatch? hfound
    rw [hdirect] at hn
    exact readFrom_of_match? hfound hvalue hn
  · intro item hitem
    obtain ⟨o, hseen, hslice⟩ := exists_opener_of_mem_objects hitem
    have hbrace := firstBrace_of_mem_seen hseen
    have hdirect : directText item = rowText (text.directRow o o) := by
      rw [hslice, directText_of_firstBrace hbrace]
    refine ⟨o, hbrace, hslice, ?_, ?_⟩
    · intro nested hnested
      exact readFrom_of_nameAndType? hdirect (declaredNestedField?_eq_some_iff.mp hnested).1
    · intro sub hsub
      exact readFrom_of_nameAndType? hdirect (declaredSubField?_eq_some_iff.mp hsub).1

/-- A literal directly in a block supplies the name, and hides the key that follows it. -/
theorem name_read_in_literal :
    let source :=
      "defineField(".toList ++ '{' :: "d:\"name:'x'\",name:'a',type:'b'".toList ++ ['}', ')']
    let block := source.take 44
    fieldPattern.blocks source = [block]
    ∧ (declaredField? block).map (·.name) = some "x".toList
    ∧ (nameMatch? (directText block)).map (·.value) = some (some "x".toList)
    ∧ ((nameMatch? (directText block)).bind fun found =>
        lexemeAt (Text.directRow source 0 12) found.place.offset)
      = some (.quoted "\"name:'x'\"".toList) := by
  decide +kernel

end GroqSnippets

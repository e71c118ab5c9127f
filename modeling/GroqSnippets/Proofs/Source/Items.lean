/-
The items of a list.

The search for the objects of a list reads on from left to right and keeps a depth, in which only
square brackets and braces count; the jump over an object looks for a partner, and there all three
kinds count.  The two countings stay in step where brackets are properly nested by kind, for then a
closing bracket takes away the bracket of its own kind that was opened last.

So the depth of the search is the number of brackets around a place that are no parentheses, and this
is the invariant of the induction along the search.  It holds again behind an object, because what
encloses the place behind it is what encloses the place before it.  Brackets that nothing closes
enclose all that follows, so a text may break off anywhere.
-/
import GroqSnippets.Proofs.Source.Partner
import GroqSnippets.Proofs.Source.Stretch

namespace GroqSnippets

/-! ### Brackets that are left open

A text that stops in the middle is nested so far as it goes.  What is asked of it is that every
closing bracket closes the latest bracket that is open, and that this one is of its kind.
-/

/-- Whether a row of brackets is properly nested by kind, but for opening brackets that nothing
closes: it is the front part of a properly nested row. -/
def NestedSoFar (brackets : List Char) : Prop :=
  ∃ rest, WellNested (brackets ++ rest)

/-- In a properly nested row, a closing bracket has a partner of its kind before it. -/
theorem WellNested.exists_partner {brackets : List Char} (h : WellNested brackets)
    {front back : List Char} {d : Char} (hsplit : brackets = front ++ d :: back)
    (hd : isCloser d = true) :
    ∃ before c inner, front = before ++ c :: inner ∧ OfOneKind c d ∧ WellNested inner := by
  induction h generalizing front back with
  | nil => simp at hsplit
  | @bracket opener closer inner more kind hholds _ ihInner ihMore =>
    cases front with
    | nil =>
      obtain ⟨rfl, -⟩ := List.cons.inj hsplit
      rw [kind.brackets.2.1] at hd
      cases hd
    | cons first front =>
      obtain ⟨rfl, htail⟩ := List.cons.inj hsplit
      -- The closing bracket is the partner of the first one, or stands behind it, or inside.
      rcases List.append_eq_append_iff.mp htail with ⟨t, rfl, hmore⟩ | ⟨t, hinner, hmore⟩
      · cases t with
        | nil =>
          obtain ⟨rfl, -⟩ := List.cons.inj hmore
          exact ⟨[], opener, inner, by simp, kind, hholds⟩
        | cons second t =>
          obtain ⟨rfl, hbehind⟩ := List.cons.inj hmore
          obtain ⟨before, c, held, rfl, hkind, hheld⟩ := ihMore hbehind
          exact ⟨opener :: (inner ++ closer :: before), c, held, by simp, hkind, hheld⟩
      · cases t with
        | nil =>
          obtain ⟨rfl, -⟩ := List.cons.inj hmore
          exact ⟨[], opener, front, by simp, kind, by rwa [hinner, List.append_nil] at hholds⟩
        | cons second t =>
          obtain ⟨rfl, -⟩ := List.cons.inj hmore
          obtain ⟨before, c, held, rfl, hkind, hheld⟩ := ihInner hinner
          exact ⟨opener :: before, c, held, by simp, hkind, hheld⟩

/-- Whether each closing bracket of a text is the partner of a bracket of its kind. -/
def Text.ClosesInKind (text : Text) : Prop :=
  ∀ p d, (p, .code d) ∈ text.seen 0 → isCloser d = true →
    ∃ o c, (o, .code c) ∈ text.seen 0 ∧ OfOneKind c d ∧ o < p ∧ closingOffset text o = p

theorem closesInKind_of_nestedSoFar {text : Text}
    (hnested : NestedSoFar (text.brackets 0 0 text.length)) : text.ClosesInKind := by
  intro p d hp hd
  obtain ⟨rest, hnested⟩ := hnested
  have hlt : p < text.length := position_lt_of_mem_seen hp
  have hsplit : text.brackets 0 0 text.length
      = text.brackets 0 0 p ++ d :: text.brackets 0 (p + 1) text.length := by
    rw [brackets_append text 0 (Nat.zero_le p) (Nat.le_of_lt hlt),
      brackets_append text 0 (Nat.le_succ p) hlt, brackets_here hp (.inr hd), List.singleton_append]
  rw [hsplit, List.append_assoc, List.cons_append] at hnested
  obtain ⟨before, c, inner, hfront, kind, hinner⟩ := hnested.exists_partner rfl hd
  obtain ⟨o, ho, -, hbefore, -, hbetween⟩ := exists_seen_of_brackets hfront
  rw [← hbetween] at hinner
  exact ⟨o, c, ho, kind, hbefore, closingOffset_eq_of_wellNested ho hp hbefore kind hinner⟩

/-! ### What encloses a place

A bracket encloses a place if it opens before it and its partner, if there is one, does not stand
before it.  This looks at partners only, and at no depth.
-/

namespace Text

/-- The opening bracket that a token is, if it is not closed before an offset. -/
def openAt (text : Text) (p : Nat) : Nat × Lexeme → Option Char
  | (o, lexeme) => lexeme.bracket?.filter fun c => isOpener c && decide (p ≤ closingOffset text o)

def enclosing (text : Text) (p : Nat) : List Char :=
  (within 0 p (text.seen 0)).filterMap (text.openAt p)

/-- How many of the brackets around an offset are no parentheses. -/
def listDepth (text : Text) (p : Nat) : Nat :=
  (text.enclosing p).countP (· != '(')

/-- Whether a token is a brace with nothing but parentheses around it. -/
def beginsObject (text : Text) : Nat × Lexeme → Bool
  | (p, lexeme) => lexeme == .code '{' && (text.enclosing p).all (· == '(')

def objectStarts (text : Text) : List Nat :=
  ((text.seen 0).filter text.beginsObject).map (·.1)

end Text

section

variable {text : Text} {before after row : List Lexeme} {lexeme : Lexeme} {o p : Nat} {c : Char}

theorem openAt_eq_some_iff {item : Nat × Lexeme} :
    text.openAt p item = some c
      ↔ item.2 = .code c ∧ isOpener c = true ∧ p ≤ closingOffset text item.1 := by
  obtain ⟨o, lexeme⟩ := item
  rw [Text.openAt, Option.filter_eq_some_iff]
  constructor
  · rintro ⟨hbracket, hopen⟩
    obtain rfl := Lexeme.eq_code_of_bracket? hbracket
    simpa using hopen
  · rintro ⟨rfl, hopen, hle⟩
    simp [Lexeme.bracket?, hopen, hle]

theorem mem_enclosing_iff :
    c ∈ text.enclosing p ↔ ∃ o, (o, .code c) ∈ text.seen 0 ∧ isOpener c = true ∧ o < p
      ∧ p ≤ closingOffset text o := by
  rw [Text.enclosing, List.mem_filterMap]
  constructor
  · rintro ⟨⟨o, lexeme⟩, hmem, hbracket⟩
    obtain ⟨rfl, hopen, hle⟩ := openAt_eq_some_iff.mp hbracket
    obtain ⟨hseen, hbounds⟩ := List.mem_filter.mp hmem
    exact ⟨o, hseen, hopen, by simpa using hbounds, hle⟩
  · rintro ⟨o, hseen, hopen, hlt, hle⟩
    exact ⟨(o, .code c), List.mem_filter.mpr ⟨hseen, by simp [hlt]⟩,
      openAt_eq_some_iff.mpr ⟨rfl, hopen, hle⟩⟩

/-- A place that a bracket encloses, but not with parentheses, is no start of an object. -/
theorem not_beginsObject_of_enclosed (h : (o, .code c) ∈ text.seen 0) (hc : isOpener c = true)
    (hround : c ≠ '(') (hlt : o < p) (hle : p ≤ closingOffset text o) :
    text.beginsObject (p, lexeme) = false := by
  have hmem : c ∈ text.enclosing p := mem_enclosing_iff.mpr ⟨o, h, hc, hlt, hle⟩
  rw [Text.beginsObject, Bool.and_eq_false_iff]
  refine .inr (List.all_eq_false.mpr ⟨c, hmem, ?_⟩)
  simpa using hround

/-- A closing bracket stands where a bracket is closed. -/
theorem closingOffset_ne_of_isOpener {d : Char} (h : (o, .code c) ∈ text.seen 0)
    (hc : isOpener c = true) (hp : (p, .code d) ∈ text.seen 0) (hd : isCloser d = false) :
    closingOffset text o ≠ p := by
  intro hsame
  have hlt : p < text.length := position_lt_of_mem_seen hp
  obtain ⟨closer, hcloser, hcloses⟩ := (closes_closingOffset h hc (by omega)).closer
  rw [hsame] at hcloser
  have hthere := getElem?_of_mem_seen hcloser
  rw [getElem?_of_mem_seen hp] at hthere
  obtain rfl := Option.some.inj hthere
  rw [hd] at hcloses
  cases hcloses

/-! ### One step of the search -/

theorem within_before (hrow : lexemes none text = before ++ row) :
    within 0 (rowText before).length (text.seen 0)
      = (located 0 before).filter fun (_, lexeme) => !lexeme.isComment := by
  have hsplit : lexemes none (text.drop 0) = [] ++ before ++ row := hrow
  have hseen := within_seen (Nat.zero_le _) hsplit
  simpa only [rowText_nil, List.length_nil, Nat.zero_add] using hseen

theorem mem_seen_of_split (hrow : lexemes none text = before ++ row) {item : Nat × Lexeme}
    (hitem : item ∈ located (rowText before).length row) (hcomment : item.2.isComment = false) :
    item ∈ text.seen 0 := by
  rw [seen_eq (Nat.zero_le _), List.drop_zero, hrow, located_append, Nat.zero_add]
  exact List.mem_filter.mpr ⟨List.mem_append_right _ hitem, by simp [hcomment]⟩

/-- A bracket that is open at a lexeme is open behind it, unless the lexeme closes it. -/
theorem closingOffset_behind (hrow : lexemes none text = before ++ lexeme :: after)
    (h : (o, .code c) ∈ text.seen 0) (hc : isOpener c = true)
    (hle : (rowText before).length ≤ closingOffset text o) :
    (rowText before).length + lexeme.text.length ≤ closingOffset text o
      ∨ closingOffset text o = (rowText before).length
        ∧ ∃ d, lexeme = .code d ∧ isCloser d = true := by
  have hspelled : text = rowText before ++ (lexeme.text ++ rowText after) := by
    rw [← rowText_cons, ← rowText_append, ← hrow, rowText_lexemes]
  have hlength := congrArg List.length hspelled
  simp only [List.length_append] at hlength
  by_cases hend : closingOffset text o = text.length
  · exact .inl (by omega)
  · obtain ⟨d, hd, hcloses⟩ := (closes_closingOffset h hc hend).closer
    rw [seen_eq (Nat.zero_le _), List.drop_zero, hrow, located_append, Nat.zero_add] at hd
    have hne : ∀ lexeme' ∈ before ++ lexeme :: after, lexeme'.text ≠ [] := by
      intro lexeme' hmem
      rw [← hrow] at hmem
      exact text_ne_nil_of_mem_lexemes hmem
    obtain ⟨hbefore, hafter⟩ := List.forall_mem_append.mp hne
    rcases List.mem_append.mp (List.mem_filter.mp hd).1 with hthere | hthere
    · have := (offset_of_mem_located hbefore hthere).2
      omega
    · rcases List.mem_cons.mp hthere with heq | hthere
      · obtain ⟨hplace, hlexeme⟩ := Prod.mk.inj heq
        exact .inr ⟨hplace, d, hlexeme.symm, hcloses⟩
      · exact .inl (offset_of_mem_located (List.forall_mem_cons.mp hafter).2 hthere).1

/-- Up to a lexeme and through it, the same brackets are open, but for one that it closes. -/
theorem openAt_behind (hrow : lexemes none text = before ++ lexeme :: after) {item : Nat × Lexeme}
    (hitem : item ∈ text.seen 0)
    (hopen : ∀ c, item.2 = .code c → isOpener c = true →
      closingOffset text item.1 = (rowText before).length → ∀ d, lexeme = .code d →
        isCloser d = false) :
    text.openAt ((rowText before).length + lexeme.text.length) item
      = text.openAt (rowText before).length item := by
  refine Option.ext fun c => ?_
  rw [openAt_eq_some_iff, openAt_eq_some_iff]
  refine and_congr_right fun hcode => and_congr_right fun hc => ?_
  constructor
  · intro hle
    omega
  · intro hle
    obtain ⟨o, _⟩ := item
    obtain rfl : _ = Lexeme.code c := hcode
    rcases closingOffset_behind hrow hitem hc hle with hbehind | ⟨hhere, d, hlexeme, hd⟩
    · exact hbehind
    · rw [hopen c rfl hc hhere d hlexeme] at hd
      cases hd

theorem within_behind (hrow : lexemes none text = before ++ lexeme :: after) :
    within 0 ((rowText before).length + lexeme.text.length) (text.seen 0)
      = within 0 (rowText before).length (text.seen 0)
        ++ [((rowText before).length, lexeme)].filter fun (_, lexeme) => !lexeme.isComment := by
  have hsplit : lexemes none text = (before ++ [lexeme]) ++ after := by simpa using hrow
  have hlength : (rowText before).length + lexeme.text.length
      = (rowText (before ++ [lexeme])).length := by simp
  rw [hlength, within_before hsplit, within_before hrow, located_append, List.filter_append,
    Nat.zero_add]
  rfl

/-- A lexeme that closes nothing is added to what encloses the place, if it opens something. -/
theorem enclosing_behind (hrow : lexemes none text = before ++ lexeme :: after)
    (hcloser : ∀ d, lexeme = .code d → isCloser d = false) :
    text.enclosing ((rowText before).length + lexeme.text.length)
      = text.enclosing (rowText before).length ++ lexeme.bracket?.toList := by
  have hsame : (within 0 (rowText before).length (text.seen 0)).filterMap
        (text.openAt ((rowText before).length + lexeme.text.length))
      = text.enclosing (rowText before).length := by
    refine List.filterMap_congr fun item hitem => ?_
    exact openAt_behind hrow (List.mem_filter.mp hitem).1 fun _ _ _ _ => hcloser
  rw [Text.enclosing, within_behind hrow, List.filterMap_append, hsame]
  congr 1
  cases lexeme with
  | quoted text | regex text | comment text => rfl
  | code c =>
    cases hopen : isOpener c with
    | false => simp [Lexeme.isComment, Lexeme.bracket?, Text.openAt, hopen, hcloser c rfl]
    | true =>
      have hseen : ((rowText before).length, .code c) ∈ text.seen 0 :=
        mem_seen_of_split hrow List.mem_cons_self rfl
      have hlt : (rowText before).length + 1 ≤ closingOffset text (rowText before).length := by
        by_cases hend : closingOffset text (rowText before).length = text.length
        · have := position_lt_of_mem_seen hseen
          omega
        · exact (closes_closingOffset hseen hopen hend).behind
      have hhere : text.openAt ((rowText before).length + 1) ((rowText before).length, .code c)
          = some c := openAt_eq_some_iff.mpr ⟨rfl, hopen, hlt⟩
      simp [Lexeme.isComment, Lexeme.bracket?, hopen, Lexeme.text, hhere]

/-- A closing bracket leaves all brackets open but for the one that it is the partner of. -/
theorem openAt_behind_closer {d : Char} (hrow : lexemes none text = before ++ .code d :: after)
    (h : (o, .code c) ∈ text.seen 0) (hc : isOpener c = true)
    (hclose : closingOffset text o = (rowText before).length) {item : Nat × Lexeme}
    (hitem : item ∈ text.seen 0) (hne : item.1 ≠ o) :
    text.openAt ((rowText before).length + 1) item
      = text.openAt (rowText before).length item := by
  refine openAt_behind hrow hitem fun c' hcode hc' hhere => ?_
  obtain ⟨o', _⟩ := item
  obtain rfl : _ = Lexeme.code c' := hcode
  have hplace : ((rowText before).length, .code d) ∈ text.seen 0 :=
    mem_seen_of_split hrow List.mem_cons_self rfl
  have hclosed : closingOffset text o' ≠ text.length := by
    rw [hhere]
    exact Nat.ne_of_lt (position_lt_of_mem_seen hplace)
  exact absurd (eq_of_closingOffset_eq hitem hc' h hc (hhere.trans hclose.symm) hclosed) hne

/-- A closing bracket takes away the bracket that it is the partner of. -/
theorem enclosing_behind_closer {d : Char}
    (hrow : lexemes none text = before ++ .code d :: after) (hd : isCloser d = true)
    (h : (o, .code c) ∈ text.seen 0) (hc : isOpener c = true) (hlt : o < (rowText before).length)
    (hclose : closingOffset text o = (rowText before).length) :
    ∃ outer inner, text.enclosing (rowText before).length = outer ++ c :: inner
      ∧ text.enclosing ((rowText before).length + 1) = outer ++ inner := by
  have hmem : (o, .code c) ∈ within 0 (rowText before).length (text.seen 0) :=
    List.mem_filter.mpr ⟨h, by simp [hlt]⟩
  obtain ⟨front, back, hsplit⟩ := List.append_of_mem hmem
  have hsorted := pairwise_within text 0 0 (rowText before).length
  rw [hsplit, List.pairwise_append, List.pairwise_cons] at hsorted
  obtain ⟨-, ⟨hback, -⟩, hfront⟩ := hsorted
  have hseen : ∀ item ∈ front ++ (o, .code c) :: back, item ∈ text.seen 0 := by
    intro item hitem
    rw [← hsplit] at hitem
    exact (List.mem_filter.mp hitem).1
  have hsameFront : ∀ item ∈ front, text.openAt ((rowText before).length + 1) item
      = text.openAt (rowText before).length item := by
    intro item hitem
    exact openAt_behind_closer hrow h hc hclose (hseen item (by simp [hitem]))
      (Nat.ne_of_lt (hfront item hitem _ List.mem_cons_self))
  have hsameBack : ∀ item ∈ back, text.openAt ((rowText before).length + 1) item
      = text.openAt (rowText before).length item := by
    intro item hitem
    exact openAt_behind_closer hrow h hc hclose (hseen item (by simp [hitem]))
      (Nat.ne_of_gt (hback item hitem))
  refine ⟨front.filterMap (text.openAt (rowText before).length),
    back.filterMap (text.openAt (rowText before).length), ?_, ?_⟩
  · have hhere : text.openAt (rowText before).length (o, .code c) = some c :=
      openAt_eq_some_iff.mpr ⟨rfl, hc, Nat.le_of_eq hclose.symm⟩
    rw [Text.enclosing, hsplit, List.filterMap_append, List.filterMap_cons, hhere]
  · have hgone : text.openAt ((rowText before).length + 1) (o, .code c) = none := by
      refine Option.eq_none_iff_forall_ne_some.mpr fun c' hc' => ?_
      have hle := (openAt_eq_some_iff.mp hc').2.2
      dsimp only at hle
      omega
    have hcloser : text.openAt ((rowText before).length + 1) ((rowText before).length, .code d)
        = none := by
      simp [Text.openAt, Lexeme.bracket?, hd, not_isOpener_of_isCloser hd]
    have hthrough := within_behind hrow
    rw [Lexeme.text, List.length_singleton, hsplit] at hthrough
    rw [Text.enclosing, hthrough]
    simp only [Lexeme.isComment, List.filter_cons, List.filter_nil, Bool.not_false, if_true,
      List.filterMap_append, List.filterMap_cons, hgone, hcloser, List.filterMap_nil,
      List.append_nil]
    rw [List.filterMap_congr hsameFront, List.filterMap_congr hsameBack]

/-! ### The jump over an object -/

/-- From a bracket through its partner, or to the end. -/
theorem rowText_through (hrow : lexemes none text = before ++ .code c :: row)
    (hc : isOpener c = true) :
    rowText (.code c :: through 1 row)
        = text.slice (rowText before).length (closingOffset text (rowText before).length + 1)
      ∧ (closingOffset text (rowText before).length < text.length
          ∧ (rowText before).length + (rowText (.code c :: through 1 row)).length
            = closingOffset text (rowText before).length + 1
        ∨ closingOffset text (rowText before).length = text.length ∧ beyond 1 row = []) := by
  have hseen : ((rowText before).length, .code c) ∈ text.seen 0 :=
    mem_seen_of_split hrow List.mem_cons_self rfl
  have hdrop : lexemes none (text.drop (rowText before).length) = .code c :: row := by
    have hwhole : lexemes none (text.drop 0) = before ++ .code c :: row := hrow
    have hthere := lexemes_drop_of_isSettling hwhole (isSettling_of_isOpener hc)
    rwa [Nat.zero_add] at hthere
  obtain ⟨inner, closing, more, hsplit, hclosing, hopen, hslice, hending⟩ :=
    exists_slice_bracketed hseen hc
  rw [hdrop] at hsplit
  obtain ⟨-, rfl⟩ := List.cons.inj hsplit
  rw [hslice]
  rcases hending with ⟨rfl, rfl, hend⟩ | ⟨closer, rfl, hlt, hone, hcloser⟩
  · rw [List.append_nil, List.append_nil]
    obtain ⟨-, hthrough, hbeyond⟩ := cut_of_staysOpen hopen
    exact ⟨by rw [hthrough], .inr ⟨hend, hbeyond⟩⟩
  · have hcloses : closesAt (depthThrough 1 inner) (.code closer) = true := by
      simp [closesAt, hone, hcloser]
    obtain ⟨-, hthrough, -⟩ := cut_of_split hopen hcloses more
    rw [List.append_assoc, List.singleton_append, hthrough]
    refine ⟨rfl, .inl ⟨hlt, ?_⟩⟩
    rw [← List.cons_append, rowText_append, List.length_append, hclosing, Nat.add_assoc]
    rfl

/-- Behind the partner of a bracket, the same encloses the place as before the bracket. -/
theorem enclosing_behind_partner (h : (o, .code c) ∈ text.seen 0) (hc : isOpener c = true)
    (hclosed : closingOffset text o < text.length) :
    text.enclosing (closingOffset text o + 1) = text.enclosing o := by
  have hbehind := (closes_closingOffset h hc (Nat.ne_of_lt hclosed)).behind
  have hinside : (within o (closingOffset text o + 1) (text.seen 0)).filterMap
      (text.openAt (closingOffset text o + 1)) = [] := by
    refine List.filterMap_eq_nil_iff.mpr fun item hitem => ?_
    obtain ⟨hseen, hbounds⟩ := List.mem_filter.mp hitem
    simp only [Bool.and_eq_true, decide_eq_true_eq] at hbounds
    refine Option.eq_none_iff_forall_ne_some.mpr fun c' hc' => ?_
    obtain ⟨hcode, hopen, hle⟩ := openAt_eq_some_iff.mp hc'
    obtain ⟨o', _⟩ := item
    obtain rfl : _ = Lexeme.code c' := hcode
    dsimp only at hbounds hle
    by_cases hsame : o' = o
    · subst hsame
      omega
    · have hnests := closingOffset_nests h hc hseen hopen (by omega)
      have hends := closingOffset_ne_of_isOpener h hc hseen (not_isCloser_of_isOpener hopen)
      omega
  have hsplit : within 0 (closingOffset text o + 1) (text.seen 0)
      = within 0 o (text.seen 0) ++ within o (closingOffset text o + 1) (text.seen 0) :=
    within_append (Nat.zero_le o) (by omega) (pairwise_seen text 0)
  rw [Text.enclosing, hsplit, List.filterMap_append, hinside, List.append_nil]
  refine List.filterMap_congr fun item hitem => Option.ext fun c' => ?_
  obtain ⟨hseen, hbounds⟩ := List.mem_filter.mp hitem
  have hbefore : item.1 < o := by simpa using hbounds
  rw [openAt_eq_some_iff, openAt_eq_some_iff]
  refine and_congr_right fun hcode => and_congr_right fun hopen => ?_
  obtain ⟨o', _⟩ := item
  obtain rfl : _ = Lexeme.code c' := hcode
  dsimp only at hbefore ⊢
  have hnests := closingOffset_nests hseen hopen h hc hbefore
  omega

/-! ### The depth of the search

The search counts braces and square brackets, and a closing one takes away one of them, whichever it
is.  That is the right count only if each is the partner of one of its kind.
-/

theorem listDepth_behind (hrow : lexemes none text = before ++ lexeme :: after)
    (hcloser : ∀ d, lexeme = .code d → isCloser d = false) :
    text.listDepth ((rowText before).length + lexeme.text.length)
      = text.listDepth (rowText before).length + lexeme.bracket?.toList.countP (· != '(') := by
  unfold Text.listDepth
  rw [enclosing_behind hrow hcloser, List.countP_append]

theorem listDepth_behind_closer (hkinds : text.ClosesInKind) {d : Char}
    (hrow : lexemes none text = before ++ .code d :: after) (hd : isCloser d = true) :
    text.listDepth ((rowText before).length + 1)
      = text.listDepth (rowText before).length - if d = ')' then 0 else 1 := by
  have hplace : ((rowText before).length, .code d) ∈ text.seen 0 :=
    mem_seen_of_split hrow List.mem_cons_self rfl
  obtain ⟨o, c, ho, kind, hlt, hclose⟩ := hkinds _ d hplace hd
  obtain ⟨outer, inner, hthere, hbehind⟩ :=
    enclosing_behind_closer hrow hd ho kind.brackets.1 hlt hclose
  unfold Text.listDepth
  rw [hthere, hbehind, List.countP_append, List.countP_append, List.countP_cons]
  cases kind <;> simp

/-- Parentheses do not count, and what is no bracket does not either. -/
theorem listDepth_behind_other (hkinds : text.ClosesInKind)
    (hrow : lexemes none text = before ++ lexeme :: after)
    (hbrace : lexeme ≠ .code '{') (hlist : lexeme ≠ .code '[')
    (hclose : lexeme ≠ .code '}') (hend : lexeme ≠ .code ']') :
    text.listDepth ((rowText before).length + lexeme.text.length)
      = text.listDepth (rowText before).length := by
  by_cases hround : lexeme = .code ')'
  · subst hround
    rw [Lexeme.text, List.length_singleton, listDepth_behind_closer hkinds hrow (by decide)]
    rfl
  have hcloser : ∀ d, lexeme = .code d → isCloser d = false := by
    rintro d rfl
    simp only [ne_eq, Lexeme.code.injEq] at hround hclose hend
    simp [isCloser, hround, hclose, hend]
  rw [listDepth_behind hrow hcloser]
  cases lexeme with
  | quoted text | regex text | comment text => rfl
  | code c =>
    simp only [ne_eq, Lexeme.code.injEq] at hbrace hlist
    by_cases hopen : c = '('
    · subst hopen
      rfl
    · simp [Lexeme.bracket?, isOpener, hbrace, hlist, hopen, hcloser c rfl]

theorem listDepth_behind_object (hrow : lexemes none text = before ++ .code '{' :: row)
    (hlt : closingOffset text (rowText before).length < text.length)
    (hstop : (rowText before).length + (rowText (.code '{' :: through 1 row)).length
      = closingOffset text (rowText before).length + 1) :
    text.listDepth (rowText (before ++ .code '{' :: through 1 row)).length
      = text.listDepth (rowText before).length := by
  have hseen : ((rowText before).length, .code '{') ∈ text.seen 0 :=
    mem_seen_of_split hrow List.mem_cons_self rfl
  rw [rowText_append, List.length_append, hstop, Text.listDepth, Text.listDepth,
    enclosing_behind_partner hseen (by decide) hlt]

theorem beginsObject_iff : text.beginsObject (p, lexeme) = true
    ↔ lexeme = .code '{' ∧ text.listDepth p = 0 := by
  simp [Text.beginsObject, Text.listDepth]

/-! ### The search -/

theorem filter_through (hrow : lexemes none text = before ++ .code '{' :: row) :
    (located ((rowText before).length + 1) (through 1 row)).filter text.beginsObject = [] := by
  have hbrace : isOpener '{' = true := by decide
  have hseen : ((rowText before).length, .code '{') ∈ text.seen 0 :=
    mem_seen_of_split hrow List.mem_cons_self rfl
  have hne : ∀ lexeme ∈ through 1 row, lexeme.text ≠ [] := by
    intro lexeme hmem
    have hthere : lexeme ∈ lexemes none text := by
      rw [hrow, ← through_append_beyond 1 row]
      simp [hmem]
    exact text_ne_nil_of_mem_lexemes hthere
  refine List.filter_eq_nil_iff.mpr fun item hitem => ?_
  obtain ⟨p, lexeme⟩ := item
  have hbounds := offset_of_mem_located hne hitem
  obtain ⟨hslice, hclosed⟩ := rowText_through hrow hbrace
  have hinside : p ≤ closingOffset text (rowText before).length := by
    rcases hclosed with ⟨-, hlonger⟩ | ⟨hend, hbeyond⟩
    · rw [length_rowText_code] at hlonger
      omega
    · have hwhole : lexemes none (text.drop 0) = before ++ .code '{' :: row := hrow
      have hlength := congrArg List.length (drop_of_split hwhole)
      rw [length_rowText_code, ← through_append_beyond 1 row, hbeyond, List.append_nil] at hlength
      simp at hlength
      omega
  rw [not_beginsObject_of_enclosed hseen hbrace (by decide) (by omega) hinside]
  exact Bool.false_ne_true

theorem length_rowText_concat (before : List Lexeme) (lexeme : Lexeme) :
    (rowText (before ++ [lexeme])).length = (rowText before).length + lexeme.text.length := by
  simp

theorem filter_located_of_not_begins
    (hnot : text.beginsObject ((rowText before).length, lexeme) = false) :
    (located (rowText before).length (lexeme :: row)).filter text.beginsObject
      = (located (rowText (before ++ [lexeme])).length row).filter text.beginsObject := by
  rw [located, List.filter_cons_of_neg (by simp [hnot]), length_rowText_concat]

/-- An object that begins at a lexeme is followed by those that begin behind it. -/
theorem filter_located_of_begins (hrow : lexemes none text = before ++ .code '{' :: row)
    (hbegins : text.beginsObject ((rowText before).length, .code '{') = true) :
    (located (rowText before).length (.code '{' :: row)).filter text.beginsObject
      = ((rowText before).length, .code '{')
        :: (located (rowText (before ++ .code '{' :: through 1 row)).length
            (beyond 1 row)).filter text.beginsObject := by
  rw [located, List.filter_cons_of_pos hbegins]
  conv_lhs => rw [← through_append_beyond 1 row]
  rw [located_append, List.filter_append, Lexeme.text, List.length_singleton,
    filter_through hrow, List.nil_append, rowText_append, List.length_append,
    length_rowText_code, Nat.add_assoc]

/-- The search finds what begins at the braces with nothing but parentheses around them, if each
closing bracket is the partner of a bracket of its kind. -/
theorem map_objectRows (hkinds : text.ClosesInKind) {depth : Nat}
    (hrow : lexemes none text = before ++ row)
    (hdepth : depth = text.listDepth (rowText before).length) :
    (objectRows depth row).map rowText
      = ((located (rowText before).length row).filter text.beginsObject).map fun (p, _) =>
          text.slice p (closingOffset text p + 1) := by
  fun_induction objectRows depth row generalizing before with
  | case1 => rfl
  | case2 row ih =>
    obtain ⟨hslice, hclosed⟩ := rowText_through hrow (by decide)
    have hhere : text.beginsObject ((rowText before).length, .code '{') = true :=
      beginsObject_iff.mpr ⟨rfl, hdepth.symm⟩
    rw [filter_located_of_begins hrow hhere, List.map_cons, List.map_cons, hslice]
    refine congrArg _ ?_
    rcases hclosed with ⟨hlt, hstop⟩ | ⟨-, hnothing⟩
    · refine ih ?_ (hdepth.trans (listDepth_behind_object hrow hlt hstop).symm)
      rw [hrow, List.append_assoc, List.cons_append, through_append_beyond]
    · rw [hnothing, objectRows]
      rfl
  | case3 depth row hne ih =>
    have hnot : text.beginsObject ((rowText before).length, .code '{') = false := by
      rw [Bool.eq_false_iff, ne_eq, beginsObject_iff]
      omega
    rw [filter_located_of_not_begins hnot]
    refine ih (by simpa using hrow) ?_
    rw [length_rowText_concat, listDepth_behind hrow (by simp [isCloser]), ← hdepth]
    rfl
  | case4 depth row ih =>
    rw [filter_located_of_not_begins (by simp [Text.beginsObject])]
    refine ih (by simpa using hrow) ?_
    rw [length_rowText_concat, listDepth_behind hrow (by simp [isCloser]), ← hdepth]
    rfl
  | case5 depth row ih | case6 depth row ih =>
    rw [filter_located_of_not_begins (by simp [Text.beginsObject])]
    refine ih (by simpa using hrow) ?_
    rw [length_rowText_concat, Lexeme.text, List.length_singleton,
      listDepth_behind_closer hkinds hrow (by decide), ← hdepth]
    rfl
  | case7 depth lexeme row hbrace hlist hclose hend ih =>
    rw [filter_located_of_not_begins (by simpa [Text.beginsObject] using fun h => absurd h hbrace)]
    refine ih (by simpa using hrow) ?_
    rw [length_rowText_concat, hdepth, listDepth_behind_other hkinds hrow hbrace hlist hclose hend]

end

/-! ### The items of a list -/

theorem mem_objectStarts_iff {text : Text} {p : Nat} :
    p ∈ text.objectStarts ↔ (p, .code '{') ∈ text.seen 0
      ∧ ∀ o c, (o, .code c) ∈ text.seen 0 → isOpener c = true → o < p →
          p ≤ closingOffset text o → c = '(' := by
  simp only [Text.objectStarts, List.mem_map, List.mem_filter, Prod.exists, exists_and_right,
    exists_eq_right, Text.beginsObject, Bool.and_eq_true, beq_iff_eq, List.all_eq_true]
  constructor
  · rintro ⟨lexeme, hseen, rfl, hround⟩
    refine ⟨hseen, fun o c ho hc hlt hle => ?_⟩
    exact hround c (mem_enclosing_iff.mpr ⟨o, ho, hc, hlt, hle⟩)
  · rintro ⟨hseen, hround⟩
    refine ⟨.code '{', hseen, rfl, fun c hc => ?_⟩
    obtain ⟨o, ho, hopen, hlt, hle⟩ := mem_enclosing_iff.mp hc
    exact hround o c ho hopen hlt hle

/-- Within a bracket that is no parenthesis, no object begins. -/
theorem notMem_objectStarts {text : Text} {o p : Nat} {c : Char} (h : (o, .code c) ∈ text.seen 0)
    (hc : isOpener c = true) (hround : c ≠ '(') (hlt : o < p) (hle : p ≤ closingOffset text o) :
    p ∉ text.objectStarts := by
  intro hstart
  exact hround ((mem_objectStarts_iff.mp hstart).2 o c h hc hlt hle)

theorem pairwise_objectStarts (text : Text) :
    text.objectStarts.Pairwise fun p q => p < q ∧ closingOffset text p < q := by
  have hsorted : text.objectStarts.Pairwise (· < ·) :=
    List.pairwise_map.mpr ((pairwise_seen text 0).filter _)
  refine hsorted.imp_of_mem fun {p q} hp hq hlt => ⟨hlt, ?_⟩
  by_contra hle
  exact notMem_objectStarts (mem_objectStarts_iff.mp hp).1 (by decide) (by decide) hlt
    (Nat.not_lt.mp hle) hq

/-- **The items of a list are told by what encloses them.**  In a text that is properly nested by
kind, but for brackets that nothing closes, they are the slices from the braces with nothing but
parentheses around them through their partners, in order.  They do not overlap, and no item begins
within another one or within square brackets. -/
theorem objects_enumerated {text : Text}
    (hnested : NestedSoFar (text.brackets 0 0 text.length)) :
    objects text = text.objectStarts.map (fun p => text.slice p (closingOffset text p + 1))
      ∧ (∀ p, p ∈ text.objectStarts ↔ (p, .code '{') ∈ text.seen 0
          ∧ ∀ o c, (o, .code c) ∈ text.seen 0 → isOpener c = true → o < p →
              p ≤ closingOffset text o → c = '(')
      ∧ text.objectStarts.Pairwise (fun p q => p < q ∧ closingOffset text p < q)
      ∧ (∀ p ∈ text.objectStarts, ∀ q, p < q → q ≤ closingOffset text p →
          q ∉ text.objectStarts)
      ∧ ∀ o, (o, .code '[') ∈ text.seen 0 → ∀ q, o < q → q ≤ closingOffset text o →
          q ∉ text.objectStarts := by
  refine ⟨?_, fun p => mem_objectStarts_iff, pairwise_objectStarts text, ?_, ?_⟩
  · have hrow : lexemes none text = [] ++ lexemes none text := rfl
    have hdepth : 0 = text.listDepth (rowText []).length := by
      simp [Text.listDepth, Text.enclosing, within]
    have hfound := map_objectRows (closesInKind_of_nestedSoFar hnested) hrow hdepth
    have hcode : text.objectStarts
        = ((located 0 (lexemes none text)).filter text.beginsObject).map (·.1) := by
      rw [Text.objectStarts, seen_eq (Nat.zero_le _), List.drop_zero, List.filter_filter]
      refine congrArg _ (List.filter_congr fun item _ => ?_)
      cases hbegins : text.beginsObject item with
      | false => rfl
      | true => simp [(beginsObject_iff.mp hbegins).1, Lexeme.isComment]
    rw [objects_eq, hcode, List.map_map]
    exact hfound
  · intro p hp q hlt hle
    exact notMem_objectStarts (mem_objectStarts_iff.mp hp).1 (by decide) (by decide) hlt hle
  · intro o ho q hlt hle
    exact notMem_objectStarts ho (by decide) (by decide) hlt hle

def threeBraces : Text :=
  "f({a}),[{b}],".toList ++ '{' :: "c[".toList

theorem objects_enumerated_threeBraces :
    NestedSoFar (threeBraces.brackets 0 0 threeBraces.length)
    ∧ objects threeBraces = ["{a}".toList, '{' :: "c[".toList] := by
  have hbrackets : threeBraces.brackets 0 0 threeBraces.length ++ [']', '}']
      = "({})[{}]{[]}".toList := by decide +kernel
  have hnested : NestedSoFar (threeBraces.brackets 0 0 threeBraces.length) := by
    refine ⟨[']', '}'], hbrackets ▸ ?_⟩
    exact .bracket .round (.bracket .curly .nil .nil) (.bracket .square (.bracket .curly .nil .nil)
      (.bracket .curly (.bracket .square .nil .nil) .nil))
  have hstarts : threeBraces.objectStarts = [2, 13] := by decide +kernel
  refine ⟨hnested, ?_⟩
  rw [(objects_enumerated hnested).1, hstarts]
  decide +kernel

end GroqSnippets

/-
The partner of a bracket.

The search for the bracket that closes another one runs through depths.  What it finds can be said by
counting: from a bracket through its partner as many brackets close as open, and in every shorter
stretch more open than close.  The depth is nothing but the difference of the two counts, so this is
what the window around a bracket says already.

Everything else about partners follows from the counts, because they add up over stretches that
follow one another.  Where brackets are properly nested by kind, no part of what they enclose closes
more than it opens, so the search cannot stop inside.  And of two brackets, the second one cannot
outlast the first: between the second one and the first one's partner more brackets close than open.
-/
import GroqSnippets.Proofs.Source.Window

namespace GroqSnippets

/-! ### Stretches of what is seen -/

theorem map_snd_located (offset : Nat) (row : List Lexeme) :
    (located offset row).map (·.2) = row := by
  induction row generalizing offset with
  | nil => rfl
  | cons lexeme row ih => simp [located, ih]

theorem within_append {lo mid hi : Nat} (hlo : lo ≤ mid) (hhi : mid ≤ hi)
    {seen : List (Nat × Lexeme)} (hsorted : seen.Pairwise fun earlier later => earlier.1 < later.1) :
    within lo hi seen = within lo mid seen ++ within mid hi seen := by
  induction hsorted with
  | nil => rfl
  | @cons item seen hbehind _ ih =>
    by_cases hmid : item.1 < mid
    · have hfirst : within mid hi (item :: seen) = within mid hi seen := by
        simp [within, Nat.not_le.mpr hmid]
      have hhere : item.1 < hi := Nat.lt_of_lt_of_le hmid hhi
      rw [hfirst]
      by_cases hin : lo ≤ item.1
      · simpa [within, hin, hhere, hmid] using ih
      · simpa [within, hin] using ih
    · have hall : ∀ other ∈ item :: seen, mid ≤ other.1 := by
        intro other hother
        rcases List.mem_cons.mp hother with rfl | hother
        · exact Nat.not_lt.mp hmid
        · exact Nat.le_trans (Nat.not_lt.mp hmid) (Nat.le_of_lt (hbehind other hother))
      have hnone : within lo mid (item :: seen) = [] := by
        refine List.filter_eq_nil_iff.mpr fun other hother => ?_
        simp [Nat.not_lt.mpr (hall other hother)]
      rw [hnone, List.nil_append]
      refine List.filter_congr fun other hother => ?_
      simp [hall other hother, Nat.le_trans hlo (hall other hother)]

/-- What is seen in front of an item of a stretch is the stretch that ends there. -/
theorem within_of_split {text : Text} {start lo hi p : Nat} {lexeme : Lexeme}
    {front back : List (Nat × Lexeme)}
    (h : within lo hi (text.seen start) = front ++ (p, lexeme) :: back) :
    within lo p (text.seen start) = front := by
  have hmem : ∀ item ∈ front ++ (p, lexeme) :: back, lo ≤ item.1 ∧ item.1 < hi := by
    intro item hitem
    rw [← h] at hitem
    simpa using (List.mem_filter.mp hitem).2
  have hsorted := pairwise_within text start lo hi
  rw [h, List.pairwise_append, List.pairwise_cons] at hsorted
  obtain ⟨-, ⟨hback, -⟩, hfront⟩ := hsorted
  have hp := (hmem (p, lexeme) (by simp)).2
  have hinside : within lo p (text.seen start)
      = (front ++ (p, lexeme) :: back).filter fun item => decide (item.1 < p) := by
    rw [← h, within, within, List.filter_filter]
    refine List.filter_congr fun item _ => ?_
    by_cases hitem : item.1 < p
    · simp [hitem, Nat.lt_trans hitem hp]
    · simp [hitem]
  have hbehind : ∀ item ∈ (p, lexeme) :: back, p ≤ item.1 := by
    intro item hitem
    rcases List.mem_cons.mp hitem with rfl | hitem
    · exact Nat.le_refl p
    · exact Nat.le_of_lt (hback item hitem)
  rw [hinside, List.filter_append, List.filter_eq_self.mpr, List.filter_eq_nil_iff.mpr,
    List.append_nil]
  · intro item hitem
    simpa using hbehind item hitem
  · intro item hitem
    simpa using hfront item hitem (p, lexeme) List.mem_cons_self

/-- At an offset, no more is seen than the lexeme that starts there. -/
theorem within_here {text : Text} {start p : Nat} {lexeme : Lexeme}
    (h : (p, lexeme) ∈ text.seen start) :
    within p (p + 1) (text.seen start) = [(p, lexeme)] := by
  have hmem : (p, lexeme) ∈ within p (p + 1) (text.seen start) :=
    List.mem_filter.mpr ⟨h, by simp⟩
  obtain ⟨front, back, hsplit⟩ := List.append_of_mem hmem
  have hsorted := pairwise_within text start p (p + 1)
  rw [hsplit, List.pairwise_append, List.pairwise_cons] at hsorted
  have hall : ∀ item ∈ front ++ (p, lexeme) :: back, item.1 = p := by
    intro item hitem
    rw [← hsplit] at hitem
    have := (List.mem_filter.mp hitem).2
    simp at this
    omega
  have hfront : front = [] := by
    refine List.eq_nil_iff_forall_not_mem.mpr fun item hitem => ?_
    have hlt := hsorted.2.2 item hitem (p, lexeme) List.mem_cons_self
    exact Nat.ne_of_lt hlt (hall item (List.mem_append_left _ hitem))
  have hback : back = [] := by
    refine List.eq_nil_iff_forall_not_mem.mpr fun item hitem => ?_
    have hlt := hsorted.2.1.1 item hitem
    exact Nat.ne_of_gt hlt (hall item (by simp [hitem]))
  rw [hsplit, hfront, hback]
  rfl

/-! ### The brackets of a stretch -/

def Lexeme.bracket? : Lexeme → Option Char
  | .code c => if isOpener c || isCloser c then some c else none
  | _ => none

theorem Lexeme.eq_code_of_bracket? {lexeme : Lexeme} {c : Char} (h : lexeme.bracket? = some c) :
    lexeme = .code c := by
  cases lexeme with
  | code d =>
    obtain ⟨-, hcode⟩ := Option.ite_none_right_eq_some.mp h
    rw [Option.some.inj hcode]
  | quoted _ | regex _ | comment _ => cases h

/-- The brackets that a scan sees from one offset up to another one. -/
def Text.brackets (text : Text) (start lo hi : Nat) : List Char :=
  (within lo hi (text.seen start)).filterMap (·.2.bracket?)

/-- Whether more brackets of a row open than close. -/
def MoreOpen (brackets : List Char) : Prop :=
  brackets.countP isCloser < brackets.countP isOpener

/-- Whether as many brackets of a row open as close. -/
def AsManyClose (brackets : List Char) : Prop :=
  brackets.countP isOpener = brackets.countP isCloser

theorem AsManyClose.not_moreOpen {brackets : List Char} (h : AsManyClose brackets) :
    ¬ MoreOpen brackets := by
  unfold MoreOpen
  rw [h]
  exact Nat.lt_irrefl _

/-- The depth that a row of lexemes leads to is the difference of the two counts. -/
theorem depthThrough_eq_countP (depth : Int) (row : List Lexeme) :
    depthThrough depth row = depth + (row.filterMap Lexeme.bracket?).countP isOpener
      - (row.filterMap Lexeme.bracket?).countP isCloser := by
  induction row generalizing depth with
  | nil => simp
  | cons lexeme row ih =>
    rw [depthThrough_cons, ih]
    cases lexeme with
    | code c =>
      cases hopen : isOpener c with
      | true =>
        simp [Lexeme.bracket?, depthAfter, hopen, not_isCloser_of_isOpener hopen]
        omega
      | false =>
        cases hclose : isCloser c <;> simp [Lexeme.bracket?, depthAfter, hopen, hclose]
        omega
    | quoted _ | regex _ | comment _ => rfl

theorem brackets_append (text : Text) (start : Nat) {lo mid hi : Nat} (hlo : lo ≤ mid)
    (hhi : mid ≤ hi) :
    text.brackets start lo hi = text.brackets start lo mid ++ text.brackets start mid hi := by
  rw [Text.brackets, within_append hlo hhi (pairwise_seen text start), List.filterMap_append]
  rfl

theorem filterMap_bracket?_located (offset : Nat) (row : List Lexeme) :
    ((located offset row).filter fun (_, lexeme) => !lexeme.isComment).filterMap (·.2.bracket?)
      = row.filterMap Lexeme.bracket? := by
  have hcomment : ∀ lexeme : Lexeme,
      (if (!lexeme.isComment) = true then lexeme.bracket? else none) = lexeme.bracket? := by
    rintro (_ | _ | _ | _) <;> rfl
  calc ((located offset row).filter fun (_, lexeme) => !lexeme.isComment).filterMap (·.2.bracket?)
      = (located offset row).filterMap (·.2.bracket?) := by
        simp only [List.filterMap_filter, hcomment]
    _ = ((located offset row).map (·.2)).filterMap Lexeme.bracket? := by
        rw [List.filterMap_map]
        rfl
    _ = row.filterMap Lexeme.bracket? := by rw [map_snd_located]

section

variable {text : Text} {start o : Nat} {c : Char}

/-- Behind an opening bracket, a scan that starts there will do. -/
theorem within_seen_from (h : (o, .code c) ∈ text.seen start) (hc : isOpener c = true) {lo : Nat}
    (hlo : o ≤ lo) (hi : Nat) : within lo hi (text.seen start) = within lo hi (text.seen o) := by
  rw [seen_from h hc, within, within, List.filter_filter]
  refine List.filter_congr fun item _ => ?_
  by_cases hle : lo ≤ item.1
  · simp [hle, Nat.le_trans hlo hle]
  · simp [hle]

theorem brackets_of_split (h : (o, .code c) ∈ text.seen start) (hc : isOpener c = true)
    {front back : List Lexeme} (hrow : lexemes none (text.drop o) = front ++ back) :
    text.brackets start o (o + (rowText front).length) = front.filterMap Lexeme.bracket? := by
  have ho := Nat.le_of_lt (position_lt_of_mem_seen h)
  have hsplit : lexemes none (text.drop o) = [] ++ front ++ back := hrow
  rw [Text.brackets, within_seen_from h hc (Nat.le_refl o)]
  exact (congrArg _ (within_seen ho hsplit)).trans (filterMap_bracket?_located o front)

/-- From an opening bracket on, the row is the bracket with all that it holds, and what begins with
its partner, if there is one. -/
theorem exists_bracketed (h : (o, .code c) ∈ text.seen start) (hc : isOpener c = true) :
    ∃ inner ending, lexemes none (text.drop o) = .code c :: inner ++ ending
      ∧ closingOffset text o = o + (rowText (.code c :: inner)).length ∧ StaysOpen 1 inner
      ∧ ((ending = [] ∧ closingOffset text o = text.length)
        ∨ ∃ closer more, ending = .code closer :: more ∧ depthThrough 1 inner = 1
            ∧ isCloser closer = true) := by
  obtain ⟨before, inner, ending, hrow, ho, hclosing, hopen, hending⟩ := exists_window h hc
  have hsplit : lexemes none (text.drop start) = before ++ .code c :: (inner ++ ending) := by
    simpa using hrow
  have hdrop := lexemes_drop_of_isSettling hsplit (isSettling_of_isOpener hc)
  rw [← ho] at hdrop
  refine ⟨inner, ending, hdrop, ?_, hopen, hending⟩
  rw [hclosing, length_rowText_code, Nat.add_assoc]

/-- The slice from an opening bracket through its partner, or to the end, is spelled by the bracket, by
what it holds and by the partner. -/
theorem exists_slice_bracketed (h : (o, .code c) ∈ text.seen start) (hc : isOpener c = true) :
    ∃ inner closing more, lexemes none (text.drop o) = .code c :: (inner ++ closing ++ more)
      ∧ closingOffset text o = o + (rowText (.code c :: inner)).length ∧ StaysOpen 1 inner
      ∧ text.slice o (closingOffset text o + 1) = rowText (.code c :: (inner ++ closing))
      ∧ ((closing = [] ∧ more = [] ∧ closingOffset text o = text.length)
        ∨ ∃ closer, closing = [.code closer] ∧ closingOffset text o < text.length
            ∧ depthThrough 1 inner = 1 ∧ isCloser closer = true) := by
  obtain ⟨inner, ending, hrow, hclosing, hopen, hending⟩ := exists_bracketed h hc
  rcases hending with ⟨rfl, hend⟩ | ⟨closer, more, rfl, hone, hcloser⟩
  · have hwhole : lexemes none (text.drop o) = [] ++ (.code c :: inner) ++ [] := hrow
    have hslice := slice_of_split hwhole
    rw [rowText_nil, List.length_nil, Nat.add_zero, ← hclosing] at hslice
    refine ⟨inner, [], [], by simpa using hrow, hclosing, hopen, ?_, .inl ⟨rfl, rfl, hend⟩⟩
    rw [hend] at hslice ⊢
    rw [slice_beyond, hslice, List.append_nil]
  · have hwhole : lexemes none (text.drop o)
        = [] ++ (.code c :: (inner ++ [.code closer])) ++ more := by simpa using hrow
    have hslice := slice_of_split hwhole
    have hstop : o + (rowText (.code c :: (inner ++ [.code closer]))).length
        = closingOffset text o + 1 := by
      rw [← List.cons_append, rowText_append, List.length_append, hclosing, Nat.add_assoc]
      rfl
    rw [rowText_nil, List.length_nil, Nat.add_zero, hstop] at hslice
    have hlt : closingOffset text o < text.length := by
      have hlength := congrArg List.length (rowText_lexemes none (text.drop o))
      rw [hwhole, List.nil_append, rowText_append, List.length_append, List.length_drop] at hlength
      omega
    exact ⟨inner, [.code closer], more, by simpa using hrow, hclosing, hopen, hslice,
      .inr ⟨closer, rfl, hlt, hone, hcloser⟩⟩

/-! ### What closes a bracket

The partner is the first closing bracket at which the two counts are the same.  Before it more have
opened, so the depth of a scan from the bracket has not come down to zero yet.
-/

structure Text.Closes (text : Text) (start o p : Nat) : Prop where
  behind : o < p
  closer : ∃ c, (p, .code c) ∈ text.seen start ∧ isCloser c = true
  asMany : AsManyClose (text.brackets start o (p + 1))

theorem Text.Closes.lt_length {p : Nat} (h : text.Closes start o p) : p < text.length := by
  obtain ⟨closer, hcloser, -⟩ := h.closer
  exact position_lt_of_mem_seen hcloser

/-- A stretch of a row in which no bracket closes the first one has more brackets that open. -/
theorem moreOpen_of_staysOpen (hc : isOpener c = true) {row : List Lexeme} (hopen : StaysOpen 1 row) :
    MoreOpen ((Lexeme.code c :: row).filterMap Lexeme.bracket?) := by
  have hdepth := one_le_depthThrough hopen (Int.le_refl 1)
  have hcount := depthThrough_eq_countP 0 (.code c :: row)
  rw [depthThrough_cons, depthAfter_of_isOpener hc, Int.zero_add] at hcount
  unfold MoreOpen
  omega

theorem mem_brackets {lo hi p : Nat} {d : Char} (h : (p, .code d) ∈ text.seen start)
    (hd : isOpener d = true) (hlo : lo ≤ p) (hhi : p < hi) : d ∈ text.brackets start lo hi := by
  refine List.mem_filterMap.mpr ⟨(p, .code d), List.mem_filter.mpr ⟨h, ?_⟩, ?_⟩
  · simp [hlo, hhi]
  · simp [Lexeme.bracket?, hd]

/-- Up to the partner of a bracket, more brackets open than close. -/
theorem moreOpen_of_le_closingOffset (h : (o, .code c) ∈ text.seen start) (hc : isOpener c = true)
    {hi : Nat} (hlo : o < hi) (hhi : hi ≤ closingOffset text o) :
    MoreOpen (text.brackets start o hi) := by
  obtain ⟨inner, ending, hrow, hclosing, hopen, -⟩ := exists_bracketed h hc
  have hall := brackets_of_split h hc hrow
  rw [← hclosing, brackets_append text start (Nat.le_of_lt hlo) hhi] at hall
  -- The stretch is a part of the row that the bracket holds, and that part stays open as well.
  obtain ⟨front, back, hsplit, hfront, -⟩ := List.filterMap_eq_append_iff.mp hall.symm
  rw [← hfront]
  cases front with
  | nil =>
    have hmem := mem_brackets h hc (Nat.le_refl o) hlo
    rw [← hfront] at hmem
    cases hmem
  | cons first front =>
    obtain ⟨rfl, rfl⟩ := List.cons.inj hsplit
    exact moreOpen_of_staysOpen hc ((staysOpen_append ..).mp hopen).1

/-- The partner of a bracket closes as many brackets as are opened. -/
theorem closes_closingOffset (h : (o, .code c) ∈ text.seen start) (hc : isOpener c = true)
    (hclosed : closingOffset text o ≠ text.length) :
    text.Closes start o (closingOffset text o) := by
  obtain ⟨inner, ending, hrow, hclosing, -, hending⟩ := exists_bracketed h hc
  rcases hending with ⟨-, hend⟩ | ⟨closer, more, rfl, hone, hcloser⟩
  · exact absurd hend hclosed
  · have ho := Nat.le_of_lt (position_lt_of_mem_seen h)
    have hmem : (closingOffset text o, .code closer) ∈ text.seen o := by
      rw [seen_eq ho, hrow, located_append, hclosing]
      exact List.mem_filter.mpr ⟨List.mem_append_right _ List.mem_cons_self, rfl⟩
    rw [seen_from h hc] at hmem
    have hlt : o < closingOffset text o := by
      rw [hclosing, length_rowText_code]
      omega
    refine ⟨hlt, ⟨closer, (List.mem_filter.mp hmem).1, hcloser⟩, ?_⟩
    have hthrough : lexemes none (text.drop o)
        = (.code c :: inner ++ [.code closer]) ++ more := by simpa using hrow
    have hstretch := brackets_of_split h hc hthrough
    have hlength : o + (rowText (.code c :: inner ++ [.code closer])).length
        = closingOffset text o + 1 := by
      rw [hclosing, rowText_append, List.length_append, Nat.add_assoc]
      rfl
    rw [hlength] at hstretch
    have hcount := depthThrough_eq_countP 0 (.code c :: inner ++ [.code closer])
    rw [← hstretch] at hcount
    have hzero : depthThrough 0 (.code c :: inner ++ [.code closer]) = 0 := by
      simp [depthAfter_of_isOpener hc, hone, depthAfter_of_isCloser hcloser]
    unfold AsManyClose
    omega

/-- No bracket before the partner closes as many. -/
theorem closingOffset_le_of_closes (h : (o, .code c) ∈ text.seen start) (hc : isOpener c = true)
    {p : Nat} (hp : text.Closes start o p) : closingOffset text o ≤ p := by
  by_contra hlt
  have hlo : o < p + 1 := Nat.lt_succ_of_lt hp.behind
  exact hp.asMany.not_moreOpen (moreOpen_of_le_closingOffset h hc hlo (Nat.not_le.mp hlt))

theorem closingOffset_eq_length_iff (h : (o, .code c) ∈ text.seen start) (hc : isOpener c = true) :
    closingOffset text o = text.length ↔ ∀ p, ¬ text.Closes start o p := by
  constructor
  · intro hend p hp
    have hle := closingOffset_le_of_closes h hc hp
    have hlt := hp.lt_length
    omega
  · intro hnone
    by_contra hclosed
    exact hnone _ (closes_closingOffset h hc hclosed)

/-! ### Two brackets -/

/-- Of two brackets, the first one is closed before the second one opens, or the second one is closed
before the first one, or neither is closed. -/
theorem closingOffset_nests {o₁ o₂ : Nat} {c₁ c₂ : Char} (h₁ : (o₁, .code c₁) ∈ text.seen start)
    (hc₁ : isOpener c₁ = true) (h₂ : (o₂, .code c₂) ∈ text.seen start) (hc₂ : isOpener c₂ = true)
    (hlt : o₁ < o₂) :
    closingOffset text o₁ < o₂ ∨ closingOffset text o₂ < closingOffset text o₁
      ∨ closingOffset text o₁ = text.length ∧ closingOffset text o₂ = text.length := by
  by_cases hbehind : closingOffset text o₁ < o₂
  · exact .inl hbehind
  by_cases hinside : closingOffset text o₂ < closingOffset text o₁
  · exact .inr (.inl hinside)
  rw [Nat.not_lt] at hbehind hinside
  by_cases hend₁ : closingOffset text o₁ = text.length
  · refine .inr (.inr ⟨hend₁, ?_⟩)
    by_contra hend₂
    have hlt := (closes_closingOffset h₂ hc₂ hend₂).lt_length
    omega
  -- From the second bracket through the partner of the first one, more brackets close than open.
  have hfront := moreOpen_of_le_closingOffset h₁ hc₁ hlt hbehind
  have hwhole := (closes_closingOffset h₁ hc₁ hend₁).asMany
  have hnext : o₂ < closingOffset text o₁ + 1 := Nat.lt_succ_of_le hbehind
  rw [brackets_append text start (Nat.le_of_lt hlt) (Nat.le_of_lt hnext), AsManyClose,
    List.countP_append, List.countP_append] at hwhole
  rw [MoreOpen] at hfront
  rcases Nat.lt_or_eq_of_le hinside with hlonger | hsame
  · have hback := moreOpen_of_le_closingOffset h₂ hc₂ hnext hlonger
    rw [MoreOpen] at hback
    omega
  · rw [hsame] at hend₁ hwhole
    have hback := (closes_closingOffset h₂ hc₂ hend₁).asMany
    rw [AsManyClose] at hback
    omega

theorem eq_of_closingOffset_eq {o₁ o₂ : Nat} {c₁ c₂ : Char} (h₁ : (o₁, .code c₁) ∈ text.seen start)
    (hc₁ : isOpener c₁ = true) (h₂ : (o₂, .code c₂) ∈ text.seen start) (hc₂ : isOpener c₂ = true)
    (hsame : closingOffset text o₁ = closingOffset text o₂)
    (hclosed : closingOffset text o₁ ≠ text.length) : o₁ = o₂ := by
  have hbehind₁ := (closes_closingOffset h₁ hc₁ hclosed).behind
  have hbehind₂ := (closes_closingOffset h₂ hc₂ (hsame ▸ hclosed)).behind
  rcases Nat.lt_trichotomy o₁ o₂ with hlt | heq | hlt
  · have hnests := closingOffset_nests h₁ hc₁ h₂ hc₂ hlt
    omega
  · exact heq
  · have hnests := closingOffset_nests h₂ hc₂ h₁ hc₁ hlt
    omega

/-! ### Brackets of one kind

Counting does not tell kinds apart.  Between properly nested brackets that makes no difference,
since what they enclose is nested likewise and closes as much as it opens.
-/

inductive OfOneKind : Char → Char → Prop where
  | round : OfOneKind '(' ')'
  | square : OfOneKind '[' ']'
  | curly : OfOneKind '{' '}'

/-- Whether a row of brackets is properly nested by kind. -/
inductive WellNested : List Char → Prop where
  | nil : WellNested []
  /-- A bracket, what it holds, its partner, and more behind it. -/
  | bracket {c d : Char} {inner more : List Char} (kind : OfOneKind c d) (holds : WellNested inner)
    (rest : WellNested more) : WellNested (c :: (inner ++ d :: more))

theorem OfOneKind.brackets {c d : Char} (h : OfOneKind c d) :
    isOpener c = true ∧ isCloser c = false ∧ isOpener d = false ∧ isCloser d = true := by
  cases h <;> decide

theorem WellNested.asManyClose {brackets : List Char} (h : WellNested brackets) :
    AsManyClose brackets := by
  induction h with
  | nil => rfl
  | bracket kind _ _ hinner hmore =>
    obtain ⟨hc, hc', hd, hd'⟩ := kind.brackets
    unfold AsManyClose at hinner hmore ⊢
    simp [hc, hc', hd, hd', hinner, hmore]
    omega

theorem WellNested.exists_of_cons {c : Char} {brackets : List Char}
    (h : WellNested (c :: brackets)) :
    ∃ d inner more, OfOneKind c d ∧ WellNested inner ∧ brackets = inner ++ d :: more := by
  cases h with
  | bracket kind holds _ => exact ⟨_, _, _, kind, holds, rfl⟩

/-- No front part of properly nested brackets closes more than it opens. -/
theorem WellNested.front {brackets : List Char} (h : WellNested brackets) {front back : List Char}
    (hsplit : brackets = front ++ back) : front.countP isCloser ≤ front.countP isOpener := by
  induction h generalizing front back with
  | nil => simp [(List.append_eq_nil_iff.mp hsplit.symm).1]
  | @bracket c d inner more kind hholds _ hinner hmore =>
    obtain ⟨hc, hc', hd, hd'⟩ := kind.brackets
    have hsame := hholds.asManyClose
    unfold AsManyClose at hsame
    cases front with
    | nil => simp
    | cons first front =>
      obtain ⟨rfl, htail⟩ := List.cons.inj hsplit
      rcases List.append_eq_append_iff.mp htail with ⟨beyond, rfl, hbeyond⟩ | ⟨rest, hrest, -⟩
      · cases beyond with
        | nil =>
          simp [hc, hc', hsame]
        | cons second beyond =>
          obtain ⟨rfl, hafter⟩ := List.cons.inj hbeyond
          have hle := hmore hafter
          simp [hc, hc', hd, hd', hsame]
          omega
      · have hle := hinner hrest
        simp [hc, hc']
        omega

theorem brackets_here {p : Nat} {d : Char} (h : (p, .code d) ∈ text.seen start)
    (hd : isOpener d = true ∨ isCloser d = true) : text.brackets start p (p + 1) = [d] := by
  simp [Text.brackets, within_here h, Lexeme.bracket?, hd]

/-- Around properly nested brackets, the partner of a bracket is the next bracket of its kind. -/
theorem closingOffset_eq_of_wellNested (h : (o, .code c) ∈ text.seen start) {p : Nat} {d : Char}
    (hp : (p, .code d) ∈ text.seen start) (hlt : o < p) (kind : OfOneKind c d)
    (hinner : WellNested (text.brackets start (o + 1) p)) : closingOffset text o = p := by
  obtain ⟨hc, hc', hd, hd'⟩ := kind.brackets
  have hopening := brackets_here h (.inl hc)
  refine Nat.le_antisymm (closingOffset_le_of_closes h hc ⟨hlt, ⟨d, hp, hd'⟩, ?_⟩) ?_
  · have hsame := hinner.asManyClose
    have hthrough : o + 1 ≤ p + 1 := Nat.le_succ_of_le hlt
    rw [brackets_append text start (Nat.le_succ o) hthrough, hopening,
      brackets_append text start hlt (Nat.le_succ p), brackets_here hp (.inr hd')]
    rw [AsManyClose] at hsame ⊢
    simp [hc, hc', hd, hd', hsame]
  · by_contra hbefore
    rw [Nat.not_le] at hbefore
    have hpartner := closes_closingOffset h hc
      (Nat.ne_of_lt (Nat.lt_trans hbefore (position_lt_of_mem_seen hp)))
    have hthrough : o + 1 ≤ closingOffset text o + 1 := Nat.le_succ_of_le hpartner.behind
    -- The stretch behind the bracket is a front part of the nested brackets.
    have hfront := hinner.front (brackets_append text start hthrough hbefore)
    have hsame := hpartner.asMany
    rw [brackets_append text start (Nat.le_succ o) hthrough, hopening, AsManyClose] at hsame
    simp [hc, hc'] at hsame
    omega

/-- A bracket of a stretch stands somewhere in it, with the other ones before it and behind it. -/
theorem exists_seen_of_brackets {lo hi : Nat} {front back : List Char} {c : Char}
    (h : text.brackets start lo hi = front ++ c :: back) :
    ∃ o, (o, .code c) ∈ text.seen start ∧ lo ≤ o ∧ o < hi
      ∧ text.brackets start lo o = front ∧ text.brackets start (o + 1) hi = back := by
  obtain ⟨before, rest, hwithin, hbefore, hrest⟩ := List.filterMap_eq_append_iff.mp h
  obtain ⟨quiet, ⟨o, lexeme⟩, behind, rfl, hquiet, hc, -⟩ := List.filterMap_eq_cons_iff.mp hrest
  obtain rfl : lexeme = .code c := Lexeme.eq_code_of_bracket? hc
  rw [← List.append_assoc] at hwithin
  have hmem : (o, .code c) ∈ within lo hi (text.seen start) := by simp [hwithin]
  obtain ⟨ho, hbounds⟩ := List.mem_filter.mp hmem
  have hbounds : lo ≤ o ∧ o < hi := by simpa using hbounds
  have hfront : text.brackets start lo o = front := by
    rw [Text.brackets, within_of_split hwithin, List.filterMap_append, hbefore,
      List.filterMap_eq_nil_iff.mpr hquiet, List.append_nil]
  refine ⟨o, ho, hbounds.1, hbounds.2, hfront, ?_⟩
  have hbracket : isOpener c = true ∨ isCloser c = true := by
    obtain ⟨hbracket, -⟩ := Option.ite_none_right_eq_some.mp hc
    simpa using hbracket
  rw [brackets_append text start hbounds.1 (Nat.le_of_lt hbounds.2), hfront,
    brackets_append text start (Nat.le_succ o) hbounds.2, brackets_here ho hbracket] at h
  simpa using h

/-- Where a stretch from a bracket on is properly nested, the partner of the bracket is in the stretch,
it is of the same kind, and what the two enclose is properly nested. -/
theorem exists_ofOneKind_of_wellNested (h : (o, .code c) ∈ text.seen start)
    (hc : isOpener c = true) {hi : Nat} (hlt : o < hi)
    (hnested : WellNested (text.brackets start o hi)) :
    ∃ d, OfOneKind c d ∧ (closingOffset text o, .code d) ∈ text.seen start
      ∧ closingOffset text o < hi
      ∧ WellNested (text.brackets start (o + 1) (closingOffset text o)) := by
  rw [brackets_append text start (Nat.le_succ o) hlt, brackets_here h (.inl hc),
    List.singleton_append] at hnested
  obtain ⟨d, inner, more, kind, hinner, hword⟩ := hnested.exists_of_cons
  obtain ⟨p, hp, hbehind, hbefore, hbetween, -⟩ := exists_seen_of_brackets hword
  rw [← hbetween] at hinner
  rw [closingOffset_eq_of_wellNested h hp hbehind kind hinner]
  exact ⟨d, kind, hp, hbefore, hinner⟩

end

/-! ### The partner of a bracket -/

/-- Brackets are matched by counting, and their partners nest.  The offset that closes a bracket is
the first one at which as many brackets have closed as have opened, or the length of the text when
there is none; where brackets are properly nested by kind, it is the bracket of the same kind that
encloses what they do; and of two brackets that overlap, the second one is closed first. -/
theorem closingOffset_matches (text : Text) (start : Nat) :
    (∀ o c, (o, .code c) ∈ text.seen start → isOpener c = true →
      (closingOffset text o ≠ text.length → text.Closes start o (closingOffset text o))
        ∧ (∀ p, text.Closes start o p → closingOffset text o ≤ p)
        ∧ (∀ hi, o < hi → hi ≤ closingOffset text o → MoreOpen (text.brackets start o hi))
        ∧ (closingOffset text o = text.length ↔ ∀ p, ¬ text.Closes start o p)
        ∧ (∀ p d, (p, .code d) ∈ text.seen start → o < p → OfOneKind c d →
            WellNested (text.brackets start (o + 1) p) → closingOffset text o = p)
        ∧ ∀ hi, o < hi → WellNested (text.brackets start o hi) →
            ∃ d, OfOneKind c d ∧ (closingOffset text o, .code d) ∈ text.seen start
              ∧ closingOffset text o < hi
              ∧ WellNested (text.brackets start (o + 1) (closingOffset text o)))
      ∧ ∀ o₁ o₂ c₁ c₂, (o₁, .code c₁) ∈ text.seen start → isOpener c₁ = true →
          (o₂, .code c₂) ∈ text.seen start → isOpener c₂ = true → o₁ < o₂ →
          closingOffset text o₁ < o₂ ∨ closingOffset text o₂ < closingOffset text o₁
            ∨ closingOffset text o₁ = text.length ∧ closingOffset text o₂ = text.length := by
  constructor
  · intro o c h hc
    refine ⟨closes_closingOffset h hc, fun p => closingOffset_le_of_closes h hc,
      fun hi => moreOpen_of_le_closingOffset h hc, closingOffset_eq_length_iff h hc, ?_, ?_⟩
    · intro p d hp hlt kind
      exact closingOffset_eq_of_wellNested h hp hlt kind
    · intro hi hlt
      exact exists_ofOneKind_of_wellNested h hc hlt
  · intro o₁ o₂ c₁ c₂ h₁ hc₁ h₂ hc₂ hlt
    exact closingOffset_nests h₁ hc₁ h₂ hc₂ hlt

-- The kinds of brackets are not told apart.
example : closingOffset "([)]".toList 0 = 3 := by decide +kernel

end GroqSnippets

/-
The form of a lexeme.

The functions that look for the end of a lexeme read on from its first character, and behind a
backslash they take two characters at a time.  Where they stop can be said without them, as the
first place of the text where something holds of what stands before it and of what follows.  A
character is escaped when the backslashes directly before it are odd in number, and it stands in a
class when the last bracket before it that is not escaped is an opening one.

The proofs follow the reading functions, with what is read already held in front.  A reading function
only ever stops to look at places that are not escaped, and its memory of a class is right at these
places.  That is the invariant of each induction.

What a slash may open depends on the lexemes before it.  The scan remembers one character of them, and
that is enough: the memory answers as the last lexeme does that is neither a blank nor a comment.
-/
import GroqSnippets.Proofs.Source.Window
import Mathlib.Data.List.Induction

namespace GroqSnippets

/-! ### First places

A literal ends at the first place that closes it.  Said of the two parts of a text that meet there,
this needs no offsets, and a character in front moves no place.
-/

/-- Whether two parts of a text meet at the first place where something holds of the parts. -/
structure MeetFirst (holds : Text → Text → Prop) (front back : Text) : Prop where
  here : holds front back
  first : ∀ before after, front ++ back = before ++ after → holds before after →
    front.length ≤ before.length

/-- Whether something holds at no place of a text. -/
def Nowhere (holds : Text → Text → Prop) (text : Text) : Prop :=
  ∀ before after, text = before ++ after → ¬ holds before after

section

variable {holds : Text → Text → Prop} {c : Char} {front back text : Text}

theorem MeetFirst.nil (h : holds [] back) : MeetFirst holds [] back where
  here := h
  first _ _ _ _ := Nat.zero_le _

/-- One character more in front. -/
theorem MeetFirst.cons (hc : ¬ holds [] (c :: (front ++ back)))
    (h : MeetFirst (fun before after => holds (c :: before) after) front back) :
    MeetFirst holds (c :: front) back where
  here := h.here
  first := by
    intro before after hsplit hholds
    cases before with
    | nil =>
      obtain rfl : c :: (front ++ back) = after := hsplit
      exact absurd hholds hc
    | cons d before =>
      obtain ⟨rfl, htail⟩ := List.cons.inj hsplit
      exact Nat.succ_le_succ (h.first before after htail hholds)

theorem Nowhere.nil (h : ¬ holds [] []) : Nowhere holds [] := by
  intro before after hsplit
  obtain ⟨rfl, rfl⟩ := List.append_eq_nil_iff.mp hsplit.symm
  exact h

theorem Nowhere.cons (hc : ¬ holds [] (c :: text))
    (h : Nowhere (fun before after => holds (c :: before) after) text) :
    Nowhere holds (c :: text) := by
  intro before after hsplit
  cases before with
  | nil =>
    obtain rfl : c :: text = after := hsplit
    exact hc
  | cons d before =>
    obtain ⟨rfl, htail⟩ := List.cons.inj hsplit
    exact h before after htail

theorem Nowhere.of_cons (h : Nowhere holds (c :: text)) :
    Nowhere (fun before after => holds (c :: before) after) text := by
  intro before after hsplit
  exact h (c :: before) after (congrArg (c :: ·) hsplit)

end

/-! ### Escapes and classes

Whether a character is escaped depends on how many backslashes stand right before it.  A reader
instead takes a backslash together with the next character, and the two agree where such a pair
ends.
-/

namespace Text

/-- Whether a character behind a text is escaped: the backslashes that end the text are odd in
number. -/
def EndsEscaping (text : Text) : Prop :=
  (text.reverse.takeWhile (· == '\\')).length % 2 = 1

/-- Whether a text ends in a class: there is an opening bracket that is not escaped, and each closing
bracket behind it is escaped. -/
def EndsInClass (text : Text) : Prop :=
  ∃ before inner, text = before ++ '[' :: inner ∧ ¬ EndsEscaping before
    ∧ ∀ front back, inner = front ++ ']' :: back → EndsEscaping (before ++ '[' :: front)

variable {text : Text} {c : Char}

theorem not_endsEscaping_nil : ¬ EndsEscaping [] := by
  simp [EndsEscaping]

theorem not_endsInClass_nil : ¬ EndsInClass [] := by
  simp [EndsInClass]

theorem endsEscaping_append_singleton :
    EndsEscaping (text ++ [c]) ↔ c = '\\' ∧ ¬ EndsEscaping text := by
  unfold EndsEscaping
  by_cases hc : c = '\\'
  · simp [hc]
    omega
  · simp [hc]

theorem endsInClass_append_singleton :
    EndsInClass (text ++ [c])
      ↔ ¬ EndsEscaping text ∧ c = '[' ∨ EndsInClass text ∧ ¬ (¬ EndsEscaping text ∧ c = ']') := by
  constructor
  · rintro ⟨before, inner, hsplit, hbefore, hinner⟩
    rcases List.eq_nil_or_concat inner with rfl | ⟨inner, d, rfl⟩
    · obtain ⟨rfl, hc⟩ := List.append_inj' hsplit rfl
      exact .inl ⟨hbefore, (List.cons.inj hc).1⟩
    · rw [List.concat_eq_append, ← List.cons_append, ← List.append_assoc] at hsplit
      obtain ⟨rfl, hc⟩ := List.append_inj' hsplit rfl
      obtain ⟨rfl, -⟩ := List.cons.inj hc
      refine .inr ⟨⟨before, inner, rfl, hbefore, ?_⟩, ?_⟩
      · intro front back hfront
        refine hinner front (back ++ [c]) ?_
        simp [hfront]
      · rintro ⟨hescaped, rfl⟩
        exact hescaped (hinner inner [] (by simp))
  · rintro (⟨hescaped, rfl⟩ | ⟨⟨before, inner, rfl, hbefore, hinner⟩, hclose⟩)
    · refine ⟨text, [], rfl, hescaped, ?_⟩
      intro front back hfront
      simp at hfront
    · refine ⟨before, inner ++ [c], by simp, hbefore, ?_⟩
      intro front back hfront
      rcases List.eq_nil_or_concat back with rfl | ⟨back, d, rfl⟩
      · obtain ⟨rfl, hc⟩ := List.append_inj' hfront rfl
        obtain ⟨rfl, -⟩ := List.cons.inj hc
        exact not_not.mp fun hescaped => hclose ⟨hescaped, rfl⟩
      · rw [List.concat_eq_append, ← List.cons_append, ← List.append_assoc] at hfront
        exact hinner front back (List.append_inj' hfront rfl).1

theorem not_endsEscaping_append_singleton (hc : c ≠ '\\') : ¬ EndsEscaping (text ++ [c]) := by
  rw [endsEscaping_append_singleton]
  exact fun h => hc h.1

/-- Behind a backslash and the character that it escapes, nothing is escaped any more, and the class
is the one before them. -/
theorem ends_append_escape (h : ¬ EndsEscaping text) (c : Char) :
    ¬ EndsEscaping (text ++ ['\\', c])
      ∧ (EndsInClass (text ++ ['\\', c]) ↔ EndsInClass text) := by
  have hsplit : text ++ ['\\', c] = (text ++ ['\\']) ++ [c] := by simp
  have hescape : EndsEscaping (text ++ ['\\']) := endsEscaping_append_singleton.mpr ⟨rfl, h⟩
  rw [hsplit, endsEscaping_append_singleton, endsInClass_append_singleton,
    endsInClass_append_singleton]
  simp [hescape]

end Text

/-! ### Where literals and comments are closed

Each of these may hold where two parts of a text meet.
-/

/-- A quote that is not escaped follows. -/
def ClosesQuote (quote : Char) (before after : Text) : Prop :=
  after.head? = some quote ∧ ¬ before.EndsEscaping

/-- A slash follows that is neither escaped nor in a class. -/
def ClosesRegex (before after : Text) : Prop :=
  after.head? = some '/' ∧ ¬ before.EndsEscaping ∧ ¬ before.EndsInClass

def BreaksLine (before after : Text) : Prop :=
  after.head? = some '\n' ∧ ¬ before.EndsEscaping

def ClosesComment (_before after : Text) : Prop :=
  ['*', '/'] <+: after

/-- Whether a regex literal is closed between two parts of a text before its line ends. -/
structure ClosesOnLine (body back : Text) : Prop where
  closes : MeetFirst ClosesRegex body back
  unbroken : Nowhere BreaksLine body

namespace Lexeme

theorem quotedRest_form {quote : Char} (hquote : quote ≠ '\\') {read : Text}
    (hread : ¬ read.EndsEscaping) (rest : Text) :
    (∃ body more, rest = body ++ quote :: more ∧ quotedRest quote rest = body ++ [quote]
      ∧ MeetFirst (fun before after => ClosesQuote quote (read ++ before) after) body
          (quote :: more))
    ∨ quotedRest quote rest = rest
      ∧ Nowhere (fun before after => ClosesQuote quote (read ++ before) after) rest := by
  have hnil : ∀ before, ¬ ClosesQuote quote before [] := fun before h => by cases h.1
  have hslash : ∀ before more, ¬ ClosesQuote quote before ('\\' :: more) := by
    intro before more h
    exact hquote (Option.some.inj h.1).symm
  fun_induction quotedRest quote rest generalizing read with
  | case1 => exact .inr ⟨rfl, .nil (hnil _)⟩
  | case2 => exact .inr ⟨rfl, .cons (hslash _ _) (.nil (hnil _))⟩
  | case3 c rest ih =>
    have hescaped : ∀ more, ¬ ClosesQuote quote (read ++ ['\\']) more := by
      intro more h
      exact h.2 (Text.endsEscaping_append_singleton.mpr ⟨rfl, hread⟩)
    rcases ih (Text.ends_append_escape hread c).1 with
      ⟨body, more, rfl, hrest, hfirst⟩ | ⟨hrest, hnone⟩
    · refine .inl ⟨'\\' :: c :: body, more, rfl, by rw [hrest]; rfl, ?_⟩
      refine .cons (hslash _ _) (.cons (hescaped _) ?_)
      simpa using hfirst
    · refine .inr ⟨by rw [hrest], .cons (hslash _ _) (.cons (hescaped _) ?_)⟩
      simpa using hnone
  | case4 rest hlone hpair =>
    refine .inl ⟨[], rest, rfl, rfl, .nil ⟨rfl, ?_⟩⟩
    rwa [List.append_nil]
  | case5 c rest hlone hpair hc ih =>
    have hne : c ≠ '\\' := by cases rest <;> simp_all
    have hother : ∀ before more, ¬ ClosesQuote quote before (c :: more) := by
      intro before more h
      exact hc (Option.some.inj h.1)
    rcases ih (Text.not_endsEscaping_append_singleton hne) with
      ⟨body, more, rfl, hrest, hfirst⟩ | ⟨hrest, hnone⟩
    · refine .inl ⟨c :: body, more, rfl, by rw [hrest]; rfl, .cons (hother _ _) ?_⟩
      simpa using hfirst
    · refine .inr ⟨by rw [hrest], .cons (hother _ _) ?_⟩
      simpa using hnone

section

variable {inClass : Bool} {read rest : Text}

/-- What a search for the end of a regex literal may answer behind what is read of it already.  With a
literal, it reaches through the first slash that closes it, before its line ends, and through the
letters behind the slash.  Without one, a line ends before every slash that would close it. -/
def IsRegexEnd (read rest : Text) : Option Text → Prop
  | some literal =>
    ∃ body flags more, rest = body ++ '/' :: (flags ++ more) ∧ literal = body ++ '/' :: flags
      ∧ MeetFirst (fun before after => ClosesRegex (read ++ before) after) body
          ('/' :: (flags ++ more))
      ∧ Nowhere (fun before after => BreaksLine (read ++ before) after) body
      ∧ (∀ c ∈ flags, isLetter c = true) ∧ ∀ c ∈ more.head?, isLetter c = false
  | none =>
    ∀ body back, rest = body ++ back → ClosesRegex (read ++ body) back →
      ¬ Nowhere (fun before after => BreaksLine (read ++ before) after) body

/-- A character that neither closes the literal nor ends its line is read over. -/
theorem IsRegexEnd.cons {c : Char} {result : Option Text}
    (hcloses : ∀ more, ¬ ClosesRegex read (c :: more))
    (hbreaks : ∀ more, ¬ BreaksLine read (c :: more))
    (h : IsRegexEnd (read ++ [c]) rest result) :
    IsRegexEnd read (c :: rest) (result.map (c :: ·)) := by
  have hread : ∀ before, read ++ [c] ++ before = read ++ c :: before := by simp
  have hhere : read ++ [] = read := List.append_nil read
  cases result with
  | some literal =>
    obtain ⟨body, flags, more, rfl, rfl, hfirst, hline, hflags, hmore⟩ := h
    simp only [hread] at hfirst hline
    refine ⟨c :: body, flags, more, rfl, rfl, .cons ?_ hfirst, .cons ?_ hline, hflags, hmore⟩
    · rw [hhere]
      exact hcloses _
    · rw [hhere]
      exact hbreaks _
  | none =>
    intro body back hsplit hclosed hline
    cases body with
    | nil =>
      obtain rfl : c :: rest = back := hsplit
      rw [hhere] at hclosed
      exact hcloses _ hclosed
    | cons d body =>
      obtain ⟨rfl, htail⟩ := List.cons.inj hsplit
      refine h body back htail (by rwa [hread]) ?_
      simp only [hread]
      exact hline.of_cons

theorem IsRegexEnd.nil : IsRegexEnd read [] none := by
  intro body back hsplit hclosed
  obtain ⟨rfl, rfl⟩ := List.append_eq_nil_iff.mp hsplit.symm
  cases hclosed.1

theorem isRegexEnd_regexRest? (hread : ¬ read.EndsEscaping)
    (hclass : inClass = true ↔ read.EndsInClass) :
    IsRegexEnd read rest (regexRest? inClass rest) := by
  have hhead : ∀ {c d : Char}, c ≠ d → ∀ more : Text, (c :: more).head? ≠ some d := by
    intro c d hne more hhead
    exact hne (Option.some.inj hhead)
  fun_induction regexRest? inClass rest generalizing read with
  | case1 => exact .nil
  | case2 inClass rest =>
    intro body back hsplit hclosed hline
    cases body with
    | nil =>
      obtain rfl : '\n' :: rest = back := hsplit
      exact hhead (by decide) rest hclosed.1
    | cons d body =>
      obtain ⟨rfl, -⟩ := List.cons.inj hsplit
      exact hline [] ('\n' :: body) rfl ⟨rfl, by rwa [List.append_nil]⟩
  | case3 =>
    exact IsRegexEnd.nil.cons (fun more h => hhead (by decide) more h.1)
      (fun more h => hhead (by decide) more h.1)
  | case4 inClass c rest ih =>
    obtain ⟨hnext, hsame⟩ := Text.ends_append_escape hread c
    have hescaped : (read ++ ['\\']).EndsEscaping :=
      Text.endsEscaping_append_singleton.mpr ⟨rfl, hread⟩
    have hinner : IsRegexEnd (read ++ ['\\'] ++ [c]) rest (regexRest? inClass rest) := by
      rw [List.append_assoc]
      exact ih hnext (hclass.trans hsame.symm)
    have hpair := (hinner.cons (fun _ h => h.2.1 hescaped) (fun _ h => h.2 hescaped)).cons
      (fun more h => hhead (by decide) more h.1) (fun more h => hhead (by decide) more h.1)
    rwa [Option.map_map] at hpair
  | case5 inClass rest ih =>
    have hinner : IsRegexEnd (read ++ ['[']) rest (regexRest? true rest) :=
      ih (Text.not_endsEscaping_append_singleton (by decide))
        (by simp [Text.endsInClass_append_singleton, hread])
    exact hinner.cons (fun more h => hhead (by decide) more h.1)
      (fun more h => hhead (by decide) more h.1)
  | case6 inClass rest ih =>
    have hinner : IsRegexEnd (read ++ [']']) rest (regexRest? false rest) :=
      ih (Text.not_endsEscaping_append_singleton (by decide))
        (by simp [Text.endsInClass_append_singleton, hread])
    exact hinner.cons (fun more h => hhead (by decide) more h.1)
      (fun more h => hhead (by decide) more h.1)
  | case7 inClass c rest hbreak hlone hpair hopen hclose hslash =>
    obtain ⟨rfl, rfl⟩ := hslash
    have hout : ¬ read.EndsInClass := fun h => by simpa using hclass.mpr h
    have hsplit : rest = rest.takeWhile isLetter ++ rest.dropWhile isLetter :=
      List.takeWhile_append_dropWhile.symm
    refine ⟨[], rest.takeWhile isLetter, rest.dropWhile isLetter, congrArg _ hsplit, rfl,
      .nil ⟨rfl, ?_, ?_⟩, .nil ?_, ?_, ?_⟩
    · rwa [List.append_nil]
    · rwa [List.append_nil]
    · intro h
      cases h.1
    · exact List.all_eq_true.mp List.all_takeWhile
    · intro c hc
      have hnot := List.head?_dropWhile_not isLetter rest
      rwa [hc] at hnot
  | case8 inClass c rest hbreak hlone hpair hopen hclose hslash ih =>
    have hne : c ≠ '\\' := by cases rest <;> simp_all
    have hinner : IsRegexEnd (read ++ [c]) rest (regexRest? inClass rest) := by
      refine ih (Text.not_endsEscaping_append_singleton hne) ?_
      rw [Text.endsInClass_append_singleton, hclass]
      exact ⟨fun h => .inr ⟨h, fun hc => hclose hc.2⟩,
        fun h => h.elim (fun hc => absurd hc.2 hopen) And.left⟩
    refine hinner.cons ?_ fun more h => hhead hbreak more h.1
    intro more h
    by_cases hc : c = '/'
    · have hin : inClass = true := by simpa [hc] using hslash
      exact h.2.2 (hclass.mp hin)
    · exact hhead hc more h.1

end

theorem blockCommentRest_form (rest : Text) :
    (∃ body more, rest = body ++ '*' :: '/' :: more ∧ blockCommentRest rest = body ++ ['*', '/']
      ∧ MeetFirst ClosesComment body ('*' :: '/' :: more))
    ∨ blockCommentRest rest = rest ∧ Nowhere ClosesComment rest := by
  fun_induction blockCommentRest rest with
  | case1 => exact .inr ⟨rfl, .nil (by simp [ClosesComment])⟩
  | case2 rest => exact .inl ⟨[], rest, rfl, rfl, .nil ⟨rest, rfl⟩⟩
  | case3 c rest hne ih =>
    have hopen : ¬ ClosesComment [] (c :: rest) := by
      rintro ⟨more, hmore⟩
      obtain ⟨rfl, rfl⟩ := List.cons.inj hmore
      exact hne more rfl rfl
    rcases ih with ⟨body, more, rfl, hrest, hfirst⟩ | ⟨hrest, hnone⟩
    · exact .inl ⟨c :: body, more, rfl, by rw [hrest]; rfl, .cons hopen hfirst⟩
    · exact .inr ⟨by rw [hrest], .cons hopen hnone⟩

/-! ### The form of a lexeme -/

def OpensComment (rest : Text) : Prop :=
  rest.head? = some '/' ∨ rest.head? = some '*'

def OpensRegex (rest : Text) : Prop :=
  ∃ body back, rest = body ++ back ∧ ClosesOnLine body back

/-- The form of a lexeme, with what follows it, where `mayOpen` says whether a slash may open a regex
literal. -/
inductive Formed (mayOpen : Prop) : Lexeme → Text → Prop where
  | lineComment {body more : Text} (unbroken : '\n' ∉ body) (ends : ∀ c ∈ more.head?, c = '\n') :
    Formed mayOpen (.comment ('/' :: '/' :: body)) more
  | blockComment {body more : Text} (closes : MeetFirst ClosesComment body ('*' :: '/' :: more)) :
    Formed mayOpen (.comment ('/' :: '*' :: (body ++ ['*', '/']))) more
  | openComment {body : Text} (opens : Nowhere ClosesComment body) :
    Formed mayOpen (.comment ('/' :: '*' :: body)) []
  | quoted {quote : Char} {body more : Text} (mark : isQuote quote = true)
    (closes : MeetFirst (ClosesQuote quote) body (quote :: more)) :
    Formed mayOpen (.quoted (quote :: (body ++ [quote]))) more
  /-- A quoted literal that is not closed reaches to the end. -/
  | openQuoted {quote : Char} {body : Text} (mark : isQuote quote = true)
    (opens : Nowhere (ClosesQuote quote) body) :
    Formed mayOpen (.quoted (quote :: body)) []
  /-- A regex literal reaches through the first slash that closes it and all the letters behind it. -/
  | regex {body flags more : Text} (opens : mayOpen)
    (noComment : ¬ OpensComment (body ++ '/' :: (flags ++ more)))
    (closes : ClosesOnLine body ('/' :: (flags ++ more)))
    (letters : ∀ c ∈ flags, isLetter c = true) (ends : ∀ c ∈ more.head?, isLetter c = false) :
    Formed mayOpen (.regex ('/' :: (body ++ '/' :: flags))) more
  /-- Any other lexeme is one character, which opens nothing. -/
  | code {c : Char} {more : Text} (noQuote : isQuote c = false)
    (noSlash : c = '/' → ¬ OpensComment more ∧ ¬ (mayOpen ∧ OpensRegex more)) :
    Formed mayOpen (.code c) more

/-- What a slash opens has its form. -/
theorem formed_ofSlash (last : Option Char) (rest : Text) :
    ∃ more, '/' :: rest = (ofSlash last rest).text ++ more
      ∧ Formed (opensRegex last = true) (ofSlash last rest) more := by
  have hends : ∀ text : Text, ∀ c ∈ (text.dropWhile (· != '\n')).head?, c = '\n' := by
    intro text c hc
    have hnot := List.head?_dropWhile_not (· != '\n') text
    rw [hc] at hnot
    simpa using hnot
  have hend : ∀ text, IsRegexEnd [] text (regexRest? false text) := fun _ =>
    isRegexEnd_regexRest? Text.not_endsEscaping_nil (by simp [Text.not_endsInClass_nil])
  have hnone : ∀ text : Text, (∀ more, text = '/' :: more → False) →
      (∀ more, text = '*' :: more → False) → ¬ OpensComment text := by
    rintro (_ | ⟨c, text⟩) hslash hstar (hhead | hhead)
    · cases hhead
    · cases hhead
    · exact hslash text (congrArg (· :: text) (Option.some.inj hhead))
    · exact hstar text (congrArg (· :: text) (Option.some.inj hhead))
  fun_cases ofSlash last rest with
  | case1 rest =>
    refine ⟨rest.dropWhile (· != '\n'), ?_, .lineComment ?_ (hends rest)⟩
    · simp [text]
    · intro hmem
      simpa using List.all_eq_true.mp List.all_takeWhile _ hmem
  | case2 rest =>
    rcases blockCommentRest_form rest with ⟨body, more, hrest, hread, hfirst⟩ | ⟨hread, hnone⟩
    · rw [hread]
      exact ⟨more, by simp [text, hrest], .blockComment hfirst⟩
    · rw [hread]
      exact ⟨[], by simp [text], .openComment hnone⟩
  | case3 _ hslash hstar literal hread =>
    obtain ⟨hopens, hread⟩ := (Option.ite_none_right_eq_some).mp hread
    have hfound := hend rest
    rw [hread] at hfound
    obtain ⟨body, flags, more, rfl, rfl, hfirst, hline, hflags, hmore⟩ := hfound
    refine ⟨more, by simp [text], ?_⟩
    exact .regex hopens (hnone _ hslash hstar) ⟨hfirst, hline⟩ hflags hmore
  | case4 _ hslash hstar hread =>
    refine ⟨rest, rfl, .code (by decide) fun _ => ⟨hnone _ hslash hstar, ?_⟩⟩
    rintro ⟨hopens, body, back, rfl, hclosed⟩
    rw [if_pos hopens] at hread
    have hfound := hend (body ++ back)
    rw [hread] at hfound
    exact hfound body back rfl hclosed.closes.here hclosed.unbroken

theorem formed_first (last : Option Char) (c : Char) (rest : Text) :
    ∃ more, c :: rest = (first last c rest).text ++ more
      ∧ Formed (opensRegex last = true) (first last c rest) more := by
  unfold first
  split
  next hquote =>
    have hne : c ≠ '\\' := by
      rintro rfl
      exact absurd hquote (by decide)
    rcases quotedRest_form hne Text.not_endsEscaping_nil rest with
      ⟨body, more, hrest, hread, hfirst⟩ | ⟨hread, hnone⟩
    · rw [hread]
      exact ⟨more, by simp [text, hrest], .quoted hquote hfirst⟩
    · rw [hread]
      exact ⟨[], by simp [text], .openQuoted hquote hnone⟩
  next hquote =>
    split
    next hslash =>
      rw [hslash]
      exact formed_ofSlash last rest
    next hslash =>
      exact ⟨rest, rfl, .code (by simpa using hquote) fun h => absurd h hslash⟩

/-- Whether a lexeme decides what a slash behind it is, which blanks and comments do not. -/
def isSignificant : Lexeme → Bool
  | code c => !isBlank c
  | quoted _ | regex _ => true
  | comment _ => false

end Lexeme

theorem not_isRegexPreceder_of_isQuote {c : Char} (h : isQuote c = true) :
    isRegexPreceder c = false := by
  simp only [isQuote, Bool.or_eq_true, beq_iff_eq] at h
  rcases h with (rfl | rfl) | rfl <;> decide

/-- Whether a slash behind a row of lexemes may open a regex literal: nothing but blanks and comments
stand there, or the last lexeme that is neither is one of the characters that a regex literal may
follow.  A literal is none, whichever characters it holds. -/
def RegexMayFollow (row : List Lexeme) : Prop :=
  ∀ lexeme ∈ (row.filter Lexeme.isSignificant).getLast?,
    ∃ c, lexeme = .code c ∧ isRegexPreceder c = true

section

variable {last : Option Char} {lexeme : Lexeme} {row before after : List Lexeme} {mayOpen : Prop}
  {text more : Text}

/-- Each lexeme of a text has its form, and what may be opened there is settled by the lexemes before
it. -/
theorem formed_of_lexemes (h : lexemes last text = before ++ lexeme :: after) :
    lexeme.Formed (opensRegex (lastAfterRow last before) = true) (rowText after) := by
  have hwhole : lexemes last (rowText (before ++ lexeme :: after)) = before ++ lexeme :: after := by
    rw [← h, rowText_lexemes]
  have hback := lexemes_rowText_append hwhole
  cases htext : rowText (lexeme :: after) with
  | nil =>
    rw [htext, lexemes_nil] at hback
    cases hback
  | cons c rest =>
    rw [htext, lexemes_cons] at hback
    obtain ⟨rfl, -⟩ := List.cons.inj hback
    obtain ⟨more, hmore, hformed⟩ := Lexeme.formed_first (lastAfterRow last before) c rest
    rw [rowText_cons, hmore] at htext
    rwa [List.append_cancel_left htext]

theorem Lexeme.Formed.lastAfter_of_isSignificant (h : lexeme.Formed mayOpen more)
    (hsignificant : lexeme.isSignificant = true) :
    opensRegex (lexeme.lastAfter last) = true
      ↔ ∃ c, lexeme = .code c ∧ isRegexPreceder c = true := by
  cases h with
  | lineComment | blockComment | openComment => cases hsignificant
  | quoted mark | openQuoted mark =>
    simp [Lexeme.lastAfter, opensRegex, not_isRegexPreceder_of_isQuote mark]
  | regex => simp [Lexeme.lastAfter, opensRegex, isRegexPreceder]
  | @code c =>
    have hblank : isBlank c = false := by simpa [Lexeme.isSignificant] using hsignificant
    simp [Lexeme.lastAfter, opensRegex, hblank]

theorem Lexeme.lastAfter_of_not_isSignificant (h : lexeme.isSignificant = false) :
    lexeme.lastAfter last = last := by
  cases lexeme <;> simp_all [Lexeme.isSignificant, Lexeme.lastAfter]

/-- The memory of a scan says what may stand behind the lexemes that it has read. -/
theorem opensRegex_lastAfterRow (h : lexemes none text = row ++ after) :
    opensRegex (lastAfterRow none row) = true ↔ RegexMayFollow row := by
  induction row using List.reverseRecOn generalizing after with
  | nil => simp [RegexMayFollow, opensRegex]
  | append_singleton row lexeme ih =>
    have hsplit : lexemes none text = row ++ lexeme :: after := by simpa using h
    have hlast : lastAfterRow none (row ++ [lexeme])
        = lexeme.lastAfter (lastAfterRow none row) := by simp [lastAfterRow]
    rw [hlast]
    cases hsignificant : lexeme.isSignificant with
    | true =>
      rw [(formed_of_lexemes hsplit).lastAfter_of_isSignificant hsignificant]
      simp [RegexMayFollow, hsignificant]
    | false =>
      rw [Lexeme.lastAfter_of_not_isSignificant hsignificant, ih hsplit]
      simp [RegexMayFollow, hsignificant]

end

/-! ### The form of a scan

What may stand behind the lexemes in front is told by the last of them that counts, so the memory of
the scan does not appear in the statement.
-/

/-- All lexemes that a scan of a text from an offset reads, comments included. -/
def Text.scan (text : Text) (start : Nat) : List Token :=
  lexemesFrom none (Cursor.ofOffset text start)

theorem map_lexeme_placed (place : Cursor) (row : List Lexeme) :
    (placed place row).map (·.lexeme) = row := by
  induction row generalizing place with
  | nil => rfl
  | cons lexeme row ih => simp [placed, ih]

theorem scan_eq (text : Text) (start : Nat) :
    text.scan start = placed (Cursor.ofOffset text start) (lexemes none (text.drop start)) := by
  rw [Text.scan, lexemesFrom_eq, Cursor.rest_ofOffset]

section

variable {text : Text} {start : Nat} {front back : List Token} {token : Token}

theorem pairwise_scan (text : Text) (start : Nat) :
    (text.scan start).Pairwise fun earlier later => earlier.place.offset < later.place.offset := by
  have hplaced := map_placed (Cursor.ofOffset text start) (lexemes none (text.drop start)) []
    (by rw [rowText_lexemes, Cursor.rest_ofOffset, List.append_nil])
  have hpairs := hplaced ▸ pairwise_located fun _ => text_ne_nil_of_mem_lexemes
  rw [List.pairwise_map] at hpairs
  rwa [scan_eq]

/-- The row of a scan falls apart where the scan does. -/
theorem lexemes_of_scan (h : text.scan start = front ++ token :: back) :
    lexemes none (text.drop start)
      = front.map (·.lexeme) ++ token.lexeme :: back.map (·.lexeme) := by
  rw [← map_lexeme_placed (Cursor.ofOffset text start) (lexemes none (text.drop start)), ← scan_eq,
    h, List.map_append, List.map_cons]

/-- A lexeme stands behind the text of the lexemes before it. -/
theorem offset_of_scan (h : text.scan start = front ++ token :: back) :
    token.place.offset = start + (rowText (front.map (·.lexeme))).length := by
  have hmem : token.lexeme ∈ lexemes none (text.drop start) := by simp [lexemes_of_scan h]
  have hpos := List.length_pos_iff.mpr (text_ne_nil_of_mem_lexemes hmem)
  have hlength := congrArg List.length (drop_of_split (lexemes_of_scan h))
  rw [rowText_cons, List.length_append, List.length_drop] at hlength
  rw [scan_eq] at h
  obtain ⟨before, after, -, rfl, hplace⟩ := exists_split_of_placed_eq_append h
  rw [map_lexeme_placed] at hlength ⊢
  rw [hplace, Cursor.ofOffset_skip, Cursor.offset_ofOffset]
  omega

end

/-- The scan loses nothing, and each of its lexemes has its form.  The tokens are what is left of the
scan without the comments, the whole scan spells the text from the start on, and each lexeme is the
part of the text that stands at its place. -/
theorem scan_form (text : Text) (start : Nat) :
    (Cursor.ofOffset text start).tokens
        = (text.scan start).filter (fun token => !token.lexeme.isComment)
      ∧ rowText ((text.scan start).map (·.lexeme)) = text.drop start
      ∧ (text.scan start).Pairwise
          (fun earlier later => earlier.place.offset < later.place.offset)
      ∧ ∀ front token back, text.scan start = front ++ token :: back →
        token.lexeme.text ≠ []
          ∧ token.place.offset = start + (rowText (front.map (·.lexeme))).length
          ∧ text.drop token.place.offset = token.lexeme.text ++ rowText (back.map (·.lexeme))
          ∧ token.lexeme.Formed (RegexMayFollow (front.map (·.lexeme)))
              (rowText (back.map (·.lexeme))) := by
  refine ⟨rfl, ?_, pairwise_scan text start, ?_⟩
  · rw [scan_eq, map_lexeme_placed, rowText_lexemes]
  · intro front token back hsplit
    have hrow := lexemes_of_scan hsplit
    have hmem : token.lexeme ∈ lexemes none (text.drop start) := by simp [hrow]
    refine ⟨text_ne_nil_of_mem_lexemes hmem, offset_of_scan hsplit, ?_, ?_⟩
    · rw [offset_of_scan hsplit, drop_of_split hrow, rowText_cons]
    · rw [← opensRegex_lastAfterRow hrow]
      exact formed_of_lexemes hrow

-- A slash divides behind an operand, and opens a regex literal behind a comma.
example : (Text.scan "1/2,/[/]/g".toList 0).map (·.lexeme)
    = [.code '1', .code '/', .code '2', .code ',', .regex "/[/]/g".toList] := by decide +kernel

end GroqSnippets

/-
What of a glob stands for a character in the middle of a text.

A text is accepted when the parts of a glob use it up one after the other, so a glob that accepts a
text falls into two at every place: what it has used before the place, and what is left of it for
the rest.  A part that is no run stands for one character and is then done with.  A run may have
begun before the place and may go on behind it, so it belongs to both halves.

A character that is not written in a glob can only be met by a wildcard.  `Glob.Bridges` says of a
glob that one of its wildcards stands for the character between two texts, and that the parts
before and behind it take care of the two; that is all there is to accepting the whole.
-/
import GroqSnippets.Glob

namespace GroqSnippets

namespace GlobPart

/-- Whether a part stands for something else than the character that is written. -/
def isWild : GlobPart → Bool
  | char _ => false
  | anyChar | anyRun | oneOf _ => true

/-- Whether a part can stand for a character, be it alone or with others around it. -/
def covers (c : Char) : GlobPart → Bool
  | char d => c == d
  | anyChar | anyRun => true
  | oneOf set => set.contains c

/-- What a part that has met a character can stand for besides. -/
def onward : GlobPart → List GlobPart
  | anyRun => [anyRun]
  | char _ | anyChar | oneOf _ => []

theorem onward_of_ne {part : GlobPart} (h : part ≠ .anyRun) : part.onward = [] := by
  cases part with
  | anyRun => exact absurd rfl h
  | char _ | anyChar | oneOf _ => rfl

end GlobPart

namespace Glob

/-! ### Parts one after the other -/

theorem someTail_iff {p : Text → Bool} {text : Text} :
    someTail p text = true ↔ ∃ front tail, text = front ++ tail ∧ p tail = true := by
  induction text with
  | nil => simp [someTail, and_assoc]
  | cons c rest ih =>
    rw [someTail, Bool.or_eq_true, ih]
    constructor
    · rintro (hall | ⟨front, tail, rfl, htail⟩)
      · exact ⟨[], c :: rest, rfl, hall⟩
      · exact ⟨c :: front, tail, rfl, htail⟩
    · rintro ⟨front, tail, hsplit, htail⟩
      cases front with
      | nil => exact .inl (hsplit ▸ htail)
      | cons d front => exact .inr ⟨front, tail, (List.cons.inj hsplit).2, htail⟩

theorem partsAccept_anyRun_iff {parts : List GlobPart} {text : Text} :
    partsAccept (.anyRun :: parts) text = true
      ↔ ∃ front tail, text = front ++ tail ∧ partsAccept parts tail = true := by
  cases text <;> exact someTail_iff

theorem partsAccept_cons_nil {part : GlobPart} (hpart : part ≠ .anyRun) (parts : List GlobPart) :
    partsAccept (part :: parts) [] = false := by
  cases part with
  | anyRun => exact absurd rfl hpart
  | char _ | anyChar | oneOf _ => rfl

theorem partsAccept_cons_cons {part : GlobPart} (hpart : part ≠ .anyRun) (parts : List GlobPart)
    (c : Char) (rest : Text) :
    partsAccept (part :: parts) (c :: rest) = (part.covers c && partsAccept parts rest) := by
  cases part with
  | anyRun => exact absurd rfl hpart
  | anyChar => exact (Bool.true_and _).symm
  | char _ | oneOf _ => rfl

/-- Parts in two groups accept what the groups accept, one behind the other. -/
theorem partsAccept_append_iff {first second : List GlobPart} {text : Text} :
    partsAccept (first ++ second) text = true
      ↔ ∃ front back, text = front ++ back
        ∧ partsAccept first front = true ∧ partsAccept second back = true := by
  induction first generalizing text with
  | nil =>
    simp only [List.nil_append, partsAccept, List.isEmpty_iff]
    constructor
    · intro hsecond
      exact ⟨[], text, rfl, rfl, hsecond⟩
    · rintro ⟨_, back, rfl, rfl, hsecond⟩
      exact hsecond
  | cons part first ih =>
    rw [List.cons_append]
    by_cases hpart : part = .anyRun
    · subst hpart
      simp only [partsAccept_anyRun_iff, ih]
      constructor
      · rintro ⟨skipped, _, rfl, front, back, rfl, hfirst, hsecond⟩
        exact ⟨skipped ++ front, back, (List.append_assoc ..).symm, ⟨skipped, front, rfl, hfirst⟩,
          hsecond⟩
      · rintro ⟨_, back, rfl, ⟨skipped, front, rfl, hfirst⟩, hsecond⟩
        exact ⟨skipped, front ++ back, List.append_assoc .., front, back, rfl, hfirst, hsecond⟩
    · constructor
      · intro haccept
        cases text with
        | nil =>
          rw [partsAccept_cons_nil hpart] at haccept
          cases haccept
        | cons c rest =>
          rw [partsAccept_cons_cons hpart, Bool.and_eq_true, ih] at haccept
          obtain ⟨hcovers, front, back, rfl, hfirst, hsecond⟩ := haccept
          refine ⟨c :: front, back, rfl, ?_, hsecond⟩
          rw [partsAccept_cons_cons hpart, hcovers, hfirst, Bool.and_true]
      · rintro ⟨front, back, rfl, hfirst, hsecond⟩
        cases front with
        | nil =>
          rw [partsAccept_cons_nil hpart] at hfirst
          cases hfirst
        | cons c front =>
          rw [partsAccept_cons_cons hpart, Bool.and_eq_true] at hfirst
          rw [List.cons_append, partsAccept_cons_cons hpart, Bool.and_eq_true, ih]
          exact ⟨hfirst.1, front, back, rfl, hfirst.2, hsecond⟩

/-! ### The part that meets a character

A character in an accepted text is taken by some part.  When that part is a run, what it takes
before and after the character is up to it, so the run counts on both sides.
-/

section

variable {parts : List GlobPart} {before after : Text} {c : Char}

/-- In an accepted text some part meets the character at a place. -/
theorem exists_split_of_partsAccept (h : partsAccept parts (before ++ c :: after) = true) :
    ∃ left part right, parts = left ++ part :: right ∧ part.covers c = true
      ∧ partsAccept (left ++ part.onward) before = true
      ∧ partsAccept (part.onward ++ right) after = true := by
  induction parts generalizing before with
  | nil => simp [partsAccept] at h
  | cons first parts ih =>
    by_cases hfirst : first = .anyRun
    · subst hfirst
      -- A part further on meets the character when the run ends before it.
      have hlater (skipped more : Text) (hbefore : before = skipped ++ more)
          (haccept : partsAccept parts (more ++ c :: after) = true) :
          ∃ left part right, .anyRun :: parts = left ++ part :: right ∧ part.covers c = true
            ∧ partsAccept (left ++ part.onward) before = true
            ∧ partsAccept (part.onward ++ right) after = true := by
        obtain ⟨left, part, right, rfl, hcovers, hleft, hright⟩ := ih haccept
        refine ⟨.anyRun :: left, part, right, rfl, hcovers, ?_, hright⟩
        exact partsAccept_anyRun_iff.mpr ⟨skipped, more, hbefore, hleft⟩
      obtain ⟨skipped, tail, htext, htail⟩ := partsAccept_anyRun_iff.mp h
      rcases List.append_eq_append_iff.mp htext with ⟨more, rfl, hback⟩ | ⟨more, hbefore, rfl⟩
      · cases more with
        | nil =>
          rw [List.nil_append] at hback
          exact hlater before [] (List.append_nil _).symm (hback ▸ htail)
        | cons d more =>
          obtain ⟨rfl, rfl⟩ := List.cons.inj hback
          refine ⟨[], .anyRun, parts, rfl, rfl, ?_, ?_⟩
          · exact partsAccept_anyRun_iff.mpr ⟨before, [], (List.append_nil _).symm, rfl⟩
          · exact partsAccept_anyRun_iff.mpr ⟨more, tail, rfl, htail⟩
      · exact hlater skipped more hbefore htail
    · cases before with
      | nil =>
        rw [List.nil_append, partsAccept_cons_cons hfirst, Bool.and_eq_true] at h
        refine ⟨[], first, parts, rfl, h.1, ?_, ?_⟩
        · rw [GlobPart.onward_of_ne hfirst]
          rfl
        · rw [GlobPart.onward_of_ne hfirst]
          exact h.2
      | cons d before =>
        rw [List.cons_append, partsAccept_cons_cons hfirst, Bool.and_eq_true] at h
        obtain ⟨left, part, right, rfl, hcovers, hleft, hright⟩ := ih h.2
        refine ⟨first :: left, part, right, rfl, hcovers, ?_, hright⟩
        rw [List.cons_append, partsAccept_cons_cons hfirst, h.1, hleft, Bool.and_true]

/-- A part that can stand for a character joins what is accepted on both sides of it. -/
theorem partsAccept_of_split {left right : List GlobPart} {part : GlobPart}
    (hcovers : part.covers c = true) (hleft : partsAccept (left ++ part.onward) before = true)
    (hright : partsAccept (part.onward ++ right) after = true) :
    partsAccept (left ++ part :: right) (before ++ c :: after) = true := by
  by_cases hpart : part = .anyRun
  · subst hpart
    obtain ⟨front, begun, rfl, hfront, -⟩ := partsAccept_append_iff.mp hleft
    obtain ⟨ended, back, rfl, hback⟩ := partsAccept_anyRun_iff.mp hright
    have hrun : partsAccept (.anyRun :: right) (begun ++ c :: (ended ++ back)) = true :=
      partsAccept_anyRun_iff.mpr ⟨begun ++ c :: ended, back, by simp, hback⟩
    exact partsAccept_append_iff.mpr ⟨front, _, List.append_assoc .., hfront, hrun⟩
  · rw [GlobPart.onward_of_ne hpart, List.append_nil] at hleft
    rw [GlobPart.onward_of_ne hpart, List.nil_append] at hright
    have hmeets : partsAccept (part :: right) (c :: after) = true := by
      rw [partsAccept_cons_cons hpart, hcovers, hright, Bool.and_true]
    exact partsAccept_append_iff.mpr ⟨before, _, rfl, hleft, hmeets⟩

end

/-! ### Characters that are not written in a glob -/

/-- A part that stands for itself is written in the text of its glob. -/
theorem mem_of_char_mem_partsFrom {skip : Nat} {text : Text} {c : Char}
    (h : .char c ∈ partsFrom skip text) : c ∈ text := by
  fun_induction partsFrom skip text with
  | case1 => cases h
  | case2 skip first rest ih => exact List.mem_cons_of_mem _ (ih h)
  | case3 rest ih | case4 rest ih | case5 rest text htext ih =>
    rcases List.mem_cons.mp h with hchar | hrest
    · cases hchar
    · exact List.mem_cons_of_mem _ (ih hrest)
  | case6 rest htext ih | case7 first rest _ _ _ ih =>
    rcases List.mem_cons.mp h with hchar | hrest
    · rw [GlobPart.char.inj hchar]
      exact List.mem_cons_self
    · exact List.mem_cons_of_mem _ (ih hrest)

/-- One of the wildcards of a glob stands for a character between two texts, and what is before it
and behind it stands for the texts; a run may stand for an end of the first and a start of the
second one as well. -/
def Bridges (glob : Glob) (before : Text) (c : Char) (after : Text) : Prop :=
  ∃ left part right, glob.parts = left ++ part :: right
    ∧ part.isWild = true ∧ part.covers c = true
    ∧ accepts ⟨left ++ part.onward⟩ before = true
    ∧ accepts ⟨part.onward ++ right⟩ after = true

/-- A glob in which a character is not written gets across it by a wildcard, or not at all. -/
theorem accepts_iff_bridges {pattern : Text} {c : Char} (hpattern : c ∉ pattern)
    (before after : Text) :
    (ofText pattern).accepts (before ++ c :: after) = true
      ↔ (ofText pattern).Bridges before c after := by
  simp only [Bridges, accepts_eq]
  constructor
  · intro haccept
    obtain ⟨left, part, right, hparts, hcovers, hleft, hright⟩ := exists_split_of_partsAccept haccept
    refine ⟨left, part, right, hparts, ?_, hcovers, hleft, hright⟩
    cases part with
    | char d =>
      have hmem : .char d ∈ (ofText pattern).parts := by simp [hparts]
      have hsame : c = d := beq_iff_eq.mp hcovers
      exact absurd (hsame ▸ mem_of_char_mem_partsFrom hmem) hpattern
    | anyChar | anyRun | oneOf _ => rfl
  · rintro ⟨left, part, right, hparts, -, hcovers, hleft, hright⟩
    rw [hparts]
    exact partsAccept_of_split hcovers hleft hright

end Glob

end GroqSnippets

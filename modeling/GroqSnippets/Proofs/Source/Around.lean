/-
What stands around a line feed on its own level.

What stands directly in a block is spelled by the lexemes at depth one, so a line feed at depth one
has the text of some lexemes before it and of others behind it.  Those behind it are found by
counting brackets up to one too many that closes, and those before it by counting back up to one too
many that opens; where a block begins does not matter for that.

A value reaches from one quote to the next.  So it can have the line feed in it in one way only: it
is all that stands between the last quote before the line feed and the first one behind it.
-/
import Mathlib.Data.List.DropRight
import GroqSnippets.Proofs.Source.Stretch

namespace GroqSnippets

/-! ### Before a place

Direct text is told from the front, bracket by bracket.  What stands directly before a place has to
be told from that place back, and the two ways meet at the bracket that holds the place.
-/

/-- What stands at depth one before the end of a row, which is given from its last lexeme on, behind
the bracket that opens once more than is closed. -/
def levelBefore (depth : Nat) : List Lexeme → Text
  | [] => []
  | .code c :: row =>
    if isCloser c then levelBefore (depth + 1) row
    else if isOpener c then if depth = 1 then [] else levelBefore (depth - 1) row
    else if depth = 1 then levelBefore depth row ++ [c]
    else levelBefore depth row
  | .comment _ :: row => levelBefore depth row
  | lexeme :: row =>
    if depth = 1 then levelBefore depth row ++ lexeme.text else levelBefore depth row

/-- With more before it, a row has more before its end. -/
theorem levelBefore_append (depth : Nat) (row more : List Lexeme) :
    levelBefore depth row <:+ levelBefore depth (row ++ more) := by
  have hlonger : ∀ {a b : Text} (text : Text), a <:+ b → a ++ text <:+ b ++ text := by
    rintro a b text ⟨front, rfl⟩
    exact ⟨front, (List.append_assoc front a text).symm⟩
  induction row generalizing depth with
  | nil => exact List.nil_suffix
  | cons lexeme row ih =>
    cases lexeme with
    | comment text => exact ih depth
    | code c =>
      simp only [List.cons_append, levelBefore]
      split
      · exact ih _
      · split
        · split
          · exact List.nil_suffix
          · exact ih _
        · split
          · exact hlonger [c] (ih _)
          · exact ih _
    | quoted text | regex text =>
      simp only [List.cons_append, levelBefore]
      split
      · exact hlonger text (ih _)
      · exact ih _

/-- A lexeme that closes nothing says the same to what is behind it and to what is before it. -/
theorem levelBefore_cons {depth : Nat} {lexeme : Lexeme} (hdepth : 1 ≤ depth)
    (hopen : closesAt depth lexeme = false) (row : List Lexeme) :
    levelBefore (depthAfter depth lexeme).toNat (lexeme :: row)
      = levelBefore depth row
        ++ (if !lexeme.isComment && (lexeme.bracket?.isNone && decide ((depth : Int) = 1))
          then lexeme.text else []) := by
  have hone : decide ((depth : Int) = 1) = decide (depth = 1) := decide_eq_decide.mpr (by omega)
  rw [hone]
  cases lexeme with
  | comment text => simp [levelBefore, depthAfter, Lexeme.isComment]
  | quoted text | regex text =>
    by_cases hdepth : depth = 1
    · simp [levelBefore, Lexeme.isComment, Lexeme.bracket?, depthAfter, hdepth]
    · simp [levelBefore, Lexeme.bracket?, depthAfter, hdepth]
  | code c =>
    by_cases hopener : isOpener c = true
    · have hnext : ((depth : Int) + 1).toNat = depth + 1 := by omega
      have hne : depth ≠ 0 := by omega
      simp [levelBefore, Lexeme.bracket?, depthAfter, hopener, not_isCloser_of_isOpener hopener,
        hnext, hne]
    by_cases hcloser : isCloser c = true
    · have hne : depth ≠ 1 := by
        rintro rfl
        simp [closesAt, hcloser] at hopen
      have hnext : depth - 1 + 1 = depth := by omega
      simp [levelBefore, Lexeme.bracket?, depthAfter, hopener, hcloser, hnext]
    by_cases hdepth : depth = 1
    · simp [levelBefore, Lexeme.isComment, Lexeme.bracket?, depthAfter, hopener, hcloser, hdepth,
        Lexeme.text]
    · simp [levelBefore, Lexeme.bracket?, depthAfter, hopener, hcloser, hdepth]

/-- What a row that stays open has at depth one comes before what follows it; and where it ends at
depth one, it is what stands before its end. -/
theorem exists_direct {depth : Nat} {row : List Lexeme} (hdepth : 1 ≤ depth)
    (hopen : StaysOpen depth row) :
    ∃ text, (∀ rest, directOf depth (row ++ rest)
        = text ++ directOf (depthThrough depth row).toNat rest)
      ∧ (depthThrough depth row = 1 → ∀ more,
          levelBefore 1 (row.reverse ++ more) = levelBefore depth more ++ text) := by
  induction row generalizing depth with
  | nil =>
    refine ⟨[], fun rest => rfl, fun hone more => ?_⟩
    obtain rfl : depth = 1 := Int.ofNat_inj.mp hone
    exact (List.append_nil _).symm
  | cons lexeme row ih =>
    have hpositive := one_le_depthAfter hopen.1 (by omega)
    obtain ⟨next, hnext⟩ := Int.eq_ofNat_of_zero_le (Int.le_trans (by decide) hpositive)
    obtain ⟨text, hdirect, hbefore⟩ := ih (by omega) (hnext ▸ hopen.2)
    obtain ⟨part, hspelled, hhere⟩ : ∃ part,
        (∀ rest, directOf depth (lexeme :: rest) = part ++ directOf next rest)
        ∧ ∀ more, levelBefore next (lexeme :: more) = levelBefore depth more ++ part := by
      have hspelled := directOf_cons hdepth hopen.1
      have hhere := levelBefore_cons hdepth hopen.1
      simp only [hnext, Int.toNat_natCast] at hspelled hhere
      exact ⟨_, hspelled, hhere⟩
    refine ⟨part ++ text, fun rest => ?_, fun hone more => ?_⟩
    · rw [List.cons_append, hspelled, hdirect, depthThrough_cons, hnext, List.append_assoc]
    · rw [depthThrough_cons, hnext] at hone
      rw [List.reverse_cons, List.append_assoc, List.singleton_append, hbefore hone, hhere,
        List.append_assoc]

/-- Nothing is left where a bracket closes once more than was opened. -/
theorem directOf_closer {lexeme : Lexeme} (hclose : closesAt 1 lexeme = true) (row : List Lexeme) :
    directOf 1 (lexeme :: row) = [] := by
  obtain ⟨c, rfl, hcloser, -⟩ := closesAt_iff.mp hclose
  simp [directOf, hcloser, not_isOpener_of_isCloser hcloser]

/-- What stands at depth one ends before any bracket that holds it does. -/
theorem directOf_cut {depth : Nat} {bound : Int} (hdepth : 1 ≤ depth) (hle : depth ≤ bound)
    (row : List Lexeme) :
    directOf depth (held bound row) = directOf depth row
      ∧ directOf depth (through bound row) = directOf depth row := by
  induction row generalizing depth bound with
  | nil => exact ⟨rfl, rfl⟩
  | cons lexeme row ih =>
    cases hhere : closesAt depth lexeme with
    | true =>
      obtain ⟨-, -, -, hone⟩ := closesAt_iff.mp hhere
      obtain rfl : depth = 1 := by exact_mod_cast hone
      have hend := directOf_closer hhere
      simp only [held, through]
      split
      · exact ⟨(hend row).symm, (hend []).trans (hend row).symm⟩
      · exact ⟨(hend _).trans (hend row).symm, (hend _).trans (hend row).symm⟩
    | false =>
      have hthere : closesAt bound lexeme = false := by
        rw [Bool.eq_false_iff]
        intro hclose
        obtain ⟨c, rfl, hcloser, rfl⟩ := closesAt_iff.mp hclose
        obtain rfl : depth = 1 := by omega
        simp [closesAt, hcloser] at hhere
      have hpositive := one_le_depthAfter hhere (by omega)
      obtain ⟨next, hnext⟩ := Int.eq_ofNat_of_zero_le (Int.le_trans (by decide) hpositive)
      have hshift := depthAfter_add depth (bound - depth) lexeme
      rw [show (depth : Int) + (bound - depth) = bound by omega] at hshift
      have hle' : (next : Int) ≤ depthAfter bound lexeme := by omega
      obtain ⟨hheld, hthrough⟩ := ih (by omega) hle'
      rw [held, through, hthere, if_neg (by decide), if_neg (by decide), directOf_cons hdepth hhere,
        directOf_cons hdepth hhere, directOf_cons hdepth hhere, hnext, Int.toNat_natCast, hheld,
        hthrough]
      exact ⟨rfl, rfl⟩

/-! ### Around a line feed

A value that reaches over a line feed begins behind the last quote before it, and ends at the first
quote behind it.  So the texts on the two sides settle which value it is.
-/

/-- The text between the last quote in what stands before a line feed and the first one in what stands
behind it. -/
def betweenQuotes (front back : Text) : Text :=
  front.rtakeWhile (!isValueQuote ·) ++ '\n' :: back.takeWhile (!isValueQuote ·)

/-- The run behind a quote is all that stands behind the last quote. -/
theorem rtakeWhile_of_suffix {q : Char} {run level : Text} (hq : isValueQuote q = true)
    (hrun : ∀ c ∈ run, isValueQuote c = false) (h : q :: run <:+ level) :
    level.rtakeWhile (!isValueQuote ·) = run := by
  obtain ⟨front, rfl⟩ := h
  rw [List.rtakeWhile, List.reverse_append, List.reverse_cons, List.append_assoc,
    List.takeWhile_append_of_pos (by simpa using hrun), List.singleton_append,
    List.takeWhile_cons_of_neg (by simp [hq]), List.append_nil, List.reverse_reverse]

end GroqSnippets

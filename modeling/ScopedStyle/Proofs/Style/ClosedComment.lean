import Mathlib.Data.List.Infix
import ScopedStyle.Style.Sheet

/-!
# Comments are closed once

A reader of a sheet ends a comment at the first `*/` behind its opening mark
(`Block.readComment?`). In the text of a comment a blank parts every `*/`, and this
makes no new one: what is put in begins with the star and ends with the slash of the
old one (`Block.not_infix_partEnds`). The blanks next to the two marks keep the text
from closing the comment together with one of them. So a reader ends a comment with its
block, whatever its text is, and goes on with the next block (`Block.comment_closed`).
-/

namespace ScopedStyle.Block

variable {c : Char} {cs before behind : List Char}

/-! ### Reading -/

/-- What a reader takes for the inside of a comment, from behind the mark that opens it,
    and what is behind the mark that closes it. -/
def readInside : List Char → Option (List Char × List Char)
  | '*' :: '/' :: cs => some ([], cs)
  | c :: cs => (readInside cs).map fun (inside, rest) => (c :: inside, rest)
  | [] => none

/-- The inside of the comment that a sheet begins with, and what is behind the comment. -/
def readComment? : List Char → Option (List Char × List Char)
  | '/' :: '*' :: cs => readInside cs
  | _ => none

/-- No end of a comment stands in the characters. -/
def Open (cs : List Char) : Prop :=
  ¬ ['*', '/'] <:+: cs

theorem open_nil : Open [] := by
  simp [Open]

theorem open_cons_iff : Open (c :: cs) ↔ (c = '*' → cs.head? ≠ some '/') ∧ Open cs := by
  rw [Open, List.infix_cons_iff, not_or, Open]
  refine and_congr_left fun _ => ?_
  cases cs with
  | nil => simp
  | cons d ds => simp [List.cons_prefix_cons, eq_comm]

/-- An end cannot come about by a character that is no slash. -/
theorem Open.concat (h : Open cs) (hc : c ≠ '/') : Open (cs ++ [c]) := by
  rw [Open, List.infix_concat_iff, not_or]
  refine ⟨?_, h⟩
  rintro ⟨_, hsuffix⟩
  have hlast := congrArg List.getLast? hsuffix
  simp only [List.getLast?_append, List.getLast?_singleton] at hlast
  exact hc (Option.some.inj hlast).symm

theorem readInside_cons (h : c = '*' → cs.head? ≠ some '/') :
    readInside (c :: cs) = (readInside cs).map fun (inside, rest) => (c :: inside, rest) := by
  -- No end stands here, so only the second equation is left.
  conv_lhs => unfold readInside
  split <;> simp_all

/-- The next end is the one behind characters that have none. -/
theorem Open.readInside_append (h : Open cs) :
    readInside (cs ++ '*' :: '/' :: behind) = some (cs, behind) := by
  induction cs with
  | nil => rfl
  | cons c cs ih =>
    obtain ⟨hfirst, hrest⟩ := open_cons_iff.1 h
    have hnext : c = '*' → (cs ++ '*' :: '/' :: behind).head? ≠ some '/' := by
      cases cs with
      | nil => simp
      | cons d ds => simpa using hfirst
    rw [List.cons_append, readInside_cons hnext, ih hrest]
    rfl

/-- There is no other end, either. -/
theorem Open.eq_of_append_eq (h : Open cs)
    (heq : cs ++ ['*', '/'] = before ++ ['*', '/'] ++ behind) : before = cs ∧ behind = [] := by
  rcases List.eq_nil_or_concat behind with rfl | ⟨behind, c, rfl⟩
  · rw [List.append_nil] at heq
    exact ⟨(List.append_cancel_right heq).symm, rfl⟩
  · -- One that does not end the characters would stand in front of the last slash.
    have hslash : (cs ++ ['*']) ++ ['/'] = (before ++ ['*', '/'] ++ behind) ++ [c] := by
      simpa using heq
    have hinit : cs ++ ['*'] = before ++ ['*', '/'] ++ behind := (List.append_inj' hslash rfl).1
    exact absurd ⟨before, behind, hinit.symm⟩ (h.concat (by decide))

/-! ### The text of a comment -/

theorem head?_partEnds (cs : List Char) : (partEnds cs).head? = cs.head? := by
  unfold partEnds
  split <;> rfl

/-- A blank in every end leaves no end. -/
theorem open_partEnds (cs : List Char) : Open (partEnds cs) := by
  fun_induction partEnds cs with
  | case1 cs ih => simpa [open_cons_iff] using ih
  | case2 c cs hend ih =>
    refine open_cons_iff.2 ⟨fun hc hnext => ?_, ih⟩
    rw [head?_partEnds, List.head?_eq_some_iff] at hnext
    obtain ⟨ds, hnext⟩ := hnext
    exact hend ds hc hnext
  | case3 => exact open_nil

/-- Only blanks are put in. -/
theorem filter_partEnds (cs : List Char) :
    (partEnds cs).filter (· ≠ ' ') = cs.filter (· ≠ ' ') := by
  fun_induction partEnds cs with
  | case1 cs ih => simpa using ih
  | case2 c cs hend ih => rw [List.filter_cons, List.filter_cons, ih]
  | case3 => rfl

/-- Whatever its text is, a comment has one end, the one it is written with. A reader
    that comes to the comment in a sheet is behind it at the end of the line, and has
    found the text in it, but for blanks. -/
theorem comment_closed (text : String) (after : Sheet) :
    ∃ inside, (toText (.comment text)).toList = ['/', '*'] ++ inside ++ ['*', '/'] ∧
      (∀ before behind, inside ++ ['*', '/'] = before ++ ['*', '/'] ++ behind →
        before = inside ∧ behind = []) ∧
      readComment? (Sheet.toText (.comment text :: after)).toList =
        some (inside, '\n' :: (Sheet.toText after).toList) ∧
      inside.filter (· ≠ ' ') = text.toList.filter (· ≠ ' ') := by
  have hopen : Open (' ' :: partEnds text.toList ++ [' ']) :=
    (open_cons_iff.2 ⟨fun h => absurd h (by decide), open_partEnds _⟩).concat (by decide)
  have htext : (toText (.comment text)).toList =
      ['/', '*'] ++ (' ' :: partEnds text.toList ++ [' ']) ++ ['*', '/'] := by
    change ("/* " ++ String.ofList (partEnds text.toList) ++ " */").toList = _
    simp
  refine ⟨_, htext, fun before behind => hopen.eq_of_append_eq, ?_, ?_⟩
  · have hsheet : (Sheet.toText (.comment text :: after)).toList =
        (toText (.comment text)).toList ++ '\n' :: (Sheet.toText after).toList := by
      simp [Sheet.toText]
    rw [hsheet, htext, List.append_assoc, List.append_assoc]
    exact hopen.readInside_append
  · rw [List.filter_append, List.filter_cons_of_neg (by decide), filter_partEnds]
    simp

example : toText (.comment "/**/ */*") = "/* /** / * /* */" := by decide +kernel

end ScopedStyle.Block

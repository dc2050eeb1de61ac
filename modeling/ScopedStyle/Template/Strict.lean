import ScopedStyle.Template.Token

/-!
# Strict placeholders

Where rules are written in a program, a malformed placeholder is a mistake and
not text. The strict reading pairs every two opening braces with the next two
closing ones and demands a name between them. Two closing braces without
opening ones, and opening ones that are not closed, are mistakes too.
-/

namespace ScopedStyle

namespace Placeholder

/-- What is wrong with the braces of a text. -/
inductive Mistake where
  /-- Two closing braces stand without opening ones. -/
  | unopened
  /-- Two opening braces are not closed. -/
  | unclosed
  /-- What stands between the braces is no name. -/
  | malformed (name : String)
  deriving DecidableEq

/-- The wording of a mistake. -/
def Mistake.message : Mistake → String
  | .unopened => "`\x7d\x7d` without a matching `\x7b\x7b`"
  | .unclosed => "unclosed `\x7b\x7b`"
  | .malformed name => "`" ++ "\x7b\x7b" ++ name ++ "\x7d\x7d" ++ "` is not a valid placeholder"

/-- Whether a text is one part of a name. -/
def isPartName : List Char → Bool
  | [] => false
  | c :: cs => isStart c && cs.all isPart

/-- Whether a text is a name, of one part or of two with a dot between them. -/
def isName (cs : List Char) : Bool :=
  match cs.splitOnP (· == '.') with
  | [head] => isPartName head
  | [head, second] => isPartName head && isPartName second
  | _ => false

/-- The text in front of the first two braces of a kind that follow each other,
    and the text behind them. -/
def splitAtPair? (brace : Char) : List Char → Option (List Char × List Char)
  | c :: d :: cs =>
    if c = brace && d = brace then some ([], cs)
    else (splitAtPair? brace (d :: cs)).map fun (before, after) => (c :: before, after)
  | _ => none

theorem length_splitAtPair?_lt {brace : Char} {cs before after : List Char}
    (h : splitAtPair? brace cs = some (before, after)) : after.length < cs.length := by
  fun_induction splitAtPair? brace cs generalizing before with
  | case1 c d cs _ =>
    simp only [Option.some.injEq, Prod.mk.injEq] at h
    simp only [← h.2, List.length_cons]
    omega
  | case2 c d cs _ ih =>
    simp only [Option.map_eq_some_iff, Prod.exists, Prod.mk.injEq] at h
    obtain ⟨_, _, h, _, rfl⟩ := h
    have := ih h
    simp only [List.length_cons] at this ⊢
    omega
  | case3 => simp at h

/-- The names of the placeholders of a text in order, or its first mistake. -/
def strict (cs : List Char) : Except Mistake (List String) :=
  match splitAtPair? '{' cs, h : splitAtPair? '}' cs with
  | none, none => .ok []
  | none, some _ => .error .unopened
  | some _, none => .error .unclosed
  | some (before, _), some (upTo, after) =>
    if upTo.length < before.length then .error .unopened
    else
      let name := upTo.drop (before.length + 2)
      if isName name then
        have := length_splitAtPair?_lt h
        (strict after).map (String.ofList name :: ·)
      else .error (.malformed (String.ofList name))
termination_by cs.length

/-- The names of the placeholders of a text in order, or its first mistake. -/
def strictNames (text : String) : Except Mistake (List String) :=
  strict text.toList

end Placeholder

end ScopedStyle

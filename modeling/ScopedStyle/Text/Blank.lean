/-!
# Blank characters

Stored texts are typed by people, so every reader of a setting takes the blanks
around it away first. A blank is a character with the Unicode property
`White_Space`: twenty-five code points, among them the no-break space and the
ideographic space, but not the zero-width space, the byte order mark or the
separators `U+001C` to `U+001F`.
-/

namespace ScopedStyle.Text

/-- The code points with the property `White_Space`, as closed ranges in
    ascending order. -/
def blankRanges : List (Nat × Nat) :=
  [(0x09, 0x0D), (0x20, 0x20), (0x85, 0x85), (0xA0, 0xA0), (0x1680, 0x1680), (0x2000, 0x200A),
    (0x2028, 0x2029), (0x202F, 0x202F), (0x205F, 0x205F), (0x3000, 0x3000)]

/-- A character is blank when its code point lies in one of the ranges. -/
def isBlank (c : Char) : Bool :=
  blankRanges.any fun (first, last) => first ≤ c.toNat && c.toNat ≤ last

/-- The characters without those that satisfy `drops` at the end. -/
def dropEndWhile (drops : Char → Bool) (cs : List Char) : List Char :=
  (cs.reverse.dropWhile drops).reverse

/-- The characters without the blanks at both ends. -/
def trimChars (cs : List Char) : List Char :=
  dropEndWhile isBlank (cs.dropWhile isBlank)

/-- The text without the blanks at both ends. -/
def trim (s : String) : String :=
  String.ofList (trimChars s.toList)

/-- Characters that begin with none that is dropped stay as they are. -/
theorem dropWhile_eq_self {drops : Char → Bool} {cs : List Char}
    (h : ∀ c ∈ cs.head?, drops c = false) : cs.dropWhile drops = cs := by
  cases cs with
  | nil => rfl
  | cons c cs => exact List.dropWhile_cons_of_neg (by simp [h c rfl])

theorem head?_dropWhile (drops : Char → Bool) (cs : List Char) :
    ∀ c ∈ (cs.dropWhile drops).head?, drops c = false := by
  intro c hc
  have hfirst := List.head?_dropWhile_not drops cs
  rwa [Option.mem_def.1 hc] at hfirst

/-- A trimmed text begins with no blank. -/
theorem dropWhile_isBlank_trimChars (cs : List Char) :
    (trimChars cs).dropWhile isBlank = trimChars cs := by
  have hprefix : trimChars cs <+: cs.dropWhile isBlank := by
    rw [trimChars, dropEndWhile, ← List.reverse_suffix, List.reverse_reverse]
    exact List.dropWhile_suffix _
  refine dropWhile_eq_self fun c hc => ?_
  obtain ⟨rest, hrest⟩ := hprefix
  refine head?_dropWhile isBlank cs c ?_
  rw [← hrest, List.head?_append, Option.mem_def.1 hc]
  rfl

/-- Trimming twice is trimming once. -/
theorem trimChars_trimChars (cs : List Char) : trimChars (trimChars cs) = trimChars cs := by
  have hend : dropEndWhile isBlank (trimChars cs) = trimChars cs := by
    rw [trimChars, dropEndWhile, dropEndWhile, List.reverse_reverse,
      dropWhile_eq_self (head?_dropWhile _ _)]
  rw [trimChars, dropWhile_isBlank_trimChars, hend]

theorem trim_trim (s : String) : trim (trim s) = trim s := by
  rw [trim, trim, String.toList_ofList, trimChars_trimChars]

end ScopedStyle.Text

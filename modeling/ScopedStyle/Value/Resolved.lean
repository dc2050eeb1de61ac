import ScopedStyle.Style.Sheet
import ScopedStyle.Value.Tokens

/-!
# Resolved values

What a stored value contributes to the style sheet: tokens for the declarations
of its field, and the declarations that it writes itself.
-/

namespace ScopedStyle

/-- What one value contributes. -/
structure Resolved where
  /-- The texts for placeholders. -/
  tokens : Tokens
  /-- The declarations of a composite value. -/
  declarations : List Declaration
  /-- The declarations of a background for the state `:hover`. -/
  hover : List Declaration

namespace Resolved

/-- The value that contributes nothing. -/
def nothing : Resolved := ⟨.empty, [], []⟩

/-- A value that has only tokens. -/
def ofTokens (t : Tokens) : Resolved := ⟨t, [], []⟩

end Resolved

end ScopedStyle

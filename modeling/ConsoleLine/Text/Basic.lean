/-!
# Texts

A text is a list of code points, so that an offset into it is the length of
what stands before and a suffix is a text again.

* `Spelled`: values that are written with one fixed token;
* `inRanges`: membership of a character in a sorted table of code point ranges.
-/

namespace ConsoleLine

abbrev Text := List Char

/-- Values with a literal token. -/
class Spelled (α : Type) where
  token : α → Text

export Spelled (token)

/-- A text spells itself. -/
instance : Spelled Text := ⟨id⟩

/-- Membership in a table of closed ranges, sorted upwards. -/
def inRanges : List (Nat × Nat) → Char → Bool
  | [], _ => false
  | (lo, hi) :: r, c => lo ≤ c.toNat && (c.toNat ≤ hi || inRanges r c)

end ConsoleLine

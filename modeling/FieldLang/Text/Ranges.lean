/-!
# Character Ranges

A property of characters is given by the ranges of code points that have it. The tables of this
library are such lists, ascending and without overlap, so a range never has to be looked for in two
places.

## Main definitions

* `inRanges`: Whether a character lies in one of the ranges.
-/

namespace FieldLang.Text

/-- Whether a character's code point lies in one of the given closed ranges. -/
def inRanges (ranges : List (Nat × Nat)) (c : Char) : Bool :=
  ranges.any fun range => range.1 ≤ c.toNat && c.toNat ≤ range.2

end FieldLang.Text

import FieldLang.Text.Ranges

/-!
# Blank Characters

Blank characters are those with the property White_Space: they separate tokens and are cut off the
ends of a text before it is read as a number. The no-break space, the next-line control and the
ideographic space are blank; the zero-width space and the byte order mark are not.

## Main definitions

* `isBlank`: Whether a character is blank.
* `trimStart`, `trimEnd`, `trim`: A text without the blanks at its ends.
-/

namespace FieldLang.Text

/-- The code points with the property White_Space. -/
def blankRanges : List (Nat × Nat) :=
  [(0x9, 0xD), (0x20, 0x20), (0x85, 0x85), (0xA0, 0xA0), (0x1680, 0x1680), (0x2000, 0x200A),
    (0x2028, 0x2029), (0x202F, 0x202F), (0x205F, 0x205F), (0x3000, 0x3000)]

/-- Whether a character is blank. -/
def isBlank (c : Char) : Bool :=
  inRanges blankRanges c

/-- A text without the blanks at its start. -/
def trimStart (cs : List Char) : List Char :=
  cs.dropWhile isBlank

/-- A text without the blanks at its end. -/
def trimEnd (cs : List Char) : List Char :=
  (cs.reverse.dropWhile isBlank).reverse

/-- A text without the blanks at either end. -/
def trim (cs : List Char) : List Char :=
  trimEnd (trimStart cs)

end FieldLang.Text

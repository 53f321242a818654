/-!
# Digits

The digits of natural numbers as texts.

## Main definitions

* `decimal`, `hexadecimal`: The digits of a number in base ten and, in lower case, base sixteen.
* `padLeft`: Digits with zeros in front.
-/

namespace FieldLang.Text

/-- The decimal digits of a number. -/
def decimal (n : Nat) : List Char :=
  Nat.toDigits 10 n

/-- The hexadecimal digits of a number, in lower case. -/
def hexadecimal (n : Nat) : List Char :=
  Nat.toDigits 16 n

/-- Digits with zeros in front, up to a width. -/
def padLeft (width : Nat) (cs : List Char) : List Char :=
  List.replicate (width - cs.length) '0' ++ cs

end FieldLang.Text

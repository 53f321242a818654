/-!
# Searching and Cutting Texts

Operations on texts as lists of characters. Positions count characters from zero, and a text occurs
at a position if it starts what is left of the other text there.

## Main definitions

* `segments`: The parts of a dotted path.
* `occursIn`: Whether a text occurs in another.
* `first?`: The first position from a start on at which a text occurs.
* `last?`: The last position at which a text occurs.
* `replaceAll`: A text with every occurrence of another replaced.
-/

namespace FieldLang.Text

/-- The parts of a text between the occurrences of a character; there is always one. -/
def splitAt (separator : Char) : List Char → List (List Char)
  | [] => [[]]
  | c :: cs =>
    if c = separator then [] :: splitAt separator cs
    else
      match splitAt separator cs with
      | [] => [[c]]
      | part :: parts => (c :: part) :: parts

/-- The segments of a dotted path, between two dots and at the ends; there is always one. -/
def segments (path : String) : List String :=
  (splitAt '.' path.toList).map String.ofList

/-- Whether a text occurs somewhere in another. -/
def occursIn (needle : List Char) : List Char → Bool
  | [] => needle.isEmpty
  | c :: cs => needle.isPrefixOf (c :: cs) || occursIn needle cs

/-- The first position at which a text occurs in what is left of another from `position` on. -/
def firstFrom (needle : List Char) (position : Nat) : List Char → Option Nat
  | [] => if needle.isEmpty then some position else none
  | c :: cs =>
    if needle.isPrefixOf (c :: cs) then some position else firstFrom needle (position + 1) cs

/-- The last position at which a text occurs in what is left of another from `position` on. -/
def lastFrom (needle : List Char) (position : Nat) : List Char → Option Nat
  | [] => if needle.isEmpty then some position else none
  | c :: cs =>
    (lastFrom needle (position + 1) cs).or
      (if needle.isPrefixOf (c :: cs) then some position else none)

/-- The first position not before `start` at which a text occurs in another. -/
def first? (needle hay : List Char) (start : Nat) : Option Nat :=
  firstFrom needle start (hay.drop start)

/-- The last position at which a text occurs in another. -/
def last? (needle hay : List Char) : Option Nat :=
  lastFrom needle 0 hay

/-- A text in which the occurrences of a non-empty text are replaced, from left to right and without
    overlap; `skip` counts the characters left of an occurrence already replaced. -/
def replaceFrom (needle replacement : List Char) : (skip : Nat) → List Char → List Char
  | _, [] => []
  | skip + 1, _ :: cs => replaceFrom needle replacement skip cs
  | 0, c :: cs =>
    if needle.isPrefixOf (c :: cs) then
      replacement ++ replaceFrom needle replacement (needle.length - 1) cs
    else c :: replaceFrom needle replacement 0 cs

/-- A text with every occurrence of another replaced. The empty text occurs before, between and after
    all characters. -/
def replaceAll (needle replacement hay : List Char) : List Char :=
  if needle.isEmpty then replacement ++ hay.flatMap fun c => c :: replacement
  else replaceFrom needle replacement 0 hay

end FieldLang.Text

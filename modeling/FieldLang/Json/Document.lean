/-!
# JSON Documents

A JSON text as it is written, before anything in it is given a meaning: numerals keep their digits,
strings their escapes by code unit, and objects all their members, also those with the same key. What
reads a document decides later what the numerals and strings in it stand for, and parts that nobody asks
for are never looked into.

## Main definitions

* `Piece`: A character of a string, or a code unit given by an escape.
* `Numeral`: A number as it is written.
* `Document`: A document.
* `Document.nesting`: How deeply arrays and objects are nested.
* `pieces?`: The text that the pieces of a string stand for.
-/

namespace FieldLang.Json

/-- A part of a string: a character, or a code unit of sixteen bits given by an escape. -/
inductive Piece where
  | char (c : Char)
  | unit (n : Nat)
deriving DecidableEq

/-- A number as it is written: its sign, its digits, and the sign and digits of its exponent. -/
structure Numeral where
  negative : Bool
  whole : List Char
  fraction : List Char
  exponent : Option (Bool × List Char)
deriving DecidableEq

/-- A JSON document as it is written. -/
inductive Document where
  | null
  | bool (b : Bool)
  | number (n : Numeral)
  | string (pieces : List Piece)
  | array (items : List Document)
  | object (members : List (List Piece × Document))
deriving Inhabited

/-- Whether a code unit is the first half of a pair. -/
def isHighSurrogate (n : Nat) : Bool :=
  0xD800 ≤ n && n ≤ 0xDBFF

/-- Whether a code unit is the second half of a pair. -/
def isLowSurrogate (n : Nat) : Bool :=
  0xDC00 ≤ n && n ≤ 0xDFFF

/-- The characters that pieces stand for. The two halves of a pair must follow each other. -/
def pieces? : List Piece → Option (List Char)
  | [] => some []
  | .char c :: rest => do return c :: (← pieces? rest)
  | .unit n :: rest =>
    if isHighSurrogate n then
      match rest with
      | .unit k :: rest =>
        if isLowSurrogate k then do
          return Char.ofNat (0x10000 + (n - 0xD800) * 0x400 + (k - 0xDC00)) :: (← pieces? rest)
        else none
      | _ => none
    else if isLowSurrogate n then none
    else do return Char.ofNat n :: (← pieces? rest)

/-- The text that the pieces of a string stand for. -/
def text? (pieces : List Piece) : Option String :=
  (pieces? pieces).map String.ofList

namespace Document

mutual

/-- How deeply arrays and objects are nested in a document. -/
def nesting : Document → Nat
  | .array items => nestingItems items + 1
  | .object members => nestingMembers members + 1
  | _ => 0

/-- How deeply arrays and objects are nested in the elements of an array. -/
def nestingItems : List Document → Nat
  | [] => 0
  | d :: ds => max d.nesting (nestingItems ds)

/-- How deeply arrays and objects are nested in the members of an object. -/
def nestingMembers : List (List Piece × Document) → Nat
  | [] => 0
  | (_, d) :: ds => max d.nesting (nestingMembers ds)

end

/-- The bound on nesting for documents that are given a meaning. -/
def maxNesting : Nat := 127

end Document

end FieldLang.Json

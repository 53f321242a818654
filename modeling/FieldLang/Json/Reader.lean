import FieldLang.Json.Document
import FieldLang.Number.Numeral

/-!
# Reading JSON

JSON text as a document. The grammar is the standard one: four blanks, no comments, no trailing commas,
no zeros in front of a number, no control characters in strings, and nothing after the document.

All readers take characters from the front and return what is left. Values, elements and members are
read by mutual recursion on a count of steps, for which twice the length of the text suffices: between
two steps at least every second time a character is taken.

## Main definitions

* `stringBody`: A string after its opening quote.
* `numeral`: A number.
* `value`, `elements`, `members`: A value, and what follows an opening bracket or brace.
* `Document.read?`: The document that a text writes.
-/

namespace FieldLang.Json

/-- Whether a character may stand between the parts of a document. -/
def isSpace (c : Char) : Bool :=
  c = ' ' || c = '\n' || c = '\t' || c = '\r'

/-- A text without the blanks at its start. -/
def skip (cs : List Char) : List Char :=
  cs.dropWhile isSpace

/-- The character that a letter stands for after a backslash. -/
def escaped? (c : Char) : Option Char :=
  if c = '\x22' ∨ c = '\\' ∨ c = '/' then some c
  else if c = 'b' then some '\x08'
  else if c = 'f' then some '\x0c'
  else if c = 'n' then some '\n'
  else if c = 'r' then some '\r'
  else if c = 't' then some '\t'
  else none

/-- The code unit that four hexadecimal digits write. -/
def codeUnit? (ds : List Char) : Option Nat :=
  if ds.all fun c => (Number.digitIn? 16 c).isSome then some (Number.natOfDigits 16 ds) else none

/-- Reads a string after its opening quote. -/
def stringBody : List Char → Option (List Piece × List Char)
  | [] => none
  | c :: cs =>
    if c = '\x22' then some ([], cs)
    else if c = '\\' then
      match cs with
      | [] => none
      | e :: rest =>
        if e = 'u' then
          match rest with
          | h₁ :: h₂ :: h₃ :: h₄ :: rest => do
            let n ← codeUnit? [h₁, h₂, h₃, h₄]
            let (pieces, rest) ← stringBody rest
            return (.unit n :: pieces, rest)
          | _ => none
        else do
          let ch ← escaped? e
          let (pieces, rest) ← stringBody rest
          return (.char ch :: pieces, rest)
    else if c.toNat < 0x20 then none
    else do
      let (pieces, rest) ← stringBody cs
      return (.char c :: pieces, rest)

/-- Reads one or more digits. -/
def someDigits (cs : List Char) : Option (List Char × List Char) :=
  let ds := cs.takeWhile Char.isDigit
  if ds.isEmpty then none else some (ds, cs.dropWhile Char.isDigit)

/-- Reads the digits before the point, of which the first is zero only if it is the only one. -/
def wholeDigits (cs : List Char) : Option (List Char × List Char) := do
  let (ds, rest) ← someDigits cs
  if ds.head? = some '0' ∧ 1 < ds.length then none else some (ds, rest)

/-- Reads the digits after the point, if there is a point. -/
def fractionDigits : List Char → Option (List Char × List Char)
  | '.' :: cs => someDigits cs
  | cs => some ([], cs)

/-- Reads an exponent, if there is one. -/
def exponentDigits (cs : List Char) : Option (Option (Bool × List Char) × List Char) :=
  match cs with
  | [] => some (none, [])
  | c :: rest =>
    if c = 'e' ∨ c = 'E' then do
      let (negative, rest) := Number.scanSign rest
      let (ds, rest) ← someDigits rest
      return (some (negative, ds), rest)
    else some (none, cs)

/-- The sign of a number, and what follows. -/
def minus : List Char → Bool × List Char
  | '-' :: cs => (true, cs)
  | cs => (false, cs)

/-- Reads a number. -/
def numeral (cs : List Char) : Option (Numeral × List Char) := do
  let (negative, cs) := minus cs
  let (whole, cs) ← wholeDigits cs
  let (fraction, cs) ← fractionDigits cs
  let (exponent, cs) ← exponentDigits cs
  return (⟨negative, whole, fraction, exponent⟩, cs)

mutual

/-- Reads a value, in at most `count` steps. -/
def value : (count : Nat) → List Char → Option (Document × List Char)
  | 0, _ => none
  | count + 1, cs =>
    match skip cs with
    | '\x22' :: cs => do
      let (pieces, cs) ← stringBody cs
      return (.string pieces, cs)
    | '[' :: cs =>
      match skip cs with
      | ']' :: cs => some (.array [], cs)
      | cs => do
        let (items, cs) ← elements count cs
        return (.array items, cs)
    | '\x7b' :: cs =>
      match skip cs with
      | '\x7d' :: cs => some (.object [], cs)
      | cs => do
        let (ms, cs) ← members count cs
        return (.object ms, cs)
    | 'n' :: 'u' :: 'l' :: 'l' :: cs => some (.null, cs)
    | 't' :: 'r' :: 'u' :: 'e' :: cs => some (.bool true, cs)
    | 'f' :: 'a' :: 'l' :: 's' :: 'e' :: cs => some (.bool false, cs)
    | cs => do
      let (n, cs) ← numeral cs
      return (.number n, cs)

/-- Reads one or more elements and the closing bracket, in at most `count` steps. -/
def elements : (count : Nat) → List Char → Option (List Document × List Char)
  | 0, _ => none
  | count + 1, cs => do
    let (d, cs) ← value count cs
    match skip cs with
    | ',' :: cs => do
      let (ds, cs) ← elements count cs
      return (d :: ds, cs)
    | ']' :: cs => some ([d], cs)
    | _ => none

/-- Reads one or more members and the closing brace, in at most `count` steps. -/
def members : (count : Nat) → List Char → Option (List (List Piece × Document) × List Char)
  | 0, _ => none
  | count + 1, cs =>
    match skip cs with
    | '\x22' :: cs => do
      let (key, cs) ← stringBody cs
      match skip cs with
      | ':' :: cs => do
        let (d, cs) ← value count cs
        match skip cs with
        | ',' :: cs => do
          let (ms, cs) ← members count cs
          return ((key, d) :: ms, cs)
        | '\x7d' :: cs => some ([(key, d)], cs)
        | _ => none
      | _ => none
    | _ => none

end

/-- The document that a whole text writes. -/
def Document.ofChars? (cs : List Char) : Option Document := do
  let (d, rest) ← value (2 * cs.length + 2) cs
  if (skip rest).isEmpty then some d else none

/-- The document that a whole text writes. -/
def Document.read? (text : String) : Option Document :=
  Document.ofChars? text.toList

end FieldLang.Json

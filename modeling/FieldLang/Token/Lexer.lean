import FieldLang.Number.Numeral
import FieldLang.Text.Letter
import FieldLang.Token.Error

/-!
# Reading Tokens

Source text as a list of tokens. Blanks separate tokens and are otherwise ignored. Every rule takes
the longest lexeme it can: a numeral goes on over its fraction and its exponent, a name over all
letters, numbers, underscores and dollar signs, and of the marks the longer spelling wins.

A rule looks at the first character and at what follows it, and says which token starts there and how
many of the following characters belong to it. `scan` then walks over the source one character at a
time, skipping those that belong to the token last read, so it recurses on the source itself.

## Main definitions

* `stringBody`: The content of a string after its opening quote.
* `numeral`: A numeral.
* `symbol?`: A mark or a binary operator.
* `lexeme`: The token that starts at a character.
* `scan`: The tokens of a text.
* `tokenize`: The tokens of a source, with its end.
-/

namespace FieldLang.Token

/-- The character that a letter stands for after a backslash. -/
def escaped? (c : Char) : Option Char :=
  if c = 'n' then some '\n'
  else if c = 'r' then some '\r'
  else if c = 't' then some '\t'
  else if c = '\x22' ∨ c = '\x27' ∨ c = '\\' ∨ c = '/' then some c
  else none

/-- Whether a character is a hexadecimal digit. -/
def isHexDigit (c : Char) : Bool :=
  (Number.digitIn? 16 c).isSome

/-- The refusal of an escape by code point whose digits start the given text. -/
def badCode (cs : List Char) : ParseError :=
  .invalidEscape (String.ofList ('\\' :: 'u' :: (cs.take 4).takeWhile isHexDigit))

/-- The character with a code point; surrogates are not characters. -/
def ofCode? (n : Nat) : Option Char :=
  if n.isValidChar then some (Char.ofNat n) else none

/-- The characters of a string up to its closing quote, and how many characters of the source they
    take, the quote included. -/
def stringBody (quote : Char) : List Char → Except ParseError (List Char × Nat)
  | [] => .error .unclosedString
  | c :: cs =>
    if c = quote then .ok ([], 1)
    else if c = '\\' then
      match cs with
      | [] => .error .unclosedString
      | e :: rest =>
        if e = 'u' then
          match rest with
          | h₁ :: h₂ :: h₃ :: h₄ :: tail =>
            if [h₁, h₂, h₃, h₄].all isHexDigit then
              match ofCode? (Number.natOfDigits 16 [h₁, h₂, h₃, h₄]) with
              | none => .error (badCode rest)
              | some ch => do
                let (body, n) ← stringBody quote tail
                return (ch :: body, n + 6)
            else .error (badCode rest)
          | _ => .error (badCode rest)
        else
          match escaped? e with
          | none => .error (.invalidEscape (String.ofList ['\\', e]))
          | some ch => do
            let (body, n) ← stringBody quote rest
            return (ch :: body, n + 2)
    else do
      let (body, n) ← stringBody quote cs
      return (c :: body, n + 1)

/-- The fraction of a numeral: a point counts only if a digit follows it. -/
def fractionDigits : List Char → List Char
  | '.' :: cs => cs.takeWhile Char.isDigit
  | _ => []

/-- Whether an exponent starts here. -/
def startsExponent : List Char → Bool
  | c :: _ => c = 'e' || c = 'E'
  | [] => false

/-- The letter and the sign of an exponent. -/
def exponentHead : List Char → List Char
  | c :: s :: _ => if s = '+' ∨ s = '-' then [c, s] else [c]
  | cs => cs

/-- The numeral at the start of a text, and how many characters it takes. -/
def numeral (cs : List Char) : Except ParseError (Float × Nat) :=
  let whole := cs.takeWhile Char.isDigit
  let afterWhole := cs.drop whole.length
  let fraction := fractionDigits afterWhole
  let mantissaLength := whole.length + (if fraction.isEmpty then 0 else fraction.length + 1)
  let rest := cs.drop mantissaLength
  if startsExponent rest then
    match Number.scanExponent rest with
    | some (exponent, afterExponent) =>
      .ok (Number.Numeral.value ⟨whole, fraction, exponent⟩, cs.length - afterExponent.length)
    | none =>
      .error (.invalidNumber (String.ofList (cs.take mantissaLength ++ exponentHead rest)))
  else .ok (Number.Numeral.value ⟨whole, fraction, 0⟩, mantissaLength)

/-- The mark or operator that two characters and the one after them spell, and its length beyond the
    first character; where two spellings fit the longer one is meant. -/
def symbol? (c : Char) (cs : List Char) : Option (Token × Nat) :=
  let next := cs.head?
  let third := if cs[1]? = some '=' then 2 else 1
  match c with
  | '=' =>
    if next = some '=' then some (.operator .equal, third)
    else if next = some '>' then some (.mark .arrow, 1)
    else none
  | '!' => if next = some '=' then some (.operator .notEqual, third) else some (.mark .not, 0)
  | '<' =>
    if next = some '=' then some (.operator .lessOrEqual, 1) else some (.operator .lessThan, 0)
  | '>' =>
    if next = some '=' then some (.operator .greaterOrEqual, 1)
    else some (.operator .greaterThan, 0)
  | '&' => if next = some '&' then some (.operator .and, 1) else none
  | '|' => if next = some '|' then some (.operator .or, 1) else some (.mark .pipe, 0)
  | '?' => if next = some '?' then some (.operator .coalesce, 1) else some (.mark .question, 0)
  | '+' => some (.operator .add, 0)
  | '-' => some (.operator .subtract, 0)
  | '*' => some (.operator .multiply, 0)
  | '/' => some (.operator .divide, 0)
  | '%' => some (.operator .modulo, 0)
  | ':' => some (.mark .colon, 0)
  | '.' => some (.mark .dot, 0)
  | '(' => some (.mark .leftParen, 0)
  | ')' => some (.mark .rightParen, 0)
  | '[' => some (.mark .leftBracket, 0)
  | ']' => some (.mark .rightBracket, 0)
  | ',' => some (.mark .comma, 0)
  | _ => none

/-- Whether a character can start a name. -/
def startsName (c : Char) : Bool :=
  Text.isLetter c || c = '_' || c = '$'

/-- Whether a character can go on a name. -/
def continuesName (c : Char) : Bool :=
  Text.isLetterOrNumber c || c = '_' || c = '$'

/-- The token of a word: one of the four keywords, or a name. -/
def ofWord (word : String) : Token :=
  if word = "true" then .boolean true
  else if word = "false" then .boolean false
  else if word = "null" then .null
  else if word = "undefined" then .undefined
  else .identifier word

/-- The token that starts with a character, and how many of the characters after it belong to it. -/
def lexeme (position : Nat) (c : Char) (cs : List Char) : Except ParseError (Token × Nat) :=
  if c = '\x22' ∨ c = '\x27' then do
    let (body, n) ← stringBody c cs
    return (.string (String.ofList body), n)
  else if c.isDigit then do
    let (n, length) ← numeral (c :: cs)
    return (.number n, length - 1)
  else
    match symbol? c cs with
    | some found => .ok found
    | none =>
      if startsName c then
        let tail := cs.takeWhile continuesName
        .ok (ofWord (String.ofList (c :: tail)), tail.length)
      else .error (.unexpectedCharacter c position)

/-- The tokens of a text whose first character stands at `position`. The first `skip` characters
    belong to the token read last. -/
def scan : (skip position : Nat) → List Char → Except ParseError (List Placed)
  | _, _, [] => .ok []
  | skip + 1, position, _ :: cs => scan skip (position + 1) cs
  | 0, position, c :: cs =>
    if Text.isBlank c then scan 0 (position + 1) cs
    else do
      let (token, length) ← lexeme position c cs
      let tokens ← scan length (position + 1) cs
      return ⟨token, position⟩ :: tokens

/-- The tokens of a source text, the last of them its end. -/
def tokenize (source : String) : Except ParseError (List Placed) := do
  let tokens ← scan 0 0 source.toList
  return tokens ++ [⟨.eof, source.length⟩]

/-- The tokens of a source text without their positions and without its end. -/
def ofSource (source : String) : Except ParseError (List Token) := do
  let tokens ← scan 0 0 source.toList
  return tokens.map (·.token)

end FieldLang.Token

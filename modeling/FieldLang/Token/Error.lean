import FieldLang.Token.Basic

/-!
# Syntax Errors

Why a source text is not an expression or not a pipeline.

## Main definitions

* `ParseError`: The reasons.
* `ParseError.message`: Their wording.
-/

namespace FieldLang

/-- Why a source text was refused. -/
inductive ParseError where
  /-- The text holds no token. -/
  | emptyExpression
  /-- A character starts no token. -/
  | unexpectedCharacter (c : Char) (position : Nat)
  /-- A token starts no expression. -/
  | unexpectedToken (found : Token)
  /-- The text ends where an expression must start. -/
  | unexpectedEnd
  | invalidSyntax (reason : String)
  /-- An exponent has no digits. -/
  | invalidNumber (text : String)
  | unclosedString
  | invalidEscape (text : String)
  /-- Another token stands where a certain one is demanded. -/
  | expected (what : String) (found : Token)
  /-- Expressions are nested too deeply. -/
  | nestedTooDeeply (limit : Nat)
  | unknownStage (name : String)
  /-- A pipeline has a source and no stage. -/
  | missingStage
deriving DecidableEq, Inhabited

/-- The wording of a syntax error. -/
def ParseError.message : ParseError → String
  | .emptyExpression => "Empty expression"
  | .unexpectedCharacter c position =>
    "Unexpected character '" ++ c.toString ++ "' at position " ++ toString position
  | .unexpectedToken found => "Unexpected token: " ++ found.describe
  | .unexpectedEnd => "Unexpected end of expression"
  | .invalidSyntax reason => "Invalid syntax: " ++ reason
  | .invalidNumber text => "Invalid number: " ++ text
  | .unclosedString => "Unclosed string literal"
  | .invalidEscape text => "Invalid escape sequence: " ++ text
  | .expected what found => "Expected " ++ what ++ ", found " ++ found.describe
  | .nestedTooDeeply limit => "Maximum nesting depth (" ++ toString limit ++ ") exceeded"
  | .unknownStage name => "Unknown array operation: " ++ name
  | .missingStage => "Array expression must contain at least one array operation"

end FieldLang

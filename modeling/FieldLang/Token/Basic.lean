import FieldLang.Expr.Operator
import FieldLang.Number.Text
import FieldLang.Text.Quoted

/-!
# Tokens

The units that source text is made of. Numbers, strings and names carry what they stand for; the
binary operators are one kind of token each, and the rest are marks. The end of the source counts as
a token, so that messages can name it.

## Main definitions

* `Mark`: The marks that are no binary operators.
* `Token`: The tokens.
* `Token.name`, `Token.describe`: The name of a token's kind, and the token in messages.
* `Token.Placed`: A token with the position at which it starts.
-/

namespace FieldLang

/-- A mark that is no binary operator. -/
inductive Mark where
  | not
  | question
  | colon
  | dot
  | pipe
  | arrow
  | leftParen
  | rightParen
  | leftBracket
  | rightBracket
  | comma
deriving DecidableEq

/-- A token. -/
inductive Token where
  | number (n : Float)
  | string (s : String)
  | boolean (b : Bool)
  | null
  | undefined
  | identifier (name : String)
  | operator (op : BinaryOp)
  | mark (m : Mark)
  /-- The end of the source. -/
  | eof
deriving DecidableEq, Inhabited

/-- The name of a mark in messages. -/
def Mark.name : Mark → String
  | .not => "NOT"
  | .question => "QUESTION"
  | .colon => "COLON"
  | .dot => "DOT"
  | .pipe => "PIPE"
  | .arrow => "ARROW"
  | .leftParen => "LPAREN"
  | .rightParen => "RPAREN"
  | .leftBracket => "LBRACKET"
  | .rightBracket => "RBRACKET"
  | .comma => "COMMA"

/-- The name of an operator token in messages. -/
def BinaryOp.tokenName : BinaryOp → String
  | .add => "PLUS"
  | .subtract => "MINUS"
  | .multiply => "STAR"
  | .divide => "SLASH"
  | .modulo => "PERCENT"
  | .equal => "EQ"
  | .notEqual => "NEQ"
  | .lessThan => "LT"
  | .lessOrEqual => "LTE"
  | .greaterThan => "GT"
  | .greaterOrEqual => "GTE"
  | .and => "AND"
  | .or => "OR"
  | .coalesce => "COALESCE"

namespace Token

/-- The name of a token's kind. -/
def name : Token → String
  | .number _ => "NUMBER"
  | .string _ => "STRING"
  | .boolean _ => "BOOLEAN"
  | .null => "NULL"
  | .undefined => "UNDEFINED"
  | .identifier _ => "IDENTIFIER"
  | .operator op => op.tokenName
  | .mark m => m.name
  | .eof => "EOF"

/-- A token in messages: numbers, strings and names with what they stand for. -/
def describe : Token → String
  | .number n => "NUMBER(" ++ Number.text n ++ ")"
  | .string s => "STRING(" ++ Text.shown s ++ ")"
  | .identifier name => "IDENTIFIER(" ++ name ++ ")"
  | t => t.name

/-- A token and the number of characters before it. -/
structure Placed where
  token : Token
  position : Nat
deriving DecidableEq

end Token

end FieldLang

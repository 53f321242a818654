import FieldLang.Expr.Basic
import FieldLang.Token.Lexer

/-!
# Reading Expressions

Source text as an expression, by climbing through binding powers. A token that extends an expression has
two of them: one with which it binds what stands to its left, and one that it demands of what is read to its
right. Reading at a demanded power takes an operand and then extends it to the right for as long as the next
token has at least that power at its left: by an access, a call, a binary operator together with its right
operand, or a conditional. Demanding more at the right than it has at its left is what makes a binary operator
group to the left.

Nesting is bounded. Every operand that is read inside another one takes one from a budget, so
`expression` recurses on the budget; the budget is what the caller allows at most, and running out of
it is an error of its own. Within one operand the extensions are counted by the tokens that are left,
since each takes at least one.

All readers return what they read together with the tokens that are left.

## Main definitions

* `Token.power?`: The binding powers of a token.
* `Reader`: Readers of something from the front of a list of tokens.
* `Read.expect`: The reader of a certain mark.
* `Read.operand`, `Read.extension`, `Read.extend`, `Read.arguments`: The parts of an expression, given a
  reader for what is nested in them.
* `Read.expression`: The reader of an expression at a demanded power.
* `Expr.ofTokens`: The expression that a whole list of tokens writes.
* `Expr.parse`, `Expr.parseWithin`: The expression that a source text writes.
-/

namespace FieldLang

namespace Power

/-- The power of a conditional, on both sides. -/
def conditional : Nat := 4

/-- The power that a unary operator demands. -/
def unary : Nat := 80

/-- The power of accesses and calls. -/
def access : Nat := 90

end Power

/-- The binding powers of a token that extends an expression: the power that it has at its left, and the
    power that it demands at its right. -/
def Token.power? : Token → Option (Nat × Nat)
  | .mark .question => some (Power.conditional, Power.conditional)
  | .operator .coalesce => some (10, 11)
  | .operator .or => some (20, 21)
  | .operator .and => some (30, 31)
  | .operator .equal => some (40, 41)
  | .operator .notEqual => some (40, 41)
  | .operator .lessThan => some (50, 51)
  | .operator .lessOrEqual => some (50, 51)
  | .operator .greaterThan => some (50, 51)
  | .operator .greaterOrEqual => some (50, 51)
  | .operator .add => some (60, 61)
  | .operator .subtract => some (60, 61)
  | .operator .multiply => some (70, 71)
  | .operator .divide => some (70, 71)
  | .operator .modulo => some (70, 71)
  | .mark .dot => some (Power.access, Power.access + 1)
  | .mark .leftBracket => some (Power.access, Power.access + 1)
  | .mark .leftParen => some (Power.access, Power.access + 1)
  | _ => none

/-- A reader takes tokens from the front and returns what they mean with the tokens left over. -/
abbrev Reader (α : Type) := List Token → Except ParseError (α × List Token)

namespace Read

/-- The token at the front; after the last one comes the end of the source. -/
def front : List Token → Token
  | [] => .eof
  | t :: _ => t

/-- Takes a mark from the front and refuses any other token. -/
def expect (m : Mark) : List Token → Except ParseError (List Token)
  | .mark k :: rest => if k = m then .ok rest else .error (.expected m.name (.mark k))
  | tokens => .error (.expected m.name (front tokens))

/-- Reads a name. -/
def name : Reader String
  | .identifier name :: rest => .ok (name, rest)
  | tokens => .error (.expected "IDENTIFIER" (front tokens))

/-- Reads the name of a property, which may also be a keyword. -/
def propertyName : Reader String
  | .boolean b :: rest => .ok (if b then "true" else "false", rest)
  | .null :: rest => .ok ("null", rest)
  | .undefined :: rest => .ok ("undefined", rest)
  | tokens => name tokens

/-- Reads an operand: a literal, a name, a parenthesised expression, or a unary operator with its own
    operand. `nested` reads an expression at a demanded power. -/
def operand (nested : Nat → Reader Expr) : Reader Expr
  | .number n :: rest => .ok (.literal (.number n), rest)
  | .string s :: rest => .ok (.literal (.string s), rest)
  | .boolean b :: rest => .ok (.literal (.bool b), rest)
  | .null :: rest => .ok (.literal .null, rest)
  | .undefined :: rest => .ok (.literal .undefined, rest)
  | .identifier name :: rest => .ok (.identifier name, rest)
  | .mark .leftParen :: rest => do
    let (inner, rest) ← nested 0 rest
    let rest ← expect .rightParen rest
    return (inner, rest)
  | .operator .subtract :: rest => do
    let (inner, rest) ← nested Power.unary rest
    return (.unary .negate inner, rest)
  | .mark .not :: rest => do
    let (inner, rest) ← nested Power.unary rest
    return (.unary .not inner, rest)
  | [] => .error .unexpectedEnd
  | .eof :: _ => .error .unexpectedEnd
  | t :: _ => .error (.unexpectedToken t)

/-- Reads one or more arguments separated by commas, and the closing parenthesis. There are at most
    `count` more. -/
def argumentList (nested : Nat → Reader Expr) : (count : Nat) → Reader (List Expr)
  | 0, _ => .error .unexpectedEnd
  | count + 1, tokens => do
    let (arg, rest) ← nested 0 tokens
    match rest with
    | .mark .comma :: rest =>
      let (args, rest) ← argumentList nested count rest
      return (arg :: args, rest)
    | rest =>
      let rest ← expect .rightParen rest
      return ([arg], rest)

/-- Reads the arguments of a call after its opening parenthesis. -/
def arguments (nested : Nat → Reader Expr) : Reader (List Expr)
  | .mark .rightParen :: rest => .ok ([], rest)
  | tokens => argumentList nested (tokens.length + 1) tokens

/-- Reads what a token extends an operand by: an access, a call, the branches of a conditional or the right
    operand of a binary operator. `right` is the power that the token demands at its right. -/
def extension (nested : Nat → Reader Expr) (right : Nat) (lhs : Expr) : Token → Reader Expr
  | .mark .dot, rest => do
    let (property, rest) ← propertyName rest
    return (.member lhs property, rest)
  | .mark .leftBracket, rest => do
    let (key, rest) ← nested 0 rest
    let rest ← expect .rightBracket rest
    return (.index lhs key, rest)
  | .mark .leftParen, rest =>
    match lhs with
    | .identifier name => do
      let (args, rest) ← arguments nested rest
      return (.call name args, rest)
    | _ => .error (.invalidSyntax "Invalid function call")
  | .mark .question, rest => do
    let (thenBranch, rest) ← nested 0 rest
    let rest ← expect .colon rest
    let (elseBranch, rest) ← nested right rest
    return (.conditional lhs thenBranch elseBranch, rest)
  | .operator op, rest => do
    let (rhs, rest) ← nested right rest
    return (.binary op lhs rhs, rest)
  | t, _ => .error (.unexpectedToken t)

/-- Extends an operand to the right for as long as the tokens have at least the demanded power, at most
    `count` times. -/
def extend (nested : Nat → Reader Expr) (demanded : Nat) : (count : Nat) → Expr → Reader Expr
  | 0, lhs, tokens => .ok (lhs, tokens)
  | _ + 1, lhs, [] => .ok (lhs, [])
  | count + 1, lhs, t :: rest =>
    match t.power? with
    | none => .ok (lhs, t :: rest)
    | some (left, right) =>
      if left < demanded then .ok (lhs, t :: rest)
      else do
        let (lhs, rest) ← extension nested right lhs t rest
        extend nested demanded count lhs rest

/-- Reads an expression whose outermost form has at least the demanded power. `limit` is the
    bound that an error names, `budget` what is left of it. -/
def expression (limit : Nat) : (budget demanded : Nat) → Reader Expr
  | 0, _, _ => .error (.nestedTooDeeply limit)
  | budget + 1, demanded, tokens => do
    let (lhs, rest) ← operand (expression limit budget) tokens
    extend (expression limit budget) demanded rest.length lhs rest

/-- Reads an expression with the whole bound on nesting still to spend. -/
def fullExpression (limit : Nat) : Reader Expr :=
  expression limit limit 0

end Read

namespace Expr

/-- The bound on nesting where the caller sets none. -/
def defaultDepth : Nat := 100

/-- The expression that a whole list of tokens writes. -/
def ofTokens (limit : Nat) : List Token → Except ParseError Expr
  | [] => .error .emptyExpression
  | tokens => do
    let (e, rest) ← Read.fullExpression limit tokens
    match rest with
    | [] => return e
    | t :: _ => throw (.expected "end of expression" t)

/-- The expression that a source text writes, nested at most as deeply as allowed. -/
def parseWithin (limit : Nat) (source : String) : Except ParseError Expr := do
  ofTokens limit (← Token.ofSource source)

/-- The expression that a source text writes. -/
def parse (source : String) : Except ParseError Expr :=
  parseWithin defaultDepth source

end Expr

end FieldLang

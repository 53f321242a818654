/-!
# Operators

The operators of expressions and how tightly they bind. A form binds at a level: conditionals at 1,
the binary operators at 2 to 8, the two unary operators at 9, and names, literals, calls and accesses
at 10. Binary operators group to the left, so a right operand must bind tighter than its operator,
and a left operand at least as tightly. The printer of expressions goes by these levels; the reader has
binding powers of its own.

## Main definitions

* `BinaryOp`, `UnaryOp`: The operators, with `symbol` their spelling.
* `BinaryOp.level`: How tightly a binary operator binds.
* `Level.conditional`, `Level.unary`, `Level.access`: The levels of the other forms.
-/

namespace FieldLang

/-- The binary operators. -/
inductive BinaryOp where
  | add
  | subtract
  | multiply
  | divide
  | modulo
  | equal
  | notEqual
  | lessThan
  | lessOrEqual
  | greaterThan
  | greaterOrEqual
  | and
  | or
  /-- The left operand unless it is nullish. -/
  | coalesce
deriving DecidableEq

/-- The unary operators. -/
inductive UnaryOp where
  | negate
  | not
deriving DecidableEq

/-- The spelling of a binary operator. -/
def BinaryOp.symbol : BinaryOp → String
  | .add => "+"
  | .subtract => "-"
  | .multiply => "*"
  | .divide => "/"
  | .modulo => "%"
  | .equal => "=="
  | .notEqual => "!="
  | .lessThan => "<"
  | .lessOrEqual => "<="
  | .greaterThan => ">"
  | .greaterOrEqual => ">="
  | .and => "&&"
  | .or => "||"
  | .coalesce => "??"

/-- The spelling of a unary operator. -/
def UnaryOp.symbol : UnaryOp → String
  | .negate => "-"
  | .not => "!"

/-- How tightly a binary operator binds. -/
def BinaryOp.level : BinaryOp → Nat
  | .coalesce => 2
  | .or => 3
  | .and => 4
  | .equal => 5
  | .notEqual => 5
  | .lessThan => 6
  | .lessOrEqual => 6
  | .greaterThan => 6
  | .greaterOrEqual => 6
  | .add => 7
  | .subtract => 7
  | .multiply => 8
  | .divide => 8
  | .modulo => 8

namespace Level

/-- The level of a conditional. -/
def conditional : Nat := 1

/-- The level of a unary operator. -/
def unary : Nat := 9

/-- The level of accesses, calls, names and literals. -/
def access : Nat := 10

end Level

end FieldLang

import FieldLang.Expr.Basic
import FieldLang.Value.Text

/-!
# Printing Expressions

An expression as source text. Parentheses stand exactly where an operand binds less tightly than its
place demands: the condition of a conditional and the right operand of a binary operator must bind
tighter than the form they stand in, left operands and the operand of a unary operator at least as
tightly, and the object of an access must be an access, a call, a name or a literal.

## Main definitions

* `Expr.enclose`: A text in parentheses if an expression binds too loosely for its place.
* `Expr.render`, `Expr.renderArgs`: An expression and an argument list as text.
-/

namespace FieldLang.Expr

/-- The text of an expression in a place that demands a level. -/
def enclose (demanded : Nat) (e : Expr) (text : String) : String :=
  if e.level < demanded then "(" ++ text ++ ")" else text

mutual

/-- The source text of an expression. -/
def render : Expr → String
  | .literal v => v.render
  | .identifier name => name
  | .member object property => enclose Level.access object object.render ++ "." ++ property
  | .index object key => enclose Level.access object object.render ++ "[" ++ key.render ++ "]"
  | .binary op lhs rhs =>
    enclose op.level lhs lhs.render ++ " " ++ op.symbol ++ " " ++
      enclose (op.level + 1) rhs rhs.render
  | .unary op operand => op.symbol ++ enclose Level.unary operand operand.render
  | .conditional condition thenBranch elseBranch =>
    enclose (Level.conditional + 1) condition condition.render ++ " ? " ++ thenBranch.render ++
      " : " ++ elseBranch.render
  | .call name args => name ++ "(" ++ String.intercalate ", " (renderArgs args) ++ ")"

/-- The source texts of the arguments of a call. -/
def renderArgs : List Expr → List String
  | [] => []
  | e :: es => e.render :: renderArgs es

end

end FieldLang.Expr

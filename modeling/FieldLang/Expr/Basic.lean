import FieldLang.Expr.Operator
import FieldLang.Text.Search
import FieldLang.Value.Equality

/-!
# Expressions

The expressions of the language, as trees. Functions are called by name only, so a call holds a name
and not an expression for the function.

## Main definitions

* `Expr`: The expressions.
* `Expr.level`: How tightly an expression's outermost form binds.
* `Expr.path?`: A dotted path as an expression.
* `Expr.equal`, `Expr.equalArgs`: Equality of expressions, up to equality of the values in literals.
-/

namespace FieldLang

/-- An expression. -/
inductive Expr where
  | literal (value : Value)
  | identifier (name : String)
  /-- `object.property` -/
  | member (object : Expr) (property : String)
  /-- `object[index]` -/
  | index (object index : Expr)
  | binary (op : BinaryOp) (lhs rhs : Expr)
  | unary (op : UnaryOp) (operand : Expr)
  /-- `condition ? thenBranch : elseBranch` -/
  | conditional (condition thenBranch elseBranch : Expr)
  /-- `name(args)` -/
  | call (name : String) (args : List Expr)
deriving Inhabited

namespace Expr

/-- How tightly the outermost form of an expression binds. -/
def level : Expr → Nat
  | .conditional .. => Level.conditional
  | .binary op .. => op.level
  | .unary .. => Level.unary
  | _ => Level.access

/-- A dotted path as a name followed by member accesses; a path without a name at its start is none. -/
def path? (path : String) : Option Expr :=
  match Text.segments path with
  | [] => none
  | root :: rest => if root.isEmpty then none else some (rest.foldl member (identifier root))

mutual

/-- Whether two expressions have the same form and equal values in their literals. -/
def equal : Expr → Expr → Bool
  | .literal v, .literal w => v.equal w
  | .identifier a, .identifier b => a == b
  | .member e p, .member f q => e.equal f && p == q
  | .index e i, .index f j => e.equal f && i.equal j
  | .binary o a b, .binary p c d => o == p && a.equal c && b.equal d
  | .unary o a, .unary p b => o == p && a.equal b
  | .conditional a b c, .conditional d e f => a.equal d && b.equal e && c.equal f
  | .call n as, .call m bs => n == m && equalArgs as bs
  | _, _ => false

/-- Whether two argument lists are equal place by place. -/
def equalArgs : List Expr → List Expr → Bool
  | [], [] => true
  | a :: as, b :: bs => a.equal b && equalArgs as bs
  | _, _ => false

end

end Expr

end FieldLang

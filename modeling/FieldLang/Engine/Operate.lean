import FieldLang.Engine.Error
import FieldLang.Expr.Operator
import FieldLang.Value.Equality
import FieldLang.Value.Text

/-!
# Operators on Values

What the operators give once their operands have values. Equality is defined on all values; addition
joins plain texts as soon as one side is a text; the other arithmetic is defined on numbers only, and
the order on two numbers or two texts. The operators that may skip their right operand are not among
these: they are decided while the operands are evaluated.

## Main definitions

* `UnaryOp.apply`, `BinaryOp.apply`: The results of the operators.
-/

namespace FieldLang

/-- The result of a unary operator. -/
def UnaryOp.apply : UnaryOp → Value → Except EvalError Value
  | .not, v => .ok (.bool !v.isTruthy)
  | .negate, .number n => .ok (.number (-n))
  | .negate, v => .error (.type ("Cannot negate " ++ v.typeName))

namespace BinaryOp

/-- The refusal of an operator on values that it is not defined on. -/
def refuse (op : BinaryOp) (left right : Value) : EvalError :=
  .type ("Operator '" ++ op.symbol ++ "' cannot be applied to " ++ left.typeName ++ " and " ++
    right.typeName)

/-- The result of an operator on two numbers. -/
def onNumbers? (op : BinaryOp) (a b : Float) : Option Value :=
  match op with
  | .add => some (.number (a + b))
  | .subtract => some (.number (a - b))
  | .multiply => some (.number (a * b))
  | .divide => some (.number (a / b))
  | .modulo => some (.number (Number.remainder a b))
  | .lessThan => some (.bool (a < b))
  | .lessOrEqual => some (.bool (a ≤ b))
  | .greaterThan => some (.bool (b < a))
  | .greaterOrEqual => some (.bool (b ≤ a))
  | _ => none

/-- The result of an operator on two texts, which are ordered by code point. -/
def onStrings? (op : BinaryOp) (a b : String) : Option Value :=
  match op with
  | .lessThan => some (.bool (a < b))
  | .lessOrEqual => some (.bool !(b < a))
  | .greaterThan => some (.bool (b < a))
  | .greaterOrEqual => some (.bool !(a < b))
  | _ => none

/-- The result of an operator whose operands are both evaluated. -/
def apply (op : BinaryOp) (left right : Value) : Except EvalError Value :=
  match op with
  | .equal => .ok (.bool (left.equal right))
  | .notEqual => .ok (.bool !left.equal right)
  | op =>
    if op = .add ∧ (left.isString ∨ right.isString) then .ok (.string (left.text ++ right.text))
    else
      let result :=
        match left, right with
        | .number a, .number b => op.onNumbers? a b
        | .string a, .string b => op.onStrings? a b
        | _, _ => none
      match result with
      | some v => .ok v
      | none => .error (op.refuse left right)

end BinaryOp

end FieldLang

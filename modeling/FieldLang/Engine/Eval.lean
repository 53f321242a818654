import FieldLang.Builtin.Apply
import FieldLang.Engine.Access
import FieldLang.Engine.Basic
import FieldLang.Engine.Operate
import FieldLang.Engine.Traced

/-!
# Evaluation

The value of an expression in an engine and a scope. Depth is bounded by a budget: every expression
takes one from it and leaves the rest to the expressions inside it, and so does every built-in function
that calls another. Both recursions are on the budget, and running out of it is an error that names the
engine's bound.

A name means the innermost binding of it, then the engine's variable, then a reference to the function
of that name. Operands and arguments are evaluated from left to right; `&&`, `||`, `??` and the
conditional evaluate only what they need.

## Main definitions

* `Engine.callAt`: The result of a function by name, with a budget.
* `Engine.lookup`: The value of a name.
* `Engine.evalAt`: The value of an expression, with a budget.
* `Engine.eval`, `Engine.call`: The same within the bound of the engine.
* `Engine.run`: The value of a source text.
* `Report`, `Engine.evaluate`, `Engine.evaluateWith`: The result of a source text as it is reported.
-/

namespace FieldLang

/-- The error of a function as an error of evaluation, in a traced outcome. -/
def Traced.ofFunction {α : Type} (outcome : Except FunctionError α) : Traced EvalError α :=
  .ofExcept (outcome.mapError .function)

namespace Engine

/-- The name of the function that a callback argument refers to. -/
def callbackName (builtin : Builtin) : Value → Except FunctionError String
  | .function name => .ok name
  | v => .error (.argument (builtin.name ++ " requires a function, got " ++ v.typeName))

/-- The result of a built-in function that calls others, given how to call a function by name. -/
def applyCallback (call : String → List Value → Traced EvalError Value) (builtin : Builtin)
    (args : List Value) : Traced EvalError Value := do
  let items ← Traced.ofFunction (Arrays.require builtin (Builtin.argument args 0))
  let callback := Builtin.argument args 1
  if builtin = .sort ∧ callback.isUndefined then return .array (Arrays.sorted items)
  let name ← Traced.ofFunction (callbackName builtin callback)
  Arrays.withCallback builtin (call name) (fun e => .fail (.function e)) items args[2]?

/-- The result of a function by name: built-in functions first, then those of the host. -/
def callAt (engine : Engine) : (budget : Nat) → String → List Value → Traced EvalError Value
  | budget, name, args =>
    match Builtin.ofName? name with
    | some builtin =>
      if builtin.takesCallback then
        match budget with
        | 0 => .fail (.tooDeep engine.maxDepth)
        | budget + 1 => applyCallback (engine.callAt budget) builtin args
      else Traced.ofFunction (builtin.apply args)
    | none =>
      match Keyed.get? name engine.functions with
      | some function => .calling name args ((function args).mapError .function)
      | none => .fail (.undefinedFunction name)

/-- The value of a name: the innermost binding, the variable, or the function of that name. -/
def lookup (engine : Engine) (scope : Scope) (name : String) : Except EvalError Value := do
  guardKey name
  match (scope.lookup? name).or (engine.global? name) with
  | some v => return v
  | none => if engine.hasFunction name then return .function name else throw (.undefinedVariable name)

/-- Whether the value of the left operand already is the value of the whole. -/
def decides (op : BinaryOp) (left : Value) : Bool :=
  match op with
  | .and => !left.isTruthy
  | .or => left.isTruthy
  | .coalesce => !left.isNullish
  | _ => false

/-- Whether an operator gives the value of its right operand once it needs it. -/
def passesRight : BinaryOp → Bool
  | .and => true
  | .or => true
  | .coalesce => true
  | _ => false

/-- The value of an expression with a budget for its depth. -/
def evalAt (engine : Engine) (scope : Scope) : (budget : Nat) → Expr → Traced EvalError Value
  | 0, _ => .fail (.tooDeep engine.maxDepth)
  | budget + 1, e =>
    match e with
    | .literal v => pure v
    | .identifier name => .ofExcept (engine.lookup scope name)
    | .member object property => do
      Traced.ofExcept (guardKey property)
      let target ← engine.evalAt scope budget object
      Traced.ofExcept (target.property property)
    | .index object key => do
      let target ← engine.evalAt scope budget object
      let index ← engine.evalAt scope budget key
      Traced.ofExcept (target.indexed index)
    | .unary op operand => do
      let v ← engine.evalAt scope budget operand
      Traced.ofExcept (op.apply v)
    | .binary op lhs rhs => do
      let left ← engine.evalAt scope budget lhs
      if decides op left then return left
      let right ← engine.evalAt scope budget rhs
      if passesRight op then return right
      Traced.ofExcept (op.apply left right)
    | .conditional condition thenBranch elseBranch => do
      let test ← engine.evalAt scope budget condition
      if test.isTruthy then engine.evalAt scope budget thenBranch
      else engine.evalAt scope budget elseBranch
    | .call name args => do
      Traced.ofExcept (guardKey name)
      let values ← args.mapM (engine.evalAt scope budget)
      engine.callAt budget name values

/-- The value of an expression. -/
def eval (engine : Engine) (scope : Scope) (e : Expr) : Traced EvalError Value :=
  engine.evalAt scope engine.maxDepth e

/-- The result of a function by name. -/
def call (engine : Engine) (name : String) (args : List Value) : Traced EvalError Value :=
  engine.callAt engine.maxDepth name args

/-- The value of a source text. Its nesting has the same bound as its evaluation. -/
def run (engine : Engine) (scope : Scope) (source : String) : Traced EvalError Value := do
  let e ← Traced.ofExcept ((Expr.parseWithin engine.maxDepth source).mapError .parse)
  engine.eval scope e

end Engine

/-- The result of a source text as it is reported: a value with its type, or an error, in which case
    the value is undefined. -/
structure Report where
  value : Value
  tag : Tag
  error : Option EvalError

/-- The report of an outcome. -/
def Report.ofOutcome : Except EvalError Value → Report
  | .ok v => ⟨v, v.tag, none⟩
  | .error e => ⟨.undefined, .undefined, some e⟩

/-- The report on a source text. -/
def Engine.evaluate (engine : Engine) (source : String) : Report :=
  .ofOutcome (engine.run [] source).outcome

/-- The report on a source text with variables that hide those of the engine. -/
def Engine.evaluateWith (engine : Engine) (overlay : Keyed Value) (source : String) : Report :=
  .ofOutcome (engine.run [overlay] source).outcome

end FieldLang

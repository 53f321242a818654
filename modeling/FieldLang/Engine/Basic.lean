import FieldLang.Builtin.Basic
import FieldLang.Engine.Error
import FieldLang.Expr.Parser
import FieldLang.Value.Basic

/-!
# Engines

An engine holds what expressions refer to: variables, functions of the host, and the bound on depth.
Host functions are registered under names of their own choice, except those of built-in functions.

Over the variables of an engine lie scopes: tables of bindings, the innermost first. Parameters of
lambdas and the variables of a single evaluation live there.

## Main definitions

* `HostFunction`: A function of the host.
* `Engine`: Variables, functions and the bound on depth.
* `Engine.global?`, `Engine.setGlobal`: A variable of an engine, and setting it.
* `Engine.register`: Adding a function to an engine.
* `Engine.hasFunction`: Whether a name belongs to a function.
* `Scope`, `Scope.lookup?`: Bindings laid over the variables.
-/

namespace FieldLang

/-- A function of the host. -/
abbrev HostFunction := List Value → Except FunctionError Value

/-- What expressions refer to. -/
structure Engine where
  /-- Its own variables, which every scope sees. -/
  globals : Keyed Value
  functions : Keyed HostFunction
  maxDepth : Nat

/-- Tables of bindings, the innermost first. -/
abbrev Scope := List (Keyed Value)

/-- The innermost binding of a name. -/
def Scope.lookup? (name : String) : Scope → Option Value
  | [] => none
  | bindings :: outer => (Keyed.get? name bindings).or (Scope.lookup? name outer)

namespace Engine

/-- An engine with variables and without host functions. -/
def ofGlobals (globals : Keyed Value) : Engine :=
  ⟨globals, [], Expr.defaultDepth⟩

/-- The engine with a variable set. -/
def setGlobal (engine : Engine) (name : String) (value : Value) : Engine :=
  { engine with globals := Keyed.insert name value engine.globals }

/-- The value of a variable. -/
def global? (engine : Engine) (name : String) : Option Value :=
  Keyed.get? name engine.globals

/-- The engine with a host function registered. The names of built-in functions are refused. -/
def register (engine : Engine) (name : String) (function : HostFunction) :
    Except EvalError Engine :=
  if Builtin.isName name then .error (.builtinOverride name)
  else .ok { engine with functions := Keyed.insert name function engine.functions }

/-- Whether a name belongs to a built-in or registered function. -/
def hasFunction (engine : Engine) (name : String) : Bool :=
  Builtin.isName name || Keyed.contains name engine.functions

end Engine

end FieldLang

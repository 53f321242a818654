import FieldLang.Engine.Eval
import FieldLang.Proofs.BuiltinLikeness

/-!
# Evaluation in Step

Two engines evaluate the same expression, over like data. This module says what must be known about
the engines, the data and the expression so that the second run follows the first. A `Pairing` holds
the two engines together with the view in which values are compared and the faults that are excused,
so that one theorem serves every comparison: other data, other host functions, more depth.

What an expression must satisfy is said of each of its parts alone, by `Pairing.Admits`: a part may
bring in a value, a reference to a function, a call or a comparison, and each of these must be alike
in both runs. References that are already in the data are covered by the view, which allows only
functions that may be called.

The second engine may have a larger bound on depth. Its budget then stays ahead of that of the first
by the same amount throughout, and the first engine running out of depth is an excused fault. Two
runs in the same engine may differ in their budgets as well, where one of them is nested more
deeply. So the lemmas about budgets ask for `Pairing.Paced` only, which does not tie them to the
bounds.

## Main definitions

* `Expr.parts`: An expression and all expressions inside it.
* `Pairing`: Two engines, and how their runs are compared.
* `Pairing.Callable`, `Pairing.Referable`: Functions and names that behave alike in both engines.
* `Pairing.Admits`: The parts of expressions that do.
* `Pairing.AlikeScopes`: Scopes over which both engines see like values.
* `HostFunction.Respects`: Functions of the host that treat like values alike.
* `View.AlikeTables`: Tables of bindings that are alike.
* `Pairing.Paced`: What must hold of the engines themselves, whatever the budgets are.
* `Pairing.InStep`: The same for runs within the bounds of the engines.

## Theorems

* `alikeScopes_of_tables`: Scopes are alike if their tables are.
* `follows_callAt`: Calls stay in step, through all callbacks.
* `follows_lookup`: Names have like values.
* `follows_evalAt`, `follows_eval`: Expressions are evaluated in step.
-/

namespace FieldLang

namespace Expr

mutual

/-- An expression and all expressions inside it. -/
def parts : Expr → List Expr
  | .literal v => [.literal v]
  | .identifier name => [.identifier name]
  | .member object property => .member object property :: object.parts
  | .index object key => .index object key :: (object.parts ++ key.parts)
  | .binary op lhs rhs => .binary op lhs rhs :: (lhs.parts ++ rhs.parts)
  | .unary op operand => .unary op operand :: operand.parts
  | .conditional condition thenBranch elseBranch =>
    .conditional condition thenBranch elseBranch ::
      (condition.parts ++ (thenBranch.parts ++ elseBranch.parts))
  | .call name args => .call name args :: partsArgs args

/-- The arguments of a call and all expressions inside them. -/
def partsArgs : List Expr → List Expr
  | [] => []
  | e :: es => e.parts ++ partsArgs es

end

theorem mem_parts_self (e : Expr) : e ∈ e.parts := by
  cases e <;> simp [parts]

theorem mem_partsArgs {x e : Expr} {args : List Expr} (he : e ∈ args) (hx : x ∈ e.parts) :
    x ∈ partsArgs args := by
  induction args with
  | nil => cases he
  | cons a as ih =>
      rw [partsArgs, List.mem_append]
      rcases List.mem_cons.mp he with rfl | he
      · exact Or.inl hx
      · exact Or.inr (ih he)

end Expr

namespace Engine

/-- The result of a function of the host by name. -/
def callHost (engine : Engine) (name : String) (args : List Value) : Except EvalError Value :=
  match Keyed.get? name engine.functions with
  | some function => (function args).mapError .function
  | none => .error (.undefinedFunction name)

/-- The value that is bound to a name, by a scope or as a variable. -/
def binding? (engine : Engine) (scope : Scope) (name : String) : Option Value :=
  (scope.lookup? name).or (engine.global? name)

/-- The value of a name that nothing is bound to. -/
def reference (engine : Engine) (name : String) : Except EvalError Value :=
  if engine.hasFunction name then .ok (.function name) else .error (.undefinedVariable name)

section Calls

variable {engine : Engine} {name : String} (budget : Nat) (args : List Value)

theorem outcome_callAt_host (h : Builtin.ofName? name = none) :
    (engine.callAt budget name args).outcome = engine.callHost name args := by
  unfold callAt callHost
  rw [h]
  cases Keyed.get? name engine.functions with
  | none => rfl
  | some function => rfl

variable {b : Builtin} (h : Builtin.ofName? name = some b)
include h

theorem callAt_apply (hb : b.takesCallback = false) :
    engine.callAt budget name args = Traced.ofFunction (b.apply args) := by
  unfold callAt
  rw [h]
  simp only [hb, Bool.false_eq_true, if_false]

theorem callAt_zero (hb : b.takesCallback = true) :
    engine.callAt 0 name args = .fail (.tooDeep engine.maxDepth) := by
  unfold callAt
  rw [h]
  simp only [hb, if_true]

theorem callAt_succ (hb : b.takesCallback = true) :
    engine.callAt (budget + 1) name args = applyCallback (engine.callAt budget) b args := by
  rw [callAt, h]
  simp only [hb, if_true]

end Calls

theorem lookup_eq (engine : Engine) (scope : Scope) (name : String) :
    engine.lookup scope name = guardKey name >>= fun _ =>
      match engine.binding? scope name with
      | some v => .ok v
      | none => engine.reference name :=
  rfl

end Engine

/-- Two engines whose runs are compared: in which view, up to which faults, and by how much the
    second one may go deeper. -/
structure Pairing where
  left : Engine
  right : Engine
  view : View
  faults : Faults EvalError
  slack : Nat

namespace Pairing

/-- Calls of a function by name have like results on like arguments. -/
structure Callable (pairing : Pairing) (name : String) : Prop where
  exact_of_comparison : ∀ b, Builtin.ofName? name = some b → b.isComparison = true →
    pairing.view.Exact
  follows_host : Builtin.ofName? name = none → ∀ args args',
    List.Forall₂ pairing.view.Alike args args' →
    Follows pairing.faults pairing.view.Alike (pairing.left.callHost name args)
      (pairing.right.callHost name args')

/-- A name that nothing is bound to refers to a function in both engines, or in none. -/
def Referable (pairing : Pairing) (name : String) : Prop :=
  Follows pairing.faults pairing.view.Alike (pairing.left.reference name)
    (pairing.right.reference name)

/-- What an expression brings in, its parts aside, is alike in both runs. Denied names bring in
    nothing: they are refused. -/
def Admits (pairing : Pairing) : Expr → Prop
  | .literal v => pairing.view.Alike v v
  | .identifier name => isDenied name = false → pairing.Referable name
  | .binary op _ _ => op.isComparison = true → pairing.view.Exact
  | .call name _ => isDenied name = false → pairing.Callable name
  | _ => True

/-- Like values are bound to every name that is not denied. -/
def AlikeScopes (pairing : Pairing) (scope scope' : Scope) : Prop :=
  ∀ name, isDenied name = false →
    Option.Rel pairing.view.Alike (pairing.left.binding? scope name)
      (pairing.right.binding? scope' name)

/-- What must hold of two engines so that runs can stay in step if the budget of the second is ahead
    by the slack. Where it is not, both must report the same bound. -/
structure Paced (pairing : Pairing) : Prop where
  ordinary : pairing.faults.Ordinary
  maxDepth_right : pairing.slack = 0 → pairing.right.maxDepth = pairing.left.maxDepth
  excused_of_slack : pairing.slack ≠ 0 → pairing.faults.excused (.tooDeep pairing.left.maxDepth)
  callable_of_refers : ∀ name, pairing.view.refers name → pairing.Callable name

/-- What must hold of two engines so that their runs can stay in step. -/
structure InStep (pairing : Pairing) : Prop where
  ordinary : pairing.faults.Ordinary
  maxDepth_right : pairing.right.maxDepth = pairing.left.maxDepth + pairing.slack
  excused_of_slack : pairing.slack ≠ 0 → pairing.faults.excused (.tooDeep pairing.left.maxDepth)
  callable_of_refers : ∀ name, pairing.view.refers name → pairing.Callable name

theorem InStep.paced {pairing : Pairing} (h : pairing.InStep) : pairing.Paced where
  ordinary := h.ordinary
  maxDepth_right hslack := by rw [h.maxDepth_right, hslack, Nat.add_zero]
  excused_of_slack := h.excused_of_slack
  callable_of_refers := h.callable_of_refers

end Pairing

/-- A function of the host has like results on like arguments, or the same fault. -/
def HostFunction.Respects (view : View) (function : HostFunction) : Prop :=
  ∀ args args', List.Forall₂ view.Alike args args' →
    Follows (.strict FunctionError) view.Alike (function args) (function args')

/-- In an exact view a function of the host need only hand out allowed references, if it is given
    such. -/
theorem View.Exact.respects {view : View} (hexact : view.Exact) {function : HostFunction}
    (h : ∀ args, (∀ v ∈ args, ∀ name ∈ v.references, view.refers name) →
      ∀ v, function args = .ok v → ∀ name ∈ v.references, view.refers name) :
    function.Respects view := by
  intro args args' hargs
  -- Like arguments are equal, so only the references of the result remain to be shown.
  rcases hexact.forall₂_iff.mp hargs with ⟨rfl, hrefers⟩
  cases hv : function args with
  | ok v => exact .ok (.self (h args hrefers v hv))
  | error e => exact .error trivial

/-- The same function of the host in both engines, or none, has like results on like arguments. -/
theorem follows_callHost {left right : Engine} {view : View} {faults : Faults EvalError}
    (hfaults : faults.Ordinary) {name : String}
    (heq : Keyed.get? name right.functions = Keyed.get? name left.functions)
    (hhost : ∀ function, Keyed.get? name left.functions = some function → function.Respects view)
    (hmissing : Keyed.get? name left.functions = none → faults.shared (.undefinedFunction name))
    {args args' : List Value} (h : List.Forall₂ view.Alike args args') :
    Follows faults view.Alike (left.callHost name args) (right.callHost name args') := by
  unfold Engine.callHost
  rw [heq]
  -- Both engines find the same function, or both miss it.
  cases hfunction : Keyed.get? name left.functions with
  | none => exact .error (hmissing hfunction)
  | some function =>
      refine Follows.mapError (fun _ => False.elim) ?_ (hhost function hfunction args args' h)
      intro e _
      exact hfaults (.function e) nofun

/-- A name can be referred to if it belongs to a function in both engines or in none. -/
theorem Pairing.referable_of_eq {pairing : Pairing} (hfaults : pairing.faults.Ordinary)
    {name : String} (heq : pairing.right.hasFunction name = pairing.left.hasFunction name)
    (hrefers : pairing.left.hasFunction name = true → pairing.view.refers name) :
    pairing.Referable name := by
  unfold Referable Engine.reference
  rw [heq]
  by_cases hfunction : pairing.left.hasFunction name = true
  · rw [if_pos hfunction]
    exact .ok (.function (hrefers hfunction))
  · rw [if_neg hfunction]
    exact .error (hfaults _ nofun)

section Scopes

variable {view : View}

/-- Tables of bindings that are alike as the fields of objects are. -/
def View.AlikeTables (view : View) (table table' : Keyed Value) : Prop :=
  view.Alike (.object table) (.object table')

theorem rel_or {R : Value → Value → Prop} {a b c d : Option Value} (hab : Option.Rel R a b)
    (hcd : Option.Rel R c d) : Option.Rel R (a.or c) (b.or d) := by
  cases hab with
  | none => exact hcd
  | some h => exact .some h

/-- Like tables hold like values under the keys that are not left out. -/
theorem rel_get? {table table' : Keyed Value} (h : view.AlikeTables table table') {name : String}
    (hname : view.skips name = false) :
    Option.Rel view.Alike (Keyed.get? name table) (Keyed.get? name table') := by
  rcases h.object_left with ⟨others, heq, hfields⟩
  cases heq
  exact hfields name hname

theorem rel_lookup? {scope scope' : Scope} (h : List.Forall₂ view.AlikeTables scope scope')
    {name : String} (hname : view.skips name = false) :
    Option.Rel view.Alike (scope.lookup? name) (scope'.lookup? name) := by
  induction h with
  | nil => exact .none
  | cons htable _ ih =>
      rw [Scope.lookup?, Scope.lookup?]
      exact rel_or (rel_get? htable hname) ih

/-- Engines with like variables see like values over like scopes. -/
theorem alikeScopes_of_tables {pairing : Pairing} {scope scope' : Scope}
    (hglobals : pairing.view.AlikeTables pairing.left.globals pairing.right.globals)
    (h : List.Forall₂ pairing.view.AlikeTables scope scope') :
    pairing.AlikeScopes scope scope' := by
  intro name hdenied
  have hname : pairing.view.skips name = false := skips_of_not_isDenied hdenied
  exact rel_or (rel_lookup? h hname) (rel_get? hglobals hname)

end Scopes

section Steps

variable {pairing : Pairing} (hstep : pairing.Paced)
include hstep

/-- Where the first run is out of depth, the second one is too, or the fault is excused. -/
theorem follows_tooDeep {α β : Type} {R : α → β → Prop} {y : Except EvalError β}
    (hy : pairing.slack = 0 → y = .error (.tooDeep pairing.right.maxDepth)) :
    Follows pairing.faults R (.error (.tooDeep pairing.left.maxDepth) : Except EvalError α) y := by
  -- With equal bounds both runs end in the same fault; otherwise it is excused.
  by_cases hslack : pairing.slack = 0
  · rw [hy hslack, hstep.maxDepth_right hslack]
    exact .error (hstep.ordinary _ nofun)
  · exact .excused (hstep.excused_of_slack hslack)

/-- A built-in function that calls no other has like results on like arguments. -/
theorem follows_ofFunction {α β : Type} {R : α → β → Prop} {x : Except FunctionError α}
    {y : Except FunctionError β} (h : Follows (.strict FunctionError) R x y) :
    Follows pairing.faults R (Traced.ofFunction x).outcome (Traced.ofFunction y).outcome :=
  h.mapError (fun _ => False.elim) fun e _ => hstep.ordinary (.function e) nofun

/-- Like values name the same callback, and it may be called, or are both refused. -/
theorem follows_callbackName (b : Builtin) {v w : Value} (h : pairing.view.Alike v w) :
    Follows (.strict FunctionError) (fun name name' => name = name' ∧ pairing.Callable name)
      (Engine.callbackName b v) (Engine.callbackName b w) := by
  -- Only a reference names a callback, and the view allows only what may be called.
  rcases h.cases with ⟨_, _, rfl, rfl, _⟩ | ⟨_, _, rfl, rfl, _⟩ | ⟨_, rfl⟩
  · exact .error trivial
  · exact .error trivial
  · cases w with
    | function name => exact .ok ⟨rfl, hstep.callable_of_refers name h.function_left.2⟩
    | _ => exact .error trivial

/-- A built-in function that calls another is in step if the calls are. -/
theorem follows_applyCallback {call call' : String → List Value → Traced EvalError Value}
    (hcall : ∀ name, pairing.Callable name → ∀ args args',
      List.Forall₂ pairing.view.Alike args args' →
      Follows pairing.faults pairing.view.Alike (call name args).outcome (call' name args').outcome)
    (b : Builtin) {args args' : List Value} (h : List.Forall₂ pairing.view.Alike args args') :
    Follows pairing.faults pairing.view.Alike (Engine.applyCallback call b args).outcome
      (Engine.applyCallback call' b args').outcome := by
  unfold Engine.applyCallback
  have hsecond := alike_argument h 1
  refine (follows_ofFunction hstep (follows_require b (alike_argument h 0))).andThen
    fun vs ws hvs => ?_
  simp only [hsecond.isUndefined]
  -- Only `sort` goes without a function to call.
  by_cases hsort : b = .sort ∧ (Builtin.argument args' 1).isUndefined = true
  · rw [if_pos hsort, if_pos hsort]
    exact .ok (.array (forall₂_sorted hvs))
  · rw [if_neg hsort, if_neg hsort]
    refine (follows_ofFunction hstep (follows_callbackName hstep b hsecond)).andThen
      fun name name' hname => ?_
    rcases hname with ⟨rfl, hname⟩
    exact follows_withCallback hstep.ordinary (hcall name hname) b hvs (rel_getElem? h 2)

/-- A function that calls no other needs no budget. -/
theorem follows_callAt_flat {name : String} (hname : pairing.Callable name)
    (hflat : ¬∃ b, Builtin.ofName? name = some b ∧ b.takesCallback = true) (budget budget' : Nat)
    {args args' : List Value} (h : List.Forall₂ pairing.view.Alike args args') :
    Follows pairing.faults pairing.view.Alike (pairing.left.callAt budget name args).outcome
      (pairing.right.callAt budget' name args').outcome := by
  cases hb : Builtin.ofName? name with
  | none =>
      rw [Engine.outcome_callAt_host _ _ hb, Engine.outcome_callAt_host _ _ hb]
      exact hname.follows_host hb _ _ h
  | some b =>
      have hcallback : b.takesCallback = false := Bool.eq_false_iff.mpr fun hcallback =>
        hflat ⟨b, hb, hcallback⟩
      rw [Engine.callAt_apply _ _ hb hcallback, Engine.callAt_apply _ _ hb hcallback]
      exact follows_ofFunction hstep (follows_builtin b (hname.exact_of_comparison b hb) h)

/-- Calls stay in step, through all callbacks. -/
theorem follows_callAt (budget : Nat) {name : String} (hname : pairing.Callable name)
    {args args' : List Value} (h : List.Forall₂ pairing.view.Alike args args') :
    Follows pairing.faults pairing.view.Alike (pairing.left.callAt budget name args).outcome
      (pairing.right.callAt (budget + pairing.slack) name args').outcome := by
  -- Every callback takes one from the budget, so the induction is on what is left of it.
  induction budget generalizing name args args' with
  | zero =>
      by_cases hflat : ∃ b, Builtin.ofName? name = some b ∧ b.takesCallback = true
      · rcases hflat with ⟨b, hb, hcallback⟩
        rw [Engine.callAt_zero _ hb hcallback]
        refine follows_tooDeep hstep fun hslack => ?_
        rw [hslack, Engine.callAt_zero _ hb hcallback, Traced.outcome_fail]
      · exact follows_callAt_flat hstep hname hflat _ _ h
  | succ budget ih =>
      by_cases hflat : ∃ b, Builtin.ofName? name = some b ∧ b.takesCallback = true
      · rcases hflat with ⟨b, hb, hcallback⟩
        rw [Nat.add_right_comm, Engine.callAt_succ _ _ hb hcallback,
          Engine.callAt_succ _ _ hb hcallback]
        exact follows_applyCallback hstep (fun name hname args args' h => ih hname h) b h
      · exact follows_callAt_flat hstep hname hflat _ _ h

/-- A name that is not denied has like values. -/
theorem follows_lookup {scope scope' : Scope} (hscopes : pairing.AlikeScopes scope scope')
    {name : String} (hname : isDenied name = false → pairing.Referable name) :
    Follows pairing.faults pairing.view.Alike (pairing.left.lookup scope name)
      (pairing.right.lookup scope' name) := by
  rw [Engine.lookup_eq, Engine.lookup_eq]
  refine (follows_guardKey hstep.ordinary name).bind fun _ _ hdenied => ?_
  -- A binding comes first; a name without one refers to a function.
  have hbound := hscopes name hdenied
  generalize pairing.left.binding? scope name = x at hbound ⊢
  generalize pairing.right.binding? scope' name = y at hbound ⊢
  cases hbound with
  | some hvw => exact .ok hvw
  | none => exact hname hdenied

omit hstep in
/-- Both runs decide from like left operands whether they need the right one. -/
theorem decides_of_alike (op : BinaryOp) {v w : Value} (h : pairing.view.Alike v w) :
    Engine.decides op v = Engine.decides op w := by
  unfold Engine.decides
  rw [h.isTruthy, h.isNullish]

/-- Expressions are evaluated in step if their parts are admitted. -/
theorem follows_evalAt {scope scope' : Scope} (hscopes : pairing.AlikeScopes scope scope')
    (budget : Nat) {e : Expr} (he : ∀ x ∈ e.parts, pairing.Admits x) :
    Follows pairing.faults pairing.view.Alike (pairing.left.evalAt scope budget e).outcome
      (pairing.right.evalAt scope' (budget + pairing.slack) e).outcome := by
  -- Every part is evaluated with one less, so the induction is on the budget and not on the
  -- expression.
  induction budget generalizing e with
  | zero =>
      rw [Engine.evalAt]
      refine follows_tooDeep hstep fun hslack => ?_
      rw [hslack, Engine.evalAt, Traced.outcome_fail]
  | succ budget ih =>
      have hself := he e e.mem_parts_self
      rw [Nat.add_right_comm]
      cases e with
      | literal v =>
          exact .ok hself
      | identifier name =>
          exact follows_lookup hstep hscopes hself
      | member object property =>
          have hobject := ih (e := object) fun x hx => he x (by simp [Expr.parts, hx])
          rw [Engine.evalAt, Engine.evalAt]
          refine (follows_guardKey hstep.ordinary property).andThen fun _ _ hkey => ?_
          refine hobject.andThen fun v w hvw => ?_
          exact follows_property hstep.ordinary hvw (skips_of_not_isDenied hkey)
      | index object key =>
          have hobject := ih (e := object) fun x hx => he x (by simp [Expr.parts, hx])
          have hkey := ih (e := key) fun x hx => he x (by simp [Expr.parts, hx])
          rw [Engine.evalAt, Engine.evalAt]
          refine hobject.andThen fun v w hvw => ?_
          refine hkey.andThen fun i j hij => ?_
          exact follows_indexed hstep.ordinary hvw hij
      | unary op operand =>
          have hoperand := ih (e := operand) fun x hx => he x (by simp [Expr.parts, hx])
          rw [Engine.evalAt, Engine.evalAt]
          exact hoperand.andThen fun v w hvw => follows_unary hstep.ordinary op hvw
      | binary op lhs rhs =>
          have hlhs := ih (e := lhs) fun x hx => he x (by simp [Expr.parts, hx])
          have hrhs := ih (e := rhs) fun x hx => he x (by simp [Expr.parts, hx])
          rw [Engine.evalAt, Engine.evalAt]
          refine hlhs.andThen fun v w hvw => ?_
          rw [decides_of_alike op hvw]
          by_cases hdecides : Engine.decides op w = true
          · rw [if_pos hdecides, if_pos hdecides]
            exact .ok hvw
          rw [if_neg hdecides, if_neg hdecides]
          refine hrhs.andThen fun a b hab => ?_
          by_cases hpasses : Engine.passesRight op = true
          · rw [if_pos hpasses, if_pos hpasses]
            exact .ok hab
          · rw [if_neg hpasses, if_neg hpasses]
            exact follows_binary hstep.ordinary op hself hvw hab
      | conditional condition thenBranch elseBranch =>
          have hcondition := ih (e := condition) fun x hx => he x (by simp [Expr.parts, hx])
          have hthen := ih (e := thenBranch) fun x hx => he x (by simp [Expr.parts, hx])
          have helse := ih (e := elseBranch) fun x hx => he x (by simp [Expr.parts, hx])
          rw [Engine.evalAt, Engine.evalAt]
          refine hcondition.andThen fun v w hvw => ?_
          rw [hvw.isTruthy]
          by_cases htruthy : w.isTruthy = true
          · rw [if_pos htruthy, if_pos htruthy]
            exact hthen
          · rw [if_neg htruthy, if_neg htruthy]
            exact helse
      | call name args =>
          have hargs : ∀ a ∈ args, Follows pairing.faults pairing.view.Alike
              (pairing.left.evalAt scope budget a).outcome
              (pairing.right.evalAt scope' (budget + pairing.slack) a).outcome := fun a ha =>
            ih fun x hx => he x (by simp [Expr.parts, Expr.mem_partsArgs ha hx])
          rw [Engine.evalAt, Engine.evalAt]
          refine (follows_guardKey hstep.ordinary name).andThen fun _ _ hdenied => ?_
          refine (follows_mapM hargs).andThen fun vs ws hvs => ?_
          exact follows_callAt hstep budget (hself hdenied) hvs

end Steps

section Bounds

variable {pairing : Pairing} (hstep : pairing.InStep)
include hstep

/-- Expressions are evaluated in step within the bounds of both engines. -/
theorem follows_eval {scope scope' : Scope} (hscopes : pairing.AlikeScopes scope scope') {e : Expr}
    (he : ∀ x ∈ e.parts, pairing.Admits x) :
    Follows pairing.faults pairing.view.Alike (pairing.left.eval scope e).outcome
      (pairing.right.eval scope' e).outcome := by
  rw [Engine.eval, Engine.eval, hstep.maxDepth_right]
  exact follows_evalAt hstep.paced hscopes _ he

/-- Functions are called in step within the bounds of both engines. -/
theorem follows_call {name : String} (hname : pairing.Callable name) {args args' : List Value}
    (h : List.Forall₂ pairing.view.Alike args args') :
    Follows pairing.faults pairing.view.Alike (pairing.left.call name args).outcome
      (pairing.right.call name args').outcome := by
  rw [Engine.call, Engine.call, hstep.maxDepth_right]
  exact follows_callAt hstep.paced _ hname h

end Bounds

end FieldLang

import FieldLang.Proofs.PipelineLockstep

/-!
# The Sandbox

Three keys are denied to expressions, and this module says what that achieves.

What is stored under a denied key cannot influence a run. Two runs over data that differ only there
have like values, or the same fault. One thing would tell such data apart: comparing the structure
of whole objects, by `==` and `!=` or by the three built-in functions that look for an element. So
the programs meant here do without them, and no reference to one of these functions is lying about
in the data.

A function of the host that is registered under a denied name cannot be reached by an expression. A
name in an expression is guarded, but a callback is called by the name that a reference in the data
holds, and that call is not. What protects it is that references are only made from guarded names of
functions that exist. So all references stay valid as long as those in the data are, no callback
fails because its function is missing, and what is registered under denied names does not matter.

## Main definitions

* `comparisonNames`: The functions that compare the structure of values.
* `View.undenied`: The view that leaves out what is under denied keys.
* `Expr.IsBlind`, `Computed.IsBlind`: What compares no structure and names no function that does.
* `Value.IsBlind`: Values that show no reference to such a function.
* `HostFunction.Overlooks`: Functions of the host that treat values alike which differ under denied
  keys only.
* `HostFunction.Withholds`: Functions of the host that hand out no reference to a function that
  compares structure.
* `Engine.Allows`: Functions that a reference may be to.

## Theorems

* `denied_keys_do_not_interfere`: What is under denied keys does not influence a run.
* `references_stay_allowed`: References stay valid, and functions under denied names out of reach.
-/

namespace FieldLang

/-- The functions that compare the structure of values. -/
def comparisonNames : List String :=
  ["includes", "indexOf", "lastIndexOf"]

theorem mem_comparisonNames {name : String} {b : Builtin} (h : Builtin.ofName? name = some b)
    (hb : b.isComparison = true) : name ∈ comparisonNames := by
  rw [← Builtin.name_of_ofName? h]
  cases b with
  | includes => decide
  | indexOf => decide
  | lastIndexOf => decide
  | _ => cases hb

section Interference

/-- The view that leaves out what is under denied keys, in data without references to functions that
    compare structure. -/
def View.undenied : View where
  skips := isDenied
  refers name := name ∉ comparisonNames
  isDenied_of_skips _ h := h

/-- A value that shows no reference to a function that compares structure. -/
def Value.IsBlind (v : Value) : Prop :=
  ∀ name ∈ (v.prune isDenied).references, name ∉ comparisonNames

/-- The function maps values that differ under denied keys only to such values, or to the same
    fault. What it does with a reference to a function that compares structure is its own affair. -/
def HostFunction.Overlooks (function : HostFunction) : Prop :=
  ∀ args args', (∀ v ∈ args, v.IsBlind) →
    List.Forall₂ (fun v w => v.prune isDenied = w.prune isDenied) args args' →
    Follows (.strict FunctionError) (fun v w => v.prune isDenied = w.prune isDenied)
      (function args) (function args')

/-- The function hands out no reference to a function that compares structure, if it is given
    none. -/
def HostFunction.Withholds (function : HostFunction) : Prop :=
  ∀ args, (∀ v ∈ args, v.IsBlind) → ∀ v, function args = .ok v → v.IsBlind

/-- The two together are what a run asks of a function of the host. -/
theorem respects_undenied {function : HostFunction} (hoverlooks : function.Overlooks)
    (hwithholds : function.Withholds) : function.Respects .undenied := by
  intro args args' hargs
  have hboth : List.Forall₂ (fun v w => v.IsBlind ∧ v.prune isDenied = w.prune isDenied) args args' :=
    hargs.imp fun _ _ hvw => hvw.symm
  rcases (List.forall₂_and_left _ _).mp hboth with ⟨hblind, hrelated⟩
  have hresults := hoverlooks args args' hblind hrelated
  cases hresult : function args with
  | ok v =>
      rw [hresult] at hresults
      rcases hresults with ⟨w, hw, hvw⟩
      rw [hw]
      exact .ok ⟨hvw, hwithholds args hblind v hresult⟩
  | error e =>
      rw [hresult] at hresults
      exact hresults

/-- What compares no structure and names no function that does, its parts aside. -/
def Expr.IsBlind : Expr → Prop
  | .literal v => ∀ name ∈ v.references, name ∉ comparisonNames
  | .identifier name => name ∉ comparisonNames
  | .binary op _ _ => op ≠ .equal ∧ op ≠ .notEqual
  | .call name _ => name ∉ comparisonNames
  | _ => True

/-- The same for computed fields. -/
def Computed.IsBlind : Computed → Prop
  | .source e => ∀ x ∈ e.parts, x.IsBlind
  | .literal v => ∀ name ∈ v.references, name ∉ comparisonNames
  | .call name _ => name ∉ comparisonNames
  | .pipeline p => ∀ x ∈ p.parts, x.IsBlind
  | _ => True

/-- Two engines that differ only in what their variables hold under denied keys. -/
def Pairing.undenied (left right : Engine) : Pairing where
  left := left
  right := right
  view := .undenied
  faults := .strict EvalError
  slack := 0

variable {left right : Engine} (hfunctions : right.functions = left.functions)
  (hhost : ∀ name function, Keyed.get? name left.functions = some function →
    function.Respects .undenied)
include hfunctions

theorem referable_undenied {name : String} (hname : name ∉ comparisonNames) :
    (Pairing.undenied left right).Referable name := by
  refine Pairing.referable_of_eq (fun _ _ => trivial) ?_ fun _ => hname
  unfold Pairing.undenied Engine.hasFunction
  rw [hfunctions]

include hhost

theorem callable_undenied {name : String} (hname : name ∉ comparisonNames) :
    (Pairing.undenied left right).Callable name where
  exact_of_comparison _ hb hcompare := absurd (mem_comparisonNames hb hcompare) hname
  follows_host _ _ _ h :=
    follows_callHost (fun _ _ => trivial) (congrArg (Keyed.get? name) hfunctions) (hhost name)
      (fun _ => trivial) h

theorem inStep_undenied (hdepth : right.maxDepth = left.maxDepth) :
    (Pairing.undenied left right).InStep where
  ordinary _ _ := trivial
  maxDepth_right := hdepth
  excused_of_slack h := absurd rfl h
  callable_of_refers _ hname := callable_undenied hfunctions hhost hname

/-- Parts of expressions without comparisons are the same in both engines. -/
theorem admits_of_isBlind {e : Expr} (h : e.IsBlind) : (Pairing.undenied left right).Admits e := by
  -- Only these parts bring something in; the others are as their parts are.
  cases e with
  | literal v => exact .self h
  | identifier name => exact fun _ => referable_undenied hfunctions h
  | binary op lhs rhs =>
      intro hop
      cases op with
      | equal => exact absurd rfl h.1
      | notEqual => exact absurd rfl h.2
      | _ => cases hop
  | call name args => exact fun _ => callable_undenied hfunctions hhost h
  | _ => trivial

theorem admitsField_of_isBlind {c : Computed} (h : c.IsBlind) :
    (Pairing.undenied left right).AdmitsField c := by
  cases c with
  | source e => exact fun x hx => admits_of_isBlind hfunctions hhost (h x hx)
  | literal v => exact .self h
  | call name args => exact callable_undenied hfunctions hhost h
  | pipeline p => exact fun x hx => admits_of_isBlind hfunctions hhost (h x hx)
  | _ => trivial

end Interference

/-- What is stored under denied keys does not influence a run: over data that is otherwise the same,
    what compares no structure has like values, or the same fault. Functions of the host count as
    part of the data: they treat such data alike, and hand out no reference to a function that
    compares structure. -/
theorem denied_keys_do_not_interfere (left right : Engine) (scope scope' : Scope)
    (hdepth : right.maxDepth = left.maxDepth) (hfunctions : right.functions = left.functions)
    (hoverlooks : ∀ name function, Keyed.get? name left.functions = some function →
      function.Overlooks)
    (hwithholds : ∀ name function, Keyed.get? name left.functions = some function →
      function.Withholds)
    (hglobals : View.undenied.AlikeTables left.globals right.globals)
    (hscopes : List.Forall₂ View.undenied.AlikeTables scope scope') :
    (∀ e : Expr, (∀ x ∈ e.parts, x.IsBlind) →
      Follows (.strict EvalError) View.undenied.Alike (left.eval scope e).outcome
        (right.eval scope' e).outcome) ∧
    (∀ p : Pipeline, (∀ x ∈ p.parts, x.IsBlind) →
      Follows (.strict PipelineError) View.undenied.Alike (left.runPipeline scope p).outcome
        (right.runPipeline scope' p).outcome) ∧
    (∀ c : Computed, (∀ x ∈ c.parts, x.IsBlind) →
      Follows (.strict PipelineError) View.undenied.Alike (c.eval left scope).outcome
        (c.eval right scope').outcome) := by
  have hhost := fun name function hfunction =>
    respects_undenied (hoverlooks name function hfunction) (hwithholds name function hfunction)
  have hstep := inStep_undenied hfunctions hhost hdepth
  have halike : (Pairing.undenied left right).AlikeScopes scope scope' :=
    alikeScopes_of_tables hglobals hscopes
  have hadmits := fun (e : Expr) (he : e.IsBlind) => admits_of_isBlind hfunctions hhost he
  -- Expressions, pipelines and computed fields are evaluated in step by the same engines.
  rw [← inPipeline_strict]
  refine ⟨fun e he => ?_, fun p hp => ?_, fun c hc => ?_⟩
  · exact follows_eval hstep halike fun x hx => hadmits x (he x hx)
  · exact follows_runPipeline hstep halike fun x hx => hadmits x (hp x hx)
  · exact follows_computed hstep halike c fun x hx =>
      admitsField_of_isBlind hfunctions hhost (hc x hx)

section Hidden

/-- An engine with one user, something hidden under a denied key of it, and a function of the host
    that hands back its argument. -/
def usersEngine (hidden : Value) : Engine where
  globals := [("users", .array [.object [("name", .string "ann"), ("constructor", hidden)]])]
  functions := [("same", fun args => .ok (Builtin.argument args 0))]
  maxDepth := 8

/-- The call `same(users)`. -/
def sameUsers : Expr :=
  .call "same" [.identifier "users"]

/-- The pipeline `users | map(user => user.name)`. -/
def userNames : Pipeline :=
  ⟨"users", .map (some ⟨["user"], .member (.identifier "user") "name"⟩), []⟩

theorem alikeTables_usersEngine (hidden hidden' : Value) :
    View.undenied.AlikeTables (usersEngine hidden).globals (usersEngine hidden').globals := by
  have hdenied : isDenied "constructor" = true := by decide
  have hname : isDenied "name" = false := by decide
  have husers : isDenied "users" = false := by decide
  -- What is hidden is gone from both tables, and nothing else differs.
  unfold View.AlikeTables View.Alike View.undenied usersEngine
  simp [Value.prune, Value.pruneItems, Value.pruneFields, Value.references, Value.itemReferences,
    Value.fieldReferences, hdenied, hname, husers]

theorem overlooks_usersEngine (hidden : Value) (name : String) (function : HostFunction)
    (h : Keyed.get? name (usersEngine hidden).functions = some function) : function.Overlooks := by
  unfold usersEngine at h
  rw [Keyed.get?] at h
  split at h
  · cases h
    intro args args' _ hargs
    -- The same place of both lists is handed back, or nothing where there is none.
    refine .ok ?_
    cases hargs with
    | nil => rfl
    | cons hfirst _ => exact hfirst
  · cases h

theorem withholds_usersEngine (hidden : Value) (name : String) (function : HostFunction)
    (h : Keyed.get? name (usersEngine hidden).functions = some function) : function.Withholds := by
  unfold usersEngine at h
  rw [Keyed.get?] at h
  split at h
  · cases h
    intro args hargs v hv
    cases hv
    cases args with
    | nil =>
      intro _ hname
      cases hname
    | cons first rest => exact hargs first (by simp)
  · cases h

/-- Where it is hidden, a reference to a function that compares structure makes no difference. -/
theorem hidden_reference_does_not_interfere :
    (usersEngine .null).globals ≠ (usersEngine (.function "includes")).globals ∧
    Follows (.strict EvalError) View.undenied.Alike ((usersEngine .null).eval [] sameUsers).outcome
      ((usersEngine (.function "includes")).eval [] sameUsers).outcome ∧
    Follows (.strict PipelineError) View.undenied.Alike
      ((usersEngine .null).runPipeline [] userNames).outcome
      ((usersEngine (.function "includes")).runPipeline [] userNames).outcome ∧
    Follows (.strict PipelineError) View.undenied.Alike
      ((Computed.call "same" [.pipeline userNames]).eval (usersEngine .null) []).outcome
      ((Computed.call "same" [.pipeline userNames]).eval
        (usersEngine (.function "includes")) []).outcome := by
  have hruns := denied_keys_do_not_interfere (usersEngine .null) (usersEngine (.function "includes"))
    [] [] rfl rfl (overlooks_usersEngine .null) (withholds_usersEngine .null)
    (alikeTables_usersEngine _ _) .nil
  have hnames : ∀ x ∈ userNames.parts, x.IsBlind := by
    simp [userNames, Pipeline.parts, Pipeline.stages, Stage.parts, Stage.expressions, Expr.parts,
      Expr.IsBlind, comparisonNames]
  refine ⟨?_, hruns.1 _ ?_, hruns.2.1 _ hnames, hruns.2.2 _ ?_⟩
  · simp [usersEngine]
  · simp [sameUsers, Expr.parts, Expr.partsArgs, Expr.IsBlind, comparisonNames]
  · simp only [Computed.parts, Computed.partsArgs, List.append_nil, List.mem_cons, List.not_mem_nil,
      or_false, forall_eq_or_imp, forall_eq]
    exact ⟨by simp [Computed.IsBlind, comparisonNames], hnames⟩

end Hidden

section References

/-- A reference to a function is valid if there is a function of that name, and the name is not
    denied. -/
def Engine.Allows (engine : Engine) (name : String) : Prop :=
  engine.hasFunction name = true ∧ isDenied name = false

/-- The exact view of values that refer to valid functions only. -/
def View.valid (engine : Engine) : View where
  skips _ := false
  refers := engine.Allows
  isDenied_of_skips _ h := by cases h

theorem exact_valid (engine : Engine) : (View.valid engine).Exact :=
  fun _ => rfl

/-- Values are alike in this view if they are equal and refer to valid functions only. -/
theorem alike_valid_iff {engine : Engine} {v w : Value} :
    (View.valid engine).Alike v w ↔ v = w ∧ ∀ name ∈ v.references, engine.Allows name :=
  (exact_valid engine).alike_iff

/-- A function of the host that hands out valid references only, if it is given such. -/
def Engine.Keeps (engine : Engine) (function : HostFunction) : Prop :=
  ∀ args, (∀ v ∈ args, ∀ name ∈ v.references, engine.Allows name) →
    ∀ v, function args = .ok v → ∀ name ∈ v.references, engine.Allows name

theorem respects_of_keeps {engine : Engine} {function : HostFunction} (h : engine.Keeps function) :
    function.Respects (.valid engine) :=
  (exact_valid engine).respects h

/-- An engine and another that differs in the functions under denied names, with an expression that
    both evaluate. That a function is missing may be said of functions that the expression calls. -/
def Pairing.valid (left right : Engine) (e : Expr) : Pairing where
  left := left
  right := right
  view := .valid left
  faults := {
    excused := fun _ => False
    shared := fun fault => ∀ name, fault = .undefinedFunction name →
      left.hasFunction name = false ∧ ∃ args, .call name args ∈ e.parts
  }
  slack := 0

variable {left right : Engine} {e : Expr}
  (hsame : ∀ name, isDenied name = false →
    Keyed.get? name right.functions = Keyed.get? name left.functions)
  (hhost : ∀ name function, isDenied name = false →
    Keyed.get? name left.functions = some function → left.Keeps function)

theorem ordinary_valid : (Pairing.valid left right e).faults.Ordinary :=
  fun _ hfault name heq => absurd heq (hfault name)

include hsame

theorem referable_valid {name : String} (hdenied : isDenied name = false) :
    (Pairing.valid left right e).Referable name := by
  refine Pairing.referable_of_eq ordinary_valid ?_ fun hfunction => ⟨hfunction, hdenied⟩
  show (Builtin.isName name || (Keyed.get? name right.functions).isSome) = _
  rw [hsame name hdenied]
  rfl

include hhost

/-- A function under a name that is not denied can be called, unless it may neither be missing nor
    is there. -/
theorem callable_valid {name : String} (hdenied : isDenied name = false)
    (hmissing : left.hasFunction name = false → ∃ args, .call name args ∈ e.parts) :
    (Pairing.valid left right e).Callable name where
  exact_of_comparison _ _ _ := exact_valid left
  follows_host hb _ _ h := by
    refine follows_callHost ordinary_valid (hsame name hdenied)
      (fun function hfunction => respects_of_keeps (hhost name function hdenied hfunction))
      (fun hnone other heq => ?_) h
    cases heq
    -- No function of either kind has the name, so the fault must be one that the expression may
    -- cause.
    have hfunction : left.hasFunction name = false := by
      unfold Engine.hasFunction Builtin.isName Keyed.contains
      rw [hb, hnone]
      rfl
    exact ⟨hfunction, hmissing hfunction⟩

theorem inStep_valid (hdepth : right.maxDepth = left.maxDepth) :
    (Pairing.valid left right e).InStep where
  ordinary := ordinary_valid
  maxDepth_right := hdepth
  excused_of_slack h := absurd rfl h
  callable_of_refers name hname := by
    refine callable_valid hsame hhost hname.2 fun hnone => ?_
    rw [hname.1] at hnone
    cases hnone

/-- The parts of an expression are the same in both engines if its literals refer to valid
    functions. -/
theorem admits_valid
    (hliterals : ∀ v, .literal v ∈ e.parts → ∀ name ∈ v.references, left.Allows name)
    {x : Expr} (hx : x ∈ e.parts) : (Pairing.valid left right e).Admits x := by
  -- A call may name a missing function, because then the expression itself calls it.
  cases x with
  | literal v => exact .self (hliterals v hx)
  | identifier name => exact fun hdenied => referable_valid hsame hdenied
  | binary op lhs rhs => exact fun _ => exact_valid left
  | call name args => exact fun hdenied => callable_valid hsame hhost hdenied fun _ => ⟨args, hx⟩
  | _ => trivial

end References

/-- Evaluation hands out references to valid functions only, if the data and the functions of the
    host do. Then it does not matter what is registered under denied names, and a function can be
    missing only where the expression itself calls it. -/
theorem references_stay_allowed (engine : Engine) (scope : Scope) (e : Expr)
    (hglobals : ∀ name ∈ Value.fieldReferences engine.globals, engine.Allows name)
    (hscope : ∀ table ∈ scope, ∀ name ∈ Value.fieldReferences table, engine.Allows name)
    (hliterals : ∀ v, .literal v ∈ e.parts → ∀ name ∈ v.references, engine.Allows name)
    (hhost : ∀ name function, isDenied name = false →
      Keyed.get? name engine.functions = some function → engine.Keeps function) :
    (∀ v, (engine.eval scope e).outcome = .ok v → ∀ name ∈ v.references, engine.Allows name) ∧
    (∀ other : Engine, other.globals = engine.globals → other.maxDepth = engine.maxDepth →
      (∀ name, isDenied name = false →
        Keyed.get? name other.functions = Keyed.get? name engine.functions) →
      (other.eval scope e).outcome = (engine.eval scope e).outcome) ∧
    (∀ name, (engine.eval scope e).outcome = .error (.undefinedFunction name) →
      engine.hasFunction name = false ∧ ∃ args, .call name args ∈ e.parts) := by
  -- The engine is compared with the other one, and with itself for what it says about one run.
  have hfollows : ∀ other : Engine, other.globals = engine.globals →
      other.maxDepth = engine.maxDepth →
      (∀ name, isDenied name = false →
        Keyed.get? name other.functions = Keyed.get? name engine.functions) →
      Follows (Pairing.valid engine other e).faults (View.valid engine).Alike
        (engine.eval scope e).outcome (other.eval scope e).outcome := by
    intro other hother hdepth hsame
    have halike : (Pairing.valid engine other e).AlikeScopes scope scope := by
      refine alikeScopes_of_tables ?_ (List.forall₂_same.mpr fun table htable => ?_)
      · show (View.valid engine).AlikeTables engine.globals other.globals
        rw [hother]
        exact .self hglobals
      · exact .self (hscope table htable)
    exact follows_eval (inStep_valid hsame hhost hdepth) halike fun x hx =>
      admits_valid hsame hhost hliterals hx
  have hself := hfollows engine rfl rfl fun _ _ => rfl
  refine ⟨fun v hv => ?_, fun other hother hdepth hsame => ?_, fun name hname => ?_⟩
  · rw [hv] at hself
    rcases hself with ⟨w, _, hvw⟩
    exact (alike_valid_iff.mp hvw).2
  · have heq := (hfollows other hother hdepth hsame).eq (fun _ => id) fun _ _ hvw =>
      (alike_valid_iff.mp hvw).1
    exact heq.symm
  · rw [hname] at hself
    rcases hself with hself | ⟨_, hshared⟩
    · cases hself
    · exact hshared name rfl

section OutOfReach

/-- The engine with a user and another function, registered under a denied name. -/
def trappedEngine : Engine :=
  { usersEngine .null with
    functions := ("constructor", fun _ => .ok (.function "prototype")) ::
      (usersEngine .null).functions }

/-- The call `map(users, same)`. -/
def mapSame : Expr :=
  .call "map" [.identifier "users", .identifier "same"]

theorem keeps_trappedEngine (name : String) (function : HostFunction)
    (hdenied : isDenied name = false)
    (h : Keyed.get? name trappedEngine.functions = some function) :
    trappedEngine.Keeps function := by
  unfold trappedEngine usersEngine at h
  rw [Keyed.get?, Keyed.get?] at h
  split at h
  · rename_i hname
    rw [← hname] at hdenied
    cases hdenied
  · split at h
    · cases h
      intro args hargs v hv
      cases hv
      unfold Builtin.argument
      cases hfirst : args[0]? with
      | none => simp [Value.references]
      | some v => exact hargs v (List.mem_of_getElem? hfirst)
    · cases h

/-- The function under the denied name may as well be missing, though it would hand out references
    that are not valid. -/
theorem trapped_function_out_of_reach :
    (∀ v, (trappedEngine.eval [] mapSame).outcome = .ok v →
      ∀ name ∈ v.references, trappedEngine.Allows name) ∧
    ((usersEngine .null).eval [] mapSame).outcome = (trappedEngine.eval [] mapSame).outcome := by
  have hrefers := references_stay_allowed trappedEngine [] mapSame
    (by simp [trappedEngine, usersEngine, Value.fieldReferences, Value.references,
      Value.itemReferences])
    (by simp) (by simp [mapSame, Expr.parts, Expr.partsArgs]) keeps_trappedEngine
  refine ⟨hrefers.1, hrefers.2.1 (usersEngine .null) rfl rfl fun name hdenied => ?_⟩
  have hname : "constructor" ≠ name := by
    rintro rfl
    cases hdenied
  exact (if_neg hname).symm

end OutOfReach

end FieldLang

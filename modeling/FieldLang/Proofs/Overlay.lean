import FieldLang.Proofs.SameFunctions

/-!
# Scopes as an Overlay

A scope is nothing but variables laid over those of the engine. The tables of a scope can be written
into the variables, the outermost first and the innermost last, and the scope be dropped: every
expression, pipeline and computed field has the same outcome as before.

Names are looked up in two places, for expressions and for the source paths of pipelines, and
lambdas put further tables on top of a scope. All of them see a scope only by what is bound to a
name in it and in the engine together, and this stays the same. The rest is the comparison of two
runs in engines with the same functions.

A table has each name once, as a table has that is built by insertion. Of a name that occurred twice
a lookup would find the first entry, and writing the entries into the variables would keep the last.

## Main definitions

* `Scope.layOver`: Variables with the tables of a scope written over them.
* `Engine.absorb`: The engine with these variables.
* `Engine.setGlobals`: The engine with the entries of a table set as variables.
* `Pairing.absorbed`: An engine over a scope, and the engine that has absorbed it.

## Theorems

* `get?_layOver`: What is laid over variables is found before them.
* `alikeScopes_absorbed`: The same values are bound to names before and after.
* `eval_absorb`, `runPipeline_absorb`, `computed_absorb`, `run_absorb`: So outcomes are the same.
* `scope_is_overlay`: All of this together.
-/

namespace FieldLang

/-- Variables with the tables of a scope written over them, the innermost last. -/
def Scope.layOver : Scope → Keyed Value → Keyed Value
  | [], globals => globals
  | bindings :: outer, globals => Keyed.override (Scope.layOver outer globals) bindings

namespace Engine

/-- The engine with the tables of a scope written over its variables. -/
def absorb (engine : Engine) (scope : Scope) : Engine :=
  { engine with globals := scope.layOver engine.globals }

/-- The engine with the entries of a table set as variables, one after the other. -/
def setGlobals (engine : Engine) (table : Keyed Value) : Engine :=
  table.foldl (fun engine entry => engine.setGlobal entry.1 entry.2) engine

/-- Setting entries one after the other writes the whole table over the variables. -/
theorem setGlobals_eq_absorb (engine : Engine) (table : Keyed Value) :
    engine.setGlobals table = engine.absorb [table] := by
  induction table generalizing engine with
  | nil => rfl
  | cons entry rest ih => exact ih (engine.setGlobal entry.1 entry.2)

end Engine

/-- An engine over a scope, and the engine that has absorbed the scope. -/
def Pairing.absorbed (engine : Engine) (scope : Scope) : Pairing where
  left := engine
  right := engine.absorb scope
  view := .whole
  faults := .strict EvalError
  slack := 0

theorem sameFunctions_absorbed (engine : Engine) (scope : Scope) :
    (Pairing.absorbed engine scope).SameFunctions where
  view_eq := rfl
  functions_eq := rfl
  shared _ := trivial

theorem inStep_absorbed (engine : Engine) (scope : Scope) :
    (Pairing.absorbed engine scope).InStep where
  ordinary _ _ := trivial
  maxDepth_right := rfl
  excused_of_slack hslack := absurd rfl hslack
  callable_of_refers name _ := (sameFunctions_absorbed engine scope).callable name

/-- Outcomes in step without exception, with nothing left out of sight, are the same. -/
theorem Follows.eq_of_whole {ε : Type} {x y : Except ε Value}
    (h : Follows (.strict ε) View.whole.Alike x y) : x = y :=
  h.eq (fun _ => id) fun _ _ => exact_whole.eq_of_alike

section Overlay

variable {scope : Scope} (hscope : ∀ bindings ∈ scope, (Keyed.keys bindings).Nodup)
include hscope

/-- What is laid over variables is found before them. -/
theorem get?_layOver (globals : Keyed Value) (name : String) :
    Keyed.get? name (scope.layOver globals) =
      (scope.lookup? name).or (Keyed.get? name globals) := by
  induction scope with
  | nil => rfl
  | cons bindings outer ih =>
      rw [List.forall_mem_cons] at hscope
      -- The innermost table is laid over last, so it is asked first.
      rw [Scope.layOver, Keyed.get?_override hscope.1, ih hscope.2, Scope.lookup?, Option.or_assoc]

/-- Once a scope is absorbed, what was bound to a name in it is a variable. -/
theorem alikeScopes_absorbed (engine : Engine) :
    (Pairing.absorbed engine scope).AlikeScopes scope [] :=
  (sameFunctions_absorbed engine scope).transparent.alikeScopes fun name =>
    (get?_layOver hscope engine.globals name).symm

theorem eval_absorb (engine : Engine) (e : Expr) :
    (engine.eval scope e).outcome = ((engine.absorb scope).eval [] e).outcome := by
  have hfollows := follows_eval (inStep_absorbed engine scope) (alikeScopes_absorbed hscope engine)
    (e := e) fun x _ => (sameFunctions_absorbed engine scope).transparent.admits x
  exact hfollows.eq_of_whole

theorem runPipeline_absorb (engine : Engine) (p : Pipeline) :
    (engine.runPipeline scope p).outcome = ((engine.absorb scope).runPipeline [] p).outcome := by
  have hfollows := follows_runPipeline (inStep_absorbed engine scope)
    (alikeScopes_absorbed hscope engine) (p := p) fun x _ =>
      (sameFunctions_absorbed engine scope).transparent.admits x
  -- In a pipeline the faults of expressions are wrapped, which keeps them shared.
  exact Follows.eq_of_whole (inPipeline_strict ▸ hfollows)

theorem computed_absorb (engine : Engine) (c : Computed) :
    (c.eval engine scope).outcome = (c.eval (engine.absorb scope) []).outcome := by
  have hfollows := follows_computed (inStep_absorbed engine scope)
    (alikeScopes_absorbed hscope engine) c fun x _ =>
      (sameFunctions_absorbed engine scope).transparent.admitsField x
  exact Follows.eq_of_whole (inPipeline_strict ▸ hfollows)

/-- A source text is read under the same bound, so it has the same outcome as well. -/
theorem run_absorb (engine : Engine) (source : String) :
    (engine.run scope source).outcome = ((engine.absorb scope).run [] source).outcome := by
  unfold Engine.run
  simp only [Traced.outcome_bind, eval_absorb hscope engine]
  rfl

end Overlay

/-- A scope is an overlay on the variables. Expressions, pipelines and computed fields have the same
    outcome over a scope as in the engine whose variables were overridden by the tables of the
    scope, the innermost last. A report on a source text with further variables is the report after
    these have been set. -/
theorem scope_is_overlay (engine : Engine) (scope : Scope)
    (hscope : ∀ bindings ∈ scope, (Keyed.keys bindings).Nodup) :
    (∀ e, (engine.eval scope e).outcome = ((engine.absorb scope).eval [] e).outcome) ∧
    (∀ p, (engine.runPipeline scope p).outcome =
      ((engine.absorb scope).runPipeline [] p).outcome) ∧
    (∀ c : Computed, (c.eval engine scope).outcome =
      (c.eval (engine.absorb scope) []).outcome) ∧
    (∀ table source, (Keyed.keys table).Nodup →
      engine.evaluateWith table source = (engine.setGlobals table).evaluate source) := by
  refine ⟨eval_absorb hscope engine, runPipeline_absorb hscope engine,
    computed_absorb hscope engine, ?_⟩
  intro table source htable
  -- Further variables are a scope of one table.
  rw [engine.setGlobals_eq_absorb table]
  unfold Engine.evaluateWith Engine.evaluate
  rw [run_absorb (List.forall_mem_singleton.mpr htable) engine source]

section Shadows

/-- An engine with two variables, and without functions of the host. -/
def flagsEngine : Engine :=
  .ofGlobals [("flags", .array [.bool true, .null]), ("extra", .null)]

/-- Two tables of which the inner one unsets `flags` and the outer one gives `length` a value. -/
def shadows : Scope :=
  [[("flags", .undefined)], [("length", .bool true), ("flags", .null)]]

/-- A binding to the undefined value hides a variable, and a binding hides a function of its name.
    Absorbed, they replace the variable and become one. -/
theorem shadows_absorbed :
    (∀ bindings ∈ shadows, (Keyed.keys bindings).Nodup) ∧
    (flagsEngine.absorb shadows).globals =
      [("flags", .undefined), ("extra", .null), ("length", .bool true)] ∧
    (flagsEngine.eval shadows (.binary .coalesce (.identifier "flags")
      (.identifier "length"))).outcome = .ok (.bool true) ∧
    ((flagsEngine.absorb shadows).eval [] (.binary .coalesce (.identifier "flags")
      (.identifier "length"))).outcome = .ok (.bool true) ∧
    ((flagsEngine.absorb shadows).runPipeline [] ⟨"flags", .map none, []⟩).outcome =
      .error (.expectedArray "undefined") ∧
    flagsEngine.evaluateWith [("extra", .bool true)] "extra ? flags[0] : extra" =
      (flagsEngine.setGlobals [("extra", .bool true)]).evaluate "extra ? flags[0] : extra" := by
  have hshadows : ∀ bindings ∈ shadows, (Keyed.keys bindings).Nodup := by decide
  have h := scope_is_overlay flagsEngine shadows hshadows
  -- The undefined binding hides the array, and the other one the function.
  have heval : (flagsEngine.eval shadows (.binary .coalesce (.identifier "flags")
      (.identifier "length"))).outcome = .ok (.bool true) := rfl
  have hrun : (flagsEngine.runPipeline shadows ⟨"flags", .map none, []⟩).outcome =
      .error (.expectedArray "undefined") := rfl
  refine ⟨hshadows, rfl, heval, ?_, ?_, ?_⟩
  · rw [← h.1, heval]
  · rw [← h.2.1, hrun]
  · exact h.2.2.2 _ _ (by decide)

end Shadows

end FieldLang

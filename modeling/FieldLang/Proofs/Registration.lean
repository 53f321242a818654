import FieldLang.Proofs.SameFunctions

/-!
# Registering Functions

What the registration of a function can change. A name that belongs to no function is looked up in
three places: where it stands for itself in an expression, where it is called, and where a reference
in the data names a callback. Without the function each of them ends in one of two faults, that the
variable or the function of this name is missing. No form of the language recovers from a fault, so
a run in which the name is looked up in vain ends in one of the two. Every other run is the same
after the registration.

This is a comparison of two engines in which only that name behaves differently, and the two faults
are excused.

## Main definitions

* `EvalError.Misses`: The faults of looking up a name in vain.
* `Faults.ofMissing`: The rule that excuses them.
* `Pairing.registered`: An engine before and after a registration.

## Theorems

* `callable_registered`, `referable_registered`: Functions and names behave alike, or are missed.
* `Follows.eq_or_misses`: Outcomes that follow each other up to these faults.
* `registration_is_conservative`: Registering a function changes nothing but these faults.
-/

namespace FieldLang

/-- A name was looked up in vain. -/
def EvalError.Misses (name : String) (e : EvalError) : Prop :=
  e = .undefinedVariable name ∨ e = .undefinedFunction name

/-- Looking up a name in vain is excused. -/
def Faults.ofMissing (name : String) : Faults EvalError where
  excused := EvalError.Misses name
  shared _ := True

/-- The engine with a function put under a name. -/
def Engine.withFunction (engine : Engine) (name : String) (function : HostFunction) : Engine :=
  { engine with functions := Keyed.insert name function engine.functions }

/-- An engine before and after a function is put under a name. -/
def Pairing.registered (engine : Engine) (name : String) (function : HostFunction) : Pairing where
  left := engine
  right := engine.withFunction name function
  view := .whole
  faults := .ofMissing name
  slack := 0

section Registered

variable {engine : Engine} {name : String} (hnew : engine.hasFunction name = false)
include hnew

theorem get?_of_not_hasFunction : Keyed.get? name engine.functions = none := by
  unfold Engine.hasFunction Keyed.contains at hnew
  rw [Bool.or_eq_false_iff, Option.isSome_eq_false_iff, Option.isNone_iff_eq_none] at hnew
  exact hnew.2

variable (function : HostFunction)

/-- Every function behaves the same after the registration, except that the new one was missed
    before. -/
theorem callable_registered (other : String) :
    (Pairing.registered engine name function).Callable other where
  exact_of_comparison _ _ _ := exact_whole
  follows_host _ args args' hargs := by
    -- Under the new name the first engine misses the function, which is excused. No other name
    -- changes.
    by_cases hother : other = name
    · subst hother
      have hmissed : engine.callHost other args = .error (.undefinedFunction other) := by
        rw [Engine.callHost, get?_of_not_hasFunction hnew]
      show Follows (.ofMissing other) View.whole.Alike (engine.callHost other args) _
      rw [hmissed]
      exact .excused (Or.inr rfl)
    · refine follows_callHost (fun _ _ => trivial) (Keyed.get?_insert_of_ne hother ..)
        (fun _ _ => exact_whole.respects fun _ _ _ _ _ _ => trivial) (fun _ => trivial) hargs

/-- Every name refers to the same function after the registration, except that the new one was
    missed before. -/
theorem referable_registered (other : String) :
    (Pairing.registered engine name function).Referable other := by
  by_cases hother : other = name
  · subst hother
    have hmissed : engine.reference other = .error (.undefinedVariable other) := by
      rw [Engine.reference, hnew]
      rfl
    show Follows (.ofMissing other) View.whole.Alike (engine.reference other) _
    rw [hmissed]
    exact .excused (Or.inl rfl)
  · refine Pairing.referable_of_eq (fun _ _ => trivial) ?_ fun _ => trivial
    show (Builtin.isName other || Keyed.contains other (Keyed.insert name function _)) =
      (Builtin.isName other || Keyed.contains other engine.functions)
    unfold Keyed.contains
    rw [Keyed.get?_insert_of_ne hother]

theorem transparent_registered : (Pairing.registered engine name function).Transparent where
  view_eq := rfl
  callable := callable_registered hnew function
  referable := referable_registered hnew function

theorem inStep_registered : (Pairing.registered engine name function).InStep where
  ordinary _ _ := trivial
  maxDepth_right := rfl
  excused_of_slack hslack := absurd rfl hslack
  callable_of_refers other _ := callable_registered hnew function other

end Registered

namespace Follows

variable {name : String}

/-- Outcomes that follow each other up to a missing name are the same, or the name was missed. -/
theorem eq_or_misses {x y : Except EvalError Value}
    (h : Follows (.ofMissing name) View.whole.Alike x y) :
    y = x ∨ ∃ e, x = .error e ∧ e.Misses name := by
  rcases h.eq_or_excused fun _ _ => exact_whole.eq_of_alike with heq | hmissed
  · exact Or.inl heq.symm
  · exact Or.inr hmissed

/-- The same for pipelines and computed fields. -/
theorem eq_or_misses_inPipeline {x y : Except PipelineError Value}
    (h : Follows (Faults.ofMissing name).inPipeline View.whole.Alike x y) :
    y = x ∨ ∃ e, x = .error (.expression e) ∧ e.Misses name := by
  rcases h.eq_or_excused fun _ _ => exact_whole.eq_of_alike with heq | ⟨fault, hfault, hexcused⟩
  · exact Or.inl heq.symm
  · -- Only a fault of an expression can be excused.
    cases fault with
    | expression e => exact Or.inr ⟨e, hfault, hexcused⟩
    | _ => exact hexcused.elim

end Follows

/-- A source text is read, and the expression evaluated. -/
theorem outcome_run (engine : Engine) (scope : Scope) (source : String) :
    (engine.run scope source).outcome =
      (Expr.parseWithin engine.maxDepth source).mapError .parse >>= fun e =>
        (engine.eval scope e).outcome :=
  Traced.outcome_bind ..

/-- A pipeline given as text is planned, and then run. -/
theorem outcome_runSource (engine : Engine) (source : String) :
    (engine.runSource source).outcome =
      Pipeline.planSource source >>= fun plan => (engine.runPipeline [] plan.pipeline).outcome :=
  Traced.outcome_bind ..

section Outcomes

variable {engine : Engine} {name : String} (hnew : engine.hasFunction name = false)
  (function : HostFunction)
include hnew

theorem alikeScopes_registered (scope : Scope) :
    (Pairing.registered engine name function).AlikeScopes scope scope :=
  (transparent_registered hnew function).alikeScopes fun _ => rfl

theorem eval_registered (scope : Scope) (e : Expr) :
    ((engine.withFunction name function).eval scope e).outcome = (engine.eval scope e).outcome ∨
      ∃ fault, (engine.eval scope e).outcome = .error fault ∧ fault.Misses name := by
  have hfollows := follows_eval (inStep_registered hnew function)
    (alikeScopes_registered hnew function scope) (e := e) fun x _ =>
      (transparent_registered hnew function).admits x
  exact hfollows.eq_or_misses

/-- A text is read under the same bound, and what is no expression is the same fault as before. -/
theorem run_registered (scope : Scope) (source : String) :
    ((engine.withFunction name function).run scope source).outcome =
        (engine.run scope source).outcome ∨
      ∃ fault, (engine.run scope source).outcome = .error fault ∧ fault.Misses name := by
  have hbound : (engine.withFunction name function).maxDepth = engine.maxDepth := rfl
  rw [outcome_run, outcome_run, hbound]
  cases Expr.parseWithin engine.maxDepth source with
  | error e => exact Or.inl (show Except.error (EvalError.parse e) = .error (.parse e) from rfl)
  | ok e => exact eval_registered hnew function scope e

theorem call_registered (other : String) (args : List Value) :
    ((engine.withFunction name function).call other args).outcome =
        (engine.call other args).outcome ∨
      ∃ fault, (engine.call other args).outcome = .error fault ∧ fault.Misses name := by
  have hargs : List.Forall₂ View.whole.Alike args args :=
    List.forall₂_same.mpr fun v _ => alike_whole v
  have hfollows := follows_call (inStep_registered hnew function)
    (callable_registered hnew function other) hargs
  exact hfollows.eq_or_misses

theorem runPipeline_registered (scope : Scope) (p : Pipeline) :
    ((engine.withFunction name function).runPipeline scope p).outcome =
        (engine.runPipeline scope p).outcome ∨
      ∃ fault, (engine.runPipeline scope p).outcome = .error (.expression fault) ∧
        fault.Misses name := by
  have hfollows := follows_runPipeline (inStep_registered hnew function)
    (alikeScopes_registered hnew function scope) (p := p) fun x _ =>
      (transparent_registered hnew function).admits x
  exact hfollows.eq_or_misses_inPipeline

theorem runSource_registered (source : String) :
    ((engine.withFunction name function).runSource source).outcome =
        (engine.runSource source).outcome ∨
      ∃ fault, (engine.runSource source).outcome = .error (.expression fault) ∧
        fault.Misses name := by
  rw [outcome_runSource, outcome_runSource]
  cases Pipeline.planSource source with
  | error e => exact Or.inl (show Except.error e = .error e from rfl)
  | ok plan => exact runPipeline_registered hnew function [] plan.pipeline

theorem computed_registered (scope : Scope) (c : Computed) :
    (c.eval (engine.withFunction name function) scope).outcome = (c.eval engine scope).outcome ∨
      ∃ fault, (c.eval engine scope).outcome = .error (.expression fault) ∧
        fault.Misses name := by
  have hfollows := follows_computed (inStep_registered hnew function)
    (alikeScopes_registered hnew function scope) c fun x _ =>
      (transparent_registered hnew function).admitsField x
  exact hfollows.eq_or_misses_inPipeline

end Outcomes

/-- Registering a function is conservative. A name that belongs to no function can be registered,
    and afterwards expressions, source texts, calls, pipelines and computed fields have the outcome
    that they had before, unless that was the fault that the variable or the function of this name
    is missing. -/
theorem registration_is_conservative (engine : Engine) (name : String) (function : HostFunction)
    (hnew : engine.hasFunction name = false) :
    ∃ extended, engine.register name function = .ok extended ∧
      (∀ scope e, (extended.eval scope e).outcome = (engine.eval scope e).outcome ∨
        ∃ fault, (engine.eval scope e).outcome = .error fault ∧ fault.Misses name) ∧
      (∀ scope source, (extended.run scope source).outcome = (engine.run scope source).outcome ∨
        ∃ fault, (engine.run scope source).outcome = .error fault ∧ fault.Misses name) ∧
      (∀ other args, (extended.call other args).outcome = (engine.call other args).outcome ∨
        ∃ fault, (engine.call other args).outcome = .error fault ∧ fault.Misses name) ∧
      (∀ scope p, (extended.runPipeline scope p).outcome = (engine.runPipeline scope p).outcome ∨
        ∃ fault, (engine.runPipeline scope p).outcome = .error (.expression fault) ∧
          fault.Misses name) ∧
      (∀ source, (extended.runSource source).outcome = (engine.runSource source).outcome ∨
        ∃ fault, (engine.runSource source).outcome = .error (.expression fault) ∧
          fault.Misses name) ∧
      (∀ scope (c : Computed), (c.eval extended scope).outcome = (c.eval engine scope).outcome ∨
        ∃ fault, (c.eval engine scope).outcome = .error (.expression fault) ∧
          fault.Misses name) := by
  -- A name without a function is not that of a built-in function, so it can be registered.
  have hbuiltin : Builtin.isName name = false := by
    unfold Engine.hasFunction at hnew
    exact (Bool.or_eq_false_iff.mp hnew).1
  have hregister : engine.register name function = .ok (engine.withFunction name function) := by
    rw [Engine.register, hbuiltin]
    rfl
  exact ⟨_, hregister, eval_registered hnew function, run_registered hnew function,
    call_registered hnew function, runPipeline_registered hnew function,
    runSource_registered hnew function, computed_registered hnew function⟩

section Notices

/-- An engine without functions of the host, and with a reference to one that is not there. -/
def noticeEngine : Engine :=
  .ofGlobals [("ready", .bool true), ("names", .array [.null]), ("callback", .function "notify")]

/-- A function of the host that returns nothing. -/
def notify : HostFunction :=
  fun _ => .ok .undefined

/-- An expression that does not come to the missing function has the value that it had before. One
    that calls it, if only through a reference in the data, missed it before and has a value now. -/
theorem notify_registered :
    noticeEngine.hasFunction "notify" = false ∧
    ∃ extended, noticeEngine.register "notify" notify = .ok extended ∧
      (extended.eval [] (.conditional (.identifier "ready") (.identifier "names")
        (.call "notify" []))).outcome = .ok (.array [.null]) ∧
      (noticeEngine.eval [] (.call "map" [.identifier "names", .identifier "callback"])).outcome =
        .error (.undefinedFunction "notify") ∧
      (extended.eval [] (.call "map" [.identifier "names", .identifier "callback"])).outcome =
        .ok (.array [.undefined]) := by
  have hnew : noticeEngine.hasFunction "notify" = false := by decide
  rcases registration_is_conservative noticeEngine "notify" notify hnew with
    ⟨extended, hextended, heval, _⟩
  have hready : (noticeEngine.eval [] (.conditional (.identifier "ready") (.identifier "names")
      (.call "notify" []))).outcome = .ok (.array [.null]) := rfl
  refine ⟨hnew, extended, hextended, ?_, rfl, ?_⟩
  · -- The condition holds, so the branch that calls the function is not taken.
    rcases heval [] (.conditional (.identifier "ready") (.identifier "names")
      (.call "notify" [])) with hsame | ⟨fault, hfault, _⟩
    · rw [hsame, hready]
    · rw [hready] at hfault
      cases hfault
  · cases hextended
    rfl

end Notices

end FieldLang

import FieldLang.Proofs.Depth
import FieldLang.Proofs.Reading

/-!
# Computed Fields as Expressions

Conditionals, choices and calls in a computed field abbreviate expressions. `Computed.toExpr` writes
them out: a choice becomes a chain of conditionals, each of which compares the plain text of the
subject with a key. A computed field without pipelines then has the outcome of the expression.

The two are evaluated differently. A computed field starts every one of its expressions with the
full depth of the engine, whereas in the expression they are nested in each other and share it. So
the expression may run out of depth where the computed field does not; this is the only difference.
A choice evaluates its subject once and the chain does so in every test, which makes no difference
to the outcome.

The proof is a comparison of two runs in which a fault of depth of the first one is excused. That
the parts of an expression may be evaluated with more depth is a comparison as well, of an engine
with itself.

Two kinds of computed fields are left out besides pipelines. A call in an expression refuses a
denied name, and a choice without cases becomes an expression that does not evaluate the subject.

## Main definitions

* `Computed.toExpr`: The expression that a computed field abbreviates.
* `Computed.IsExpressible`: The parts of computed fields that expressions can stand for.
* `Pairing.nested`: An engine compared with itself, with more depth to spend.
* `Engine.Expresses`: An expression stands for a step of a computed field.
* `Computed.select`: The case that a choice takes.

## Theorems

* `follows_evalAt_of_le`, `follows_callAt_of_le`: More depth makes no difference but to the fault.
* `follows_caseTest`: What the test of a case finds out.
* `expresses_chain`: A chain of conditionals selects what the choice does.
* `expresses_toExpr`: Expressions stand for the computed fields that abbreviate them.
* `computed_means_expression`: A computed field has the outcome of its expression, if that does not
  run out of depth.
-/

namespace FieldLang

namespace Computed

/-- The test whether a subject has a key as its plain text. -/
def caseTest (subject : Expr) (key : String) : Expr :=
  .binary .equal (.call "toString" [subject]) (.literal (.string key))

mutual

/-- The expression that a computed field abbreviates. There is none for a pipeline. -/
def toExpr : Computed → Expr
  | .source e => e
  | .literal v => .literal v
  | .conditional condition thenBranch elseBranch =>
    .conditional condition.toExpr thenBranch.toExpr (toExprOption elseBranch)
  | .switch subject cases default => chain subject.toExpr (toExprOption default) cases
  | .call function args => .call function (toExprArgs args)
  | .pipeline _ => .literal .undefined

/-- The expression for a part that may be missing. -/
def toExprOption : Option Computed → Expr
  | none => .literal .undefined
  | some c => c.toExpr

/-- The chain of conditionals for the cases of a choice, in order. -/
def chain (subject otherwise : Expr) : List (String × Computed) → Expr
  | [] => otherwise
  | (key, c) :: rest =>
    .conditional (caseTest subject key) c.toExpr (chain subject otherwise rest)

/-- The expressions for arguments. -/
def toExprArgs : List Computed → List Expr
  | [] => []
  | c :: rest => c.toExpr :: toExprArgs rest

end

/-- An expression can stand for the form, its parts aside: no pipeline, no call of a denied name,
    and no choice without cases. -/
def IsExpressible : Computed → Prop
  | .switch _ cases _ => cases ≠ []
  | .call function _ => isDenied function = false
  | .pipeline _ => False
  | _ => True

instance : DecidablePred IsExpressible
  | .source _ => .isTrue trivial
  | .literal _ => .isTrue trivial
  | .conditional .. => .isTrue trivial
  | .switch _ cases _ => inferInstanceAs (Decidable (cases ≠ []))
  | .call function _ => inferInstanceAs (Decidable (isDenied function = false))
  | .pipeline _ => .isFalse id

/-- Induction over the forms of a computed field, with one hypothesis for all parts of a kind. -/
@[elab_as_elim]
theorem induction {motive : Computed → Prop} (source : ∀ e, motive (.source e))
    (literal : ∀ v, motive (.literal v))
    (conditional : ∀ condition thenBranch elseBranch, motive condition → motive thenBranch →
      (∀ c ∈ elseBranch, motive c) → motive (.conditional condition thenBranch elseBranch))
    (switch : ∀ subject cases default, motive subject → (∀ p ∈ cases, motive p.2) →
      (∀ c ∈ default, motive c) → motive (.switch subject cases default))
    (call : ∀ function args, (∀ c ∈ args, motive c) → motive (.call function args))
    (pipeline : ∀ p, motive (.pipeline p)) (c : Computed) : motive c :=
  @Computed.rec motive (fun x => ∀ c ∈ x, motive c) (fun cases => ∀ p ∈ cases, motive p.2)
    (fun args => ∀ c ∈ args, motive c) (fun p => motive p.2) source literal conditional switch call
    pipeline (by simp) (by simp) (by simp) (fun _ _ hp hps => List.forall_mem_cons.mpr ⟨hp, hps⟩)
    (by simp) (fun _ _ hc hcs => List.forall_mem_cons.mpr ⟨hc, hcs⟩) (fun _ _ hc => hc) c

theorem mem_partsCases {x : Computed} {p : String × Computed} {cases : List (String × Computed)}
    (hp : p ∈ cases) (hx : x ∈ p.2.parts) : x ∈ partsCases cases := by
  induction cases with
  | nil => cases hp
  | cons q rest ih =>
      rw [partsCases, List.mem_append]
      rcases List.mem_cons.mp hp with rfl | hp
      · exact Or.inl hx
      · exact Or.inr (ih hp)

theorem mem_partsArgs {x c : Computed} {args : List Computed} (hc : c ∈ args) (hx : x ∈ c.parts) :
    x ∈ partsArgs args := by
  induction args with
  | nil => cases hc
  | cons a as ih =>
      rw [partsArgs, List.mem_append]
      rcases List.mem_cons.mp hc with rfl | hc
      · exact Or.inl hx
      · exact Or.inr (ih hc)

end Computed

section Nested

/-- Running out of the depth of an engine is excused. -/
def Faults.ofDepth (engine : Engine) : Faults EvalError where
  excused := (· = .tooDeep engine.maxDepth)
  shared _ := True

/-- An engine compared with itself, where the second run has more depth to spend. -/
def Pairing.nested (engine : Engine) (slack : Nat) : Pairing where
  left := engine
  right := engine
  view := .whole
  faults := .ofDepth engine
  slack := slack

variable (engine : Engine)

theorem sameFunctions_nested (slack : Nat) : (Pairing.nested engine slack).SameFunctions where
  view_eq := rfl
  functions_eq := rfl
  shared _ := trivial

theorem paced_nested (slack : Nat) : (Pairing.nested engine slack).Paced where
  ordinary _ _ := trivial
  maxDepth_right _ := rfl
  excused_of_slack _ := rfl
  callable_of_refers name _ := (sameFunctions_nested engine slack).callable name

variable {budget more : Nat} (h : budget ≤ more)
include h

/-- More depth makes no difference to an expression, unless it runs out. -/
theorem follows_evalAt_of_le (scope : Scope) (e : Expr) :
    Follows (.ofDepth engine) Eq (engine.evalAt scope budget e).outcome
      (engine.evalAt scope more e).outcome := by
  rcases Nat.exists_eq_add_of_le h with ⟨slack, rfl⟩
  have hsame := sameFunctions_nested engine slack
  have hscopes : (Pairing.nested engine slack).AlikeScopes scope scope :=
    hsame.transparent.alikeScopes fun _ => rfl
  have hfollows := follows_evalAt (paced_nested engine slack) hscopes budget (e := e) fun x _ =>
    hsame.transparent.admits x
  exact hfollows.imp fun _ _ => exact_whole.eq_of_alike

/-- More depth makes no difference to a call, unless it runs out. -/
theorem follows_callAt_of_le (name : String) (args : List Value) :
    Follows (.ofDepth engine) Eq (engine.callAt budget name args).outcome
      (engine.callAt more name args).outcome := by
  rcases Nat.exists_eq_add_of_le h with ⟨slack, rfl⟩
  have hsame := sameFunctions_nested engine slack
  have hargs : List.Forall₂ View.whole.Alike args args :=
    List.forall₂_same.mpr fun v _ => alike_whole v
  have hfollows := follows_callAt (paced_nested engine slack) budget (hsame.callable name) hargs
  exact hfollows.imp fun _ _ => exact_whole.eq_of_alike

end Nested

/-- Sequences of evaluations become sequences of steps of a pipeline. -/
theorem Traced.ofEval_bind {α β : Type} (x : Traced EvalError α) (f : α → Traced EvalError β) :
    (x >>= f).ofEval = x.ofEval >>= fun a => (f a).ofEval := by
  rcases x with ⟨calls, outcome⟩
  cases outcome with
  | ok a => rfl
  | error e => rfl

section Translation

variable {engine : Engine} {scope : Scope}

/-- The expression stands for the step: with every budget that the engine allows, the step has the
    same outcome, unless the budget runs out. -/
def Engine.Expresses (engine : Engine) (scope : Scope) (e : Expr)
    (x : Traced PipelineError Value) : Prop :=
  ∀ budget, budget ≤ engine.maxDepth →
    Follows (Faults.ofDepth engine).inPipeline Eq (engine.evalAt scope budget e).ofEval.outcome
      x.outcome

/-- Without a budget an expression stands for anything. -/
theorem expresses_of_succ {e : Expr} {x : Traced PipelineError Value}
    (h : ∀ budget, budget < engine.maxDepth → Follows (Faults.ofDepth engine).inPipeline Eq
      (engine.evalAt scope (budget + 1) e).ofEval.outcome x.outcome) :
    engine.Expresses scope e x := by
  intro budget hbudget
  cases budget with
  | zero => exact .excused rfl
  | succ budget => exact h budget hbudget

/-- The test of a case compares the plain text of the subject with the key. -/
theorem evalAt_caseTest (budget : Nat) (subject : Expr) (key : String) :
    engine.evalAt scope (budget + 2) (Computed.caseTest subject key) =
      engine.evalAt scope budget subject >>= fun v => pure (.bool (v.text == key)) := by
  have hcall : ∀ v : Value, engine.callAt budget "toString" [v] = pure (.string v.text) := by
    intro v
    rw [Engine.callAt_apply budget [v] (b := .toString) rfl rfl]
    rfl
  have hguard : (Traced.ofExcept (guardKey "toString") : Traced EvalError Unit) = pure () := rfl
  simp only [Computed.caseTest, Engine.evalAt, hguard, pure_bind, List.mapM_cons, List.mapM_nil,
    bind_assoc, hcall]
  rfl

theorem follows_caseTest {subject : Expr} {x : Traced PipelineError Value}
    (hsubject : engine.Expresses scope subject x) (key : String) {budget : Nat}
    (hbudget : budget ≤ engine.maxDepth) :
    Follows (Faults.ofDepth engine).inPipeline
      (fun test v => test = .bool (v.text == key) ∧ x.outcome = .ok v)
      (engine.evalAt scope budget (Computed.caseTest subject key)).ofEval.outcome x.outcome := by
  match budget with
  | 0 => exact .excused rfl
  | 1 => exact .excused rfl
  | budget + 2 =>
      have hfollows := hsubject budget (by omega)
      rw [evalAt_caseTest, Traced.ofEval_bind, Traced.outcome_bind]
      generalize (engine.evalAt scope budget subject).ofEval.outcome = y at hfollows ⊢
      cases y with
      | ok v =>
          rcases hfollows with ⟨_, hx, rfl⟩
          exact ⟨v, hx, rfl, hx⟩
      | error e => exact hfollows

/-- The computed field that a choice selects for the plain text of its subject. -/
def Computed.select (engine : Engine) (scope : Scope) (default : Option Computed)
    (cases : List (String × Computed)) (key : String) : Traced PipelineError Value :=
  if Keyed.contains key cases then evalCase engine scope key cases
  else evalOption engine scope default

theorem select_cons (default : Option Computed) (k : String) (c : Computed)
    (rest : List (String × Computed)) (key : String) :
    Computed.select engine scope default ((k, c) :: rest) key =
      if k = key then c.eval engine scope else Computed.select engine scope default rest key := by
  unfold Computed.select
  by_cases hk : k = key
  · simp [Keyed.contains, Keyed.get?, Computed.evalCase, hk]
  · have hcontains : Keyed.contains key ((k, c) :: rest) = Keyed.contains key rest := by
      simp [Keyed.contains, Keyed.get?, hk]
    rw [hcontains, Computed.evalCase, if_neg hk, if_neg hk]

/-- A chain of conditionals selects what the choice does, if there is a case to begin with or the
    subject is known to have a value. -/
theorem expresses_chain {subject otherwise : Expr} {x : Traced PipelineError Value}
    {default : Option Computed} (hsubject : engine.Expresses scope subject x)
    (hdefault : engine.Expresses scope otherwise (Computed.evalOption engine scope default))
    {cases : List (String × Computed)}
    (hcases : ∀ p ∈ cases, engine.Expresses scope p.2.toExpr (p.2.eval engine scope))
    (hsome : cases ≠ [] ∨ ∃ v, x.outcome = .ok v) :
    engine.Expresses scope (Computed.chain subject otherwise cases)
      (x >>= fun v => Computed.select engine scope default cases v.text) := by
  -- The subject is evaluated by every test; from the second one on it has a value.
  induction cases with
  | nil =>
      rcases hsome with hne | ⟨v, hv⟩
      · exact absurd rfl hne
      intro budget hbudget
      rw [Traced.outcome_bind, hv, ok_bind]
      exact hdefault budget hbudget
  | cons p rest ih =>
      rcases p with ⟨k, c⟩
      rw [List.forall_mem_cons] at hcases
      refine expresses_of_succ fun budget hbudget => ?_
      rw [Computed.chain, Engine.evalAt, Traced.ofEval_bind]
      refine (follows_caseTest hsubject k (Nat.le_of_lt hbudget)).andThen fun test v htest => ?_
      rcases htest with ⟨rfl, hv⟩
      rw [select_cons]
      -- A case that matches is the answer of both; otherwise the rest of the chain is, and by now
      -- the subject has its value.
      by_cases hk : k = v.text
      · simpa [Value.isTruthy, hk] using hcases.1 budget (Nat.le_of_lt hbudget)
      · have hrest := ih hcases.2 (Or.inr ⟨v, hv⟩) budget (Nat.le_of_lt hbudget)
        rw [Traced.outcome_bind, hv, ok_bind] at hrest
        simpa [Value.isTruthy, hk, Ne.symm hk] using hrest

/-- A part that is missing is the undefined value in both. -/
theorem expresses_toExprOption {x : Option Computed}
    (h : ∀ c ∈ x, engine.Expresses scope c.toExpr (c.eval engine scope)) :
    engine.Expresses scope (Computed.toExprOption x) (Computed.evalOption engine scope x) := by
  cases x with
  | none =>
      refine expresses_of_succ fun budget _ => ?_
      rw [Computed.toExprOption, Computed.evalOption, Engine.evalAt]
      exact .ok rfl
  | some c =>
      rw [Computed.toExprOption, Computed.evalOption]
      exact h c rfl

theorem follows_toExprArgs {args : List Computed}
    (h : ∀ c ∈ args, engine.Expresses scope c.toExpr (c.eval engine scope)) {budget : Nat}
    (hbudget : budget ≤ engine.maxDepth) :
    Follows (Faults.ofDepth engine).inPipeline Eq
      ((Computed.toExprArgs args).mapM (engine.evalAt scope budget)).ofEval.outcome
      (Computed.evalArgs engine scope args).outcome := by
  induction args with
  | nil =>
      rw [Computed.toExprArgs, Computed.evalArgs, List.mapM_nil]
      exact .ok rfl
  | cons c rest ih =>
      rw [List.forall_mem_cons] at h
      rw [Computed.toExprArgs, Computed.evalArgs, List.mapM_cons, Traced.ofEval_bind]
      -- The first argument runs with the depth that is left, and so do the others.
      refine (h.1 budget hbudget).andThen ?_
      rintro v _ rfl
      rw [Traced.ofEval_bind]
      refine (ih h.2).andThen ?_
      rintro vs _ rfl
      exact .ok rfl

/-- Evaluating the parts of a computed field with the depth that is left in the expression, instead
    of the full one, is the same unless it runs out. -/
theorem expresses_toExpr (c : Computed) (hc : ∀ x ∈ c.parts, x.IsExpressible) :
    engine.Expresses scope c.toExpr (c.eval engine scope) := by
  induction c using Computed.induction with
  | source e =>
      intro budget hbudget
      rw [Computed.toExpr, Computed.eval]
      exact (follows_evalAt_of_le engine hbudget scope e).ofEval
  | literal v =>
      refine expresses_of_succ fun budget _ => ?_
      rw [Computed.toExpr, Computed.eval, Engine.evalAt]
      exact .ok rfl
  | conditional condition thenBranch elseBranch ihc iht ihe =>
      -- A conditional has one more level than its parts, which is why the budget goes down by one.
      have hcondition := ihc fun x hx => hc x (by simp [Computed.parts, hx])
      have hthen := iht fun x hx => hc x (by simp [Computed.parts, hx])
      have helse := expresses_toExprOption fun c hmem => ihe c hmem fun x hx =>
        hc x (by simp [Computed.parts, Option.mem_def.mp hmem, Computed.partsOption, hx])
      refine expresses_of_succ fun budget hbudget => ?_
      rw [Computed.toExpr, Computed.eval, Engine.evalAt, Traced.ofEval_bind]
      refine (hcondition budget (Nat.le_of_lt hbudget)).andThen ?_
      rintro test _ rfl
      by_cases htest : test.isTruthy = true
      · rw [if_pos htest, if_pos htest]
        exact hthen budget (Nat.le_of_lt hbudget)
      · rw [if_neg htest, if_neg htest]
        exact helse budget (Nat.le_of_lt hbudget)
  | switch subject cases default ihs ihcases ihd =>
      have hne : cases ≠ [] := hc _ (Computed.mem_parts_self _)
      have hsubject := ihs fun x hx => hc x (by simp [Computed.parts, hx])
      have hcases := fun p hmem => ihcases p hmem fun x hx =>
        hc x (by simp [Computed.parts, Computed.mem_partsCases hmem hx])
      have hdefault := expresses_toExprOption fun c hmem => ihd c hmem fun x hx =>
        hc x (by simp [Computed.parts, Option.mem_def.mp hmem, Computed.partsOption, hx])
      rw [Computed.toExpr, Computed.eval]
      exact expresses_chain hsubject hdefault hcases (Or.inl hne)
  | call function args ih =>
      -- A call in an expression is guarded and that in a field is not, but the name is not denied.
      have hguard : (Traced.ofExcept (guardKey function) : Traced EvalError Unit) = pure () := by
        have hdenied : isDenied function = false := hc _ (Computed.mem_parts_self _)
        rw [guardKey, hdenied]
        rfl
      have hargs := fun c hmem => ih c hmem fun x hx =>
        hc x (by simp [Computed.parts, Computed.mem_partsArgs hmem hx])
      refine expresses_of_succ fun budget hbudget => ?_
      rw [Computed.toExpr, Computed.eval, Engine.evalAt, hguard, pure_bind, Traced.ofEval_bind]
      refine (follows_toExprArgs hargs (Nat.le_of_lt hbudget)).andThen ?_
      rintro values _ rfl
      exact (follows_callAt_of_le engine (Nat.le_of_lt hbudget) function values).ofEval
  | pipeline p => exact (hc _ (Computed.mem_parts_self _)).elim

end Translation

/-- A computed field means the expression that it abbreviates. Where the expression does not run out
    of depth, the computed field has the same value, or the same error as that of an expression. -/
theorem computed_means_expression (engine : Engine) (scope : Scope) (c : Computed)
    (hc : ∀ x ∈ c.parts, x.IsExpressible)
    (hdeep : (engine.eval scope c.toExpr).outcome ≠ .error (.tooDeep engine.maxDepth)) :
    (c.eval engine scope).outcome =
      (engine.eval scope c.toExpr).outcome.mapError PipelineError.expression := by
  have hfollows : Follows (Faults.ofDepth engine).inPipeline Eq
      ((engine.eval scope c.toExpr).outcome.mapError PipelineError.expression)
      (c.eval engine scope).outcome := expresses_toExpr c hc engine.maxDepth (Nat.le_refl _)
  generalize (engine.eval scope c.toExpr).outcome = y at hdeep hfollows ⊢
  cases y with
  | ok v =>
      rcases hfollows with ⟨_, hv, rfl⟩
      exact hv
  | error e =>
      rcases hfollows with hexcused | ⟨he, _⟩
      · exact absurd (congrArg Except.error hexcused) hdeep
      · exact he

section Tickets

/-- An engine with a ticket that is open and has no note. -/
def ticketEngine : Engine :=
  .ofGlobals [("open", .bool true), ("note", .null)]

/-- A choice by `open`. The note of an open ticket is `none` if there is none, and undefined if
    there is one. -/
def noteOfOpen : Computed :=
  .switch (.source (.identifier "open"))
    [("false", .literal .null),
     ("true", .conditional (.call "isNull" [.source (.identifier "note")])
       (.literal (.string "none")) none)]
    (some (.source (.identifier "missing")))

/-- The choice is a chain of two tests, of which the second one holds. The default would fail, and
    is evaluated by neither. -/
theorem noteOfOpen_means_chain :
    (∀ x ∈ noteOfOpen.parts, x.IsExpressible) ∧
    noteOfOpen.toExpr =
      .conditional (Computed.caseTest (.identifier "open") "false") (.literal .null)
        (.conditional (Computed.caseTest (.identifier "open") "true")
          (.conditional (.call "isNull" [.identifier "note"]) (.literal (.string "none"))
            (.literal .undefined))
          (.identifier "missing")) ∧
    (ticketEngine.eval [] noteOfOpen.toExpr).outcome = .ok (.string "none") ∧
    (noteOfOpen.eval ticketEngine []).outcome = .ok (.string "none") := by
  have hexpressible : ∀ x ∈ noteOfOpen.parts, x.IsExpressible := by decide
  have heval : (ticketEngine.eval [] noteOfOpen.toExpr).outcome = .ok (.string "none") := rfl
  refine ⟨hexpressible, rfl, heval, ?_⟩
  rw [computed_means_expression ticketEngine [] noteOfOpen hexpressible (by simp [heval]), heval]
  rfl

end Tickets

end FieldLang

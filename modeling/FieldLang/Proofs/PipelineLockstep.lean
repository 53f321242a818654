import FieldLang.Computed.Basic
import FieldLang.Proofs.Lockstep

/-!
# Pipelines and Computed Fields in Step

What holds of expressions in two engines carries over to the pipelines and computed fields that are
made of them. A pipeline brings in expressions only: the bodies of its lambdas and the arguments of
its stages. A computed field may also hold plain values and call functions by name, and these calls
are not guarded, so the functions have to behave alike whatever their names are.

A lambda is evaluated in a scope of its own, with parameters bound to like values. What is bound to
any other name is as before, so scopes stay alike.

## Main definitions

* `Stage.parts`, `Pipeline.parts`: All expressions in a stage or a pipeline.
* `Computed.parts`: A computed field and all computed fields inside it.
* `Pairing.AdmitsField`: The parts of computed fields that are alike in both runs.
* `Faults.inPipeline`: What is said about the faults of pipelines.

## Theorems

* `follows_resolve`: Source paths have like values.
* `alikeScopes_bindings`: Scopes stay alike when parameters are bound to like values.
* `follows_take`: Slices take like elements.
* `follows_runStage`, `follows_runStages`, `follows_runPipeline`: Pipelines run in step.
* `follows_computed`: Computed fields are evaluated in step.
-/

namespace FieldLang

/-- The expressions that the arguments of a stage hold. -/
def Stage.expressions : Stage → List Expr
  | .map transform => (transform.map Lambda.body).toList
  | .filter predicate => (predicate.map Lambda.body).toList
  | .flatMap transform => (transform.map Lambda.body).toList
  | .reduce reducer initial => (reducer.map Lambda.body).toList ++ initial.toList
  | .slice start stop step => start.toList ++ (stop.toList ++ step.toList)

/-- All expressions in a stage, at any depth. -/
def Stage.parts (stage : Stage) : List Expr :=
  stage.expressions.flatMap Expr.parts

/-- All expressions in a pipeline, at any depth. -/
def Pipeline.parts (p : Pipeline) : List Expr :=
  p.stages.flatMap Stage.parts

/-- The faults of pipelines: those of expressions as they are, all others shared. -/
def Faults.inPipeline (faults : Faults EvalError) : Faults PipelineError where
  excused
    | .expression e => faults.excused e
    | _ => False
  shared
    | .expression e => faults.shared e
    | _ => True

/-- Without excuses for expressions there are none for pipelines. -/
theorem inPipeline_strict : (Faults.strict EvalError).inPipeline = .strict PipelineError := by
  unfold Faults.inPipeline Faults.strict
  congr 1
  · funext e
    cases e <;> rfl
  · funext e
    cases e <;> rfl

theorem Follows.ofEval {α β : Type} {R : α → β → Prop} {faults : Faults EvalError}
    {x : Traced EvalError α} {y : Traced EvalError β} (h : Follows faults R x.outcome y.outcome) :
    Follows faults.inPipeline R x.ofEval.outcome y.ofEval.outcome := by
  unfold Traced.ofEval
  rw [Traced.outcome_mapError, Traced.outcome_mapError]
  refine Follows.mapError ?_ ?_ h
  · intro e he
    exact he
  · intro e he
    exact he

section Bindings

variable {pairing : Pairing} {scope scope' : Scope}

/-- Like values have like values under a segment of a path. -/
theorem alike_follow {view : View} {v w : Value} (h : view.Alike v w) {segment : String}
    (hsegment : view.skips segment = false) :
    view.Alike (Context.follow v segment) (Context.follow w segment) := by
  rcases h.cases with ⟨vs, ws, rfl, rfl, hvs⟩ | ⟨fields, others, rfl, rfl, hfields⟩ | ⟨hflat, rfl⟩
  · simp only [Context.follow, Value.field?, hvs.length_eq]
    split
    · exact .number _
    · exact .undefined
  · have hfield := hfields segment hsegment
    simp only [Context.follow, Value.field?]
    generalize Keyed.get? segment fields = x at hfield ⊢
    generalize Keyed.get? segment others = y at hfield ⊢
    cases hfield with
    | none => exact .undefined
    | some hvw => exact hvw
  · cases w with
    | array items => cases hflat
    | object fields => cases hflat
    | _ => exact .undefined

theorem follows_followAll {view : View} {faults : Faults EvalError} (hfaults : faults.Ordinary)
    (segments : List String) {v w : Value} (h : view.Alike v w) :
    Follows faults view.Alike (Context.followAll v segments) (Context.followAll w segments) := by
  -- Every segment is guarded before it is followed, so it is never one that the view leaves out.
  induction segments generalizing v w with
  | nil => exact .ok h
  | cons segment rest ih =>
      rw [Context.followAll, Context.followAll]
      refine (follows_guardKey hfaults segment).bind fun _ _ hkey => ?_
      exact ih (alike_follow h (skips_of_not_isDenied hkey))

/-- Source paths have like values. -/
theorem follows_resolve (hfaults : pairing.faults.Ordinary)
    (hscopes : pairing.AlikeScopes scope scope') (path : String) :
    Follows pairing.faults pairing.view.Alike (pairing.left.context.resolve scope path)
      (pairing.right.context.resolve scope' path) := by
  unfold Context.resolve
  cases Text.segments path with
  | nil => exact .ok .undefined
  | cons root rest =>
      refine (follows_guardKey hfaults root).bind fun _ _ hdenied => ?_
      exact follows_followAll hfaults rest (.getD (hscopes root hdenied))

/-- Like contents put under the same keys leave like contents under every key. -/
theorem rel_get?_override {R : Value → Value → Prop} {pairs pairs' table table' : Keyed Value}
    (h : List.Forall₂ (fun p q => p.1 = q.1 ∧ R p.2 q.2) pairs pairs')
    (htable : ∀ key, Option.Rel R (Keyed.get? key table) (Keyed.get? key table')) (key : String) :
    Option.Rel R (Keyed.get? key (Keyed.override table pairs))
      (Keyed.get? key (Keyed.override table' pairs')) := by
  induction h generalizing table table' with
  | nil => exact htable key
  | @cons p q pairs pairs' hpq _ ih =>
      refine ih fun key => ?_
      show Option.Rel R (Keyed.get? key (Keyed.insert p.1 p.2 table))
        (Keyed.get? key (Keyed.insert q.1 q.2 table'))
      rw [← hpq.1]
      -- The key was put there last, or is untouched by this insertion.
      by_cases hkey : key = p.1
      · rw [hkey, Keyed.get?_insert_self, Keyed.get?_insert_self]
        exact .some hpq.2
      · rw [Keyed.get?_insert_of_ne hkey, Keyed.get?_insert_of_ne hkey]
        exact htable key

/-- Names are paired with like values. -/
theorem forall₂_zip_names {R : Value → Value → Prop} (names : List String) {args args' : List Value}
    (h : List.Forall₂ R args args') :
    List.Forall₂ (fun p q => p.1 = q.1 ∧ R p.2 q.2) (names.zip args) (names.zip args') := by
  induction h generalizing names with
  | nil =>
      rw [List.zip_nil_right]
      exact .nil
  | cons hvw _ ih =>
      cases names with
      | nil => exact .nil
      | cons name names => exact .cons ⟨rfl, hvw⟩ (ih names)

/-- Scopes stay alike when parameters are bound to like values. -/
theorem alikeScopes_bindings (hscopes : pairing.AlikeScopes scope scope') (lambda : Lambda)
    {args args' : List Value} (h : List.Forall₂ pairing.view.Alike args args') :
    pairing.AlikeScopes (Context.bindings lambda args :: scope)
      (Context.bindings lambda args' :: scope') := by
  intro name hdenied
  have hparam : Option.Rel pairing.view.Alike (Keyed.get? name (Context.bindings lambda args))
      (Keyed.get? name (Context.bindings lambda args')) :=
    rel_get?_override (forall₂_zip_names lambda.params h) (fun _ => .none) name
  have houter := hscopes name hdenied
  unfold Engine.binding? at houter ⊢
  -- A parameter hides what the outer scopes bind to its name.
  rw [Scope.lookup?, Scope.lookup?]
  generalize Keyed.get? name (Context.bindings lambda args) = x at hparam ⊢
  generalize Keyed.get? name (Context.bindings lambda args') = y at hparam ⊢
  cases hparam with
  | none => exact houter
  | some hvw => exact .some hvw

end Bindings

section Refusals

-- Pipelines refuse on their own account in both runs, whatever is said about the faults of
-- expressions.
variable {faults : Faults EvalError}

/-- Like values are arrays with like elements, or are both refused. -/
theorem follows_items {view : View} {v w : Value} (h : view.Alike v w) :
    Follows faults.inPipeline (List.Forall₂ view.Alike) v.items w.items := by
  rcases h.cases with ⟨vs, ws, rfl, rfl, hvs⟩ | ⟨_, _, rfl, rfl, _⟩ | ⟨hflat, rfl⟩
  · exact .ok hvs
  · exact .error trivial
  · cases w with
    | array items => cases hflat
    | _ => exact .error trivial

/-- An argument that must be there is the same in both runs. -/
theorem follows_required {α : Type} (stage : Stage) (what : String) (x : Option α) :
    Follows faults.inPipeline (fun a b => a = b ∧ x = some a)
      (Context.required stage what x).outcome (Context.required stage what x).outcome := by
  cases x with
  | none => exact .error trivial
  | some a => exact .ok ⟨rfl, rfl⟩

/-- A bound of a slice is read alike from like values. -/
theorem follows_ofValue {view : View} (name : String) {v w : Value} (h : view.Alike v w) :
    Follows faults.inPipeline Eq (Bounds.ofValue name v) (Bounds.ofValue name w) := by
  have heq : Bounds.ofValue name v = Bounds.ofValue name w :=
    h.observe fun v => by cases v <;> rfl
  rw [heq]
  cases w with
  | null => exact .ok rfl
  | undefined => exact .ok rfl
  | number n => exact .ok rfl
  | _ => exact .error trivial

/-- Slices take like elements, since the positions depend on the length only. -/
theorem follows_take {R : Value → Value → Prop} (bounds : Bounds) {vs ws : List Value}
    (h : List.Forall₂ R vs ws) :
    Follows faults.inPipeline (List.Forall₂ R) (bounds.take vs) (bounds.take ws) := by
  unfold Bounds.take
  rw [h.length_eq]
  by_cases hstep : bounds.step.getD 1 = 0
  · rw [if_pos hstep, if_pos hstep]
    exact .error trivial
  · rw [if_neg hstep, if_neg hstep]
    refine .ok (List.rel_filterMap (R := Eq) (fun k k' hk => ?_) ?_)
    · subst hk
      exact rel_getElem? h _
    · rw [List.forall₂_eq_eq_eq]

end Refusals

section Pipelines

variable {pairing : Pairing} (hstep : pairing.InStep) {scope scope' : Scope}
  (hscopes : pairing.AlikeScopes scope scope')
include hstep hscopes

/-- Lambdas have like values on like arguments. -/
theorem follows_apply {lambda : Lambda} (hbody : ∀ x ∈ lambda.body.parts, pairing.Admits x)
    {args args' : List Value} (h : List.Forall₂ pairing.view.Alike args args') :
    Follows pairing.faults.inPipeline pairing.view.Alike
      (pairing.left.context.apply scope lambda args).outcome
      (pairing.right.context.apply scope' lambda args').outcome :=
  (follows_eval hstep (alikeScopes_bindings hscopes lambda h) hbody).ofEval

theorem follows_visit {lambda : Lambda} (hbody : ∀ x ∈ lambda.body.parts, pairing.Admits x)
    (position : Nat) (v w : Value) (h : pairing.view.Alike v w) :
    Follows pairing.faults.inPipeline pairing.view.Alike
      (pairing.left.context.visit scope lambda position v).outcome
      (pairing.right.context.visit scope' lambda position w).outcome :=
  follows_apply hstep hscopes hbody (.cons h (.cons (.number _) .nil))

/-- The bounds of a slice are the same in both runs. -/
theorem follows_bound (name : String) {x : Option Expr}
    (hx : ∀ e, x = some e → ∀ y ∈ e.parts, pairing.Admits y) :
    Follows pairing.faults.inPipeline Eq (pairing.left.context.bound scope name x).outcome
      (pairing.right.context.bound scope' name x).outcome := by
  cases x with
  | none => exact .ok rfl
  | some e =>
      refine (follows_eval hstep hscopes (hx e rfl)).ofEval.andThen fun v w hvw => ?_
      exact follows_ofValue name hvw

/-- Stages have like values on like elements. -/
theorem follows_runStage {stage : Stage} (hstage : ∀ x ∈ stage.parts, pairing.Admits x)
    {vs ws : List Value} (h : List.Forall₂ pairing.view.Alike vs ws) :
    Follows pairing.faults.inPipeline pairing.view.Alike
      (pairing.left.context.runStage scope stage vs).outcome
      (pairing.right.context.runStage scope' stage ws).outcome := by
  have hparts : ∀ e ∈ stage.expressions, ∀ x ∈ e.parts, pairing.Admits x := fun e he x hx =>
    hstage x (List.mem_flatMap.mpr ⟨e, he, hx⟩)
  have htruthy : ∀ v w, pairing.view.Alike v w → v.isTruthy = w.isTruthy := fun _ _ hvw =>
    hvw.isTruthy
  -- Each kind of stage is a loop over like elements, or takes the elements at the same positions.
  cases stage with
  | map transform =>
      refine (follows_required _ _ transform).andThen fun f _ hf => ?_
      rcases hf with ⟨rfl, rfl⟩
      have hvisit := follows_visit hstep hscopes (hparts f.body (by simp [Stage.expressions]))
      exact (follows_transform hvisit h 0).andThen fun _ _ hvs => .ok (.array hvs)
  | filter predicate =>
      refine (follows_required _ _ predicate).andThen fun f _ hf => ?_
      rcases hf with ⟨rfl, rfl⟩
      have hvisit := follows_visit hstep hscopes (hparts f.body (by simp [Stage.expressions]))
      exact (follows_select hvisit htruthy h 0).andThen fun _ _ hvs => .ok (.array hvs)
  | flatMap transform =>
      refine (follows_required _ _ transform).andThen fun f _ hf => ?_
      rcases hf with ⟨rfl, rfl⟩
      have hvisit := follows_visit hstep hscopes (hparts f.body (by simp [Stage.expressions]))
      exact (follows_splice hvisit (fun _ _ hvw => forall₂_spliced hvw) h 0).andThen
        fun _ _ hvs => .ok (.array hvs)
  | reduce reducer initial =>
      refine (follows_required _ _ reducer).andThen fun f _ hf => ?_
      refine (follows_required _ _ initial).andThen fun e _ he => ?_
      rcases hf with ⟨rfl, rfl⟩
      rcases he with ⟨rfl, rfl⟩
      have hbody := hparts f.body (by simp [Stage.expressions])
      refine (follows_eval hstep hscopes (hparts e (by simp [Stage.expressions]))).ofEval.andThen
        fun a b hab => ?_
      refine follows_accumulate (fun position a b v w hab hvw => ?_) h hab 0
      exact follows_apply hstep hscopes hbody (.cons hab (.cons hvw (.cons (.number _) .nil)))
  | slice start stop step =>
      refine (follows_required _ _ start).andThen fun e _ he => ?_
      rcases he with ⟨rfl, rfl⟩
      have hstart := follows_bound hstep hscopes "start" (x := some e) fun a ha =>
        hparts a (by simp [Stage.expressions, Option.some.inj ha])
      have hstop := follows_bound hstep hscopes "end" (x := stop) fun a ha =>
        hparts a (by simp [Stage.expressions, ha])
      have hwidth := follows_bound hstep hscopes "step" (x := step) fun a ha =>
        hparts a (by simp [Stage.expressions, ha])
      refine hstart.andThen fun i _ hi => ?_
      refine hstop.andThen fun j _ hj => ?_
      refine hwidth.andThen fun k _ hk => ?_
      subst hi hj hk
      exact Follows.andThen (follows_take ⟨i, j, k⟩ h) fun _ _ hvs => .ok (.array hvs)

/-- Values go through stages in step. -/
theorem follows_runStages {stages : List Stage}
    (hstages : ∀ stage ∈ stages, ∀ x ∈ stage.parts, pairing.Admits x) {v w : Value}
    (h : pairing.view.Alike v w) :
    Follows pairing.faults.inPipeline pairing.view.Alike
      (pairing.left.context.runStages scope stages v).outcome
      (pairing.right.context.runStages scope' stages w).outcome := by
  -- A stage may make anything of its elements, so the value is general in the induction.
  induction stages generalizing v w with
  | nil => exact .ok h
  | cons stage rest ih =>
      refine Follows.andThen (follows_items h) fun vs ws hvs => ?_
      refine (follows_runStage hstep hscopes (hstages stage (by simp)) hvs).andThen fun a b hab => ?_
      exact ih (fun stage hstage => hstages stage (by simp [hstage])) hab

/-- Pipelines run in step. -/
theorem follows_runPipeline {p : Pipeline} (hp : ∀ x ∈ p.parts, pairing.Admits x) :
    Follows pairing.faults.inPipeline pairing.view.Alike
      (pairing.left.runPipeline scope p).outcome (pairing.right.runPipeline scope' p).outcome := by
  have hsource : Follows pairing.faults pairing.view.Alike
      (Traced.ofExcept (pairing.left.context.resolve scope p.source)).outcome
      (Traced.ofExcept (pairing.right.context.resolve scope' p.source)).outcome :=
    follows_resolve hstep.ordinary hscopes p.source
  refine hsource.ofEval.andThen fun v w hvw => ?_
  refine follows_runStages hstep hscopes (fun stage hstage x hx => hp x ?_) hvw
  exact List.mem_flatMap.mpr ⟨stage, hstage, hx⟩

end Pipelines

namespace Computed

mutual

/-- A computed field and all computed fields inside it. -/
def parts : Computed → List Computed
  | .source e => [.source e]
  | .literal v => [.literal v]
  | .conditional condition thenBranch elseBranch =>
    .conditional condition thenBranch elseBranch ::
      (condition.parts ++ (thenBranch.parts ++ partsOption elseBranch))
  | .switch subject cases default =>
    .switch subject cases default :: (subject.parts ++ (partsCases cases ++ partsOption default))
  | .call function args => .call function args :: partsArgs args
  | .pipeline p => [.pipeline p]

/-- A computed field that may be missing and all inside it. -/
def partsOption : Option Computed → List Computed
  | none => []
  | some c => c.parts

/-- The cases of a choice and all computed fields inside them. -/
def partsCases : List (String × Computed) → List Computed
  | [] => []
  | (_, c) :: rest => c.parts ++ partsCases rest

/-- Arguments and all computed fields inside them. -/
def partsArgs : List Computed → List Computed
  | [] => []
  | c :: rest => c.parts ++ partsArgs rest

end

theorem mem_parts_self (c : Computed) : c ∈ c.parts := by
  cases c <;> simp [parts]

end Computed

/-- What a computed field brings in, its parts aside, is alike in both runs. -/
def Pairing.AdmitsField (pairing : Pairing) : Computed → Prop
  | .source e => ∀ x ∈ e.parts, pairing.Admits x
  | .literal v => pairing.view.Alike v v
  | .call function _ => pairing.Callable function
  | .pipeline p => ∀ x ∈ p.parts, pairing.Admits x
  | _ => True

section Fields

variable {pairing : Pairing} {scope scope' : Scope}

-- The evaluation of computed fields recurses through options, cases and arguments, and so do these
-- four statements.
mutual

/-- Computed fields are evaluated in step if their parts are admitted. -/
theorem follows_computed (hstep : pairing.InStep) (hscopes : pairing.AlikeScopes scope scope')
    (c : Computed) (hc : ∀ x ∈ c.parts, pairing.AdmitsField x) :
    Follows pairing.faults.inPipeline pairing.view.Alike (c.eval pairing.left scope).outcome
      (c.eval pairing.right scope').outcome := by
  have hself := hc c c.mem_parts_self
  -- The induction is over the form, together with the lists of arguments and cases in it.
  cases c with
  | source e =>
      rw [Computed.eval, Computed.eval]
      exact (follows_eval hstep hscopes hself).ofEval
  | literal v =>
      rw [Computed.eval, Computed.eval]
      exact .ok hself
  | conditional condition thenBranch elseBranch =>
      have hcondition := follows_computed hstep hscopes condition fun x hx =>
        hc x (by simp [Computed.parts, hx])
      have hthen := follows_computed hstep hscopes thenBranch fun x hx =>
        hc x (by simp [Computed.parts, hx])
      have helse := follows_evalOption hstep hscopes elseBranch fun x hx =>
        hc x (by simp [Computed.parts, hx])
      rw [Computed.eval, Computed.eval]
      refine hcondition.andThen fun v w hvw => ?_
      rw [hvw.isTruthy]
      by_cases htruthy : w.isTruthy = true
      · rw [if_pos htruthy, if_pos htruthy]
        exact hthen
      · rw [if_neg htruthy, if_neg htruthy]
        exact helse
  | switch subject cases default =>
      have hsubject := follows_computed hstep hscopes subject fun x hx =>
        hc x (by simp [Computed.parts, hx])
      have hcases := fun key =>
        follows_evalCase hstep hscopes key cases fun x hx => hc x (by simp [Computed.parts, hx])
      have hdefault := follows_evalOption hstep hscopes default fun x hx =>
        hc x (by simp [Computed.parts, hx])
      rw [Computed.eval, Computed.eval]
      refine hsubject.andThen fun v w hvw => ?_
      rw [hvw.text]
      by_cases hkey : Keyed.contains w.text cases = true
      · rw [if_pos hkey, if_pos hkey]
        exact hcases w.text
      · rw [if_neg hkey, if_neg hkey]
        exact hdefault
  | call function args =>
      have hargs := follows_evalArgs hstep hscopes args fun x hx =>
        hc x (by simp [Computed.parts, hx])
      rw [Computed.eval, Computed.eval]
      exact hargs.andThen fun vs ws hvs => (follows_call hstep hself hvs).ofEval
  | pipeline p =>
      rw [Computed.eval, Computed.eval]
      exact follows_runPipeline hstep hscopes hself

theorem follows_evalOption (hstep : pairing.InStep)
    (hscopes : pairing.AlikeScopes scope scope') (c : Option Computed)
    (hc : ∀ x ∈ Computed.partsOption c, pairing.AdmitsField x) :
    Follows pairing.faults.inPipeline pairing.view.Alike
      (Computed.evalOption pairing.left scope c).outcome
      (Computed.evalOption pairing.right scope' c).outcome := by
  cases c with
  | none =>
      rw [Computed.evalOption, Computed.evalOption]
      exact .ok .undefined
  | some c =>
      rw [Computed.evalOption, Computed.evalOption]
      exact follows_computed hstep hscopes c hc

theorem follows_evalCase (hstep : pairing.InStep)
    (hscopes : pairing.AlikeScopes scope scope') (key : String) (cases : List (String × Computed))
    (hc : ∀ x ∈ Computed.partsCases cases, pairing.AdmitsField x) :
    Follows pairing.faults.inPipeline pairing.view.Alike
      (Computed.evalCase pairing.left scope key cases).outcome
      (Computed.evalCase pairing.right scope' key cases).outcome := by
  match cases with
  | [] =>
      rw [Computed.evalCase, Computed.evalCase]
      exact .ok .undefined
  | (k, c) :: rest =>
      have hfirst := follows_computed hstep hscopes c fun x hx =>
        hc x (by simp [Computed.partsCases, hx])
      have hrest := follows_evalCase hstep hscopes key rest fun x hx =>
        hc x (by simp [Computed.partsCases, hx])
      rw [Computed.evalCase, Computed.evalCase]
      by_cases hk : k = key
      · rw [if_pos hk, if_pos hk]
        exact hfirst
      · rw [if_neg hk, if_neg hk]
        exact hrest

theorem follows_evalArgs (hstep : pairing.InStep)
    (hscopes : pairing.AlikeScopes scope scope') (args : List Computed)
    (hc : ∀ x ∈ Computed.partsArgs args, pairing.AdmitsField x) :
    Follows pairing.faults.inPipeline (List.Forall₂ pairing.view.Alike)
      (Computed.evalArgs pairing.left scope args).outcome
      (Computed.evalArgs pairing.right scope' args).outcome := by
  match args with
  | [] =>
      rw [Computed.evalArgs, Computed.evalArgs]
      exact .ok .nil
  | c :: rest =>
      have hfirst := follows_computed hstep hscopes c fun x hx =>
        hc x (by simp [Computed.partsArgs, hx])
      have hrest := follows_evalArgs hstep hscopes rest fun x hx =>
        hc x (by simp [Computed.partsArgs, hx])
      rw [Computed.evalArgs, Computed.evalArgs]
      refine hfirst.andThen fun v w hvw => hrest.andThen fun vs ws hvs => ?_
      exact .ok (.cons hvw hvs)

end

end Fields

end FieldLang

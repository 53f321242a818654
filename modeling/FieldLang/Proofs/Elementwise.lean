import FieldLang.Proofs.Planning

/-!
# Pipelines That Treat Elements One by One

The stages `map`, `filter` and `flatMap` look at one element at a time. What such a stage makes of
an array is put together from what it makes of the elements, so an array can be cut in two, the
pieces sent through the same stages, and the results joined again.

This rests on the plan. A stage hands its lambda the element and its position, and the position of
an element depends on where the array was cut. But a lambda in a plan has one parameter, so the
position is bound to nothing.

The three loops over the elements differ only in what an element adds to the result. `gather` is the
loop with this as a parameter, and the joining of results is proved of it alone. A stage may fail on
some element, so joining is stated of outcomes: the whole has a value exactly if both pieces have.

## Main definitions

* `StageKind.isElementwise`: The kinds of stages that treat elements one by one.
* `StageKind.contribute`: What an element adds to the result of a stage.
* `Elements.gather`: The loop over the elements that these stages share.

## Theorems

* `gather_append`: What is gathered from two lists is gathered from each of them.
* `visit_of_one_param`: A lambda with one parameter does not see positions.
* `runStage_eq_gather`: A planned stage that treats elements one by one is such a loop.
* `runStages_append`: What stages make of a joined array, by induction on the stages.
* `elementwise_pipelines_join`: The same for pipelines over three sources.
-/

namespace FieldLang

namespace StageKind

/-- Whether a stage of the kind treats every element on its own. -/
def isElementwise : StageKind → Bool
  | .map => true
  | .filter => true
  | .flatMap => true
  | .reduce => false
  | .slice => false

/-- What an element adds to the result of a stage, given the value of the lambda on it. -/
def contribute : StageKind → (element result : Value) → List Value
  | .filter, v, w => if w.isTruthy then [v] else []
  | .flatMap, _, w => Elements.spliced w
  | _, _, w => [w]

end StageKind

namespace Elements

variable {m : Type → Type} [Monad m]

/-- What all elements add, one after the other. -/
def gather (f : Value → m Value) (contribute : Value → Value → List Value) :
    List Value → m (List Value)
  | [] => pure []
  | v :: vs => do
    let w ← f v
    let ws ← gather f contribute vs
    return contribute v w ++ ws

variable [LawfulMonad m]

/-- What is gathered from two lists is gathered from one after the other. -/
theorem gather_append (f : Value → m Value) (contribute : Value → Value → List Value)
    (xs ys : List Value) :
    gather f contribute (xs ++ ys) = do
      let us ← gather f contribute xs
      let vs ← gather f contribute ys
      return us ++ vs := by
  induction xs with
  | nil => simp [gather]
  | cons x xs ih =>
      simp only [List.cons_append, gather, ih, bind_assoc, pure_bind, List.append_assoc]

-- A function that ignores positions is the same wherever the loop starts.
variable {f : Nat → Value → m Value} {g : Value → m Value} (hfg : ∀ position v, f position v = g v)
include hfg

theorem transform_eq_gather (position : Nat) (vs : List Value) :
    transform f position vs = gather g (StageKind.contribute .map) vs := by
  induction vs generalizing position with
  | nil => rfl
  | cons v vs ih => simp [transform, gather, hfg, ih, StageKind.contribute]

theorem select_eq_gather (position : Nat) (vs : List Value) :
    select f position vs = gather g (StageKind.contribute .filter) vs := by
  induction vs generalizing position with
  | nil => rfl
  | cons v vs ih =>
      rw [select, gather, hfg, ih]
      refine congrArg _ (funext fun w => ?_)
      -- The element is kept or left out.
      by_cases hw : w.isTruthy = true
      · simp [StageKind.contribute, hw]
      · simp [StageKind.contribute, hw]

theorem splice_eq_gather (position : Nat) (vs : List Value) :
    splice f position vs = gather g (StageKind.contribute .flatMap) vs := by
  induction vs generalizing position with
  | nil => rfl
  | cons v vs ih => simp [splice, gather, hfg, ih, StageKind.contribute]

end Elements

section Stages

variable (context : Context) (scope : Scope)

/-- A lambda with one parameter does not see positions. -/
theorem visit_of_one_param {f : Lambda} (hf : f.params.length = 1) (position : Nat) (v : Value) :
    context.visit scope f position v = context.apply scope f [v] := by
  rcases List.length_eq_one_iff.mp hf with ⟨param, hparams⟩
  -- The position is left over when parameters and arguments are paired.
  have hbindings : Context.bindings f [v, .ofNat position] = Context.bindings f [v] := by
    unfold Context.bindings
    rw [hparams]
    rfl
  unfold Context.visit Context.apply
  rw [hbindings]

/-- A planned stage that treats elements one by one gathers what they add. -/
theorem runStage_eq_gather {stage : Stage} (hkind : stage.kind.isElementwise = true)
    (hcheck : stage.check = .ok ()) :
    ∃ f, ∀ items, context.runStage scope stage items = do
      return .array (← Elements.gather (fun v => context.apply scope f [v]) stage.kind.contribute
        items) := by
  rw [check_eq_ok_iff] at hcheck
  -- The three kinds differ in what an element adds: its image, itself or nothing, or the elements of
  -- its image.
  match stage, hkind, hcheck with
  | .map (some f), _, hf =>
      have hloop := Elements.transform_eq_gather (visit_of_one_param context scope hf) 0
      refine ⟨f, fun items => ?_⟩
      simp only [Context.runStage, Context.required, pure_bind, hloop, Stage.kind]
  | .filter (some f), _, hf =>
      have hloop := Elements.select_eq_gather (visit_of_one_param context scope hf) 0
      refine ⟨f, fun items => ?_⟩
      simp only [Context.runStage, Context.required, pure_bind, hloop, Stage.kind]
  | .flatMap (some f), _, hf =>
      have hloop := Elements.splice_eq_gather (visit_of_one_param context scope hf) 0
      refine ⟨f, fun items => ?_⟩
      simp only [Context.runStage, Context.required, pure_bind, hloop, Stage.kind]

/-- What an array goes through is the loop of the first stage and then the other stages. -/
theorem outcome_runStages_cons {stage : Stage} (rest : List Stage) {f : Lambda}
    (hstage : ∀ items, context.runStage scope stage items = do
      return .array (← Elements.gather (fun v => context.apply scope f [v]) stage.kind.contribute
        items))
    (items : List Value) :
    (context.runStages scope (stage :: rest) (.array items)).outcome =
      (Elements.gather (fun v => context.apply scope f [v]) stage.kind.contribute items).outcome >>=
        fun ws => (context.runStages scope rest (.array ws)).outcome := by
  have hitems : (Traced.ofExcept (Value.array items).items : Traced PipelineError _) = pure items :=
    rfl
  simp only [Context.runStages, hitems, pure_bind, hstage, bind_assoc, Traced.outcome_bind]

variable {stages : List Stage}
  (hstages : ∀ stage ∈ stages, stage.kind.isElementwise = true ∧ stage.check = .ok ())
include hstages

/-- Stages that treat elements one by one make an array of an array. -/
theorem exists_array_of_runStages {xs : List Value} {v : Value}
    (h : (context.runStages scope stages (.array xs)).outcome = .ok v) : ∃ us, v = .array us := by
  induction stages generalizing xs with
  | nil =>
      cases h
      exact ⟨xs, rfl⟩
  | cons stage rest ih =>
      rw [List.forall_mem_cons] at hstages
      rcases runStage_eq_gather context scope hstages.1.1 hstages.1.2 with ⟨f, hstage⟩
      rw [outcome_runStages_cons context scope rest hstage, bind_eq_ok_iff] at h
      rcases h with ⟨ws, _, hrest⟩
      exact ih hstages.2 hrest

/-- Stages that treat elements one by one have a value on a joined array exactly if they have one on
    both pieces, and then it is made of these. -/
theorem runStages_append (xs ys : List Value) (w : Value) :
    (context.runStages scope stages (.array (xs ++ ys))).outcome = .ok w ↔
      ∃ us vs, (context.runStages scope stages (.array xs)).outcome = .ok (.array us) ∧
        (context.runStages scope stages (.array ys)).outcome = .ok (.array vs) ∧
        w = .array (us ++ vs) := by
  -- What a stage makes of the joined array is joined again, so the pieces are general.
  induction stages generalizing xs ys with
  | nil =>
      constructor
      · intro h
        cases h
        exact ⟨xs, ys, rfl, rfl, rfl⟩
      · rintro ⟨us, vs, hus, hvs, rfl⟩
        cases hus
        cases hvs
        rfl
  | cons stage rest ih =>
      rw [List.forall_mem_cons] at hstages
      have ih := ih hstages.2
      rcases runStage_eq_gather context scope hstages.1.1 hstages.1.2 with ⟨f, hstage⟩
      have hcons := outcome_runStages_cons context scope rest hstage
      -- Each part gathers its own elements, and the rest runs on what they make up.
      simp only [hcons, Elements.gather_append, Traced.outcome_bind, bind_eq_ok_iff]
      constructor
      · rintro ⟨_, ⟨us, hus, vs, hvs, heq⟩, hrest⟩
        cases heq
        rcases (ih us vs).mp hrest with ⟨us', vs', hus', hvs', rfl⟩
        exact ⟨us', vs', ⟨us, hus, hus'⟩, ⟨vs, hvs, hvs'⟩, rfl⟩
      · rintro ⟨us', vs', ⟨us, hus, hus'⟩, ⟨vs, hvs, hvs'⟩, rfl⟩
        exact ⟨us ++ vs, ⟨us, hus, vs, hvs, rfl⟩, (ih us vs).mpr ⟨us', vs', hus', hvs', rfl⟩⟩

omit hstages

/-- A pipeline over a path with an array sends that array through its stages. -/
theorem outcome_runPipeline_of_resolveArray {path : String} {xs : List Value}
    (h : context.resolveArray scope path = .ok xs) (first : Stage) (rest : List Stage) :
    (context.runPipeline scope ⟨path, first, rest⟩).outcome =
      (context.runStages scope (first :: rest) (.array xs)).outcome := by
  -- Only an array has elements, so the path has this array as its value.
  rcases bind_eq_ok_iff.mp h with ⟨v, hv, hitems⟩
  have harray : v = .array xs := by
    cases v with
    | array items =>
        cases hitems
        rfl
    | _ => cases hitems
  have hsource : (Traced.ofExcept (context.resolve scope path)).ofEval.outcome =
      .ok (.array xs) := by
    rw [← harray]
    exact hv
  rw [Context.runPipeline, Traced.outcome_bind, hsource, ok_bind]
  rfl

end Stages

/-- A pipeline whose planned stages treat elements one by one can be run piece by piece. Over an
    array that is made of two others it has a value exactly if it has one over both of them, and
    then the one value followed by the other is it. -/
theorem elementwise_pipelines_join (engine : Engine) (scope : Scope) (a b c : String)
    (xs ys : List Value) (first : Stage) (rest : List Stage)
    (ha : engine.resolveArray scope a = .ok xs) (hb : engine.resolveArray scope b = .ok ys)
    (hc : engine.resolveArray scope c = .ok (xs ++ ys))
    (hstages : ∀ stage ∈ first :: rest,
      stage.kind.isElementwise = true ∧ stage.check = .ok ()) :
    ((∃ w, (engine.runPipeline scope ⟨c, first, rest⟩).outcome = .ok w) ↔
      (∃ u, (engine.runPipeline scope ⟨a, first, rest⟩).outcome = .ok u) ∧
        ∃ v, (engine.runPipeline scope ⟨b, first, rest⟩).outcome = .ok v) ∧
    ∀ u v w, (engine.runPipeline scope ⟨a, first, rest⟩).outcome = .ok u →
      (engine.runPipeline scope ⟨b, first, rest⟩).outcome = .ok v →
      (engine.runPipeline scope ⟨c, first, rest⟩).outcome = .ok w →
      ∃ us vs, u = .array us ∧ v = .array vs ∧ w = .array (us ++ vs) := by
  -- A stage of these kinds gives an array or fails.
  have harray : ∀ {xs v}, (engine.context.runStages scope (first :: rest) (.array xs)).outcome =
      .ok v → ∃ us, v = .array us := exists_array_of_runStages engine.context scope hstages
  have hjoin := runStages_append engine.context scope hstages xs ys
  simp only [Engine.runPipeline, outcome_runPipeline_of_resolveArray engine.context scope ha,
    outcome_runPipeline_of_resolveArray engine.context scope hb,
    outcome_runPipeline_of_resolveArray engine.context scope hc]
  refine ⟨⟨?_, ?_⟩, ?_⟩
  · rintro ⟨w, hw⟩
    rcases (hjoin w).mp hw with ⟨us, vs, hus, hvs, _⟩
    exact ⟨⟨_, hus⟩, ⟨_, hvs⟩⟩
  · rintro ⟨⟨u, hu⟩, ⟨v, hv⟩⟩
    rcases harray hu with ⟨us, rfl⟩
    rcases harray hv with ⟨vs, rfl⟩
    exact ⟨_, (hjoin _).mpr ⟨us, vs, hu, hv, rfl⟩⟩
  · intro u v w hu hv hw
    rcases (hjoin w).mp hw with ⟨us, vs, hus, hvs, rfl⟩
    rw [hu] at hus
    rw [hv] at hvs
    cases hus
    cases hvs
    exact ⟨us, vs, rfl, rfl, rfl⟩

section Pieces

/-- An engine with an array of switches, one of groups of switches, and the two in one. -/
def switchesEngine : Engine :=
  .ofGlobals [
    ("single", .array [.bool true, .bool false]),
    ("grouped", .array [.array [.bool false, .bool true], .bool true]),
    ("every", .array [.bool true, .bool false, .array [.bool false, .bool true], .bool true])]

/-- The stage `flatMap(x => x)`. -/
def ungroup : Stage :=
  .flatMap (some ⟨["x"], .identifier "x"⟩)

/-- The stages `filter(x => x)` and `map(x => !x)`. -/
def invertSet : List Stage :=
  [.filter (some ⟨["x"], .identifier "x"⟩), .map (some ⟨["x"], .unary .not (.identifier "x")⟩)]

/-- Of the switches, those that are set are kept and inverted; cut in two, one comes from the first
    piece and two from the second. -/
theorem switches_join :
    (switchesEngine.runPipeline [] ⟨"single", ungroup, invertSet⟩).outcome =
      .ok (.array [.bool false]) ∧
    (switchesEngine.runPipeline [] ⟨"grouped", ungroup, invertSet⟩).outcome =
      .ok (.array [.bool false, .bool false]) ∧
    (switchesEngine.runPipeline [] ⟨"every", ungroup, invertSet⟩).outcome =
      .ok (.array ([.bool false] ++ [.bool false, .bool false])) := by
  have hstages : ∀ stage ∈ ungroup :: invertSet,
      stage.kind.isElementwise = true ∧ stage.check = .ok () := by
    intro stage hstage
    simp only [ungroup, invertSet, List.mem_cons, List.not_mem_nil, or_false] at hstage
    rcases hstage with rfl | rfl | rfl
    · exact ⟨rfl, rfl⟩
    · exact ⟨rfl, rfl⟩
    · exact ⟨rfl, rfl⟩
  have hsingle : (switchesEngine.runPipeline [] ⟨"single", ungroup, invertSet⟩).outcome =
      .ok (.array [.bool false]) := rfl
  have hgrouped : (switchesEngine.runPipeline [] ⟨"grouped", ungroup, invertSet⟩).outcome =
      .ok (.array [.bool false, .bool false]) := rfl
  have hjoin := elementwise_pipelines_join switchesEngine [] "single" "grouped" "every" _ _ ungroup
    invertSet rfl rfl rfl hstages
  refine ⟨hsingle, hgrouped, ?_⟩
  rcases hjoin.1.mpr ⟨⟨_, hsingle⟩, ⟨_, hgrouped⟩⟩ with ⟨w, hw⟩
  rcases hjoin.2 _ _ w hsingle hgrouped hw with ⟨us, vs, hus, hvs, rfl⟩
  cases hus
  cases hvs
  exact hw

end Pieces

end FieldLang

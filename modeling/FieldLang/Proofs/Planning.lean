import FieldLang.Pipeline.Run
import FieldLang.Proofs.Following
import FieldLang.Proofs.PipelineGrammar
import FieldLang.Proofs.Spelling

/-!
# What Planning Promises

Planning checks a pipeline before it is run. Three parts of the library meet here: the reader, which
makes pipelines; the plan, which checks them; and the run, which refuses a stage that lacks an
argument once it gets there.

The check asks for what `Stage.IsComplete` says, and for a path without empty segments. It asks for
enough: a pipeline with complete stages is never refused for its definition when it is run, whatever
the context is. What a run can end in is told by comparing it with itself, so the loops over elements
need no further induction. And it asks for little: what is read from a source text has all its
arguments and a proper path, so only the number of parameters of a lambda can be wrong, and the first
stage where it is gives the error.

## Main definitions

* `Stage.IsComplete`: Stages with the arguments and the parameters that they need.
* `Faults.running`: The faults that a run of complete stages can end in.

## Theorems

* `check_eq_ok_iff`, `plan_eq_ok_iff`: What is checked.
* `exists_first_of_forM`: A sequence of checks fails at the first one that does.
* `follows_runStage_self`, `follows_runStages_self`: A complete stage is not refused, and so none of
  several.
* `segments_intercalate`: The segments of a path are the names that it is written with.
* `missing?_of_derives`, `checkSource_of_derives`: What is read lacks nothing.
* `planned_pipelines_run`: All of this together.
-/

namespace FieldLang

/-- A stage has the arguments that it needs, and its lambda the parameters. -/
def Stage.IsComplete : Stage → Prop
  | .map (some f) => f.params.length = 1
  | .filter (some f) => f.params.length = 1
  | .flatMap (some f) => f.params.length = 1
  | .reduce (some f) (some _) => f.params.length = 2
  | .slice (some _) _ _ => True
  | _ => False

section Checks

variable {ε α : Type} {f : α → Except ε Unit} {as : List α}

theorem forM_eq_ok_iff : as.forM f = .ok () ↔ ∀ a ∈ as, f a = .ok () := by
  induction as with
  | nil => simp [pure, Except.pure]
  | cons a as ih =>
      rw [List.forM, bind_eq_ok_iff, List.forall_mem_cons, ← ih]
      constructor
      · rintro ⟨_, ha, has⟩
        exact ⟨ha, has⟩
      · rintro ⟨ha, has⟩
        exact ⟨(), ha, has⟩

/-- A sequence of checks fails at the first one that does. -/
theorem exists_first_of_forM {e : ε} (h : as.forM f = .error e) :
    ∃ before a after, as = before ++ a :: after ∧ (∀ b ∈ before, f b = .ok ()) ∧
      f a = .error e := by
  induction as with
  | nil => cases h
  | cons a as ih =>
      rw [List.forM] at h
      cases ha : f a with
      | error e' =>
          rw [ha] at h
          cases h
          exact ⟨[], a, as, rfl, by simp, ha⟩
      | ok _ =>
          rw [ha, ok_bind] at h
          rcases ih h with ⟨before, b, after, rfl, hbefore, hb⟩
          exact ⟨a :: before, b, after, rfl, List.forall_mem_cons.mpr ⟨ha, hbefore⟩, hb⟩

end Checks

theorem check_eq_ok_iff (stage : Stage) : stage.check = .ok () ↔ stage.IsComplete := by
  -- One case for each kind and each way in which its arguments can be there or not.
  rcases stage with (_ | _) | (_ | _) | ⟨_ | _, _ | _⟩ | ⟨_ | _, _, _⟩ | (_ | _) <;>
    simp [Stage.check, Stage.missing?, Stage.lambda?, Stage.kind, StageKind.arity?,
      Stage.IsComplete]

/-- A stage that lacks no argument can only have a lambda with the wrong number of parameters. -/
theorem wrongArity_of_check {stage : Stage} {e : PipelineError} (hmissing : stage.missing? = none)
    (h : stage.check = .error e) :
    ∃ f arity, stage.lambda? = some f ∧ stage.kind.arity? = some arity ∧ f.params.length ≠ arity ∧
      e = stage.wrongArity arity f.params.length := by
  unfold Stage.check at h
  rw [hmissing] at h
  dsimp only at h
  split at h
  · rename_i f arity hf harity
    split at h
    · cases h
    · rename_i hlength
      cases h
      exact ⟨f, arity, hf, harity, hlength, rfl⟩
  · cases h

theorem checkSource_eq_ok_iff (p : Pipeline) :
    p.checkSource = .ok () ↔ ∀ segment ∈ Text.segments p.source, segment ≠ "" := by
  have hany : (Text.segments p.source).any String.isEmpty = true ↔
      ∃ segment ∈ Text.segments p.source, segment = "" := by
    simp only [List.any_eq_true, String.isEmpty_iff]
  unfold Pipeline.checkSource
  by_cases h : (Text.segments p.source).any String.isEmpty = true
  · rw [if_pos h]
    rcases hany.mp h with ⟨segment, hmem, hempty⟩
    exact ⟨fun hok => (by cases hok), fun hall => absurd hempty (hall segment hmem)⟩
  · rw [if_neg h]
    exact ⟨fun _ segment hmem hempty => h (hany.mpr ⟨segment, hmem, hempty⟩), fun _ => rfl⟩

/-- A pipeline has a plan exactly if no segment of its path is empty and all its stages are
    complete, and the plan lists what they do in order. -/
theorem plan_eq_ok_iff (p : Pipeline) (plan : Plan) :
    p.plan = .ok plan ↔
      (∀ segment ∈ Text.segments p.source, segment ≠ "") ∧ (∀ stage ∈ p.stages, stage.IsComplete) ∧
        plan = ⟨p, p.source, p.stages.map (·.kind.description)⟩ := by
  have hstages : p.stages.forM Stage.check = .ok () ↔ ∀ stage ∈ p.stages, stage.IsComplete := by
    rw [forM_eq_ok_iff]
    exact forall₂_congr fun stage _ => check_eq_ok_iff stage
  rw [← checkSource_eq_ok_iff, ← hstages]
  constructor
  · intro h
    rcases bind_eq_ok_iff.mp h with ⟨_, hsource, h⟩
    rcases bind_eq_ok_iff.mp h with ⟨_, hchecks, heq⟩
    cases heq
    exact ⟨hsource, hchecks, rfl⟩
  · rintro ⟨hsource, hchecks, rfl⟩
    rw [Pipeline.plan, hsource, ok_bind, hchecks, ok_bind]
    rfl

/-- The faults that a run of complete stages can end in: any but the refusal of a definition. -/
def Faults.running : Faults PipelineError :=
  .only fun e => ∀ reason, e ≠ .invalidOperation reason

theorem follows_ofEval_self {α : Type} (x : Traced EvalError α) :
    Follows .running Eq x.ofEval.outcome x.ofEval.outcome := by
  unfold Traced.ofEval
  rw [Traced.outcome_mapError]
  cases x.outcome with
  | ok a => exact .ok rfl
  | error e => exact .error fun reason h => by cases h

theorem follows_take_self (bounds : Bounds) (items : List Value) :
    Follows .running Eq (bounds.take items) (bounds.take items) := by
  unfold Bounds.take
  by_cases hstep : bounds.step.getD 1 = 0
  · rw [if_pos hstep]
    exact .error fun reason h => by cases h
  · rw [if_neg hstep]
    exact .ok rfl

section Run

variable (context : Context) (scope : Scope)

theorem follows_bound_self (name : String) (x : Option Expr) :
    Follows .running Eq (context.bound scope name x).outcome
      (context.bound scope name x).outcome := by
  cases x with
  | none => exact .ok rfl
  | some e =>
      refine (follows_ofEval_self _).andThen ?_
      rintro v _ rfl
      cases v with
      | undefined => exact .ok rfl
      | null => exact .ok rfl
      | number n => exact .ok rfl
      | _ => exact .error fun reason h => by cases h

/-- A complete stage is not refused. -/
theorem follows_runStage_self {stage : Stage} (h : stage.IsComplete) (items : List Value) :
    Follows .running Eq (context.runStage scope stage items).outcome
      (context.runStage scope stage items).outcome := by
  have hitems : List.Forall₂ Eq items items := by rw [List.forall₂_eq_eq_eq]
  have hvisit : ∀ f position (v w : Value), v = w →
      Follows .running Eq (context.visit scope f position v).outcome
        (context.visit scope f position w).outcome := by
    rintro f position v _ rfl
    exact follows_ofEval_self _
  have harray : ∀ vs ws : List Value, List.Forall₂ Eq vs ws →
      Follows .running Eq (pure (.array vs) : Traced PipelineError Value).outcome
        (pure (.array ws) : Traced PipelineError Value).outcome := by
    intro vs ws hvs
    rw [List.forall₂_eq_eq_eq] at hvs
    subst hvs
    exact .ok rfl
  -- Each argument that is asked for is there, and the rest is evaluation of expressions.
  match stage, h with
  | .map (some f), _ => exact (follows_transform (hvisit f) hitems 0).andThen harray
  | .filter (some f), _ =>
      exact (follows_select (hvisit f) (fun v w hvw => by rw [hvw]) hitems 0).andThen harray
  | .flatMap (some f), _ =>
      refine (follows_splice (hvisit f) ?_ hitems 0).andThen harray
      rintro v _ rfl
      rw [List.forall₂_eq_eq_eq]
  | .reduce (some f) (some e), _ =>
      refine (follows_ofEval_self _).andThen fun a b hab => ?_
      refine follows_accumulate ?_ hitems hab 0
      rintro position a _ v _ rfl rfl
      exact follows_ofEval_self _
  | .slice (some e) stop step, _ =>
      refine (follows_bound_self context scope "start" (some e)).andThen ?_
      rintro start _ rfl
      refine (follows_bound_self context scope "end" stop).andThen ?_
      rintro stop _ rfl
      refine (follows_bound_self context scope "step" step).andThen ?_
      rintro step _ rfl
      refine Follows.andThen (follows_take_self ⟨start, stop, step⟩ items) ?_
      rintro vs _ rfl
      exact .ok rfl

/-- Nor are complete stages one after the other. -/
theorem follows_runStages_self {stages : List Stage} (h : ∀ stage ∈ stages, stage.IsComplete)
    (v : Value) :
    Follows .running Eq (context.runStages scope stages v).outcome
      (context.runStages scope stages v).outcome := by
  induction stages generalizing v with
  | nil => exact .ok rfl
  | cons stage rest ih =>
      rw [List.forall_mem_cons] at h
      have hitems : Follows .running Eq v.items v.items := by
        cases v with
        | array items => exact .ok rfl
        | _ => exact .error fun reason h => by cases h
      refine Follows.andThen hitems ?_
      rintro items _ rfl
      refine (follows_runStage_self context scope h.1 items).andThen ?_
      rintro w _ rfl
      exact ih h.2 w

/-- A pipeline of complete stages is not refused. -/
theorem runPipeline_ne_invalidOperation {p : Pipeline} (h : ∀ stage ∈ p.stages, stage.IsComplete)
    (reason : String) :
    (context.runPipeline scope p).outcome ≠ .error (.invalidOperation reason) := by
  have hself : Follows .running Eq (context.runPipeline scope p).outcome
      (context.runPipeline scope p).outcome := by
    refine (follows_ofEval_self _).andThen ?_
    rintro v _ rfl
    exact follows_runStages_self context scope h v
  intro hrefused
  exact Follows.self_iff.mp hself _ hrefused reason rfl

end Run

namespace Text

theorem splitAt_of_not_mem {separator : Char} {part : List Char} (h : separator ∉ part) :
    splitAt separator part = [part] := by
  induction part with
  | nil => rfl
  | cons c part ih =>
      rw [List.mem_cons, not_or] at h
      rw [splitAt, if_neg (Ne.symm h.1), ih h.2]

theorem splitAt_append {separator : Char} {part : List Char} (h : separator ∉ part)
    (rest : List Char) :
    splitAt separator (part ++ separator :: rest) = part :: splitAt separator rest := by
  induction part with
  | nil => rw [List.nil_append, splitAt, if_pos rfl]
  | cons c part ih =>
      rw [List.mem_cons, not_or] at h
      rw [List.cons_append, splitAt, if_neg (Ne.symm h.1), ih h.2]

/-- The segments of a path are the names that it is written with. -/
theorem segments_intercalate {first : String} {others : List String}
    (h : ∀ name ∈ first :: others, '.' ∉ name.toList) :
    segments (String.intercalate "." (first :: others)) = first :: others := by
  unfold segments
  induction others generalizing first with
  | nil =>
      rw [List.forall_mem_singleton] at h
      rw [String.intercalate_singleton, splitAt_of_not_mem h, List.map_singleton,
        String.ofList_toList]
  | cons second others ih =>
      rw [List.forall_mem_cons] at h
      have hsplit : (String.intercalate "." (first :: second :: others)).toList =
          first.toList ++ '.' :: (String.intercalate "." (second :: others)).toList := by
        rw [String.intercalate_cons_cons, String.toList_append, String.toList_append]
        simp
      rw [hsplit, splitAt_append h.1, List.map_cons, ih h.2, String.ofList_toList]

end Text

/-- A name is not empty and has no dot in it. -/
theorem dotless_of_isName {name : String} (h : Token.IsName name) :
    name ≠ "" ∧ '.' ∉ name.toList := by
  rcases h.1 with ⟨c, cs, hname, hc, hcs⟩
  constructor
  · rintro rfl
    cases hname
  · rw [hname, List.mem_cons, not_or]
    constructor
    · rintro rfl
      exact absurd hc (by decide)
    · intro hdot
      exact absurd (hcs '.' hdot) (by decide)

namespace Grammar

variable {E : List Token → Expr → Prop}

/-- What is read has all its arguments. -/
theorem missing?_of_derives {ts : List Token} {stage : Stage} (h : DerivesStage E ts stage) :
    stage.missing? = none := by
  cases h with
  | mk h => cases h <;> rfl

theorem mem_namesBy (m : Mark) (first : String) (others : List String) {name : String}
    (h : name ∈ first :: others) : .identifier name ∈ namesBy m first others := by
  rcases List.mem_cons.mp h with rfl | h
  · exact List.mem_cons_self
  · exact List.mem_cons_of_mem _ (List.mem_flatMap.mpr ⟨name, h, by simp⟩)

/-- What is read has a proper path, since it is written with names. -/
theorem checkSource_of_derives {tokens : List Token} {p : Pipeline}
    (htokens : ∀ t ∈ tokens, t.WellFormed) (h : DerivesPipeline E tokens p) :
    p.checkSource = .ok () := by
  rcases h with ⟨root, segments, chain, hsource, _⟩
  have hnames : ∀ name ∈ root :: segments, name ≠ "" ∧ '.' ∉ name.toList := by
    intro name hname
    exact dotless_of_isName (htokens (.identifier name)
      (List.mem_append_left _ (mem_namesBy .dot root segments hname)))
  rw [checkSource_eq_ok_iff, hsource,
    Text.segments_intercalate fun name hname => (hnames name hname).2]
  exact fun name hname => (hnames name hname).1

/-- A pipeline that was read and has no plan fails at the first stage whose lambda has the wrong
    number of parameters. -/
theorem first_wrongArity {tokens : List Token} {p : Pipeline} {e : PipelineError}
    (htokens : ∀ t ∈ tokens, t.WellFormed) (h : DerivesPipeline E tokens p)
    (hplan : p.plan = .error e) :
    ∃ before stage after f arity, p.stages = before ++ stage :: after ∧
      (∀ other ∈ before, other.IsComplete) ∧ stage.lambda? = some f ∧
      stage.kind.arity? = some arity ∧ f.params.length ≠ arity ∧
      e = stage.wrongArity arity f.params.length := by
  -- What was read misses no argument, so a stage can only be refused for its parameters.
  have hmissing : ∀ stage ∈ p.stages, stage.missing? = none := by
    rcases h with ⟨_, _, _, _, hstages⟩
    have hboth := hstages.flip.imp fun stage ts hts => And.intro (missing?_of_derives hts) hts
    exact ((List.forall₂_and_left _ _).mp hboth).1
  rw [Pipeline.plan, checkSource_of_derives htokens h, ok_bind] at hplan
  cases hchecks : p.stages.forM Stage.check with
  | ok _ =>
      rw [hchecks] at hplan
      cases hplan
  | error e' =>
      rw [hchecks] at hplan
      cases hplan
      -- The checks go through the stages in order and stop at the first that is refused.
      rcases exists_first_of_forM hchecks with ⟨before, stage, after, hsplit, hbefore, hstage⟩
      have hmem : stage ∈ p.stages := by simp [hsplit]
      rcases wrongArity_of_check (hmissing stage hmem) hstage with ⟨f, arity, hf, harity, hne, he⟩
      refine ⟨before, stage, after, f, arity, hsplit, ?_, hf, harity, hne, he⟩
      intro other hother
      exact (check_eq_ok_iff other).mp (hbefore other hother)

end Grammar

/-- A pipeline has a plan exactly if its path has no empty segment and its stages are complete, and
    then no run of it is refused for its definition. Of a pipeline that was read from a source text,
    only the number of parameters of a lambda can be wrong, and the first stage where it is gives
    the error. -/
theorem planned_pipelines_run (p : Pipeline) :
    (∀ plan, p.plan = .ok plan ↔
      (∀ segment ∈ Text.segments p.source, segment ≠ "") ∧ (∀ stage ∈ p.stages, stage.IsComplete) ∧
        plan = ⟨p, p.source, p.stages.map (·.kind.description)⟩) ∧
    (∀ plan, p.plan = .ok plan → ∀ (context : Context) scope reason,
      (context.runPipeline scope p).outcome ≠ .error (.invalidOperation reason)) ∧
    (∀ limit source e, Pipeline.parseWithin limit source = .ok p → p.plan = .error e →
      ∃ before stage after f arity, p.stages = before ++ stage :: after ∧
        (∀ other ∈ before, other.IsComplete) ∧ stage.lambda? = some f ∧
        stage.kind.arity? = some arity ∧ f.params.length ≠ arity ∧
        e = stage.wrongArity arity f.params.length) := by
  refine ⟨plan_eq_ok_iff p, ?_, ?_⟩
  · intro plan hplan context scope reason
    have hstages := ((plan_eq_ok_iff p plan).mp hplan).2.1
    exact runPipeline_ne_invalidOperation context scope hstages reason
  · intro limit source e hparse hplan
    rcases bind_eq_ok_iff.mp hparse with ⟨tokens, htokens, hp⟩
    exact Grammar.first_wrongArity (Token.wellFormed_of_ofSource htokens)
      (Grammar.pipeline_ofTokens_eq_ok_iff.mp hp) hplan

section Parameters

/-- The stages `map(x => x)` and `filter` with a lambda that has the parameters. -/
def mapThenFilter (params : List String) : Pipeline :=
  ⟨"a", .map (some ⟨["x"], .identifier "x"⟩), [.filter (some ⟨params, .identifier "x"⟩)]⟩

/-- With one parameter the pipeline can be run; with two the second stage is to blame. -/
theorem second_parameter_refused :
    (∃ plan, (mapThenFilter ["x"]).plan = .ok plan ∧ ∀ (context : Context) scope reason,
      (context.runPipeline scope (mapThenFilter ["x"])).outcome ≠
        .error (.invalidOperation reason)) ∧
    Pipeline.parseWithin 100 "a | map(x => x) | filter((x, y) => x)" =
      .ok (mapThenFilter ["x", "y"]) ∧
    ∃ before stage after f arity, (mapThenFilter ["x", "y"]).stages = before ++ stage :: after ∧
      (∀ other ∈ before, other.IsComplete) ∧ stage.lambda? = some f ∧
      stage.kind.arity? = some arity ∧ f.params.length ≠ arity ∧
      .invalidOperation "filter lambda must take 1 parameter, got 2" =
        stage.wrongArity arity f.params.length := by
  have hparse : Pipeline.parseWithin 100 "a | map(x => x) | filter((x, y) => x)" =
      .ok (mapThenFilter ["x", "y"]) := rfl
  have hplan : (mapThenFilter ["x"]).plan = .ok _ := rfl
  have hfault : (mapThenFilter ["x", "y"]).plan =
      .error (.invalidOperation "filter lambda must take 1 parameter, got 2") := rfl
  exact ⟨⟨_, hplan, (planned_pipelines_run (mapThenFilter ["x"])).2.1 _ hplan⟩, hparse,
    (planned_pipelines_run (mapThenFilter ["x", "y"])).2.2 100 _ _ hparse hfault⟩

end Parameters

end FieldLang

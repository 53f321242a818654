import FieldLang.Proofs.PipelineLockstep
import FieldLang.Proofs.Planning

/-!
# Cutting Pipelines

A pipeline can be cut between any two of its stages. The stages before the cut have a value; if it
is put under a fresh name, the stages after the cut, started from that name, do what they did in the
whole pipeline.

The two ways to a stage are not the same. In the whole pipeline a stage is handed a value, and after
a cut it finds one by resolving a path. The name is a path of one segment, so both give the same
value, and one that is not an array is refused by the same test. On the other hand the name is now
bound throughout the stages after the cut. Expressions see a scope only by the names that occur in
them, and this one does not.

Evaluations are compared as a whole here, with the host calls on the way and not only by their
outcomes.

## Main definitions

* `Pipeline.extend`: A pipeline with stages added at its end.
* `Scope.AgreeOn`: Scopes that bind the same values to the names in an expression.

## Theorems

* `evalAt_of_agreeOn`: An expression sees a scope only by the names in it.
* `runStage_of_agreeOn`, `runStages_of_agreeOn`: So do stages.
* `resolve_fresh`: A name is the path to what is bound to it.
* `runPipeline_extend`: A pipeline is cut where its value is.
* `pipelines_cut`: The second part of a cut pipeline can start from a name.
-/

namespace FieldLang

/-- The pipeline with stages added at its end. -/
def Pipeline.extend (p : Pipeline) (stages : List Stage) : Pipeline :=
  stages.foldl Pipeline.push p

@[simp] theorem stages_extend (p : Pipeline) (stages : List Stage) :
    (p.extend stages).stages = p.stages ++ stages := by
  induction stages generalizing p with
  | nil => exact (List.append_nil _).symm
  | cons stage rest ih =>
      show ((p.push stage).extend rest).stages = _
      rw [ih, Pipeline.stages_push, List.append_assoc, List.singleton_append]

@[simp] theorem source_extend (p : Pipeline) (stages : List Stage) :
    (p.extend stages).source = p.source := by
  induction stages generalizing p with
  | nil => rfl
  | cons stage rest ih => exact ih (p.push stage)

/-- Two scopes bind the same values to the names that occur in an expression. -/
def Scope.AgreeOn (scope scope' : Scope) (e : Expr) : Prop :=
  ∀ name, .identifier name ∈ e.parts → scope.lookup? name = scope'.lookup? name

namespace Scope.AgreeOn

variable {scope scope' : Scope} {e : Expr}

/-- Scopes that agree on an expression agree on the expressions inside it. -/
theorem part (h : scope.AgreeOn scope' e) {x : Expr} (hx : ∀ y ∈ x.parts, y ∈ e.parts) :
    scope.AgreeOn scope' x :=
  fun name hname => h name (hx _ hname)

/-- Bindings on top of both scopes leave them in agreement. -/
theorem under (h : scope.AgreeOn scope' e) (bindings : Keyed Value) :
    Scope.AgreeOn (bindings :: scope) (bindings :: scope') e := by
  intro name hname
  rw [Scope.lookup?, Scope.lookup?, h name hname]

end Scope.AgreeOn

/-- A binding of a name that does not occur in an expression is not seen by it. -/
theorem agreeOn_fresh {name : String} {e : Expr} (h : .identifier name ∉ e.parts) (v : Value)
    (scope : Scope) : Scope.AgreeOn scope ([(name, v)] :: scope) e := by
  intro other hother
  have hne : name ≠ other := by
    rintro rfl
    exact h hother
  rw [Scope.lookup?, Keyed.get?, if_neg hne, Keyed.get?, Option.none_or]

/-- Steps that are the same for each element are the same for all. -/
theorem mapM_of_forall_mem {ε α β : Type} {f g : α → Traced ε β} {as : List α}
    (h : ∀ a ∈ as, f a = g a) : as.mapM f = as.mapM g := by
  induction as with
  | nil => rfl
  | cons a as ih =>
      rw [List.forall_mem_cons] at h
      rw [List.mapM_cons, List.mapM_cons, h.1, ih h.2]

section Agreement

variable (engine : Engine) {scope scope' : Scope}

/-- An expression sees a scope only by the names that occur in it. -/
theorem evalAt_of_agreeOn (budget : Nat) {e : Expr} (h : scope.AgreeOn scope' e) :
    engine.evalAt scope budget e = engine.evalAt scope' budget e := by
  induction budget generalizing e with
  | zero => rfl
  | succ budget ih =>
      have hpart : ∀ x : Expr, (∀ y ∈ x.parts, y ∈ e.parts) →
          engine.evalAt scope budget x = engine.evalAt scope' budget x :=
        fun x hx => ih (h.part hx)
      -- Only a name looks into the scope; every other form is made of its parts.
      cases e with
      | literal v => rfl
      | identifier name =>
          have hname : scope.lookup? name = scope'.lookup? name := h name (Expr.mem_parts_self _)
          rw [Engine.evalAt, Engine.evalAt, Engine.lookup, Engine.lookup, hname]
      | member object property =>
          have hobject := hpart object fun x hx => by simp [Expr.parts, hx]
          rw [Engine.evalAt, Engine.evalAt, hobject]
      | index object key =>
          have hobject := hpart object fun x hx => by simp [Expr.parts, hx]
          have hkey := hpart key fun x hx => by simp [Expr.parts, hx]
          rw [Engine.evalAt, Engine.evalAt, hobject, hkey]
      | unary op operand =>
          have hoperand := hpart operand fun x hx => by simp [Expr.parts, hx]
          rw [Engine.evalAt, Engine.evalAt, hoperand]
      | binary op lhs rhs =>
          have hlhs := hpart lhs fun x hx => by simp [Expr.parts, hx]
          have hrhs := hpart rhs fun x hx => by simp [Expr.parts, hx]
          rw [Engine.evalAt, Engine.evalAt, hlhs, hrhs]
      | conditional condition thenBranch elseBranch =>
          have hcondition := hpart condition fun x hx => by simp [Expr.parts, hx]
          have hthen := hpart thenBranch fun x hx => by simp [Expr.parts, hx]
          have helse := hpart elseBranch fun x hx => by simp [Expr.parts, hx]
          rw [Engine.evalAt, Engine.evalAt, hcondition, hthen, helse]
      | call name args =>
          have hargs : args.mapM (engine.evalAt scope budget) =
              args.mapM (engine.evalAt scope' budget) :=
            mapM_of_forall_mem fun a ha => hpart a fun x hx => by
              simp [Expr.parts, Expr.mem_partsArgs ha hx]
          rw [Engine.evalAt, Engine.evalAt, hargs]

theorem evaluate_of_agreeOn {e : Expr} (h : scope.AgreeOn scope' e) :
    engine.context.evaluate scope e = engine.context.evaluate scope' e :=
  evalAt_of_agreeOn engine engine.maxDepth h

/-- The parameters of a lambda are bound in both scopes alike. -/
theorem apply_of_agreeOn {f : Lambda} (h : scope.AgreeOn scope' f.body) (args : List Value) :
    engine.context.apply scope f args = engine.context.apply scope' f args := by
  unfold Context.apply
  rw [evaluate_of_agreeOn engine (h.under (Context.bindings f args))]

theorem visit_of_agreeOn {f : Lambda} (h : scope.AgreeOn scope' f.body) :
    engine.context.visit scope f = engine.context.visit scope' f := by
  funext position v
  exact apply_of_agreeOn engine h [v, .ofNat position]

theorem bound_of_agreeOn (name : String) (x : Option Expr)
    (h : ∀ e ∈ x.toList, scope.AgreeOn scope' e) :
    engine.context.bound scope name x = engine.context.bound scope' name x := by
  cases x with
  | none => rfl
  | some e =>
      rw [Context.bound, Context.bound, evaluate_of_agreeOn engine (h e (by simp))]

/-- A loop over the elements calls the same function, or its lambda is missing. -/
theorem loop_of_agreeOn {stage : Stage} {what : String} {x : Option Lambda}
    (h : ∀ e ∈ (x.map Lambda.body).toList, scope.AgreeOn scope' e)
    (loop : (Nat → Value → Traced PipelineError Value) → Traced PipelineError Value) :
    (Context.required stage what x >>= fun f => loop (engine.context.visit scope f)) =
      Context.required stage what x >>= fun f => loop (engine.context.visit scope' f) := by
  cases x with
  | none => rfl
  | some f =>
      have hvisit := visit_of_agreeOn engine (h f.body (by simp))
      rw [Context.required, pure_bind, pure_bind, hvisit]

/-- A stage sees a scope only by the names that occur in its arguments. -/
theorem runStage_of_agreeOn {stage : Stage} (h : ∀ e ∈ stage.expressions, scope.AgreeOn scope' e)
    (items : List Value) :
    engine.context.runStage scope stage items = engine.context.runStage scope' stage items := by
  -- A stage evaluates its arguments and calls its lambdas, and both are the same in either scope.
  cases stage with
  | map transform =>
      exact loop_of_agreeOn engine h fun visit => do return .array (← Elements.transform visit 0 items)
  | filter predicate =>
      exact loop_of_agreeOn engine h fun visit => do return .array (← Elements.select visit 0 items)
  | flatMap transform =>
      exact loop_of_agreeOn engine h fun visit => do return .array (← Elements.splice visit 0 items)
  | reduce reducer initial =>
      cases reducer with
      | none => rfl
      | some f =>
          cases initial with
          | none => rfl
          | some e =>
              have hinitial := evaluate_of_agreeOn engine
                (h e (by simp [Stage.expressions]))
              have happly := apply_of_agreeOn engine
                (h f.body (by simp [Stage.expressions]))
              simp only [Context.runStage, Context.required, pure_bind, hinitial, happly]
  | slice start stop step =>
      have hstart := bound_of_agreeOn engine "start" start fun e he =>
        h e (by simp [Stage.expressions, Option.mem_toList.mp he])
      have hstop := bound_of_agreeOn engine "end" stop fun e he =>
        h e (by simp [Stage.expressions, Option.mem_toList.mp he])
      have hstep := bound_of_agreeOn engine "step" step fun e he =>
        h e (by simp [Stage.expressions, Option.mem_toList.mp he])
      cases start with
      | none => rfl
      | some e => simp only [Context.runStage, Context.required, pure_bind, hstart, hstop, hstep]

/-- So do stages one after the other. -/
theorem runStages_of_agreeOn {stages : List Stage}
    (h : ∀ stage ∈ stages, ∀ e ∈ stage.expressions, scope.AgreeOn scope' e) (v : Value) :
    engine.context.runStages scope stages v = engine.context.runStages scope' stages v := by
  induction stages generalizing v with
  | nil => rfl
  | cons stage rest ih =>
      rw [List.forall_mem_cons] at h
      have hstage := runStage_of_agreeOn engine h.1
      simp only [Context.runStages, hstage, ih h.2]

end Agreement

section Cut

variable (context : Context) (scope : Scope)

/-- A name is the path to what is bound to it. -/
theorem resolve_fresh {name : String} (hdot : '.' ∉ name.toList) (hname : isDenied name = false)
    (v : Value) : context.resolve ([(name, v)] :: scope) name = .ok v := by
  have hsegments : Text.segments name = [name] := by
    have h := Text.segments_intercalate (List.forall_mem_singleton.mpr hdot)
    rwa [String.intercalate_singleton] at h
  have hguard : guardKey name = .ok () := by
    rw [guardKey, hname]
    rfl
  have hlookup : Scope.lookup? name ([(name, v)] :: scope) = some v := by
    rw [Scope.lookup?, Keyed.get?, if_pos rfl, Option.some_or]
  unfold Context.resolve
  rw [hsegments]
  simp only [hguard, hlookup, Option.some_or, Option.getD_some, Context.followAll]
  rfl

theorem runStages_extend (stages others : List Stage) (v : Value) :
    context.runStages scope (stages ++ others) v =
      context.runStages scope stages v >>= context.runStages scope others := by
  induction stages generalizing v with
  | nil => exact (pure_bind v _).symm
  | cons stage rest ih => simp only [List.cons_append, Context.runStages, ih, bind_assoc]

/-- What is added to a pipeline goes on from its value. -/
theorem runPipeline_extend (p : Pipeline) (stages : List Stage) :
    context.runPipeline scope (p.extend stages) =
      context.runPipeline scope p >>= context.runStages scope stages := by
  unfold Context.runPipeline
  rw [source_extend, stages_extend, bind_assoc]
  simp only [runStages_extend]

/-- Started from a name, stages go on from what is bound to it. -/
theorem runPipeline_fresh {name : String} (hdot : '.' ∉ name.toList)
    (hname : isDenied name = false) (v : Value) (first : Stage) (rest : List Stage) :
    context.runPipeline ([(name, v)] :: scope) ⟨name, first, rest⟩ =
      context.runStages ([(name, v)] :: scope) (first :: rest) v := by
  unfold Context.runPipeline
  rw [resolve_fresh context scope hdot hname v]
  exact pure_bind v _

end Cut

/-- A pipeline can be cut at any stage. The stages after the cut can start from a fresh name that is
    bound to the value of the stages before it: the whole pipeline does what the two parts do one
    after the other, host calls included. So it fails as the first part does, and otherwise has the
    outcome of the second, which refuses a value that is not an array. -/
theorem pipelines_cut (engine : Engine) (scope : Scope) (p : Pipeline) (first : Stage)
    (rest : List Stage) (name : String) (hdot : '.' ∉ name.toList)
    (hname : isDenied name = false)
    (hfresh : ∀ stage ∈ first :: rest, .identifier name ∉ stage.parts) :
    engine.runPipeline scope (p.extend (first :: rest)) =
      engine.runPipeline scope p >>= (fun v =>
        engine.runPipeline ([(name, v)] :: scope) ⟨name, first, rest⟩) ∧
    (∀ e, (engine.runPipeline scope p).outcome = .error e →
      (engine.runPipeline scope (p.extend (first :: rest))).outcome = .error e) ∧
    (∀ v, (engine.runPipeline scope p).outcome = .ok v →
      (engine.runPipeline scope (p.extend (first :: rest))).outcome =
        (engine.runPipeline ([(name, v)] :: scope) ⟨name, first, rest⟩).outcome) ∧
    (∀ v, (engine.runPipeline scope p).outcome = .ok v → (∀ items, v ≠ .array items) →
      (engine.runPipeline scope (p.extend (first :: rest))).outcome =
        .error (.expectedArray v.typeName)) := by
  -- The stages do not mention the fresh name, so they do not notice that it is bound.
  have hagree : ∀ v, ∀ stage ∈ first :: rest, ∀ e ∈ stage.expressions,
      Scope.AgreeOn scope ([(name, v)] :: scope) e := by
    intro v stage hstage e he
    refine agreeOn_fresh (fun hmem => hfresh stage hstage ?_) v scope
    exact List.mem_flatMap.mpr ⟨e, he, hmem⟩
  have hcut : engine.runPipeline scope (p.extend (first :: rest)) =
      engine.runPipeline scope p >>= fun v =>
        engine.runPipeline ([(name, v)] :: scope) ⟨name, first, rest⟩ := by
    unfold Engine.runPipeline
    rw [runPipeline_extend]
    refine congrArg _ (funext fun v => ?_)
    -- The second part begins with the value of the first, found under the fresh name.
    rw [runPipeline_fresh engine.context scope hdot hname]
    exact runStages_of_agreeOn engine (hagree v) v
  refine ⟨hcut, ?_, ?_, ?_⟩
  · intro e he
    rw [hcut, Traced.outcome_bind, he]
    rfl
  · intro v hv
    rw [hcut, Traced.outcome_bind, hv, ok_bind]
  · intro v hv hitems
    have hrefuse : v.items = .error (.expectedArray v.typeName) := by
      cases v with
      | array items => exact absurd rfl (hitems items)
      | _ => rfl
    unfold Engine.runPipeline at hv ⊢
    rw [runPipeline_extend, Traced.outcome_bind, hv, ok_bind, Context.runStages, hrefuse]
    rfl

section Groups

/-- An engine with an array of groups, one of which is missing. -/
def groupsEngine : Engine :=
  .ofGlobals [("groups", .array [.array [.bool true, .bool false], .null])]

/-- The pipeline `groups | flatMap(g => g)`. -/
def groupMembers : Pipeline :=
  ⟨"groups", .flatMap (some ⟨["g"], .identifier "g"⟩), []⟩

/-- The stage `filter(x => !x)`. -/
def rejects : Stage :=
  .filter (some ⟨["x"], .unary .not (.identifier "x")⟩)

/-- The stage `reduce((count, x) => x, true)`. -/
def lastOne : Stage :=
  .reduce (some ⟨["count", "x"], .identifier "x"⟩) (some (.literal (.bool true)))

/-- Cut after its first stage, a pipeline goes on from the name of the variable it started from,
    which is now bound to the members. What the last stage gives is no array, so nothing can be
    added after it. -/
theorem groupMembers_cut :
    '.' ∉ "groups".toList ∧ isDenied "groups" = false ∧
    (∀ stage ∈ [rejects, lastOne], .identifier "groups" ∉ stage.parts) ∧
    (groupsEngine.runPipeline [] (groupMembers.extend [rejects, lastOne])).outcome = .ok .null ∧
    (groupsEngine.runPipeline
      [[("groups", .array [.bool true, .bool false, .null])]]
      ⟨"groups", rejects, [lastOne]⟩).outcome = .ok .null ∧
    (groupsEngine.runPipeline [] ((groupMembers.extend [rejects, lastOne]).extend [rejects])).outcome =
      .error (.expectedArray "null") := by
  have hdot : '.' ∉ "groups".toList := by decide
  have hfresh : ∀ stage ∈ [rejects, lastOne], .identifier "groups" ∉ stage.parts := by
    simp [rejects, lastOne, Stage.parts, Stage.expressions, Expr.parts]
  have hmembers : (groupsEngine.runPipeline [] groupMembers).outcome =
      .ok (.array [.bool true, .bool false, .null]) := rfl
  have hwhole : (groupsEngine.runPipeline [] (groupMembers.extend [rejects, lastOne])).outcome =
      .ok .null := rfl
  have hcut := pipelines_cut groupsEngine [] groupMembers rejects [lastOne] "groups" hdot rfl hfresh
  have hrefused := pipelines_cut groupsEngine [] (groupMembers.extend [rejects, lastOne]) rejects []
    "groups" hdot rfl (List.forall_mem_singleton.mpr (hfresh rejects (by simp)))
  refine ⟨hdot, rfl, hfresh, hwhole, ?_, ?_⟩
  · rw [← hcut.2.2.1 _ hmembers, hwhole]
  · exact hrefused.2.2.2 .null hwhole (by simp)

end Groups

end FieldLang

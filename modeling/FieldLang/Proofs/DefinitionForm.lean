import FieldLang.Pipeline.Definition
import FieldLang.Proofs.NumberText
import FieldLang.Proofs.PipelineRoundTrip

/-!
# Pipelines in Definition Form

A pipeline can be written in two ways: as source text, and as the nested objects of a mapping definition.
The two describe the same pipelines. What is read from a source can be put into definition form, and
decoding that form gives the pipeline again.

Definition form names each operation and gives its arguments under fields of their own. Bodies and bounds
are the printed texts of their expressions, so decoding reads them again; the initial value of a reduction
is a plain value, so only a literal can be given. Each object holds the one of the stage before it, and the
innermost holds the path. So the form is built from the first stage outwards, as decoding adds stages at
the end.

## Main definitions

* `Expr.literal?`, `Stage.initial?`: The value of a literal, and the initial value of a reduction.
* `Expr.definition`, `Lambda.definition`: Expressions and lambdas in definition form.
* `Stage.arguments`, `Stage.definition`: The arguments of a stage, and the stage, in definition form.
* `Pipeline.definition`: A pipeline in definition form.
* `Stage.Decodable`: Stages that definition form keeps.

## Theorems

* `Lambda.ofValue_definition`, `Stage.ofFields_definition`: Lambdas and stages are decoded.
* `Pipeline.ofValue_foldl_definition`: Stages around a definition form are added to its pipeline.
* `Pipeline.ofValue_definition_of_decodable`: A pipeline is decoded if its stages are.
* `Grammar.forall_expressions_of_derivesPipeline`: The expressions of a pipeline are derived.
* `definition_decodes`: What was read from a source is decoded from its definition form.
-/

namespace FieldLang

/-- The value of a literal. -/
def Expr.literal? : Expr → Option Value
  | .literal v => some v
  | _ => none

/-- The initial value of a reduction, as an expression. -/
def Stage.initial? : Stage → Option Expr
  | .reduce _ initial => initial
  | _ => none

/-- A field with a value, if there is one. -/
def fieldOf (key : String) (v : Option Value) : List (String × Value) :=
  (v.map fun v => (key, v)).toList

/-- An expression in definition form: its text. -/
def Expr.definition (e : Expr) : Value :=
  .string e.render

/-- A lambda in definition form: its parameters, and its body as text. -/
def Lambda.definition (f : Lambda) : Value :=
  .object [("params", .array (f.params.map .string)), ("body", f.body.definition)]

namespace Stage

/-- The fields for the arguments of a stage. An argument that is missing has no field. -/
def arguments : Stage → List (String × Value)
  | .map transform => fieldOf "transform" (transform.map Lambda.definition)
  | .filter predicate => fieldOf "predicate" (predicate.map Lambda.definition)
  | .flatMap transform => fieldOf "transform" (transform.map Lambda.definition)
  | .reduce reducer initial =>
    fieldOf "reducer" (reducer.map Lambda.definition) ++ fieldOf "initial" (initial.bind Expr.literal?)
  | .slice start stop step =>
    fieldOf "start" (start.map Expr.definition) ++ fieldOf "end" (stop.map Expr.definition) ++
      fieldOf "step" (step.map Expr.definition)

/-- The fields of a stage in definition form, given what its array is. -/
def definition (array : Value) (stage : Stage) : List (String × Value) :=
  ("op", .string stage.kind.name) :: ("array", array) :: stage.arguments

end Stage

namespace Pipeline

/-- A pipeline in definition form: the object of the last stage, with that of each stage before it as its
    array, and the path as the array of the first. -/
def definition (p : Pipeline) : Value :=
  .object (p.rest.foldl (fun before stage => stage.definition (.object before))
    (p.first.definition (.string p.source)))

end Pipeline

/-- A field is decoded as what it was made of, and is missing if there was nothing. -/
theorem optionalField_eq {α : Type} {decode : Value → Except PipelineError α} {encode : α → Value}
    {key : String} {fields : List (String × Value)} {a : Option α}
    (hfield : Keyed.get? key fields = a.map encode) (h : ∀ x ∈ a, decode (encode x) = .ok x) :
    optionalField decode key fields = .ok a := by
  rw [optionalField, hfield]
  cases a with
  | none => rfl
  | some x =>
      rw [Option.map_some]
      simp only [h x rfl]
      rfl

/-- An expression is decoded from its text. -/
theorem Expr.exprOfValue_definition {e : Expr} (h : Expr.parse e.render = .ok e) :
    exprOfValue e.definition = .ok e := by
  rw [Expr.definition, exprOfValue, h]
  rfl

namespace Lambda

theorem paramOfValue_mapM (params : List String) :
    (params.map Value.string).mapM paramOfValue = .ok params := by
  induction params with
  | nil => rfl
  | cons param params ih =>
      rw [List.map_cons, List.mapM_cons, ih]
      rfl

/-- A lambda is decoded from its definition form. -/
theorem ofValue_definition {f : Lambda} (h : Expr.parse f.body.render = .ok f.body) :
    Lambda.ofValue f.definition = .ok f := by
  have hparams : Lambda.paramsOfValue f.definition = .ok f.params := paramOfValue_mapM f.params
  have hbody : f.definition.field? "body" = some f.body.definition := rfl
  rw [Lambda.ofValue, hparams, ok_bind, hbody]
  simp only [Expr.exprOfValue_definition h]
  rfl

/-- The field of a lambda is decoded. -/
theorem optionalField_definition {f : Option Lambda} {key : String} {fields : List (String × Value)}
    (hfield : Keyed.get? key fields = f.map definition)
    (h : ∀ e ∈ (f.map body).toList, Expr.parse e.render = .ok e) :
    optionalField Lambda.ofValue key fields = .ok f := by
  refine optionalField_eq hfield fun g hg => ofValue_definition (h g.body ?_)
  rw [Option.mem_def.mp hg]
  exact List.mem_singleton_self _

end Lambda

/-- The field of an expression is decoded. -/
theorem Expr.optionalField_definition {x : Option Expr} {key : String}
    {fields : List (String × Value)} (hfield : Keyed.get? key fields = x.map Expr.definition)
    (h : ∀ e ∈ x.toList, Expr.parse e.render = .ok e) :
    optionalField exprOfValue key fields = .ok x :=
  optionalField_eq hfield fun e he => exprOfValue_definition (h e (Option.mem_toList.mpr he))

namespace Stage

/-- Where an initial value is a literal, it is the literal of its value. -/
theorem map_literal_literal? {initial : Option Expr} (h : ∀ e ∈ initial, ∃ v, e = .literal v) :
    (initial.bind Expr.literal?).map .literal = initial := by
  cases initial with
  | none => rfl
  | some e =>
      obtain ⟨v, rfl⟩ := h e rfl
      rfl

/-- Definition form keeps a stage: its texts are read as its expressions, and its initial value is a
    literal. -/
structure Decodable (stage : Stage) : Prop where
  reads : ∀ e ∈ stage.expressions, Expr.parse e.render = .ok e
  initial : ∀ e ∈ stage.initial?, ∃ v, e = .literal v

/-- A stage is decoded from its definition form. -/
theorem ofFields_definition {stage : Stage} (h : stage.Decodable) (array : Value) :
    Stage.ofFields stage.kind (stage.definition array) = .ok stage := by
  obtain ⟨hread, hinitial⟩ := h
  -- No argument has a key of the fields before it, so each is found wherever it stands.
  cases stage with
  | map f =>
      have hfield : Keyed.get? "transform" ((Stage.map f).definition array) =
          f.map Lambda.definition := by
        cases f <;> rfl
      simp only [kind, Stage.ofFields, Lambda.optionalField_definition hfield hread]
      rfl
  | filter f =>
      have hfield : Keyed.get? "predicate" ((Stage.filter f).definition array) =
          f.map Lambda.definition := by
        cases f <;> rfl
      simp only [kind, Stage.ofFields, Lambda.optionalField_definition hfield hread]
      rfl
  | flatMap f =>
      have hfield : Keyed.get? "transform" ((Stage.flatMap f).definition array) =
          f.map Lambda.definition := by
        cases f <;> rfl
      simp only [kind, Stage.ofFields, Lambda.optionalField_definition hfield hread]
      rfl
  | reduce f initial =>
      rw [expressions, List.forall_mem_append] at hread
      have hreducer : Keyed.get? "reducer" ((Stage.reduce f initial).definition array) =
          f.map Lambda.definition := by
        cases f <;> cases hv : initial.bind Expr.literal? <;>
          simp [definition, arguments, fieldOf, hv, Keyed.get?]
      have hvalue : Keyed.get? "initial" ((Stage.reduce f initial).definition array) =
          initial.bind Expr.literal? := by
        cases f <;> cases hv : initial.bind Expr.literal? <;>
          simp [definition, arguments, fieldOf, hv, Keyed.get?]
      -- The initial value is written as it is, so it has to be a literal to come back.
      have hliteral : (initial.bind Expr.literal?).map .literal = initial :=
        map_literal_literal? hinitial
      simp only [kind, Stage.ofFields, Lambda.optionalField_definition hreducer hread.1, hvalue]
      rw [hliteral]
      rfl
  | slice start stop step =>
      rw [expressions, List.forall_mem_append, List.forall_mem_append] at hread
      have hbounds :
          Keyed.get? "start" ((Stage.slice start stop step).definition array) =
              start.map Expr.definition ∧
            Keyed.get? "end" ((Stage.slice start stop step).definition array) =
              stop.map Expr.definition ∧
            Keyed.get? "step" ((Stage.slice start stop step).definition array) =
              step.map Expr.definition := by
        cases start <;> cases stop <;> cases step <;> exact ⟨rfl, rfl, rfl⟩
      simp only [kind, Stage.ofFields, Expr.optionalField_definition hbounds.1 hread.1,
        Expr.optionalField_definition hbounds.2.1 hread.2.1,
        Expr.optionalField_definition hbounds.2.2 hread.2.2]
      rfl

end Stage

namespace Pipeline

/-- Where a stage starts from a path, its definition form says so. -/
theorem before_definition_path (stage : Stage) (path : String) :
    before stage.kind (stage.definition (.string path)) = .ok (.path path) := by
  rw [Stage.definition, before, if_neg (by decide), before, if_pos rfl]

/-- Where a stage starts from a pipeline that is decoded, so does its definition form. -/
theorem before_definition_pipeline (stage : Stage) {fields : List (String × Value)} {p : Pipeline}
    (h : ofValue (.object fields) = .ok p) :
    before stage.kind (stage.definition (.object fields)) = .ok (.pipeline p) := by
  rw [Stage.definition, before, if_neg (by decide), before, if_pos rfl]
  simp only [h]
  rfl

/-- A stage in definition form is decoded as that stage after what its array denotes. -/
theorem ofValue_definition {stage : Stage} (h : stage.Decodable) {array : Value} {source : Source}
    (harray : before stage.kind (stage.definition array) = .ok source) :
    ofValue (.object (stage.definition array)) = .ok (source.then stage) := by
  have hkind : StageKind.ofFields (stage.definition array) = .ok stage.kind := by
    simp [StageKind.ofFields, Stage.definition, Keyed.get?, StageKind.ofName?_name]
  rw [ofValue, hkind, ok_bind, harray, ok_bind, Stage.ofFields_definition h array]
  rfl

/-- Stages around a definition form that is decoded are added to the end of its pipeline. -/
theorem ofValue_foldl_definition {stages : List Stage} (hstages : ∀ stage ∈ stages, stage.Decodable)
    {fields : List (String × Value)} {p : Pipeline} (h : ofValue (.object fields) = .ok p) :
    ofValue (.object (stages.foldl (fun before stage => stage.definition (.object before)) fields)) =
      .ok { p with rest := p.rest ++ stages } := by
  -- The next stage goes around the form, and so the pipeline that the form stands for grows.
  induction stages generalizing fields p with
  | nil => rw [List.foldl_nil, List.append_nil, h]
  | cons stage stages ih =>
      rw [List.forall_mem_cons] at hstages
      have hstage := ofValue_definition hstages.1 (before_definition_pipeline stage h)
      rw [List.foldl_cons, ih hstages.2 hstage]
      simp [Source.then, push]

/-- A pipeline is decoded from its definition form. -/
theorem ofValue_definition_of_decodable {p : Pipeline} (h : ∀ stage ∈ p.stages, stage.Decodable) :
    ofValue p.definition = .ok p := by
  rw [stages, List.forall_mem_cons] at h
  have hfirst := ofValue_definition h.1 (before_definition_path p.first p.source)
  rw [definition, ofValue_foldl_definition h.2 hfirst]
  rfl

end Pipeline

namespace Grammar

section Expressions

variable {E : List Token → Expr → Prop} {P : Expr → Prop} {ts : List Token}
  (hP : ∀ us e, us ⊆ ts → E us e → P e)

include hP

/-- What holds of all expressions that some of the tokens derive holds of those of a stage. -/
theorem forall_expressions_of_derivesArgs {stage : Stage} (h : DerivesArgs E ts stage) :
    ∀ e ∈ stage.expressions, P e := by
  have hlambda : ∀ {us f}, us ⊆ ts → DerivesLambda E us f → P f.body := by
    rintro us f hus ⟨hp, hb⟩
    exact hP _ _ (fun t ht => hus (by simp [ht])) hb
  cases h with
  | map h => exact List.forall_mem_singleton.mpr (hlambda (List.Subset.refl _) h)
  | filter h => exact List.forall_mem_singleton.mpr (hlambda (List.Subset.refl _) h)
  | flatMap h => exact List.forall_mem_singleton.mpr (hlambda (List.Subset.refl _) h)
  | reduce h he =>
      exact List.forall_mem_cons.mpr
        ⟨hlambda (by simp) h, List.forall_mem_singleton.mpr (hP _ _ (by simp) he)⟩
  | sliceFrom h => exact List.forall_mem_singleton.mpr (hP _ _ (List.Subset.refl _) h)
  | sliceTo h hstop =>
      exact List.forall_mem_cons.mpr
        ⟨hP _ _ (by simp) h, List.forall_mem_singleton.mpr (hP _ _ (by simp) hstop)⟩
  | sliceBy h hstop hstep =>
      refine List.forall_mem_cons.mpr ⟨hP _ _ (by simp) h, List.forall_mem_cons.mpr ⟨?_, ?_⟩⟩
      · exact hP _ _ (fun t ht => by simp [ht]) hstop
      · exact List.forall_mem_singleton.mpr (hP _ _ (fun t ht => by simp [ht]) hstep)

theorem forall_expressions_of_derivesStage {stage : Stage} (h : DerivesStage E ts stage) :
    ∀ e ∈ stage.expressions, P e := by
  cases h with
  | mk h =>
      exact forall_expressions_of_derivesArgs
        (fun us e hus => hP us e fun t ht => by simp [hus ht]) h

/-- What holds of all expressions that some of the tokens derive holds of those of a pipeline. -/
theorem forall_expressions_of_derivesPipeline {p : Pipeline} (h : DerivesPipeline E ts p) :
    ∀ stage ∈ p.stages, ∀ e ∈ stage.expressions, P e := by
  rcases h with ⟨root, segments, chain, -, hstages⟩
  replace hP : ∀ us e, us ⊆ chainTokens chain → E us e → P e := fun us e hus =>
    hP us e fun t ht => List.mem_append_right _ (hus ht)
  generalize p.stages = stages at hstages
  -- Each link of the chain has tokens of its own, all of them among those of the pipeline.
  induction chain generalizing stages with
  | nil =>
      cases hstages
      simp
  | cons link chain ih =>
      rcases link with ⟨separator, vs⟩
      cases hstages with
      | cons hstage hmore =>
          rw [List.forall_mem_cons]
          refine ⟨forall_expressions_of_derivesStage (fun us e hus => ?_) hstage, ih ?_ _ hmore⟩
          · exact hP us e fun t ht => by simp [hus ht]
          · exact fun us e hus => hP us e fun t ht => by simp [hus ht]

end Expressions

/-- An expression that was read from a source, with finite numbers, is read again from its text. -/
theorem parse_render_of_exprWithin {us : List Token} (hus : ∀ t ∈ us, t.WellFormed) {e : Expr}
    (h : ExprWithin Expr.defaultDepth us e) (hfinite : ∀ n ∈ e.numbers, n.isFinite = true) :
    Expr.parse e.render = .ok e := by
  have hlegible : e.Legible := legible_of_derivesWithin h hus
  have hnesting : e.nesting ≤ Expr.defaultDepth :=
    Nat.le_trans (Expr.le_deepen _ e _) (nesting_le_of_derivesWithin h)
  exact Expr.parseWithin_render_of_finite hlegible hfinite hnesting

end Grammar

/-- What is read from a source as a pipeline is decoded from its definition form, if its numbers are
    finite and its initial values are literals. -/
theorem definition_decodes (source : String) (p : Pipeline) (h : Pipeline.parse source = .ok p)
    (hfinite : ∀ n ∈ p.numbers, n.isFinite = true)
    (hinitial : ∀ stage ∈ p.stages, ∀ e ∈ stage.initial?, ∃ v, e = .literal v) :
    Pipeline.ofValue p.definition = .ok p := by
  rw [Pipeline.parse, Pipeline.parseWithin, bind_eq_ok_iff] at h
  obtain ⟨tokens, hsource, htokens⟩ := h
  rw [Grammar.pipeline_ofTokens_eq_ok_iff] at htokens
  have hwell := Token.wellFormed_of_ofSource hsource
  -- Every expression was read from some of the tokens, so what was read from tokens reads back.
  have hback : ∀ stage ∈ p.stages, ∀ e ∈ stage.expressions,
      (∀ n ∈ e.numbers, n.isFinite = true) → Expr.parse e.render = .ok e :=
    Grammar.forall_expressions_of_derivesPipeline (fun us e hus he =>
      Grammar.parse_render_of_exprWithin (fun t ht => hwell t (hus ht)) he) htokens
  refine Pipeline.ofValue_definition_of_decodable fun stage hstage => ⟨fun e he => ?_, ?_⟩
  · refine hback stage hstage e he fun n hn => hfinite n ?_
    exact List.mem_flatMap.mpr ⟨stage, hstage, List.mem_flatMap.mpr ⟨e, he, hn⟩⟩
  · exact hinitial stage hstage

/-- A pipeline with a predicate, two of three bounds and a reduction. -/
def openTotals : Pipeline where
  source := "orders.open"
  first := .filter (some
    ⟨["o"], .binary .greaterThan (.member (.identifier "o") "total") (.literal (.number 1.5))⟩)
  rest :=
    [.slice (some (.literal (.number 1))) (some (.unary .negate (.literal (.number 2)))) none,
     .reduce (some ⟨["s", "o"], .binary .add (.identifier "s") (.member (.identifier "o") "total")⟩)
      (some (.literal (.number 0)))]

/-- Three stages become three objects, the last one outermost, and are decoded from them. -/
theorem open_totals_decode :
    Pipeline.parse
        "orders.open.filter((o) => o.total > 1.5).slice(1, -2) | reduce((s, o) => s + o.total, 0)" =
      .ok openTotals ∧
    openTotals.definition = .object
      [("op", .string "reduce"),
       ("array", .object
         [("op", .string "slice"),
          ("array", .object
            [("op", .string "filter"), ("array", .string "orders.open"),
             ("predicate", .object
               [("params", .array [.string "o"]), ("body", .string "o.total > 1.5")])]),
          ("start", .string "1"), ("end", .string "-2")]),
       ("reducer", .object
         [("params", .array [.string "s", .string "o"]), ("body", .string "s + o.total")]),
       ("initial", .number 0)] ∧
    Pipeline.ofValue openTotals.definition = .ok openTotals := by
  have hparse : Pipeline.parse
      "orders.open.filter((o) => o.total > 1.5).slice(1, -2) | reduce((s, o) => s + o.total, 0)" =
        .ok openTotals := rfl
  have hfinite : ∀ n ∈ openTotals.numbers, n.isFinite = true := by decide +kernel
  have hinitial : ∀ stage ∈ openTotals.stages, ∀ e ∈ stage.initial?, ∃ v, e = .literal v := by
    simp [openTotals, Pipeline.stages, Stage.initial?]
  exact ⟨hparse, rfl, definition_decodes _ _ hparse hfinite hinitial⟩

end FieldLang

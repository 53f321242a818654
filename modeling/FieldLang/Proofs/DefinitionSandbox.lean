import FieldLang.Computed.Definition
import FieldLang.Proofs.PipelineLockstep
import FieldLang.Proofs.Reading

/-!
# The Sandbox and Definitions

Which functions of the host a computed field can reach, when it is given as a definition.

A definition holds texts and values. The texts are read as expressions, and no source text writes a
reference to a function, so all references among the literals of a decoded field are references of
the definition itself. If none of them is to a function under a denied name, and none in the data
is, then no callback reaches such a function.

Expressions refuse to name a denied key. The form that calls a function by name does not: it hands
the name to the engine as it is. So what a computed field can reach are the functions under names
that are not denied, and in addition those that its own forms call, whatever their names are. A
definition that calls a denied name in this way gets the result of the function that is registered
there, where the same call in an expression is refused.

## Main definitions

* `Expr.RefersOnly`, `Computed.RefersOnly`: Literals that refer to allowed functions only.
* `View.harmless`: The exact view of values that refer to no function under a denied name.
* `HostFunction.IsHarmless`: Functions of the host that hand out no such reference.
* `Computed.Reaches`: The functions that a computed field can reach.

## Theorems

* `references_of_derivesWithin`: What is read from tokens refers to no function.
* `refersOnly_pipeline`, `refersOnly_computed`: Decoding adds no references.
* `computed_depends_on_reached_functions`: The value of a computed field depends on the functions
  that it reaches, and on no others.
* `denied_name_is_called`: A form can call a function under a denied name.
-/

namespace FieldLang

namespace Grammar

/-- All expressions in a part, at any depth. -/
def Part.parts : Part → List Expr
  | .expr _ e => e.parts
  | .arguments args => Expr.partsArgs args

theorem references_of_atom? {t : Token} {e : Expr} (h : t.atom? = some e) {v : Value}
    (hv : .literal v ∈ e.parts) : v.references = [] := by
  cases t with
  | identifier name =>
      cases h
      simp [Expr.parts] at hv
  | operator op => cases h
  | mark m => cases h
  | eof => cases h
  | _ =>
      cases h
      rw [Expr.parts, List.mem_singleton] at hv
      cases hv
      rfl

/-- What is read from tokens refers to no function. -/
theorem references_of_derivesWithin {n : Nat} {ts : List Token} {p : Part}
    (h : DerivesWithin n ts p) {v : Value} (hv : .literal v ∈ p.parts) : v.references = [] := by
  -- Only atoms are literals; every other form is made of its parts.
  induction h with
  | tighter _ _ ih => exact ih hv
  | conditional _ _ _ ihc iht ihe =>
      simp only [Part.parts, Expr.parts, List.mem_cons, reduceCtorEq, false_or,
        List.mem_append] at hv
      rcases hv with hv | hv | hv
      · exact ihc hv
      · exact iht hv
      · exact ihe hv
  | binary _ _ ihl ihr =>
      simp only [Part.parts, Expr.parts, List.mem_cons, reduceCtorEq, false_or,
        List.mem_append] at hv
      rcases hv with hv | hv
      · exact ihl hv
      · exact ihr hv
  | unary _ ih =>
      simp only [Part.parts, Expr.parts, List.mem_cons, reduceCtorEq, false_or] at hv
      exact ih hv
  | member _ _ ih =>
      simp only [Part.parts, Expr.parts, List.mem_cons, reduceCtorEq, false_or] at hv
      exact ih hv
  | index _ _ iho ihk =>
      simp only [Part.parts, Expr.parts, List.mem_cons, reduceCtorEq, false_or,
        List.mem_append] at hv
      rcases hv with hv | hv
      · exact iho hv
      · exact ihk hv
  | call _ _ _ iha =>
      simp only [Part.parts, Expr.parts, List.mem_cons, reduceCtorEq, false_or] at hv
      exact iha hv
  | atom h => exact references_of_atom? h hv
  | group _ ih => exact ih hv
  | noArgument => cases hv
  | lastArgument _ ih =>
      simp only [Part.parts, Expr.partsArgs, List.append_nil] at hv
      exact ih hv
  | nextArgument _ _ ih iha =>
      rw [Part.parts, Expr.partsArgs, List.mem_append] at hv
      rcases hv with hv | hv
      · exact ih hv
      · exact iha hv

end Grammar

theorem mapError_eq_ok_iff {ε ε' α : Type} {f : ε → ε'} {x : Except ε α} {a : α} :
    x.mapError f = .ok a ↔ x = .ok a := by
  cases x <;> simp [Except.mapError]

/-- The literals among some expressions refer to allowed functions only. -/
def Expr.RefersOnly (allowed : String → Prop) (es : List Expr) : Prop :=
  ∀ v, .literal v ∈ es → ∀ name ∈ v.references, allowed name

/-- The literals in the arguments of a stage refer to allowed functions only. -/
def Stage.RefersOnly (allowed : String → Prop) (stage : Stage) : Prop :=
  ∀ e ∈ stage.expressions, Expr.RefersOnly allowed e.parts

/-- The literals that a computed field holds, its parts aside, refer to allowed functions only. -/
def Computed.RefersOnly (allowed : String → Prop) : Computed → Prop
  | .source e => Expr.RefersOnly allowed e.parts
  | .literal v => ∀ name ∈ v.references, allowed name
  | .pipeline p => Expr.RefersOnly allowed p.parts
  | _ => True

/-- The stages of what a stage starts from. -/
def Pipeline.Source.stages : Pipeline.Source → List Stage
  | .path _ => []
  | .pipeline p => p.stages

theorem stages_then (source : Pipeline.Source) (stage : Stage) :
    (source.then stage).stages = source.stages ++ [stage] := by
  cases source <;> rfl

section Decoding

variable {allowed : String → Prop}

theorem refersOnly_parseWithin {limit : Nat} {source : String} {e : Expr}
    (h : Expr.parseWithin limit source = .ok e) : Expr.RefersOnly allowed e.parts := by
  rw [Expr.parseWithin, bind_eq_ok_iff] at h
  rcases h with ⟨tokens, _, htokens⟩
  rw [Grammar.ofTokens_eq_ok_iff] at htokens
  intro v hv name hname
  rw [Grammar.references_of_derivesWithin htokens hv] at hname
  cases hname

/-- An expression given as a value refers to what the value refers to. -/
theorem refersOnly_exprOfValue {v : Value} {e : Expr}
    (hv : ∀ name ∈ v.references, allowed name) (h : exprOfValue v = .ok e) :
    Expr.RefersOnly allowed e.parts := by
  cases v with
  | string source => exact refersOnly_parseWithin (mapError_eq_ok_iff.mp h)
  | _ =>
      cases h
      intro w hw
      rw [Expr.parts, List.mem_singleton] at hw
      cases hw
      exact hv

theorem references_of_field? {v w : Value} {key : String} (hv : ∀ name ∈ v.references, allowed name)
    (h : v.field? key = some w) : ∀ name ∈ w.references, allowed name := by
  cases v with
  | object fields => exact fun name hname => hv name (Value.mem_fieldReferences_of_get? h hname)
  | _ => cases h

theorem refersOnly_lambda {v : Value} {f : Lambda} (hv : ∀ name ∈ v.references, allowed name)
    (h : Lambda.ofValue v = .ok f) : Expr.RefersOnly allowed f.body.parts := by
  rw [Lambda.ofValue, bind_eq_ok_iff] at h
  rcases h with ⟨params, _, h⟩
  cases hbody : v.field? "body" with
  | none =>
      rw [hbody] at h
      cases h
  | some body =>
      rw [hbody] at h
      rcases bind_eq_ok_iff.mp h with ⟨e, he, hf⟩
      cases hf
      exact refersOnly_exprOfValue (references_of_field? hv hbody) he

/-- What a field decodes to refers to what the object refers to. -/
theorem refersOnly_optionalField {α : Type} {decode : Value → Except PipelineError α}
    (body : α → Expr)
    (hdecode : ∀ {v a}, (∀ name ∈ v.references, allowed name) → decode v = .ok a →
      Expr.RefersOnly allowed (body a).parts)
    {fields : List (String × Value)} (hfields : ∀ name ∈ Value.fieldReferences fields, allowed name)
    {key : String} {x : Option α} (h : optionalField decode key fields = .ok x) :
    ∀ e ∈ (x.map body).toList, Expr.RefersOnly allowed e.parts := by
  unfold optionalField at h
  -- A field that is missing brings in nothing.
  cases hkey : Keyed.get? key fields with
  | none =>
      rw [hkey] at h
      cases h
      intro e he
      cases he
  | some v =>
      rw [hkey] at h
      rcases bind_eq_ok_iff.mp h with ⟨a, ha, hx⟩
      cases hx
      intro e he
      rw [Option.map_some, Option.toList_some, List.mem_singleton] at he
      subst he
      exact hdecode (fun name hname =>
        hfields name (Value.mem_fieldReferences_of_get? hkey hname)) ha

/-- The arguments of a stage refer to what its object refers to. -/
theorem refersOnly_stage {kind : StageKind} {fields : List (String × Value)} {stage : Stage}
    (hfields : ∀ name ∈ Value.fieldReferences fields, allowed name)
    (h : Stage.ofFields kind fields = .ok stage) : stage.RefersOnly allowed := by
  have hlambda : ∀ {key : String} {x : Option Lambda},
      optionalField Lambda.ofValue key fields = .ok x →
      ∀ e ∈ (x.map Lambda.body).toList, Expr.RefersOnly allowed e.parts := fun hx =>
    refersOnly_optionalField Lambda.body refersOnly_lambda hfields hx
  have hbound : ∀ {key : String} {x : Option Expr},
      optionalField exprOfValue key fields = .ok x →
      ∀ e ∈ x.toList, Expr.RefersOnly allowed e.parts := by
    intro key x hx
    have hmap := refersOnly_optionalField id refersOnly_exprOfValue hfields hx
    rwa [Option.map_id] at hmap
  -- Each kind decodes its own fields, one after the other.
  cases kind with
  | map =>
      rcases bind_eq_ok_iff.mp h with ⟨transform, htransform, hstage⟩
      cases hstage
      exact hlambda htransform
  | filter =>
      rcases bind_eq_ok_iff.mp h with ⟨predicate, hpredicate, hstage⟩
      cases hstage
      exact hlambda hpredicate
  | flatMap =>
      rcases bind_eq_ok_iff.mp h with ⟨transform, htransform, hstage⟩
      cases hstage
      exact hlambda htransform
  | reduce =>
      rcases bind_eq_ok_iff.mp h with ⟨reducer, hreducer, hstage⟩
      cases hstage
      intro e he
      rw [Stage.expressions, List.mem_append] at he
      rcases he with he | he
      · exact hlambda hreducer e he
      · -- The initial value is not read as source: it stands for itself.
        cases hinitial : Keyed.get? "initial" fields with
        | none =>
            rw [hinitial] at he
            cases he
        | some v =>
            rw [hinitial, Option.map_some, Option.toList_some, List.mem_singleton] at he
            subst he
            intro w hw name hname
            rw [Expr.parts, List.mem_singleton] at hw
            cases hw
            exact hfields name (Value.mem_fieldReferences_of_get? hinitial hname)
  | slice =>
      rcases bind_eq_ok_iff.mp h with ⟨start, hstart, h⟩
      rcases bind_eq_ok_iff.mp h with ⟨stop, hstop, h⟩
      rcases bind_eq_ok_iff.mp h with ⟨step, hstep, hstage⟩
      cases hstage
      intro e he
      rw [Stage.expressions, List.mem_append, List.mem_append] at he
      rcases he with he | he | he
      · exact hbound hstart e he
      · exact hbound hstop e he
      · exact hbound hstep e he

-- A pipeline is decoded through its object and the object that its source is, and so are these two
-- statements.
mutual

theorem refersOnly_pipeline (v : Value) {p : Pipeline} (hv : ∀ name ∈ v.references, allowed name)
    (h : Pipeline.ofValue v = .ok p) : ∀ stage ∈ p.stages, stage.RefersOnly allowed := by
  cases v with
  | object fields =>
      rw [Pipeline.ofValue, bind_eq_ok_iff] at h
      rcases h with ⟨kind, _, h⟩
      rcases bind_eq_ok_iff.mp h with ⟨source, hsource, h⟩
      rcases bind_eq_ok_iff.mp h with ⟨stage, hstage, hp⟩
      cases hp
      intro other hother
      rw [stages_then, List.mem_append, List.mem_singleton] at hother
      rcases hother with hother | rfl
      · exact refersOnly_before kind fields hv hsource other hother
      · exact refersOnly_stage hv hstage
  | _ => simp [Pipeline.ofValue] at h

theorem refersOnly_before (kind : StageKind) (fields : List (String × Value))
    {source : Pipeline.Source} (hfields : ∀ name ∈ Value.fieldReferences fields, allowed name)
    (h : Pipeline.before kind fields = .ok source) :
    ∀ stage ∈ source.stages, stage.RefersOnly allowed := by
  match fields with
  | [] => simp [Pipeline.before] at h
  | (key, v) :: rest =>
      rw [Value.fieldReferences, List.forall_mem_append] at hfields
      rw [Pipeline.before.eq_def] at h
      -- The first field of this name is the source, and it may be a definition itself.
      by_cases hkey : key = "array"
      · simp only [hkey, if_true] at h
        cases v with
        | string path =>
            cases h
            intro stage hstage
            cases hstage
        | object fields =>
            rcases bind_eq_ok_iff.mp h with ⟨p, hp, hsource⟩
            cases hsource
            exact refersOnly_pipeline (.object fields) hfields.1 hp
        | _ => cases h
      · simp only [hkey, if_false] at h
        exact refersOnly_before kind rest hfields.2 h

end

-- Computed fields are decoded where they are found, so there is one statement for each place.
mutual

/-- Decoding a computed field adds no references. -/
theorem refersOnly_computed (v : Value) {c : Computed} (hv : ∀ name ∈ v.references, allowed name)
    (h : Computed.ofValue v = .ok c) : ∀ x ∈ c.parts, x.RefersOnly allowed := by
  -- The form is told by the fields that are there, in the order in which the decoder looks for them.
  cases v with
  | string text =>
      rw [Computed.ofValue, bind_eq_ok_iff] at h
      rcases h with ⟨e, he, hc⟩
      cases hc
      rw [Computed.parts, List.forall_mem_singleton]
      exact refersOnly_parseWithin (mapError_eq_ok_iff.mp he)
  | object fields =>
      rw [Computed.ofValue] at h
      split at h
      · rcases bind_eq_ok_iff.mp h with ⟨p, hp, hc⟩
        cases hc
        rw [Computed.parts, List.forall_mem_singleton]
        intro w hw
        rcases List.mem_flatMap.mp hw with ⟨stage, hstage, hw⟩
        rcases List.mem_flatMap.mp hw with ⟨e, he, hw⟩
        exact refersOnly_pipeline (.object fields) hv hp stage hstage e he w hw
      split at h
      · split at h
        · rcases bind_eq_ok_iff.mp h with ⟨condition, hcondition, h⟩
          rcases bind_eq_ok_iff.mp h with ⟨thenBranch, hthen, h⟩
          rcases bind_eq_ok_iff.mp h with ⟨elseBranch, helse, hc⟩
          cases hc
          rw [Computed.parts, List.forall_mem_cons, List.forall_mem_append, List.forall_mem_append]
          exact ⟨trivial, refersOnly_field "if" fields hv hcondition,
            refersOnly_field "then" fields hv hthen, refersOnly_field? "else" fields hv helse⟩
        · cases h
      split at h
      · rcases bind_eq_ok_iff.mp h with ⟨cases, hcases, h⟩
        rcases bind_eq_ok_iff.mp h with ⟨subject, hsubject, h⟩
        rcases bind_eq_ok_iff.mp h with ⟨otherwise, hotherwise, hc⟩
        cases hc
        rw [Computed.parts, List.forall_mem_cons, List.forall_mem_append, List.forall_mem_append]
        exact ⟨trivial, refersOnly_field "switch" fields hv hsubject,
          refersOnly_casesField fields hv hcases, refersOnly_field? "default" fields hv hotherwise⟩
      · split at h
        · rcases bind_eq_ok_iff.mp h with ⟨args, hargs, hc⟩
          cases hc
          rw [Computed.parts, List.forall_mem_cons]
          exact ⟨trivial, refersOnly_argsField fields hv hargs⟩
        · cases h
        · cases h
          rw [Computed.parts, List.forall_mem_singleton]
          exact hv
  | _ =>
      simp only [Computed.ofValue, Except.ok.injEq] at h
      subst h
      rw [Computed.parts, List.forall_mem_singleton]
      exact hv

theorem refersOnly_field (key : String) (fields : List (String × Value)) {c : Computed}
    (hfields : ∀ name ∈ Value.fieldReferences fields, allowed name)
    (h : Computed.ofField key fields = .ok c) : ∀ x ∈ c.parts, x.RefersOnly allowed := by
  match fields with
  | [] =>
      rw [Computed.ofField] at h
      cases h
      rw [Computed.parts, List.forall_mem_singleton]
      intro name hname
      cases hname
  | (k, v) :: rest =>
      rw [Value.fieldReferences, List.forall_mem_append] at hfields
      rw [Computed.ofField] at h
      by_cases hk : k = key
      · rw [if_pos hk] at h
        exact refersOnly_computed v hfields.1 h
      · rw [if_neg hk] at h
        exact refersOnly_field key rest hfields.2 h

theorem refersOnly_field? (key : String) (fields : List (String × Value)) {c : Option Computed}
    (hfields : ∀ name ∈ Value.fieldReferences fields, allowed name)
    (h : Computed.ofField? key fields = .ok c) :
    ∀ x ∈ Computed.partsOption c, x.RefersOnly allowed := by
  match fields with
  | [] =>
      rw [Computed.ofField?] at h
      cases h
      rw [Computed.partsOption]
      intro x hx
      cases hx
  | (k, v) :: rest =>
      rw [Value.fieldReferences, List.forall_mem_append] at hfields
      rw [Computed.ofField?] at h
      by_cases hk : k = key
      · rw [if_pos hk, bind_eq_ok_iff] at h
        rcases h with ⟨c, hc, heq⟩
        cases heq
        rw [Computed.partsOption]
        exact refersOnly_computed v hfields.1 hc
      · rw [if_neg hk] at h
        exact refersOnly_field? key rest hfields.2 h

theorem refersOnly_casesField (fields : List (String × Value)) {cases : List (String × Computed)}
    (hfields : ∀ name ∈ Value.fieldReferences fields, allowed name)
    (h : Computed.casesField fields = .ok cases) :
    ∀ x ∈ Computed.partsCases cases, x.RefersOnly allowed := by
  match fields with
  | [] => simp [Computed.casesField] at h
  | (k, v) :: rest =>
      rw [Value.fieldReferences, List.forall_mem_append] at hfields
      rw [Computed.casesField.eq_def] at h
      by_cases hk : k = "cases"
      · simp only [hk, if_true] at h
        cases v with
        | object fields => exact refersOnly_cases fields hfields.1 h
        | _ => cases h
      · simp only [hk, if_false] at h
        exact refersOnly_casesField rest hfields.2 h

theorem refersOnly_argsField (fields : List (String × Value)) {args : List Computed}
    (hfields : ∀ name ∈ Value.fieldReferences fields, allowed name)
    (h : Computed.argsField fields = .ok args) :
    ∀ x ∈ Computed.partsArgs args, x.RefersOnly allowed := by
  match fields with
  | [] =>
      rw [Computed.argsField] at h
      cases h
      rw [Computed.partsArgs]
      intro x hx
      cases hx
  | (k, v) :: rest =>
      rw [Value.fieldReferences, List.forall_mem_append] at hfields
      rw [Computed.argsField.eq_def] at h
      by_cases hk : k = "args"
      · simp only [hk, if_true] at h
        cases v with
        | array items => exact refersOnly_items items hfields.1 h
        | _ => cases h
      · simp only [hk, if_false] at h
        exact refersOnly_argsField rest hfields.2 h

theorem refersOnly_cases (fields : List (String × Value)) {cases : List (String × Computed)}
    (hfields : ∀ name ∈ Value.fieldReferences fields, allowed name)
    (h : Computed.ofCases fields = .ok cases) :
    ∀ x ∈ Computed.partsCases cases, x.RefersOnly allowed := by
  match fields with
  | [] =>
      rw [Computed.ofCases] at h
      cases h
      rw [Computed.partsCases]
      intro x hx
      cases hx
  | (k, v) :: rest =>
      rw [Value.fieldReferences, List.forall_mem_append] at hfields
      rw [Computed.ofCases, bind_eq_ok_iff] at h
      rcases h with ⟨c, hc, h⟩
      rcases bind_eq_ok_iff.mp h with ⟨cs, hcs, heq⟩
      cases heq
      rw [Computed.partsCases, List.forall_mem_append]
      exact ⟨refersOnly_computed v hfields.1 hc, refersOnly_cases rest hfields.2 hcs⟩

theorem refersOnly_items (items : List Value) {args : List Computed}
    (hitems : ∀ name ∈ Value.itemReferences items, allowed name)
    (h : Computed.ofItems items = .ok args) :
    ∀ x ∈ Computed.partsArgs args, x.RefersOnly allowed := by
  match items with
  | [] =>
      rw [Computed.ofItems] at h
      cases h
      rw [Computed.partsArgs]
      intro x hx
      cases hx
  | v :: rest =>
      rw [Value.itemReferences, List.forall_mem_append] at hitems
      rw [Computed.ofItems, bind_eq_ok_iff] at h
      rcases h with ⟨c, hc, h⟩
      rcases bind_eq_ok_iff.mp h with ⟨cs, hcs, heq⟩
      cases heq
      rw [Computed.partsArgs, List.forall_mem_append]
      exact ⟨refersOnly_computed v hitems.1 hc, refersOnly_items rest hitems.2 hcs⟩

end

end Decoding

section Reach

/-- The exact view of values that refer to no function under a denied name. -/
def View.harmless : View :=
  .exactly fun name => isDenied name = false

theorem exact_harmless : View.harmless.Exact :=
  fun _ => rfl

/-- A function of the host that hands out no reference to a function under a denied name, if it is
    given none. -/
def HostFunction.IsHarmless (function : HostFunction) : Prop :=
  ∀ args, (∀ v ∈ args, ∀ name ∈ v.references, isDenied name = false) →
    ∀ v, function args = .ok v → ∀ name ∈ v.references, isDenied name = false

/-- The functions that a computed field can reach: those under names that are not denied, and those
    that its own forms call. -/
def Computed.Reaches (c : Computed) (name : String) : Prop :=
  isDenied name = false ∨ ∃ args, .call name args ∈ c.parts

/-- Two engines that evaluate a computed field and differ in functions that it does not reach. -/
def Pairing.harmless (left right : Engine) : Pairing where
  left := left
  right := right
  view := .harmless
  faults := .strict EvalError
  slack := 0

variable {left right : Engine} {c : Computed}
  (hsame : ∀ name, c.Reaches name →
    Keyed.get? name right.functions = Keyed.get? name left.functions)
  (hhost : ∀ name function, c.Reaches name → Keyed.get? name left.functions = some function →
    function.IsHarmless)
include hsame

theorem referable_harmless {name : String} (hdenied : isDenied name = false) :
    (Pairing.harmless left right).Referable name := by
  refine Pairing.referable_of_eq (fun _ _ => trivial) ?_ fun _ => hdenied
  show (Builtin.isName name || (Keyed.get? name right.functions).isSome) = _
  rw [hsame name (Or.inl hdenied)]
  rfl

include hhost

theorem callable_harmless {name : String} (hname : c.Reaches name) :
    (Pairing.harmless left right).Callable name where
  exact_of_comparison _ _ _ := exact_harmless
  follows_host _ _ _ h :=
    follows_callHost (fun _ _ => trivial) (hsame name hname)
      (fun function hfunction => exact_harmless.respects (hhost name function hname hfunction))
      (fun _ => trivial) h

theorem inStep_harmless (hdepth : right.maxDepth = left.maxDepth) :
    (Pairing.harmless left right).InStep where
  ordinary _ _ := trivial
  maxDepth_right := hdepth
  excused_of_slack h := absurd rfl h
  callable_of_refers _ hdenied := callable_harmless hsame hhost (Or.inl hdenied)

/-- Expressions are the same in both engines if their literals are harmless: a denied name in them
    is refused. -/
theorem admits_harmless {es : List Expr} (hes : Expr.RefersOnly (isDenied · = false) es) {x : Expr}
    (hx : x ∈ es) : (Pairing.harmless left right).Admits x := by
  cases x with
  | literal v => exact .self (hes v hx)
  | identifier name => exact fun hdenied => referable_harmless hsame hdenied
  | binary op lhs rhs => exact fun _ => exact_harmless
  | call name args => exact fun hdenied => callable_harmless hsame hhost (Or.inl hdenied)
  | _ => trivial

/-- The parts of the computed field are the same in both engines. Here the name of a call is not
    guarded, so the function under it must be. -/
theorem admitsField_harmless {x : Computed} (hx : x ∈ c.parts)
    (hrefers : x.RefersOnly (isDenied · = false)) :
    (Pairing.harmless left right).AdmitsField x := by
  cases x with
  | source e => exact fun y hy => admits_harmless hsame hhost hrefers hy
  | literal v => exact .self hrefers
  | call name args => exact callable_harmless hsame hhost (Or.inr ⟨args, hx⟩)
  | pipeline p => exact fun y hy => admits_harmless hsame hhost hrefers hy
  | _ => trivial

end Reach

/-- The value of a computed field given as a definition depends on the functions that it reaches,
    and on no others: if neither the data nor the definition refers to a function under a denied
    name, it does not matter what is registered under the denied names that the definition itself
    does not call. -/
theorem computed_depends_on_reached_functions (engine other : Engine) (scope : Scope)
    (definition : Value) (c : Computed) (hdefinition : Computed.ofValue definition = .ok c)
    (hglobals : other.globals = engine.globals) (hdepth : other.maxDepth = engine.maxDepth)
    (hsame : ∀ name, c.Reaches name →
      Keyed.get? name other.functions = Keyed.get? name engine.functions)
    (hhost : ∀ name function, c.Reaches name → Keyed.get? name engine.functions = some function →
      function.IsHarmless)
    (hvariables : ∀ name ∈ Value.fieldReferences engine.globals, isDenied name = false)
    (hscope : ∀ table ∈ scope, ∀ name ∈ Value.fieldReferences table, isDenied name = false)
    (hreferences : ∀ name ∈ definition.references, isDenied name = false) :
    (c.eval other scope).outcome = (c.eval engine scope).outcome := by
  have hscopes : (Pairing.harmless engine other).AlikeScopes scope scope := by
    refine alikeScopes_of_tables ?_ (List.forall₂_same.mpr fun table htable => ?_)
    · show View.harmless.AlikeTables engine.globals other.globals
      rw [hglobals]
      exact .self hvariables
    · exact .self (hscope table htable)
  have hparts := refersOnly_computed definition hreferences hdefinition
  -- The two engines run in step, as the functions in which they differ are not reached.
  have hfollows := follows_computed (inStep_harmless hsame hhost hdepth) hscopes c fun x hx =>
    admitsField_harmless hsame hhost hx (hparts x hx)
  have heq := hfollows.eq ?_ fun _ _ => exact_harmless.eq_of_alike
  · exact heq.symm
  · intro e he
    -- No fault is excused here, so outcomes in step are equal.
    cases e <;> exact he

section Calls

/-- An engine with a list and a function that returns its first argument. -/
def numbersEngine : Engine where
  globals := [("numbers", .array [.number 1, .number 2])]
  functions := [("first", fun args => .ok (Builtin.argument args 0))]
  maxDepth := 8

/-- The engine with a list and another function, registered under a denied name. -/
def constructorEngine : Engine :=
  { numbersEngine with
    functions := ("constructor", fun args => .ok (.array args)) :: numbersEngine.functions }

/-- A call of a function with the list. -/
def callOn (name : String) : Computed :=
  .call name [.source (.identifier "numbers")]

/-- The definition of such a call. -/
def callDefinition (name : String) : Value :=
  .object [("call", .string name), ("args", .array [.string "numbers"])]

theorem ofValue_callDefinition (name : String) :
    Computed.ofValue (callDefinition name) = .ok (callOn name) := by
  have hsource : Expr.parse "numbers" = .ok (.identifier "numbers") := rfl
  simp [callDefinition, Computed.ofValue, Keyed.contains, Keyed.get?, Computed.argsField,
    Computed.ofItems, hsource]
  rfl

theorem references_callDefinition (name : String) : (callDefinition name).references = [] := by
  simp [callDefinition, Value.references, Value.fieldReferences, Value.itemReferences]

theorem references_numbersEngine : Value.fieldReferences numbersEngine.globals = [] := by
  simp [numbersEngine, Value.fieldReferences, Value.references, Value.itemReferences]

theorem isHarmless_first : HostFunction.IsHarmless fun args => .ok (Builtin.argument args 0) := by
  intro args hargs v hv
  cases hv
  unfold Builtin.argument
  cases hfirst : args[0]? with
  | none => simp [Value.references]
  | some v => exact hargs v (List.mem_of_getElem? hfirst)

/-- A call of another function does not depend on the function under the denied name. -/
theorem call_first_ignores_constructor :
    ((callOn "first").eval numbersEngine []).outcome =
      ((callOn "first").eval constructorEngine []).outcome := by
  -- The call names `first` alone, so what it reaches is not `constructor`.
  have hname : ∀ name, (callOn "first").Reaches name → "constructor" ≠ name := by
    rintro _ (hdenied | ⟨args, hargs⟩) rfl
    · cases hdenied
    · simp [callOn, Computed.parts, Computed.partsArgs] at hargs
  refine computed_depends_on_reached_functions constructorEngine numbersEngine []
    (callDefinition "first") (callOn "first") (ofValue_callDefinition "first") rfl rfl ?_ ?_
    (by simp [constructorEngine, references_numbersEngine]) (by simp)
    (by simp [references_callDefinition])
  · intro name hreaches
    exact (if_neg (hname name hreaches)).symm
  · intro name function hreaches hfunction
    have hfirst : Keyed.get? name numbersEngine.functions = some function :=
      (if_neg (hname name hreaches)).symm.trans hfunction
    rw [numbersEngine, Keyed.get?] at hfirst
    split at hfirst
    · cases hfirst
      exact isHarmless_first
    · cases hfirst

/-- A definition that calls a denied name gets what the function under it returns, and fails
    otherwise if there is none. The same call in an expression is refused. -/
theorem denied_name_is_called :
    (callDefinition "constructor").references = [] ∧
      Value.fieldReferences constructorEngine.globals = [] ∧
      ∃ c, Computed.ofValue (callDefinition "constructor") = .ok c ∧
        (c.eval constructorEngine []).outcome =
          .ok (.array [.array [.number 1, .number 2]]) ∧
        (c.eval numbersEngine []).outcome =
          .error (.expression (.undefinedFunction "constructor")) ∧
        (constructorEngine.eval [] (.call "constructor" [.identifier "numbers"])).outcome =
          .error (.accessDenied "constructor") := by
  exact ⟨references_callDefinition _, references_numbersEngine, callOn "constructor",
    ofValue_callDefinition _, rfl, rfl, rfl⟩

end Calls

end FieldLang

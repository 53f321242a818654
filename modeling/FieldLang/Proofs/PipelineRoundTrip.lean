import FieldLang.Pipeline.Printer
import FieldLang.Proofs.PipelineLockstep
import FieldLang.Proofs.Planning
import FieldLang.Proofs.RoundTrip

/-!
# Printing Pipelines and Reading Them Back

A pipeline that was read from a source and is printed is read again as the same pipeline, within the
same bound on nesting. As with expressions, infinite numbers come back as a name.

The printed text need not be the source. Every stage is printed after a bar, a single parameter
stands without parentheses, and expressions have the parentheses that they need and no others. So
the tokens of the text are not those of the source, and the pipeline is derived anew from them.
`Written` says this of a part: its text spells some tokens that derive it. The parts are taken
together as the grammar does, with separators that end whatever stands before them.

A path is printed as it was read. A segment with the name of a stage is no obstacle, because the bar
after the path ends it.

## Main definitions

* `Stage.nameInfinite`, `Pipeline.nameInfinite`: Stages and pipelines with names for their infinite
  numbers.
* `Pipeline.numbers`: The numbers among the literals of a pipeline.
* `Separates`: Texts between two others that spell a token.
* `Written`: Texts that write something.

## Theorems

* `Printed.separated`, `Printed.names`: Texts with separators between them.
* `written_expr`, `written_lambda`, `written_stage`: What was read is written by its text.
* `written_chain`: Stages after bars write a chain.
* `pipeline_parse_render`: Pipelines that were read are read back from their texts.
-/

namespace FieldLang

/-- A lambda with the name of infinity in place of the infinite numbers in its body. -/
def Lambda.nameInfinite (f : Lambda) : Lambda :=
  { f with body := f.body.nameInfinite }

namespace Stage

/-- A stage with the name of infinity in place of its infinite numbers. -/
def nameInfinite : Stage → Stage
  | .map transform => .map (transform.map Lambda.nameInfinite)
  | .filter predicate => .filter (predicate.map Lambda.nameInfinite)
  | .reduce reducer initial =>
    .reduce (reducer.map Lambda.nameInfinite) (initial.map Expr.nameInfinite)
  | .slice start stop step =>
    .slice (start.map Expr.nameInfinite) (stop.map Expr.nameInfinite) (step.map Expr.nameInfinite)
  | .flatMap transform => .flatMap (transform.map Lambda.nameInfinite)

/-- The numbers that the literals of a stage hold. -/
def numbers (stage : Stage) : List Float :=
  stage.expressions.flatMap Expr.numbers

@[simp] theorem kind_nameInfinite (stage : Stage) : stage.nameInfinite.kind = stage.kind := by
  cases stage <;> rfl

/-- Without infinite numbers there is nothing to name. -/
theorem nameInfinite_of_finite {stage : Stage} (h : ∀ n ∈ stage.numbers, n.isFinite = true) :
    stage.nameInfinite = stage := by
  have hexpr : ∀ e ∈ stage.expressions, e.nameInfinite = e := fun e he =>
    Expr.nameInfinite_of_finite fun n hn => h n (List.mem_flatMap.mpr ⟨e, he, hn⟩)
  -- An argument that is missing has nothing to name either.
  have hlambda : ∀ f : Option Lambda, (∀ e ∈ (f.map Lambda.body).toList, e.nameInfinite = e) →
      f.map Lambda.nameInfinite = f := by
    rintro (_ | ⟨params, body⟩) hf
    · rfl
    · rw [Option.map_some, Lambda.nameInfinite, hf body (by simp)]
  have harg : ∀ x : Option Expr, (∀ e ∈ x.toList, e.nameInfinite = e) →
      x.map Expr.nameInfinite = x := by
    rintro (_ | e) hx
    · rfl
    · rw [Option.map_some, hx e (by simp)]
  cases stage with
  | map f => rw [nameInfinite, hlambda f hexpr]
  | filter f => rw [nameInfinite, hlambda f hexpr]
  | flatMap f => rw [nameInfinite, hlambda f hexpr]
  | reduce f initial =>
      rw [expressions, List.forall_mem_append] at hexpr
      rw [nameInfinite, hlambda f hexpr.1, harg initial hexpr.2]
  | slice start stop step =>
      rw [expressions, List.forall_mem_append, List.forall_mem_append] at hexpr
      rw [nameInfinite, harg start hexpr.1, harg stop hexpr.2.1, harg step hexpr.2.2]

end Stage

namespace Pipeline

/-- A pipeline with the name of infinity in place of its infinite numbers. -/
def nameInfinite (p : Pipeline) : Pipeline :=
  ⟨p.source, p.first.nameInfinite, p.rest.map Stage.nameInfinite⟩

/-- The numbers that the literals of a pipeline hold. -/
def numbers (p : Pipeline) : List Float :=
  p.stages.flatMap Stage.numbers

theorem nameInfinite_of_finite {p : Pipeline} (h : ∀ n ∈ p.numbers, n.isFinite = true) :
    p.nameInfinite = p := by
  have hstages : ∀ stage ∈ p.stages, stage.nameInfinite = stage := fun stage hstage =>
    Stage.nameInfinite_of_finite fun n hn => h n (List.mem_flatMap.mpr ⟨stage, hstage, hn⟩)
  rcases p with ⟨source, first, rest⟩
  rw [stages, List.forall_mem_cons] at hstages
  rw [nameInfinite, hstages.1, List.map_congr_left hstages.2, List.map_id']

end Pipeline

namespace Expr

open Token (Ends Spells)

/-- The text stands for a token between two others: it ends the one before it, and does not join the
    one after it. -/
structure Separates (sep : String) (t : Token) : Prop where
  ends : ∀ rest, Ends (sep.toList ++ rest)
  spells : ∀ {rest us}, Spells rest us → Spells (sep.toList ++ rest) (t :: us)

theorem separates_comma : Separates ", " (.mark .comma) where
  ends _ := .cons (by decide) (by decide)
  spells h := .mark (by decide) rfl h.blank

theorem separates_arrow : Separates " => " (.mark .arrow) where
  ends _ := .cons (by decide) (by decide)
  spells h := (Spells.symbol (l := ['>']) (by decide) rfl h.blank).blank

theorem separates_bar : Separates " | " (.mark .pipe) where
  ends _ := .cons (by decide) (by decide)
  spells h := (Spells.mark (by decide) rfl h.blank).blank

namespace Printed

theorem separated {a b sep : String} {ts us : List Token} {t : Token} (ha : Printed a ts)
    (hsep : Separates sep t) (hb : Printed b us) : Printed (a ++ sep ++ b) (ts ++ t :: us) where
  head := by simpa using ha.head_append (sep ++ b).toList
  spells := by
    intro rest vs hrest hvs
    have hafter := hsep.spells (hb.spells hrest hvs)
    simpa using ha.spells (hsep.ends _) hafter

/-- The parentheses around the arguments end the name before them. -/
theorem applied {name args : String} {ts : List Token} (hname : Token.IsName name)
    (h : Printed args ts) :
    Printed (name ++ "(" ++ args ++ ")")
      (.identifier name :: .mark .leftParen :: (ts ++ [.mark .rightParen])) where
  head := by simpa using (Printed.name hname).head_append ("(" ++ args ++ ")").toList
  spells := by
    intro rest us hrest hus
    have hgroup := h.group.spells hrest hus
    have hends : Ends (("(" ++ args ++ ")").toList ++ rest) := by
      simpa using Ends.cons (c := '(') (by decide) (by decide)
    simpa using (Printed.name hname).spells hends hgroup

theorem noParams : Printed "()" [.mark .leftParen, .mark .rightParen] where
  head := ⟨'(', [')'], rfl, by decide⟩
  spells _ hus := .mark (by decide) rfl (.mark (by decide) rfl hus)

/-- Names joined to a text, if one name can be. -/
theorem names {sep : String} {m : Mark}
    (hnext : ∀ {text ts name}, Printed text ts → Token.IsName name →
      Printed (text ++ sep ++ name) (ts ++ [.mark m, .identifier name]))
    {text : String} {ts : List Token} (h : Printed text ts) {others : List String}
    (hothers : ∀ name ∈ others, Token.IsName name) :
    Printed (String.intercalate sep (text :: others))
      (ts ++ others.flatMap fun name => [.mark m, .identifier name]) := by
  -- The text grows at its end, one name after the other.
  induction others generalizing text ts with
  | nil => simpa using h
  | cons name others ih =>
      rw [List.forall_mem_cons] at hothers
      have hmore := ih (hnext h hothers.1) hothers.2
      rw [String.intercalate_cons_append] at hmore
      rw [String.intercalate_cons_cons]
      simpa [String.append_assoc] using hmore

end Printed

end Expr

namespace Grammar

open FieldLang.Expr (Printed)

section Names

variable {first : String} {others : List String}
  (hnames : ∀ name ∈ first :: others, Token.IsName name)

include hnames

theorem printed_names :
    Printed (String.intercalate ", " (first :: others)) (namesBy .comma first others) := by
  rw [List.forall_mem_cons] at hnames
  refine Printed.names (fun htext hname => ?_) (.name hnames.1) hnames.2
  exact htext.separated Expr.separates_comma (.name hname)

theorem printed_path :
    Printed (String.intercalate "." (first :: others)) (namesBy .dot first others) := by
  rw [List.forall_mem_cons] at hnames
  refine Printed.names (fun htext hname => ?_) (.name hnames.1) hnames.2
  -- A dot needs a word after it: before a digit it could belong to a numeral.
  rw [← hname.2]
  exact htext.member hname.1

end Names

/-- The text writes something: it spells tokens that derive it. -/
def Written {α : Type} (derives : List Token → α → Prop) (text : String) (a : α) : Prop :=
  ∃ ts, derives ts a ∧ Printed text ts

theorem isName_kind (kind : StageKind) : Token.IsName kind.name := by
  cases kind <;> exact ⟨Token.isWord_of_all rfl (by decide), rfl⟩

section Parts

variable {limit : Nat} {ts : List Token} (hts : ∀ t ∈ ts, t.WellFormed)

include hts

/-- An expression that was read is written by its text, with names for its infinite numbers and
    within the bound that it was read with. -/
theorem written_expr {e : Expr} (h : ExprWithin limit ts e)
    (hread : ∀ n ∈ e.numbers, n.isFinite = true → Number.ReadsBack n) :
    Written (ExprWithin limit) e.render e.nameInfinite := by
  have hlegible : e.Legible := legible_of_derivesWithin h hts
  have hnesting : e.nesting ≤ limit :=
    Nat.le_trans (Expr.le_deepen _ e _) (nesting_le_of_derivesWithin h)
  have hsame := Expr.reprints_nameInfinite hlegible
  have hderives := (derivesWithin_tokens hsame.legible).lower (Nat.le_refl _)
    (Expr.conditional_le_level _)
  rw [hsame.nesting] at hderives
  refine ⟨e.nameInfinite.tokens, hderives.mono hnesting, ?_⟩
  rw [← hsame.render]
  refine Expr.printed_of_legible hsame.legible fun n hn => ?_
  have hnumber := hsame.numbers n hn
  exact ⟨hnumber.2, hread n hnumber.1 hnumber.2⟩

/-- The text of a lambda starts with one that writes its parameters. -/
theorem exists_written_params {f : Lambda} (h : DerivesParams ts f.params) :
    ∃ text, f.render = text ++ " => " ++ f.body.render ∧ Written DerivesParams text f.params := by
  rcases f with ⟨params, body⟩
  cases h with
  | bare param => exact ⟨param, rfl, _, .bare param, .name (hts (.identifier param) (by simp))⟩
  | none => exact ⟨"()", rfl, _, .none, .noParams⟩
  | listed param params =>
      have hnames : ∀ name ∈ param :: params, Token.IsName name := fun name hname =>
        hts (.identifier name) (by simp [mem_namesBy .comma param params hname])
      -- A single parameter loses the parentheses that it was read with.
      cases params with
      | nil => exact ⟨param, rfl, _, .bare param, .name (hnames param (by simp))⟩
      | cons second params =>
          refine ⟨"(" ++ String.intercalate ", " (param :: second :: params) ++ ")", ?_, _,
            .listed param (second :: params), (printed_names hnames).group⟩
          simp [Lambda.render, String.append_assoc]

theorem written_lambda {f : Lambda} (h : DerivesLambda (ExprWithin limit) ts f)
    (hread : ∀ n ∈ f.body.numbers, n.isFinite = true → Number.ReadsBack n) :
    Written (DerivesLambda (ExprWithin limit)) f.render f.nameInfinite := by
  cases h with
  | @mk _ _ params body hp hb =>
      rcases exists_written_params (f := ⟨params, body⟩) (fun t ht => hts t (by simp [ht])) hp with
        ⟨text, hrender, ps, hps, htext⟩
      rcases written_expr (fun t ht => hts t (by simp [ht])) hb hread with ⟨bs, hbs, hbody⟩
      refine ⟨ps ++ .mark .arrow :: bs, .mk hps hbs, ?_⟩
      rw [hrender]
      exact htext.separated Expr.separates_arrow hbody

/-- The arguments of a stage stand in the order in which they are read, and those that are missing
    are the last ones. -/
theorem written_args {stage : Stage} (h : DerivesArgs (ExprWithin limit) ts stage)
    (hread : ∀ n ∈ stage.numbers, n.isFinite = true → Number.ReadsBack n) :
    Written (DerivesArgs (ExprWithin limit)) (String.intercalate ", " stage.renderArgs)
      stage.nameInfinite := by
  simp only [Stage.numbers, Stage.expressions] at hread
  -- Arguments are put after one another with a comma, which separates any two of them.
  cases h with
  | map h =>
      rcases written_lambda hts h (by simpa using hread) with ⟨us, hus, hf⟩
      exact ⟨us, .map hus, by simpa [Stage.renderArgs, Stage.lambda?] using hf⟩
  | filter h =>
      rcases written_lambda hts h (by simpa using hread) with ⟨us, hus, hf⟩
      exact ⟨us, .filter hus, by simpa [Stage.renderArgs, Stage.lambda?] using hf⟩
  | flatMap h =>
      rcases written_lambda hts h (by simpa using hread) with ⟨us, hus, hf⟩
      exact ⟨us, .flatMap hus, by simpa [Stage.renderArgs, Stage.lambda?] using hf⟩
  | reduce h he =>
      rcases written_lambda (fun t ht => hts t (by simp [ht])) h
        (fun n hn => hread n (by simp [hn])) with ⟨us, hus, hf⟩
      rcases written_expr (fun t ht => hts t (by simp [ht])) he
        (fun n hn => hread n (by simp [hn])) with ⟨vs, hvs, he⟩
      refine ⟨us ++ .mark .comma :: vs, .reduce hus hvs, ?_⟩
      simpa [Stage.renderArgs] using hf.separated Expr.separates_comma he
  | sliceFrom h =>
      rcases written_expr hts h (by simpa using hread) with ⟨us, hus, he⟩
      exact ⟨us, .sliceFrom hus, by simpa [Stage.renderArgs] using he⟩
  | sliceTo h hstop =>
      rcases written_expr (fun t ht => hts t (by simp [ht])) h
        (fun n hn => hread n (by simp [hn])) with ⟨us, hus, hfrom⟩
      rcases written_expr (fun t ht => hts t (by simp [ht])) hstop
        (fun n hn => hread n (by simp [hn])) with ⟨vs, hvs, hto⟩
      refine ⟨us ++ .mark .comma :: vs, .sliceTo hus hvs, ?_⟩
      simpa [Stage.renderArgs] using hfrom.separated Expr.separates_comma hto
  | sliceBy h hstop hstep =>
      rcases written_expr (fun t ht => hts t (by simp [ht])) h
        (fun n hn => hread n (by simp [hn])) with ⟨us, hus, hfrom⟩
      rcases written_expr (fun t ht => hts t (by simp [ht])) hstop
        (fun n hn => hread n (by simp [hn])) with ⟨vs, hvs, hto⟩
      rcases written_expr (fun t ht => hts t (by simp [ht])) hstep
        (fun n hn => hread n (by simp [hn])) with ⟨ws, hws, hby⟩
      refine ⟨us ++ .mark .comma :: (vs ++ .mark .comma :: ws), .sliceBy hus hvs hws, ?_⟩
      simpa [Stage.renderArgs] using hfrom.separated Expr.separates_comma
        (hto.separated Expr.separates_comma hby)

theorem written_stage {stage : Stage} (h : DerivesStage (ExprWithin limit) ts stage)
    (hread : ∀ n ∈ stage.numbers, n.isFinite = true → Number.ReadsBack n) :
    Written (DerivesStage (ExprWithin limit)) stage.render stage.nameInfinite := by
  cases h with
  | mk h =>
      rcases written_args (fun t ht => hts t (by simp [ht])) h hread with ⟨as, has, hargs⟩
      have hstage := DerivesStage.mk has
      rw [Stage.kind_nameInfinite] at hstage
      exact ⟨_, hstage, hargs.applied (isName_kind stage.kind)⟩

end Parts

/-- Stages after bars write a chain, whichever separators they were read with. -/
theorem written_chain {limit : Nat} {chain : List (Separator × List Token)} {stages : List Stage}
    (h : List.Forall₂ (DerivesStage (ExprWithin limit)) (chain.map Prod.snd) stages)
    (hchain : ∀ t ∈ chainTokens chain, t.WellFormed)
    (hread : ∀ n ∈ stages.flatMap Stage.numbers, n.isFinite = true → Number.ReadsBack n)
    {text : String} {ts : List Token} (htext : Printed text ts) :
    ∃ bars, List.Forall₂ (DerivesStage (ExprWithin limit)) (bars.map Prod.snd)
        (stages.map Stage.nameInfinite) ∧
      Printed (text ++ String.join (stages.map fun stage => " | " ++ stage.render))
        (ts ++ chainTokens bars) := by
  -- The text before the chain grows by one stage at a time; the separators are not looked at.
  induction chain generalizing stages text ts with
  | nil =>
      cases h
      exact ⟨[], .nil, by simpa [chainTokens] using htext⟩
  | cons link chain ih =>
      rcases link with ⟨separator, us⟩
      cases h with
      | @cons _ stage _ stages hstage hmore =>
          rcases written_stage (fun t ht => hchain t (by simp [ht])) hstage
            (fun n hn => hread n (by simp [hn])) with ⟨vs, hvs, hprinted⟩
          rcases ih hmore (fun t ht => hchain t (by simp [ht]))
            (fun n hn => hread n (List.mem_append_right _ hn))
            (htext.separated Expr.separates_bar hprinted) with ⟨bars, hbars, hall⟩
          -- Whatever separator was read, a bar is written.
          refine ⟨(.bar, vs) :: bars, .cons hvs hbars, ?_⟩
          simpa [Separator.token, String.append_assoc] using hall

/-- A pipeline that was read is written by its text, with names for its infinite numbers. -/
theorem written_pipeline {limit : Nat} {tokens : List Token} {p : Pipeline}
    (htokens : ∀ t ∈ tokens, t.WellFormed) (h : DerivesPipeline (ExprWithin limit) tokens p)
    (hread : ∀ n ∈ p.numbers, n.isFinite = true → Number.ReadsBack n) :
    Written (DerivesPipeline (ExprWithin limit)) p.render p.nameInfinite := by
  rcases h with ⟨root, segments, chain, hsource, hstages⟩
  have hpath : Printed p.source (namesBy .dot root segments) := by
    rw [hsource]
    refine printed_path fun name hname => ?_
    exact htokens (.identifier name) (List.mem_append_left _ (mem_namesBy .dot root segments hname))
  rcases written_chain hstages (fun t ht => htokens t (List.mem_append_right _ ht)) hread hpath with
    ⟨bars, hbars, hprinted⟩
  exact ⟨_, .mk root segments bars hsource hbars, hprinted⟩

end Grammar

/-- What is read from a source as a pipeline is read again from its printed text, within the same
    bound on nesting. Infinite numbers come back as a name; without them the pipeline comes back as
    it was. The text of a finite number is taken to be read as that number. -/
theorem pipeline_parse_render (limit : Nat) (source : String) (p : Pipeline)
    (h : Pipeline.parseWithin limit source = .ok p)
    (hread : ∀ n ∈ p.numbers, n.isFinite = true → Number.ReadsBack n) :
    Pipeline.parseWithin limit p.render = .ok p.nameInfinite ∧
      ((∀ n ∈ p.numbers, n.isFinite = true) →
        Pipeline.parseWithin limit p.render = .ok p) := by
  have hback : Pipeline.parseWithin limit p.render = .ok p.nameInfinite := by
    rw [Pipeline.parseWithin, bind_eq_ok_iff] at h
    rcases h with ⟨tokens, hsource, htokens⟩
    rw [Grammar.pipeline_ofTokens_eq_ok_iff] at htokens
    -- The printed text is spelled by tokens from which the grammar derives the pipeline.
    rcases Grammar.written_pipeline (Token.wellFormed_of_ofSource hsource) htokens hread with
      ⟨ts, hts, hprinted⟩
    -- At its end the text is followed by nothing.
    have hspells : Token.Spells p.render.toList ts := by
      have hall := hprinted.spells .nil .nil
      rwa [List.append_nil, List.append_nil] at hall
    exact (Grammar.pipeline_parseWithin_eq_ok_iff hspells.ofSource).mpr hts
  refine ⟨hback, fun hfinite => ?_⟩
  rw [hback, Pipeline.nameInfinite_of_finite hfinite]

section Infinite

/-- A pipeline over `a.map` with an infinite bound and nested differences. -/
def boundedDifferences : Pipeline where
  source := "a.map"
  first := .filter (some
    ⟨["x"], .binary .lessThan (.identifier "x") (.literal (.number 1e999))⟩)
  rest :=
    [.reduce (some ⟨["s", "x"], .binary .subtract (.identifier "s")
        (.binary .subtract (.identifier "x") (.literal (.number 1.5)))⟩)
      (some (.literal (.number 0)))]

/-- A segment with the name of a stage stays in the path, bars stand for dots, and parentheses only
    where they are needed. The infinite numeral comes back as a name. -/
theorem pipeline_parse_render_infinite :
    Pipeline.parseWithin 4 "a.map.filter((x)=>x<1e999).reduce((s,x)=>s-(x-1.5),(0))" =
      .ok boundedDifferences ∧
    boundedDifferences.render =
      "a.map | filter(x => x < Infinity) | reduce((s, x) => s - (x - 1.5), 0)" ∧
    Pipeline.parseWithin 4 boundedDifferences.render = .ok boundedDifferences.nameInfinite := by
  have hparse : Pipeline.parseWithin 4 "a.map.filter((x)=>x<1e999).reduce((s,x)=>s-(x-1.5),(0))" =
      .ok boundedDifferences := rfl
  refine ⟨hparse, by decide +kernel, (pipeline_parse_render 4 _ _ hparse ?_).1⟩
  intro n hn hfinite
  simp only [boundedDifferences, Pipeline.numbers, Pipeline.stages, Stage.numbers,
    Stage.expressions, Expr.numbers, Option.map_some, Option.toList_some, List.flatMap_cons,
    List.flatMap_nil, List.append_nil, List.nil_append, List.cons_append, List.mem_cons,
    List.not_mem_nil, or_false] at hn
  rcases hn with rfl | rfl | rfl
  · exact absurd hfinite (by decide +kernel)
  · rfl
  · rfl

end Infinite

end FieldLang

import FieldLang.Pipeline.Parser
import FieldLang.Proofs.Reading
import Mathlib.Data.List.Forall2

/-!
# The Grammar of Pipelines

Which lists of tokens write which pipelines, and that the reader accepts exactly these.

A pipeline is a dotted path and a chain of stages, each after a bar or a dot. The grammar says
nothing about how the two uses of the dot are told apart. The reader looks two tokens ahead: a name
before an opening parenthesis starts a stage. This is right because every stage starts in this way,
and no segment of a path is followed by a parenthesis.

The grammar takes the grammar of expressions as a parameter, so that it can be read with and without
a bound on nesting. A reader of a part is described by `Reads`: what it takes off the front is what
the grammar derives, and it stops before tokens that cannot go on with it. Expressions are greedy,
but inside a stage a comma or a parenthesis follows them, and neither extends an expression.

The separators of a chain are apart from its stages, so nothing that is read depends on them.

## Main definitions

* `Separator`, `chainTokens`: What stands before stages, and the tokens of a chain of them.
* `DerivesParams`, `DerivesLambda`, `DerivesArgs`, `DerivesStage`: The parts of a pipeline.
* `DerivesPipeline`: The grammar.
* `Reads`: Readers that take off the front what a grammar derives.
* `ExprWithin`, `DerivesExpr`: The grammar of expressions, with and without a bound on nesting.
* `Interchanged`: Lists of tokens that differ in their separators only.

## Theorems

* `reads_fullExpression`, `reads_params`, `reads_lambda`, `reads_stage`: The readers of the parts.
* `stagesToEnd_sound`, `stagesToEnd_chainTokens`: Chains of stages are read as they are derived.
* `pipeline_ofTokens_eq_ok_iff`: Reading a pipeline within a bound is deriving it within that bound.
* `chainTokens_inj`: A chain is cut into stages in one way only.
* `Interchanged.derivesPipeline`: Separators can be replaced.
* `pipeline_follows_grammar`: Source texts are read as the grammar says, whichever separators they
  have.
-/

namespace FieldLang

namespace Grammar

/-- What stands before a stage. -/
inductive Separator where
  | bar
  | dot

/-- The token of a separator. -/
def Separator.token : Separator → Token
  | .bar => .mark .pipe
  | .dot => .mark .dot

/-- The tokens of one or more names with a mark between them. -/
def namesBy (m : Mark) (first : String) (others : List String) : List Token :=
  .identifier first :: others.flatMap fun name => [.mark m, .identifier name]

/-- The tokens of stages, each after its separator. -/
def chainTokens (chain : List (Separator × List Token)) : List Token :=
  chain.flatMap fun (separator, ts) => separator.token :: ts

/-- The tokens derive the parameters of a lambda: a bare name, or names in parentheses. -/
inductive DerivesParams : List Token → List String → Prop
  | bare (param : String) : DerivesParams [.identifier param] [param]
  | none : DerivesParams [.mark .leftParen, .mark .rightParen] []
  | listed (param : String) (params : List String) :
      DerivesParams (.mark .leftParen :: (namesBy .comma param params ++ [.mark .rightParen]))
        (param :: params)

section

variable (E : List Token → Expr → Prop)

/-- The tokens derive the lambda, its body as `E` says. -/
inductive DerivesLambda : List Token → Lambda → Prop
  | mk {ps bs params body} (hp : DerivesParams ps params) (hb : E bs body) :
      DerivesLambda (ps ++ .mark .arrow :: bs) ⟨params, body⟩

/-- The tokens derive the arguments of the stage. -/
inductive DerivesArgs : List Token → Stage → Prop
  | map {ts f} (h : DerivesLambda E ts f) : DerivesArgs ts (.map (some f))
  | filter {ts f} (h : DerivesLambda E ts f) : DerivesArgs ts (.filter (some f))
  | flatMap {ts f} (h : DerivesLambda E ts f) : DerivesArgs ts (.flatMap (some f))
  | reduce {ts is f e} (h : DerivesLambda E ts f) (he : E is e) :
      DerivesArgs (ts ++ .mark .comma :: is) (.reduce (some f) (some e))
  | sliceFrom {ts start} (h : E ts start) : DerivesArgs ts (.slice (some start) none none)
  | sliceTo {ts us start stop} (h : E ts start) (hstop : E us stop) :
      DerivesArgs (ts ++ .mark .comma :: us) (.slice (some start) (some stop) none)
  | sliceBy {ts us vs start stop step} (h : E ts start) (hstop : E us stop) (hstep : E vs step) :
      DerivesArgs (ts ++ .mark .comma :: (us ++ .mark .comma :: vs))
        (.slice (some start) (some stop) (some step))

/-- The tokens derive the stage: its name, and its arguments in parentheses. -/
inductive DerivesStage : List Token → Stage → Prop
  | mk {as stage} (h : DerivesArgs E as stage) :
      DerivesStage
        (.identifier stage.kind.name :: .mark .leftParen :: (as ++ [.mark .rightParen])) stage

/-- The tokens derive the pipeline: a dotted path and the stages, the first to run first. -/
inductive DerivesPipeline : List Token → Pipeline → Prop
  | mk (root : String) (segments : List String) (chain : List (Separator × List Token)) {p}
      (hsource : p.source = String.intercalate "." (root :: segments))
      (hstages : List.Forall₂ (DerivesStage E) (chain.map Prod.snd) p.stages) :
      DerivesPipeline (namesBy .dot root segments ++ chainTokens chain) p

end

/-- A reader takes off the front exactly what a grammar derives, if the token after it is one at
    which the reader can stop. -/
def Reads {α : Type} (read : Reader α) (derives : List Token → α → Prop) (ends : Token → Prop) :
    Prop :=
  ∀ tokens a rest, read tokens = .ok (a, rest) ↔
    ∃ ts, tokens = ts ++ rest ∧ derives ts a ∧ ends (Read.front rest)

/-- What is read ends at one place only. -/
theorem Reads.cut {α : Type} {read : Reader α} {derives : List Token → α → Prop}
    {ends : Token → Prop} (hread : Reads read derives ends) {ts ts' rest rest' : List Token}
    {a a' : α} (h : derives ts a) (hend : ends (Read.front rest)) (h' : derives ts' a')
    (hend' : ends (Read.front rest')) (heq : ts ++ rest = ts' ++ rest') :
    ts = ts' ∧ rest = rest' := by
  have hleft := (hread _ _ _).mpr ⟨ts, heq.symm, h, hend⟩
  rw [(hread _ _ _).mpr ⟨ts', rfl, h', hend'⟩, Except.ok.injEq, Prod.mk.injEq] at hleft
  rcases hleft with ⟨_, rfl⟩
  exact ⟨List.append_cancel_right heq, rfl⟩

/-- The expressions that tokens derive within a bound on nesting. -/
def ExprWithin (limit : Nat) (ts : List Token) (e : Expr) : Prop :=
  DerivesWithin limit ts (.expr Level.conditional e)

theorem reads_fullExpression (limit : Nat) :
    Reads (Read.fullExpression limit) (ExprWithin limit) (tightness? · = none) := by
  intro tokens e rest
  constructor
  · intro h
    rcases expression_sound limit limit 0 _ tokens e rest matches_zero (Nat.le_refl _) (by decide) h with
      ⟨ts, htokens, hts, hstop⟩
    exact ⟨ts, htokens, hts, tightness?_eq_none_of_stops hstop⟩
  · rintro ⟨ts, rfl, hts, hrest⟩
    exact (readsAs_of_derivesWithin limit hts).closed hts.pos (Nat.le_refl limit) hrest

theorem namesBy_cons (m : Mark) (first second : String) (others : List String) :
    namesBy m first (second :: others) = .identifier first :: .mark m :: namesBy m second others :=
  rfl

theorem paramList_sound {tokens rest : List Token} {params : List String}
    (h : Read.paramList tokens = .ok (params, rest)) :
    ∃ first others, params = first :: others ∧ tokens = namesBy .comma first others ++ rest := by
  fun_induction Read.paramList tokens generalizing params rest with
  | case1 param tokens ih =>
      rcases bind_eq_ok_iff.mp h with ⟨⟨more, rest₁⟩, hmore, heq⟩
      cases heq
      rcases ih hmore with ⟨second, others, rfl, rfl⟩
      exact ⟨param, second :: others, rfl, rfl⟩
  | case2 param tokens _ =>
      cases h
      exact ⟨param, [], rfl, rfl⟩
  | case3 tokens _ _ => cases h

theorem paramList_namesBy (first : String) (others : List String) (rest : List Token) :
    Read.paramList (namesBy .comma first others ++ .mark .rightParen :: rest) =
      .ok (first :: others, .mark .rightParen :: rest) := by
  induction others generalizing first with
  | nil => rfl
  | cons second others ih =>
      rw [namesBy_cons, List.cons_append, List.cons_append, Read.paramList, ih, ok_bind]
      rfl

theorem reads_params : Reads Read.params DerivesParams fun _ => True := by
  intro tokens params rest
  constructor
  · intro h
    unfold Read.params at h
    split at h
    · cases h
      exact ⟨_, rfl, .none, trivial⟩
    · rcases bind_eq_ok_iff.mp h with ⟨⟨names, rest₁⟩, hnames, h⟩
      rcases bind_eq_ok_iff.mp h with ⟨rest₂, hexp, heq⟩
      cases heq
      rcases paramList_sound hnames with ⟨first, others, rfl, rfl⟩
      rw [expect_eq_ok_iff.mp hexp]
      exact ⟨_, by simp, .listed first others, trivial⟩
    · cases h
      exact ⟨_, rfl, .bare _, trivial⟩
    · cases h
  · rintro ⟨ts, rfl, hts, _⟩
    cases hts with
    | bare param => rfl
    | none => rfl
    | listed param params =>
        have hread := paramList_namesBy param params rest
        rw [List.cons_append, List.append_assoc, List.singleton_append]
        unfold namesBy at hread ⊢
        rw [List.cons_append, Read.params, ← List.cons_append, hread, ok_bind]
        · rfl
        · simp

theorem reads_lambda (limit : Nat) :
    Reads (Read.lambda limit) (DerivesLambda (ExprWithin limit)) (tightness? · = none) := by
  intro tokens f rest
  constructor
  · intro h
    rcases bind_eq_ok_iff.mp h with ⟨⟨params, rest₁⟩, hparams, h⟩
    rcases bind_eq_ok_iff.mp h with ⟨rest₂, hexp, h⟩
    rcases bind_eq_ok_iff.mp h with ⟨⟨body, rest₃⟩, hbody, heq⟩
    cases heq
    rcases (reads_params _ _ _).mp hparams with ⟨ps, rfl, hps, _⟩
    rcases (reads_fullExpression limit _ _ _).mp hbody with ⟨bs, rfl, hbs, hend⟩
    have hrest : rest₁ = .mark .arrow :: (bs ++ rest) := expect_eq_ok_iff.mp hexp
    exact ⟨ps ++ .mark .arrow :: bs, by simp [hrest], .mk hps hbs, hend⟩
  · rintro ⟨ts, rfl, hts, hend⟩
    cases hts with
    | @mk ps bs params body hps hbs =>
        have hparams : Read.params (ps ++ .mark .arrow :: (bs ++ rest)) = .ok (params, _) :=
          (reads_params _ _ _).mpr ⟨ps, rfl, hps, trivial⟩
        have hbody : Read.fullExpression limit (bs ++ rest) = .ok (body, rest) :=
          (reads_fullExpression limit _ _ _).mpr ⟨bs, rfl, hbs, hend⟩
        have hexp : Read.expect .arrow (.mark .arrow :: (bs ++ rest)) = .ok (bs ++ rest) := rfl
        simp only [List.append_assoc, List.cons_append, Read.lambda, hparams, ok_bind, hexp, hbody]
        rfl

/-- A further argument is read after a comma; where there is none, nothing is taken. -/
theorem furtherArg_sound {limit : Nat} {tokens rest : List Token} {arg : Option Expr}
    (h : Read.furtherArg limit tokens = .ok (arg, rest)) :
    (arg = none ∧ rest = tokens) ∨
      ∃ ts e, arg = some e ∧ tokens = .mark .comma :: (ts ++ rest) ∧ ExprWithin limit ts e := by
  unfold Read.furtherArg at h
  split at h
  · rcases bind_eq_ok_iff.mp h with ⟨⟨e, rest₁⟩, he, heq⟩
    cases heq
    rcases (reads_fullExpression limit _ _ _).mp he with ⟨ts, rfl, hts, _⟩
    exact Or.inr ⟨ts, e, rfl, rfl, hts⟩
  · cases h
    exact Or.inl ⟨rfl, rfl⟩

theorem furtherArg_comma {limit : Nat} {ts : List Token} {e : Expr} (h : ExprWithin limit ts e)
    (rest : List Token) (hend : tightness? (Read.front rest) = none) :
    Read.furtherArg limit (.mark .comma :: (ts ++ rest)) = .ok (some e, rest) := by
  have hread := (reads_fullExpression limit _ _ _).mpr ⟨ts, rfl, h, hend⟩
  rw [Read.furtherArg, hread]
  rfl

theorem initialArg_sound {limit : Nat} {tokens rest : List Token} {e : Expr}
    (h : Read.initialArg limit tokens = .ok (e, rest)) :
    ∃ ts, tokens = .mark .comma :: (ts ++ rest) ∧ ExprWithin limit ts e := by
  unfold Read.initialArg at h
  split at h
  · cases h
  · rcases bind_eq_ok_iff.mp h with ⟨rest₁, hexp, he⟩
    rcases (reads_fullExpression limit _ _ _).mp he with ⟨ts, rfl, hts, _⟩
    exact ⟨ts, expect_eq_ok_iff.mp hexp, hts⟩

theorem sliceArgs_sound {limit : Nat} {tokens rest : List Token} {stage : Stage}
    (h : Read.sliceArgs limit tokens = .ok (stage, rest)) :
    ∃ as, tokens = as ++ rest ∧ stage.kind = .slice ∧ DerivesArgs (ExprWithin limit) as stage := by
  rw [Read.sliceArgs, bind_eq_ok_iff] at h
  rcases h with ⟨⟨start, rest₁⟩, hstart, h⟩
  rcases bind_eq_ok_iff.mp h with ⟨⟨stop, rest₂⟩, hstop, hread⟩
  rcases (reads_fullExpression limit _ _ _).mp hstart with ⟨ts, rfl, hts, _⟩
  rcases furtherArg_sound hstop with ⟨rfl, rfl⟩ | ⟨us, stop, rfl, rfl, hus⟩
  · cases hread
    exact ⟨ts, rfl, rfl, .sliceFrom hts⟩
  · rcases bind_eq_ok_iff.mp hread with ⟨⟨step, rest₃⟩, hstep, heq⟩
    cases heq
    rcases furtherArg_sound hstep with ⟨rfl, rfl⟩ | ⟨vs, step, rfl, rfl, hvs⟩
    · exact ⟨ts ++ .mark .comma :: us, by simp, rfl, .sliceTo hts hus⟩
    · exact ⟨ts ++ .mark .comma :: (us ++ .mark .comma :: vs), by simp, rfl, .sliceBy hts hus hvs⟩

theorem stageArgs_sound {limit : Nat} {kind : StageKind} {tokens rest : List Token} {stage : Stage}
    (h : Read.stageArgs limit kind tokens = .ok (stage, rest)) :
    ∃ as, tokens = as ++ rest ∧ stage.kind = kind ∧ DerivesArgs (ExprWithin limit) as stage := by
  have hlambda := fun f rest => (reads_lambda limit tokens f rest).mp
  -- Each kind reads its own arguments, and what was read is cut off the tokens from the front.
  cases kind with
  | map =>
      rcases bind_eq_ok_iff.mp h with ⟨⟨f, rest₁⟩, hf, heq⟩
      cases heq
      rcases hlambda _ _ hf with ⟨ts, rfl, hts, _⟩
      exact ⟨ts, rfl, rfl, .map hts⟩
  | filter =>
      rcases bind_eq_ok_iff.mp h with ⟨⟨f, rest₁⟩, hf, heq⟩
      cases heq
      rcases hlambda _ _ hf with ⟨ts, rfl, hts, _⟩
      exact ⟨ts, rfl, rfl, .filter hts⟩
  | flatMap =>
      rcases bind_eq_ok_iff.mp h with ⟨⟨f, rest₁⟩, hf, heq⟩
      cases heq
      rcases hlambda _ _ hf with ⟨ts, rfl, hts, _⟩
      exact ⟨ts, rfl, rfl, .flatMap hts⟩
  | reduce =>
      rcases bind_eq_ok_iff.mp h with ⟨⟨f, rest₁⟩, hf, h⟩
      rcases bind_eq_ok_iff.mp h with ⟨⟨e, rest₂⟩, he, heq⟩
      cases heq
      rcases hlambda _ _ hf with ⟨ts, rfl, hts, _⟩
      rcases initialArg_sound he with ⟨is, rfl, his⟩
      exact ⟨ts ++ .mark .comma :: is, by simp, rfl, .reduce hts his⟩
  | slice => exact sliceArgs_sound h

/-- The arguments of a stage are read up to the closing parenthesis. -/
theorem stageArgs_of_derives {limit : Nat} {as : List Token} {stage : Stage}
    (h : DerivesArgs (ExprWithin limit) as stage) (rest : List Token) :
    Read.stageArgs limit stage.kind (as ++ .mark .rightParen :: rest) =
      .ok (stage, .mark .rightParen :: rest) := by
  -- What follows an argument is a comma or the parenthesis, and neither extends an expression.
  have hexpr := fun {ts e} (hts : ExprWithin limit ts e) rest hend =>
    (reads_fullExpression limit (ts ++ rest) e rest).mpr ⟨ts, rfl, hts, hend⟩
  have hlambda := fun {ts f} (hts : DerivesLambda (ExprWithin limit) ts f) rest hend =>
    (reads_lambda limit (ts ++ rest) f rest).mpr ⟨ts, rfl, hts, hend⟩
  cases h with
  | map h =>
      simp only [Stage.kind, Read.stageArgs, hlambda h (.mark .rightParen :: rest) rfl, ok_bind]
      rfl
  | filter h =>
      simp only [Stage.kind, Read.stageArgs, hlambda h (.mark .rightParen :: rest) rfl, ok_bind]
      rfl
  | flatMap h =>
      simp only [Stage.kind, Read.stageArgs, hlambda h (.mark .rightParen :: rest) rfl, ok_bind]
      rfl
  | @reduce ts is f e h he =>
      have hf := hlambda h (.mark .comma :: (is ++ .mark .rightParen :: rest)) rfl
      have he : Read.initialArg limit (.mark .comma :: (is ++ .mark .rightParen :: rest)) = _ :=
        hexpr he (.mark .rightParen :: rest) rfl
      simp only [Stage.kind, Read.stageArgs, List.append_assoc, List.cons_append, hf, ok_bind, he]
      rfl
  | @sliceFrom ts start h =>
      simp only [Stage.kind, Read.stageArgs, Read.sliceArgs,
        hexpr h (.mark .rightParen :: rest) rfl, ok_bind]
      rfl
  | @sliceTo ts us start stop h hstop =>
      have hstart := hexpr h (.mark .comma :: (us ++ .mark .rightParen :: rest)) rfl
      have hstop := furtherArg_comma hstop (.mark .rightParen :: rest) rfl
      simp only [Stage.kind, Read.stageArgs, Read.sliceArgs, List.append_assoc, List.cons_append,
        hstart, ok_bind, hstop]
      rfl
  | @sliceBy ts us vs start stop step h hstop hstep =>
      have hstart := hexpr h
        (.mark .comma :: (us ++ .mark .comma :: (vs ++ .mark .rightParen :: rest))) rfl
      have hstop := furtherArg_comma hstop (.mark .comma :: (vs ++ .mark .rightParen :: rest)) rfl
      have hstep := furtherArg_comma hstep (.mark .rightParen :: rest) rfl
      simp only [Stage.kind, Read.stageArgs, Read.sliceArgs, List.append_assoc, List.cons_append,
        hstart, ok_bind, hstop, hstep]
      rfl

/-- A kind is found under its name only. -/
theorem name_of_stageKind {name : String} {kind : StageKind}
    (h : StageKind.ofName? name = some kind) : name = kind.name := by
  have hname := List.find?_some h
  exact (eq_of_beq hname).symm

theorem name_eq_ok_iff {tokens rest : List Token} {name : String} :
    Read.name tokens = .ok (name, rest) ↔ tokens = .identifier name :: rest := by
  cases tokens with
  | nil => simp [Read.name]
  | cons t ts => cases t <;> simp [Read.name]

theorem reads_stage (limit : Nat) :
    Reads (Read.stage limit) (DerivesStage (ExprWithin limit)) fun _ => True := by
  intro tokens stage rest
  constructor
  · intro h
    rcases bind_eq_ok_iff.mp h with ⟨⟨name, rest₁⟩, hname, h⟩
    dsimp only at h
    split at h
    · cases h
    · -- The name has to be one of a stage, so the tokens begin with the word for its kind.
      rename_i kind hkind
      rcases bind_eq_ok_iff.mp h with ⟨rest₂, hopen, h⟩
      rcases bind_eq_ok_iff.mp h with ⟨⟨read, rest₃⟩, hread, h⟩
      rcases bind_eq_ok_iff.mp h with ⟨rest₄, hclose, heq⟩
      cases heq
      rcases stageArgs_sound hread with ⟨as, rfl, rfl, has⟩
      have hrest : rest₃ = .mark .rightParen :: rest := expect_eq_ok_iff.mp hclose
      rw [name_eq_ok_iff.mp hname, name_of_stageKind hkind, expect_eq_ok_iff.mp hopen, hrest]
      exact ⟨_, by simp, .mk has, trivial⟩
  · rintro ⟨ts, rfl, hts, _⟩
    cases hts with
    | @mk as stage has =>
        have hname : Read.name (.identifier stage.kind.name :: .mark .leftParen ::
          (as ++ .mark .rightParen :: rest)) = .ok (stage.kind.name, _) := rfl
        have hargs := stageArgs_of_derives has rest
        simp [Read.stage, hname, StageKind.ofName?_name, Read.expect, hargs]

/-- A stage is read after either separator. -/
theorem nextStage_eq_ok_iff {limit : Nat} {tokens rest : List Token} {stage : Stage} :
    Read.nextStage limit tokens = .ok (stage, rest) ↔
      ∃ separator ts, tokens = Separator.token separator :: (ts ++ rest) ∧
        DerivesStage (ExprWithin limit) ts stage := by
  constructor
  · intro h
    unfold Read.nextStage at h
    split at h
    · rcases (reads_stage limit _ _ _).mp h with ⟨ts, rfl, hts, _⟩
      exact ⟨.bar, ts, rfl, hts⟩
    · rcases (reads_stage limit _ _ _).mp h with ⟨ts, rfl, hts, _⟩
      exact ⟨.dot, ts, rfl, hts⟩
    · cases h
  · rintro ⟨separator, ts, rfl, hts⟩
    have hread := (reads_stage limit (ts ++ rest) stage rest).mpr ⟨ts, rfl, hts, trivial⟩
    cases separator with
    | bar => exact hread
    | dot => exact hread

@[simp] theorem chainTokens_cons (separator : Separator) (ts : List Token)
    (chain : List (Separator × List Token)) :
    chainTokens ((separator, ts) :: chain) = separator.token :: (ts ++ chainTokens chain) :=
  rfl

theorem stagesToEnd_sound {limit count : Nat} {tokens : List Token} {stages : List Stage}
    (h : Read.stagesToEnd limit count tokens = .ok stages) :
    ∃ chain, tokens = chainTokens chain ∧
      List.Forall₂ (DerivesStage (ExprWithin limit)) (chain.map Prod.snd) stages := by
  fun_induction Read.stagesToEnd limit count tokens generalizing stages with
  | case1 =>
      cases h
      exact ⟨[], rfl, .nil⟩
  | case2 => cases h
  | case3 count tokens _ ih =>
      rcases bind_eq_ok_iff.mp h with ⟨⟨stage, rest⟩, hstage, h⟩
      rcases bind_eq_ok_iff.mp h with ⟨more, hmore, heq⟩
      cases heq
      rcases nextStage_eq_ok_iff.mp hstage with ⟨separator, ts, htokens, hts⟩
      rcases ih rest hmore with ⟨chain, rfl, hstages⟩
      subst htokens
      exact ⟨(separator, ts) :: chain, rfl, .cons hts hstages⟩

theorem stagesToEnd_chainTokens {limit : Nat} {chain : List (Separator × List Token)}
    {stages : List Stage}
    (h : List.Forall₂ (DerivesStage (ExprWithin limit)) (chain.map Prod.snd) stages) {count : Nat}
    (hcount : (chainTokens chain).length ≤ count) :
    Read.stagesToEnd limit count (chainTokens chain) = .ok stages := by
  induction chain generalizing stages count with
  | nil =>
      cases h
      cases count <;> rfl
  | cons link chain ih =>
      rcases link with ⟨separator, ts⟩
      cases h with
      | @cons _ stage _ stages hts hstages =>
          -- Every stage has a token of its own, so the count does not run out before the chain.
          rw [chainTokens_cons, List.length_cons, List.length_append] at hcount
          rcases Nat.exists_eq_succ_of_ne_zero (by omega : count ≠ 0) with ⟨count, rfl⟩
          have hnext : Read.nextStage limit (separator.token :: (ts ++ chainTokens chain)) = _ :=
            nextStage_eq_ok_iff.mpr ⟨separator, ts, rfl, hts⟩
          have hmore := ih hstages (by omega : (chainTokens chain).length ≤ count)
          simp only [chainTokens_cons, Read.stagesToEnd, hnext, ok_bind, hmore]
          rfl

theorem pathTail_sound {tokens rest : List Token} {segments : List String}
    (h : Read.pathTail tokens = .ok (segments, rest)) :
    tokens = (segments.flatMap fun segment => [.mark .dot, .identifier segment]) ++ rest := by
  fun_induction Read.pathTail tokens generalizing segments rest with
  | case1 => cases h; rfl
  | case2 segment tokens _ ih =>
      rcases bind_eq_ok_iff.mp h with ⟨⟨more, rest₁⟩, hmore, heq⟩
      cases heq
      rw [ih hmore]
      rfl
  | case3 => cases h
  | case4 => cases h; rfl

theorem path_sound {tokens rest : List Token} {source : String}
    (h : Read.path tokens = .ok (source, rest)) :
    ∃ root segments, tokens = namesBy .dot root segments ++ rest ∧
      source = String.intercalate "." (root :: segments) := by
  rcases bind_eq_ok_iff.mp h with ⟨⟨root, rest₁⟩, hroot, h⟩
  rcases bind_eq_ok_iff.mp h with ⟨⟨segments, rest₂⟩, htail, heq⟩
  cases heq
  have hrest : rest₁ = _ := pathTail_sound htail
  refine ⟨root, segments, ?_, rfl⟩
  rw [name_eq_ok_iff.mp hroot, hrest]
  rfl

/-- The segments of a path are read up to where it ends on its own, which is not before a
    parenthesis. -/
theorem pathTail_segments (segments : List String) {rest : List Token}
    (hopen : Read.front rest ≠ .mark .leftParen) (hend : Read.pathTail rest = .ok ([], rest)) :
    Read.pathTail ((segments.flatMap fun segment => [.mark .dot, .identifier segment]) ++ rest) =
      .ok (segments, rest) := by
  induction segments with
  | nil => exact hend
  | cons segment segments ih =>
      simp only [List.flatMap_cons, List.cons_append, List.nil_append]
      -- After the segment comes another one, or what stands after the path.
      have hnext : ∀ more, (segments.flatMap fun segment => [.mark .dot, .identifier segment]) ++
          rest ≠ .mark .leftParen :: more := by
        intro more hmore
        cases segments with
        | nil =>
            rw [List.flatMap_nil, List.nil_append] at hmore
            exact hopen (by rw [hmore, Read.front])
        | cons => cases hmore
      rw [Read.pathTail, ih]
      · rfl
      · exact hnext

/-- A path is read up to the stages after it. The first of them is not taken for a segment, because
    a parenthesis follows its name. -/
theorem path_chainTokens {E : List Token → Expr → Prop} {chain : List (Separator × List Token)}
    {stages : List Stage} (h : List.Forall₂ (DerivesStage E) (chain.map Prod.snd) stages)
    (root : String) (segments : List String) :
    Read.path (namesBy .dot root segments ++ chainTokens chain) =
      .ok (String.intercalate "." (root :: segments), chainTokens chain) := by
  -- The chain starts with a bar, or with a dot, a name and a parenthesis. No path goes on there.
  have hends : Read.front (chainTokens chain) ≠ .mark .leftParen ∧
      Read.pathTail (chainTokens chain) = .ok ([], chainTokens chain) := by
    cases chain with
    | nil => exact ⟨by simp [chainTokens, Read.front], rfl⟩
    | cons link chain =>
        rcases link with ⟨separator, ts⟩
        cases h with
        | cons hts _ =>
            cases hts
            cases separator with
            | bar => exact ⟨by simp [Separator.token, Read.front], rfl⟩
            | dot => exact ⟨by simp [Separator.token, Read.front], rfl⟩
  have htail := pathTail_segments segments hends.1 hends.2
  simp only [namesBy, Read.path, List.cons_append, Read.name, ok_bind, htail]
  rfl

/-- A whole list of tokens is read as a pipeline within a bound exactly if the grammar derives it
    within that bound. -/
theorem pipeline_ofTokens_eq_ok_iff {limit : Nat} {tokens : List Token} {p : Pipeline} :
    Pipeline.ofTokens limit tokens = .ok p ↔ DerivesPipeline (ExprWithin limit) tokens p := by
  constructor
  · intro h
    unfold Pipeline.ofTokens at h
    split at h
    · cases h
    · rw [bind_eq_ok_iff] at h
      rcases h with ⟨⟨source, rest⟩, hpath, h⟩
      -- What was read is put together from the front: the path, the first stage and the others.
      rcases path_sound hpath with ⟨root, segments, rfl, hsource⟩
      dsimp only at h
      split at h
      · cases h
      · rw [bind_eq_ok_iff] at h
        rcases h with ⟨⟨first, rest₁⟩, hfirst, h⟩
        rcases bind_eq_ok_iff.mp h with ⟨more, hmore, heq⟩
        cases heq
        rcases nextStage_eq_ok_iff.mp hfirst with ⟨separator, ts, rfl, hts⟩
        rcases stagesToEnd_sound hmore with ⟨chain, hrest, hstages⟩
        dsimp only at hrest
        subst hrest
        exact .mk root segments ((separator, ts) :: chain) hsource (.cons hts hstages)
  · rintro ⟨root, segments, chain, hsource, hstages⟩
    rcases p with ⟨source, first, more⟩
    cases chain with
    | nil => cases hstages
    | cons link chain =>
        rcases link with ⟨separator, ts⟩
        -- The path ends where the chain begins, and the chain is read to the end.
        have hpath := path_chainTokens hstages root segments
        cases hstages with
        | cons hts hmore =>
            have hfirst : Read.nextStage limit (separator.token :: (ts ++ chainTokens chain)) = _ :=
              nextStage_eq_ok_iff.mpr ⟨separator, ts, rfl, hts⟩
            have hrest := stagesToEnd_chainTokens hmore (Nat.le_refl _)
            rw [chainTokens_cons] at hpath ⊢
            rw [Pipeline.ofTokens]
            · simp only [hpath, ok_bind, hfirst, hrest]
              rw [← hsource]
              rfl
            · exact fun h => by cases h

theorem pipeline_parseWithin_eq_ok_iff {source : String} {tokens : List Token}
    (h : Token.ofSource source = .ok tokens) {limit : Nat} {p : Pipeline} :
    Pipeline.parseWithin limit source = .ok p ↔ DerivesPipeline (ExprWithin limit) tokens p := by
  rw [Pipeline.parseWithin, h, ok_bind, pipeline_ofTokens_eq_ok_iff]

section

variable {E E' : List Token → Expr → Prop} {ts : List Token}
  (hE : ∀ us e, us.length ≤ ts.length → E us e → E' us e)

include hE

theorem DerivesLambda.mono {f : Lambda} (h : DerivesLambda E ts f) : DerivesLambda E' ts f := by
  cases h with
  | mk hp hb => exact .mk hp (hE _ _ (by simp; omega) hb)

theorem DerivesArgs.mono {stage : Stage} (h : DerivesArgs E ts stage) :
    DerivesArgs E' ts stage := by
  cases h with
  | map h => exact .map (h.mono hE)
  | filter h => exact .filter (h.mono hE)
  | flatMap h => exact .flatMap (h.mono hE)
  | reduce h he =>
      exact .reduce (h.mono fun us e hus => hE us e (by simp; omega)) (hE _ _ (by simp; omega) he)
  | sliceFrom h => exact .sliceFrom (hE _ _ (Nat.le_refl _) h)
  | sliceTo h hstop =>
      exact .sliceTo (hE _ _ (by simp) h) (hE _ _ (by simp; omega) hstop)
  | sliceBy h hstop hstep =>
      exact .sliceBy (hE _ _ (by simp) h) (hE _ _ (by simp; omega) hstop)
        (hE _ _ (by simp; omega) hstep)

theorem DerivesStage.mono {stage : Stage} (h : DerivesStage E ts stage) :
    DerivesStage E' ts stage := by
  cases h with
  | mk h => exact .mk (h.mono fun us e hus => hE us e (by simp; omega))

end

theorem mono_chain {E E' : List Token → Expr → Prop} {chain : List (Separator × List Token)}
    {stages : List Stage} (hE : ∀ us e, us.length ≤ (chainTokens chain).length → E us e → E' us e)
    (h : List.Forall₂ (DerivesStage E) (chain.map Prod.snd) stages) :
    List.Forall₂ (DerivesStage E') (chain.map Prod.snd) stages := by
  induction chain generalizing stages with
  | nil =>
      cases h
      exact .nil
  | cons link chain ih =>
      cases h with
      | cons hts hmore =>
          rw [chainTokens_cons, List.length_cons, List.length_append] at hE
          exact .cons (hts.mono fun us e hus => hE us e (by omega))
            (ih (fun us e hus => hE us e (by omega)) hmore)

theorem DerivesPipeline.mono {E E' : List Token → Expr → Prop} {tokens : List Token} {p : Pipeline}
    (hE : ∀ us e, us.length ≤ tokens.length → E us e → E' us e) (h : DerivesPipeline E tokens p) :
    DerivesPipeline E' tokens p := by
  cases h with
  | mk root segments chain hsource hstages =>
      refine .mk root segments chain hsource (mono_chain (fun us e hus => hE us e ?_) hstages)
      rw [List.length_append]
      omega

theorem token_injective {separator separator' : Separator}
    (h : separator.token = separator'.token) : separator = separator' := by
  cases separator <;> cases separator' <;> first | rfl | cases h

/-- A chain is cut into stages in one way only: where one ends, the next begins. -/
theorem chainTokens_inj (limit : Nat) {chain chain' : List (Separator × List Token)}
    {stages stages' : List Stage}
    (h : List.Forall₂ (DerivesStage (ExprWithin limit)) (chain.map Prod.snd) stages)
    (h' : List.Forall₂ (DerivesStage (ExprWithin limit)) (chain'.map Prod.snd) stages')
    (heq : chainTokens chain = chainTokens chain') : chain = chain' := by
  induction chain generalizing chain' stages stages' with
  | nil =>
      cases chain' with
      | nil => rfl
      | cons => cases heq
  | cons link chain ih =>
      cases chain' with
      | nil => cases heq
      | cons link' chain' =>
          rcases link with ⟨separator, ts⟩
          rcases link' with ⟨separator', ts'⟩
          cases h with
          | cons hts hmore =>
              cases h' with
              | cons hts' hmore' =>
                  rw [chainTokens_cons, chainTokens_cons, List.cons.injEq] at heq
                  rcases heq with ⟨htoken, hrest⟩
                  -- A stage is read from the same tokens up to the same place, whatever follows.
                  have hcut := (reads_stage limit).cut hts trivial hts' trivial hrest
                  rcases hcut with ⟨hpiece, hchain⟩
                  rw [token_injective htoken, ih hmore hmore' hchain]
                  exact congrArg (fun ts => (separator', ts) :: chain') hpiece

/-- The expressions that tokens derive. -/
def DerivesExpr (ts : List Token) (e : Expr) : Prop :=
  Derives ts (.conditional e)

theorem DerivesPipeline.derives {limit : Nat} {tokens : List Token} {p : Pipeline}
    (h : DerivesPipeline (ExprWithin limit) tokens p) : DerivesPipeline DerivesExpr tokens p :=
  h.mono fun _ _ _ he => he.derives

/-- Two lists of tokens with the same path and the same stages, which differ at most in the
    separators. -/
def Interchanged (tokens tokens' : List Token) : Prop :=
  ∃ root segments chain chain' stages,
    tokens = namesBy .dot root segments ++ chainTokens chain ∧
      tokens' = namesBy .dot root segments ++ chainTokens chain' ∧
      chain'.map Prod.snd = chain.map Prod.snd ∧
      List.Forall₂ (DerivesStage DerivesExpr) (chain.map Prod.snd) stages

theorem Interchanged.symm {tokens tokens' : List Token} (h : Interchanged tokens tokens') :
    Interchanged tokens' tokens := by
  rcases h with ⟨root, segments, chain, chain', stages, rfl, rfl, hpieces, hstages⟩
  exact ⟨root, segments, chain', chain, stages, rfl, rfl, hpieces.symm, hpieces ▸ hstages⟩

/-- A derivation goes through when separators are replaced. -/
theorem Interchanged.derivesPipeline {tokens tokens' : List Token} {limit : Nat} {p : Pipeline}
    (h : Interchanged tokens tokens') (hp : DerivesPipeline (ExprWithin limit) tokens p) :
    DerivesPipeline (ExprWithin limit) tokens' p := by
  rcases h with ⟨root, segments, chain, chain', stages, htokens, rfl, hpieces, hstages⟩
  rcases hp with ⟨root', segments', chain'', hsource, hstages''⟩
  have hpath := path_chainTokens hstages root segments
  rw [← htokens, path_chainTokens hstages'', Except.ok.injEq, Prod.mk.injEq] at hpath
  rcases hpath with ⟨hsame, hchains⟩
  -- A bound for all expressions in either chain.
  let bound := max limit (chainTokens chain).length
  have hchain : chain'' = chain := by
    refine chainTokens_inj bound (mono_chain ?_ hstages'') (mono_chain ?_ hstages) hchains
    · intro us e _ he
      exact he.mono (Nat.le_max_left _ _)
    · intro us e hus he
      exact he.withinLength.mono (Nat.le_trans hus (Nat.le_max_right _ _))
  refine .mk root segments chain' (hsource.trans hsame) ?_
  rwa [hpieces, ← hchain]

/-- The reader of pipelines accepts exactly what the grammar derives, whichever bar or dot stands
    before a stage. A bound on nesting can only refuse, and from the number of tokens on it does not
    even do that. -/
theorem pipeline_follows_grammar (source : String) (tokens : List Token)
    (h : Token.ofSource source = .ok tokens) :
    (∀ limit p, Pipeline.parseWithin limit source = .ok p → DerivesPipeline DerivesExpr tokens p) ∧
    (∀ limit, tokens.length ≤ limit → ∀ p,
      (Pipeline.parseWithin limit source = .ok p ↔ DerivesPipeline DerivesExpr tokens p)) ∧
    (∀ source' tokens', Token.ofSource source' = .ok tokens' → Interchanged tokens tokens' →
      ∀ limit p, (Pipeline.parseWithin limit source' = .ok p ↔
        Pipeline.parseWithin limit source = .ok p)) := by
  refine ⟨?_, ?_, ?_⟩
  · intro limit p hp
    exact ((pipeline_parseWithin_eq_ok_iff h).mp hp).derives
  · intro limit hlimit p
    rw [pipeline_parseWithin_eq_ok_iff h]
    constructor
    · intro hp
      exact hp.derives
    · intro hp
      -- The nesting of an expression is not above the number of its tokens.
      exact hp.mono fun us e hus he => he.withinLength.mono (Nat.le_trans hus hlimit)
  · intro source' tokens' h' hinterchanged limit p
    rw [pipeline_parseWithin_eq_ok_iff h, pipeline_parseWithin_eq_ok_iff h']
    constructor
    · exact hinterchanged.symm.derivesPipeline
    · exact hinterchanged.derivesPipeline

theorem derivesExpr_identifier (name : String) :
    DerivesExpr [.identifier name] (.identifier name) := by
  have h : ExprWithin 1 [.identifier name] (.identifier name) :=
    (DerivesWithin.atom rfl).lower (by decide) (by decide)
  exact h.derives

/-- A segment with the name of a stage belongs to the path, and a bar in place of the dot after it
    changes nothing. -/
theorem bar_replaces_dot :
    Token.ofSource "a.map.filter(x => x)" = .ok
      [.identifier "a", .mark .dot, .identifier "map", .mark .dot, .identifier "filter",
        .mark .leftParen, .identifier "x", .mark .arrow, .identifier "x", .mark .rightParen] ∧
    DerivesPipeline DerivesExpr
      [.identifier "a", .mark .dot, .identifier "map", .mark .dot, .identifier "filter",
        .mark .leftParen, .identifier "x", .mark .arrow, .identifier "x", .mark .rightParen]
      ⟨"a.map", .filter (some ⟨["x"], .identifier "x"⟩), []⟩ ∧
    Pipeline.parseWithin 10 "a.map | filter(x => x)" =
      .ok ⟨"a.map", .filter (some ⟨["x"], .identifier "x"⟩), []⟩ := by
  have h := pipeline_follows_grammar "a.map.filter(x => x)" _ rfl
  have hparse : Pipeline.parseWithin 10 "a.map.filter(x => x)" =
      .ok ⟨"a.map", .filter (some ⟨["x"], .identifier "x"⟩), []⟩ := rfl
  have hstage : DerivesStage DerivesExpr
      [.identifier "filter", .mark .leftParen, .identifier "x", .mark .arrow, .identifier "x",
        .mark .rightParen]
      (.filter (some ⟨["x"], .identifier "x"⟩)) :=
    .mk (.filter (.mk (.bare "x") (derivesExpr_identifier "x")))
  refine ⟨rfl, (h.2.1 10 (by decide) _).mp hparse, ?_⟩
  refine (h.2.2 "a.map | filter(x => x)" _ rfl ?_ 10 _).mpr hparse
  exact ⟨"a", ["map"], [(.dot, _)], [(.bar, _)], _, rfl, rfl, rfl, .cons hstage .nil⟩

end Grammar

end FieldLang

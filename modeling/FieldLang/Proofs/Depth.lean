import FieldLang.Proofs.SameFunctions

/-!
# The Bound on Depth

What a bound on depth can do to a result, and what it cannot. Reading and evaluating both count how
deeply they are nested, and stop with a fault of their own where the count runs out. So a smaller
bound either makes no difference or ends in that fault: no value and no other fault depends on it.

For evaluation this is a comparison of two runs in which the second engine has some depth to spare,
and the fault of the first one is excused. The same comparison is made for readers here. Two readers
agree on the tokens that are left, so the second one is never ahead of the first; its budget is, by
the same amount at every level of nesting.

A reader compared with itself tells which faults it can end in. Everything nested starts after a
token of its own, so a budget that is larger than the number of tokens does not run out: counting
the end of the source as a token, as many levels as tokens are enough.

## Main definitions

* `Faults.Syntactic`: Faults of reading that are excused for nesting only.
* `Read.Leaves`: Readings that agree and leave fewer tokens.
* `Pairing.deeper`: Two engines that differ in their bounds on depth.

## Theorems

* `follows_operand`, `follows_arguments`, `follows_extend`: The parts of an expression are read in
  step if what is nested in them is.
* `follows_expression`, `follows_parseWithin`: Expressions are read in step.
* `inStep_deeper`: Engines that differ in their bounds run in step.
* `depth_only_refuses`: A smaller bound changes nothing or is the fault.
-/

namespace FieldLang

/-- Every syntax error may be shared, except that expressions are nested too deeply. -/
def Faults.Syntactic (faults : Faults ParseError) : Prop :=
  ∀ e, (∀ limit, e ≠ .nestedTooDeeply limit) → faults.shared e

/-- Both readings are the same, and fewer tokens than a number are left. -/
def Read.Leaves {α : Type} (n : Nat) (x y : α × List Token) : Prop :=
  x = y ∧ x.2.length < n

section Readers

variable {faults : Faults ParseError}

namespace Follows

theorem read {α : Type} {n : Nat} (a : α) (rest : List Token) (h : rest.length < n) :
    Follows faults (Read.Leaves n) (.ok (a, rest)) (.ok (a, rest)) :=
  .ok ⟨rfl, h⟩

/-- What is read next starts from the tokens that both readings leave. -/
theorem readThen {α β γ : Type} {R : β → γ → Prop} {n : Nat}
    {x y : Except ParseError (α × List Token)} {f : α × List Token → Except ParseError β}
    {g : α × List Token → Except ParseError γ} (h : Follows faults (Read.Leaves n) x y)
    (hfg : ∀ a (rest : List Token), rest.length < n →
      Follows faults R (f (a, rest)) (g (a, rest))) :
    Follows faults R (x >>= f) (y >>= g) := by
  refine h.bind ?_
  rintro ⟨a, rest⟩ _ ⟨rfl, hrest⟩
  exact hfg a rest hrest

/-- Fewer tokens may be left than are said to be. -/
theorem leaveMore {α : Type} {n m : Nat} {x y : Except ParseError (α × List Token)}
    (h : Follows faults (Read.Leaves n) x y) (hm : n ≤ m) :
    Follows faults (Read.Leaves m) x y :=
  h.imp fun _ _ hxy => ⟨hxy.1, Nat.lt_of_lt_of_le hxy.2 hm⟩

end Follows

variable (hfaults : faults.Syntactic)
include hfaults

/-- What is read after a mark starts from fewer tokens. -/
theorem follows_expect {β γ : Type} {R : β → γ → Prop} (m : Mark) (tokens : List Token)
    {f : List Token → Except ParseError β} {g : List Token → Except ParseError γ}
    (hfg : ∀ rest : List Token, rest.length < tokens.length → Follows faults R (f rest) (g rest)) :
    Follows faults R (Read.expect m tokens >>= f) (Read.expect m tokens >>= g) := by
  cases tokens with
  | nil => exact .error (hfaults _ nofun)
  | cons t rest =>
      cases t with
      | mark k =>
          rw [Read.expect]
          by_cases hk : k = m
          · rw [if_pos hk]
            exact hfg rest (Nat.lt_succ_self _)
          · rw [if_neg hk]
            exact .error (hfaults _ nofun)
      | _ => exact .error (hfaults _ nofun)

theorem follows_propertyName (tokens : List Token) :
    Follows faults (Read.Leaves tokens.length) (Read.propertyName tokens)
      (Read.propertyName tokens) := by
  cases tokens with
  | nil => exact .error (hfaults _ nofun)
  | cons t rest =>
      cases t with
      | identifier name => exact .read _ _ (Nat.lt_succ_self _)
      | boolean b => exact .read _ _ (Nat.lt_succ_self _)
      | null => exact .read _ _ (Nat.lt_succ_self _)
      | undefined => exact .read _ _ (Nat.lt_succ_self _)
      | _ => exact .error (hfaults _ nofun)

-- What is nested is read from fewer than `n` tokens, the number that the parts around it have.
variable {nested nested' : Nat → Reader Expr} {n : Nat}
  (hnested : ∀ demanded tokens, tokens.length < n →
    Follows faults (Read.Leaves tokens.length) (nested demanded tokens) (nested' demanded tokens))
include hnested

/-- An operand is read in step if what is in parentheses or after a unary operator is. -/
theorem follows_operand {tokens : List Token} (hn : tokens.length ≤ n) :
    Follows faults (Read.Leaves tokens.length) (Read.operand nested tokens)
      (Read.operand nested' tokens) := by
  have hunary : ∀ (t : Token) (op : UnaryOp) (rest : List Token), (t :: rest).length ≤ n →
      Follows faults (Read.Leaves (t :: rest).length)
        (nested Power.unary rest >>= fun x => .ok (Expr.unary op x.1, x.2))
        (nested' Power.unary rest >>= fun x => .ok (Expr.unary op x.1, x.2)) := by
    intro t op rest hn
    rw [List.length_cons] at hn ⊢
    refine (hnested _ rest (by omega)).readThen fun inner rest₁ hinner => ?_
    exact .read _ rest₁ (by omega)
  unfold Read.operand
  split
  -- The case of parentheses: what is inside is nested, and the closing one is expected after it.
  case h_7 rest =>
    rw [List.length_cons] at hn ⊢
    refine (hnested 0 rest (by omega)).readThen fun inner rest₁ hinner => ?_
    refine follows_expect hfaults .rightParen rest₁ fun rest₂ hclose => ?_
    exact .read _ rest₂ (by omega)
  case h_8 rest => exact hunary _ .negate rest hn
  case h_9 rest => exact hunary _ .not rest hn
  all_goals first | exact .read _ _ (Nat.lt_succ_self _) | exact .error (hfaults _ nofun)

theorem follows_argumentList (count : Nat) {tokens : List Token} (hn : tokens.length < n) :
    Follows faults (Read.Leaves tokens.length) (Read.argumentList nested count tokens)
      (Read.argumentList nested' count tokens) := by
  induction count generalizing tokens with
  | zero => exact .error (hfaults _ nofun)
  | succ count ih =>
      rw [Read.argumentList, Read.argumentList]
      refine (hnested 0 tokens hn).readThen fun arg rest hrest => ?_
      -- A comma announces more arguments, and anything else must be the closing parenthesis.
      dsimp only
      split
      · rw [List.length_cons] at hrest
        refine (ih (by omega)).readThen fun args rest₁ hargs => ?_
        exact .read _ rest₁ (by omega)
      · refine follows_expect hfaults .rightParen rest fun rest₁ hclose => ?_
        exact .read _ rest₁ (by omega)

/-- The arguments of a call are read in step if each of them is. -/
theorem follows_arguments {tokens : List Token} (hn : tokens.length < n) :
    Follows faults (Read.Leaves tokens.length) (Read.arguments nested tokens)
      (Read.arguments nested' tokens) := by
  unfold Read.arguments
  split
  · exact .read _ _ (Nat.lt_succ_self _)
  · exact follows_argumentList hfaults hnested _ hn

/-- What a token extends an operand by is read in step if what is nested in it is. -/
theorem follows_extension (right : Nat) (lhs : Expr) (t : Token) {rest : List Token}
    (hn : rest.length < n) :
    Follows faults (Read.Leaves (rest.length + 1)) (Read.extension nested right lhs t rest)
      (Read.extension nested' right lhs t rest) := by
  unfold Read.extension
  split
  · refine (follows_propertyName hfaults _).readThen fun property rest₁ hrest => ?_
    exact .read _ rest₁ (by omega)
  · refine (hnested 0 _ hn).readThen fun key rest₁ hkey => ?_
    refine follows_expect hfaults .rightBracket rest₁ fun rest₂ hclose => ?_
    exact .read _ rest₂ (by omega)
  · -- Only a bare name is called.
    cases lhs with
    | identifier name =>
        refine (follows_arguments hfaults hnested hn).readThen fun args rest₁ hargs => ?_
        exact .read _ rest₁ (by omega)
    | _ => exact .error (hfaults _ nofun)
  · refine (hnested 0 _ hn).readThen fun thenBranch rest₁ hthen => ?_
    refine follows_expect hfaults .colon rest₁ fun rest₂ hcolon => ?_
    refine (hnested right rest₂ (by omega)).readThen fun elseBranch rest₃ helse => ?_
    exact .read _ rest₃ (by omega)
  · refine (hnested right _ hn).readThen fun rhs rest₁ hrhs => ?_
    exact .read _ rest₁ (by omega)
  · exact .error (hfaults _ nofun)

/-- An operand is extended in step if what extends it is read so. -/
theorem follows_extend (demanded count : Nat) (lhs : Expr) {tokens : List Token}
    (hn : tokens.length ≤ n) :
    Follows faults (Read.Leaves (tokens.length + 1)) (Read.extend nested demanded count lhs tokens)
      (Read.extend nested' demanded count lhs tokens) := by
  -- Every round leaves fewer tokens, so what it reads is within the number throughout.
  induction count generalizing lhs tokens with
  | zero => exact .read _ _ (Nat.lt_succ_self _)
  | succ count ih =>
      have hstop : Follows faults (Read.Leaves (tokens.length + 1)) (.ok (lhs, tokens))
          (.ok (lhs, tokens)) := .read _ _ (Nat.lt_succ_self _)
      cases tokens with
      | nil => exact hstop
      | cons t rest =>
          rw [List.length_cons] at hn
          rw [Read.extend, Read.extend]
          -- Both readers look at the same token, so they stop together.
          cases t.power? with
          | none => exact hstop
          | some powers =>
              obtain ⟨left, right⟩ := powers
              by_cases hweak : left < demanded
              · simp only [if_pos hweak]
                exact hstop
              · simp only [if_neg hweak]
                have hext := follows_extension hfaults hnested right lhs t (Nat.lt_of_succ_le hn)
                refine hext.readThen fun e rest₁ hrest => ?_
                have hmore := ih e (show rest₁.length ≤ n by omega)
                exact hmore.leaveMore (show rest₁.length + 1 ≤ rest.length + 1 + 1 by omega)

omit hnested

/-- Expressions are read in step. The second budget is ahead by the same amount throughout, and the
    first one does not run out while it is larger than the number of tokens. -/
theorem follows_expression {limit limit' slack : Nat} (budget demanded : Nat) {tokens : List Token}
    (hdeep : tokens.length < budget ∨ faults.excused (.nestedTooDeeply limit)) :
    Follows faults (Read.Leaves tokens.length) (Read.expression limit budget demanded tokens)
      (Read.expression limit' (budget + slack) demanded tokens) := by
  induction budget generalizing demanded tokens with
  | zero =>
      rcases hdeep with hlt | hexcused
      · exact absurd hlt (Nat.not_lt_zero _)
      · exact .excused hexcused
  | succ budget ih =>
      -- What is nested starts after at least one token, so its budget may be one less.
      have hnested : ∀ demanded (rest : List Token), rest.length < tokens.length →
          Follows faults (Read.Leaves rest.length) (Read.expression limit budget demanded rest)
            (Read.expression limit' (budget + slack) demanded rest) := by
        intro demanded rest hrest
        refine ih demanded ?_
        rcases hdeep with hlt | hexcused
        · exact Or.inl (by omega)
        · exact Or.inr hexcused
      rw [Nat.add_right_comm, Read.expression, Read.expression]
      refine (follows_operand hfaults hnested (Nat.le_refl _)).readThen fun lhs rest hrest => ?_
      exact (follows_extend hfaults hnested demanded _ lhs (Nat.le_of_lt hrest)).leaveMore hrest

/-- Whole lists of tokens are read in step. -/
theorem follows_ofTokens {limit slack : Nat} {tokens : List Token}
    (hdeep : tokens.length < limit ∨ faults.excused (.nestedTooDeeply limit)) :
    Follows faults Eq (Expr.ofTokens limit tokens) (Expr.ofTokens (limit + slack) tokens) := by
  cases tokens with
  | nil => exact .error (hfaults _ nofun)
  | cons t tokens =>
      refine (follows_expression hfaults limit 0 hdeep).readThen fun e rest _ => ?_
      cases rest with
      | nil => exact .ok rfl
      | cons t rest => exact .error (hfaults _ nofun)

/-- Source texts are read in step. -/
theorem follows_parseWithin {limit slack : Nat} {source : String} {tokens : List Token}
    (h : Token.ofSource source = .ok tokens)
    (hdeep : tokens.length < limit ∨ faults.excused (.nestedTooDeeply limit)) :
    Follows faults Eq (Expr.parseWithin limit source)
      (Expr.parseWithin (limit + slack) source) := by
  unfold Expr.parseWithin
  rw [h]
  exact follows_ofTokens hfaults hdeep

end Readers

/-- A smaller bound reads the same, or refuses the nesting. -/
theorem parseWithin_eq_or_nestedTooDeeply {limit limit' : Nat} (hlimit : limit ≤ limit')
    (source : String) :
    Expr.parseWithin limit source = Expr.parseWithin limit' source ∨
      Expr.parseWithin limit source = .error (.nestedTooDeeply limit) := by
  -- Without tokens there is nothing to nest.
  cases htokens : Token.ofSource source with
  | error e =>
      refine Or.inl ?_
      unfold Expr.parseWithin
      rw [htokens]
      rfl
  | ok tokens =>
      rcases Nat.exists_eq_add_of_le hlimit with ⟨slack, rfl⟩
      let faults : Faults ParseError := ⟨(· = .nestedTooDeeply limit), fun _ => True⟩
      have hfaults : faults.Syntactic := fun _ _ => trivial
      have hfollows : Follows faults Eq (Expr.parseWithin limit source)
          (Expr.parseWithin (limit + slack) source) :=
        follows_parseWithin hfaults htokens (Or.inr rfl)
      rcases hfollows.eq_or_excused (fun _ _ => id) with heq | ⟨e, he, rfl⟩
      · exact Or.inl heq
      · exact Or.inr he

/-- As many levels as there are tokens are enough, if the end of the source counts as one. -/
theorem parseWithin_ne_nestedTooDeeply {limit : Nat} {source : String} {placed : List Token.Placed}
    (h : Token.tokenize source = .ok placed) (hlimit : placed.length ≤ limit) (n : Nat) :
    Expr.parseWithin limit source ≠ .error (.nestedTooDeeply n) := by
  unfold Token.tokenize at h
  cases hscan : Token.scan 0 0 source.toList with
  | error e =>
      rw [hscan] at h
      cases h
  | ok tokens =>
      rw [hscan] at h
      cases h
      have htokens : Token.ofSource source = .ok (tokens.map (·.token)) := by
        unfold Token.ofSource
        rw [hscan]
        rfl
      -- The reader is compared with itself: it shares no fault of nesting, and none is excused.
      let faults : Faults ParseError := .only fun e => ∀ limit, e ≠ .nestedTooDeeply limit
      have hfaults : faults.Syntactic := fun _ he => he
      have hlt : (tokens.map (·.token)).length < limit := by
        rw [List.length_append, List.length_singleton] at hlimit
        rw [List.length_map]
        omega
      have hfollows : Follows faults Eq (Expr.parseWithin limit source)
          (Expr.parseWithin (limit + 0) source) :=
        follows_parseWithin hfaults htokens (Or.inl hlt)
      intro herror
      exact Follows.self_iff.mp hfollows _ herror n rfl

section Engines

/-- Two engines of which the second has the larger bound on depth. -/
def Pairing.deeper (shallow deep : Engine) : Pairing where
  left := shallow
  right := deep
  view := .whole
  faults := {
    excused := (· = .tooDeep shallow.maxDepth)
    shared := fun _ => True
  }
  slack := deep.maxDepth - shallow.maxDepth

variable {shallow deep : Engine} (hfunctions : deep.functions = shallow.functions)
include hfunctions

theorem sameFunctions_deeper : (Pairing.deeper shallow deep).SameFunctions where
  view_eq := rfl
  functions_eq := hfunctions
  shared _ := trivial

theorem inStep_deeper (hdepth : shallow.maxDepth ≤ deep.maxDepth) :
    (Pairing.deeper shallow deep).InStep where
  ordinary _ _ := trivial
  maxDepth_right := (Nat.add_sub_of_le hdepth).symm
  excused_of_slack _ := rfl
  callable_of_refers name _ := (sameFunctions_deeper hfunctions).callable name

theorem eval_eq_or_tooDeep (hglobals : deep.globals = shallow.globals)
    (hdepth : shallow.maxDepth ≤ deep.maxDepth) (scope : Scope) (e : Expr) :
    (shallow.eval scope e).outcome = (deep.eval scope e).outcome ∨
      (shallow.eval scope e).outcome = .error (.tooDeep shallow.maxDepth) := by
  have hsame := sameFunctions_deeper hfunctions
  have hscopes : (Pairing.deeper shallow deep).AlikeScopes scope scope := by
    refine hsame.transparent.alikeScopes fun name => ?_
    show shallow.binding? scope name = deep.binding? scope name
    unfold Engine.binding? Engine.global?
    rw [hglobals]
  have hfollows := follows_eval (inStep_deeper hfunctions hdepth) hscopes (e := e) fun x _ =>
    hsame.transparent.admits x
  rcases hfollows.eq_or_excused fun _ _ => exact_whole.eq_of_alike with heq | ⟨fault, hfault, rfl⟩
  · exact Or.inl heq
  · exact Or.inr hfault

theorem call_eq_or_tooDeep (hdepth : shallow.maxDepth ≤ deep.maxDepth) (name : String)
    (args : List Value) :
    (shallow.call name args).outcome = (deep.call name args).outcome ∨
      (shallow.call name args).outcome = .error (.tooDeep shallow.maxDepth) := by
  have hargs : List.Forall₂ View.whole.Alike args args :=
    exact_whole.forall₂_iff.mpr ⟨rfl, fun _ _ _ _ => trivial⟩
  have hfollows := follows_call (inStep_deeper hfunctions hdepth)
    ((sameFunctions_deeper hfunctions).callable name) hargs
  rcases hfollows.eq_or_excused fun _ _ => exact_whole.eq_of_alike with heq | ⟨fault, hfault, rfl⟩
  · exact Or.inl heq
  · exact Or.inr hfault

/-- A source text is read and evaluated the same, or refused for its depth in one of the two. -/
theorem run_eq_or_tooDeep (hglobals : deep.globals = shallow.globals)
    (hdepth : shallow.maxDepth ≤ deep.maxDepth) (scope : Scope) (source : String) :
    (shallow.run scope source).outcome = (deep.run scope source).outcome ∨
      (shallow.run scope source).outcome = .error (.parse (.nestedTooDeeply shallow.maxDepth)) ∨
      (shallow.run scope source).outcome = .error (.tooDeep shallow.maxDepth) := by
  unfold Engine.run
  simp only [Traced.outcome_bind, Traced.outcome_ofExcept]
  rcases parseWithin_eq_or_nestedTooDeeply hdepth source with heq | hrefused
  · rw [← heq]
    cases Expr.parseWithin shallow.maxDepth source with
    | error e => exact Or.inl rfl
    | ok e =>
        rcases eval_eq_or_tooDeep hfunctions hglobals hdepth scope e with hsame | hrefused
        · exact Or.inl hsame
        · exact Or.inr (Or.inr hrefused)
  · rw [hrefused]
    exact Or.inr (Or.inl rfl)

end Engines

/-- A bound on depth only refuses. Of two engines that differ in their bounds, the one with the
    smaller bound has the same outcome as the other, or the fault of its own bound: for source
    texts, for expressions and for calls. The same holds of reading under two bounds, and a bound
    that is not less than the number of tokens, the end of the source included, refuses nothing. -/
theorem depth_only_refuses (shallow deep : Engine) (hglobals : deep.globals = shallow.globals)
    (hfunctions : deep.functions = shallow.functions)
    (hdepth : shallow.maxDepth ≤ deep.maxDepth) :
    (∀ scope source,
      (shallow.run scope source).outcome = (deep.run scope source).outcome ∨
        (shallow.run scope source).outcome = .error (.parse (.nestedTooDeeply shallow.maxDepth)) ∨
        (shallow.run scope source).outcome = .error (.tooDeep shallow.maxDepth)) ∧
    (∀ scope e,
      (shallow.eval scope e).outcome = (deep.eval scope e).outcome ∨
        (shallow.eval scope e).outcome = .error (.tooDeep shallow.maxDepth)) ∧
    (∀ name args,
      (shallow.call name args).outcome = (deep.call name args).outcome ∨
        (shallow.call name args).outcome = .error (.tooDeep shallow.maxDepth)) ∧
    (∀ source limit limit', limit ≤ limit' →
      Expr.parseWithin limit source = Expr.parseWithin limit' source ∨
        Expr.parseWithin limit source = .error (.nestedTooDeeply limit)) ∧
    (∀ source placed limit, Token.tokenize source = .ok placed → placed.length ≤ limit →
      ∀ n, Expr.parseWithin limit source ≠ .error (.nestedTooDeeply n)) :=
  ⟨run_eq_or_tooDeep hfunctions hglobals hdepth, eval_eq_or_tooDeep hfunctions hglobals hdepth,
    call_eq_or_tooDeep hfunctions hdepth,
    fun source _ _ hlimit => parseWithin_eq_or_nestedTooDeeply hlimit source,
    fun _ _ _ => parseWithin_ne_nestedTooDeeply⟩

/-- An engine with a nested object and a bound on depth. -/
def nestedEngine (maxDepth : Nat) : Engine where
  globals := [("a", .object [("b", .object [("c", .bool true)])])]
  functions := []
  maxDepth := maxDepth

/-- A path of three segments is read on one level and evaluated on three, and a name in two pairs of
    parentheses the other way round. Two levels refuse both; from three on nothing changes. -/
theorem nested_path_refused_or_same :
    ((nestedEngine 2).run [] "a.b.c").outcome = .error (.tooDeep 2) ∧
    ((nestedEngine 2).run [] "((a))").outcome = .error (.parse (.nestedTooDeeply 2)) ∧
    ((nestedEngine 3).run [] "a.b.c").outcome = .ok (.bool true) ∧
    ((nestedEngine 4).run [] "a.b.c").outcome = .ok (.bool true) := by
  have hvalue : ((nestedEngine 3).run [] "a.b.c").outcome = .ok (.bool true) := rfl
  refine ⟨rfl, rfl, hvalue, ?_⟩
  have hruns := depth_only_refuses (nestedEngine 3) (nestedEngine 4) rfl rfl (by decide)
  rcases hruns.1 [] "a.b.c" with hsame | hrefused | hrefused
  · rw [← hsame, hvalue]
  · rw [hvalue] at hrefused
    cases hrefused
  · rw [hvalue] at hrefused
    cases hrefused

end FieldLang

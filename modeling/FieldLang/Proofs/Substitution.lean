import FieldLang.Proofs.Cutting

/-!
# Lambdas by Substitution

Applying a lambda is replacing its parameters. The value of a lambda on arguments is that of its body
with each parameter replaced by a literal of its argument, outside the scope of the lambda.

A lambda binds as many of its parameters as there are arguments, and the last of those with the same
name counts. What is left of the parameters stays in the body as a name that the scope around it, the
variables or the functions explain. Only names that stand for a value are replaced: a property and the
name of a called function are not expressions.

A literal and a name take the same from the budget, one level, so the two ways run out of it at the same
place. They differ at one point. Looking up a name refuses a denied key and a literal never does, and
so a parameter of such a name is left out.

## Main definitions

* `Expr.substitute`: An expression with names replaced by literals.
* `Lambda.argument?`: The argument that a parameter stands for.

## Theorems

* `get?_override_getLast?`: Of pairs with the same key the last one overrides.
* `evalAt_substitute`: Replacing the names of a table is evaluating over the table.
* `application_is_substitution`: Applying a lambda is replacing its parameters.
-/

namespace FieldLang

mutual

/-- The expression with a literal in the place of every name that has a replacement. -/
def Expr.substitute (replacement : String → Option Value) : Expr → Expr
  | .literal v => .literal v
  | .identifier name => (replacement name).elim (.identifier name) .literal
  | .member object property => .member (object.substitute replacement) property
  | .index object key => .index (object.substitute replacement) (key.substitute replacement)
  | .binary op lhs rhs => .binary op (lhs.substitute replacement) (rhs.substitute replacement)
  | .unary op operand => .unary op (operand.substitute replacement)
  | .conditional condition thenBranch elseBranch =>
    .conditional (condition.substitute replacement) (thenBranch.substitute replacement)
      (elseBranch.substitute replacement)
  | .call name args => .call name (Expr.substituteArgs replacement args)

/-- The arguments of a call with literals in the place of names. -/
def Expr.substituteArgs (replacement : String → Option Value) : List Expr → List Expr
  | [] => []
  | arg :: args => arg.substitute replacement :: Expr.substituteArgs replacement args

end

/-- The argument that a parameter stands for, the last one if several have its name; a parameter without
    an argument stands for none. -/
def Lambda.argument? (lambda : Lambda) (args : List Value) (name : String) : Option Value :=
  ((lambda.params.zip args).filter fun pair => pair.1 = name).getLast?.map Prod.snd

theorem substituteArgs_eq_map (replacement : String → Option Value) (args : List Expr) :
    Expr.substituteArgs replacement args = args.map (Expr.substitute replacement) := by
  induction args with
  | nil => rfl
  | cons arg args ih => rw [Expr.substituteArgs, ih, List.map_cons]

/-- Of the pairs with a key the last one overrides what is there. -/
theorem get?_override_getLast? {α : Type} (table pairs : Keyed α) (key : String) :
    Keyed.get? key (Keyed.override table pairs) =
      ((pairs.filter fun pair => pair.1 = key).getLast?.map Prod.snd).or (Keyed.get? key table) := by
  induction pairs generalizing table with
  | nil => rfl
  | cons pair rest ih =>
      show Keyed.get? key (Keyed.override (Keyed.insert pair.1 pair.2 table) rest) = _
      rw [ih]
      by_cases hkey : pair.1 = key
      · rw [List.filter_cons_of_pos (by simpa using hkey), List.getLast?_cons, ← hkey,
          Keyed.get?_insert_self]
        cases (rest.filter fun other => other.1 = pair.1).getLast? <;> rfl
      · rw [List.filter_cons_of_neg (by simpa using hkey), Keyed.get?_insert_of_ne (Ne.symm hkey)]

/-- The bindings of a lambda are the arguments that its parameters stand for. -/
theorem get?_bindings (f : Lambda) (args : List Value) (name : String) :
    Keyed.get? name (Context.bindings f args) = f.argument? args name := by
  unfold Context.bindings Keyed.ofPairs
  rw [get?_override_getLast?, Keyed.get?, Option.or_none]
  rfl

/-- A parameter that stands for an argument is one of those that are bound. -/
theorem mem_params_of_argument? {f : Lambda} {args : List Value} {name : String} {v : Value}
    (h : f.argument? args name = some v) : (name, v) ∈ f.params.zip args := by
  obtain ⟨pair, hlast, rfl⟩ := Option.map_eq_some_iff.mp h
  have hmem := List.mem_of_getLast? hlast
  obtain ⟨hmem, hname⟩ := List.mem_filter.mp hmem
  rwa [← of_decide_eq_true hname]

section Evaluation

variable (engine : Engine) (scope : Scope) {table : Keyed Value}
  (htable : ∀ name, (Keyed.get? name table).isSome = true → isDenied name = false)
include htable

/-- A name that is bound is looked up where it is, and any other further out. -/
theorem lookup_cons (name : String) :
    engine.lookup (table :: scope) name =
      (Keyed.get? name table).elim (engine.lookup scope name) .ok := by
  unfold Engine.lookup
  rw [Scope.lookup?]
  cases hname : Keyed.get? name table with
  | none => rfl
  | some v =>
      have hdenied := htable name (by rw [hname]; rfl)
      rw [guardKey, hdenied]
      rfl

/-- Replacing the names of a table by what it has under them is evaluating over the table. -/
theorem evalAt_substitute (budget : Nat) (e : Expr) :
    engine.evalAt scope budget (e.substitute fun name => Keyed.get? name table) =
      engine.evalAt (table :: scope) budget e := by
  induction budget generalizing e with
  | zero => rfl
  | succ budget ih =>
      -- Only a name is replaced, and only there does the table matter; the other forms are kept.
      cases e with
      | literal v => rfl
      | identifier name =>
          rw [Expr.substitute, Engine.evalAt.eq_3, lookup_cons engine scope htable]
          cases Keyed.get? name table with
          | none => rfl
          | some v => rfl
      | member object property => rw [Expr.substitute, Engine.evalAt, Engine.evalAt, ih object]
      | index object key => rw [Expr.substitute, Engine.evalAt, Engine.evalAt, ih object, ih key]
      | unary op operand => rw [Expr.substitute, Engine.evalAt, Engine.evalAt, ih operand]
      | binary op lhs rhs => rw [Expr.substitute, Engine.evalAt, Engine.evalAt, ih lhs, ih rhs]
      | conditional condition thenBranch elseBranch =>
          rw [Expr.substitute, Engine.evalAt, Engine.evalAt, ih condition, ih thenBranch, ih elseBranch]
      | call name args =>
          have hargs : (args.map (Expr.substitute fun name => Keyed.get? name table)).mapM
              (engine.evalAt scope budget) = args.mapM (engine.evalAt (table :: scope) budget) := by
            rw [List.mapM_map]
            exact mapM_of_forall_mem fun a _ => ih a
          rw [Expr.substitute, substituteArgs_eq_map, Engine.evalAt, Engine.evalAt, hargs]

end Evaluation

/-- Applying a lambda is replacing its parameters: as a whole, with the host calls on the way, it is
    evaluating the body outside, with a literal of its argument in the place of each parameter that has
    one, if no such parameter is a denied key. -/
theorem application_is_substitution (engine : Engine) (scope : Scope) (f : Lambda) (args : List Value)
    (hparams : ∀ pair ∈ f.params.zip args, isDenied pair.1 = false) :
    engine.context.apply scope f args =
      (engine.eval scope (f.body.substitute (f.argument? args))).ofEval := by
  have hbindings : (fun name => Keyed.get? name (Context.bindings f args)) = f.argument? args :=
    funext (get?_bindings f args)
  -- Only a parameter with an argument is in the table, and none of these is denied.
  have hallowed : ∀ name, (Keyed.get? name (Context.bindings f args)).isSome = true →
      isDenied name = false := by
    intro name hname
    rw [get?_bindings] at hname
    obtain ⟨v, hv⟩ := Option.isSome_iff_exists.mp hname
    exact hparams _ (mem_params_of_argument? hv)
  have heval := evalAt_substitute engine scope hallowed engine.maxDepth f.body
  rw [hbindings] at heval
  unfold Context.apply Engine.eval
  rw [heval]
  rfl

section Repeated

/-- A lambda with a parameter that is repeated, one for which there may be no argument, and a property
    that has the name of a parameter. -/
def repeated : Lambda where
  params := ["x", "x", "y"]
  body := .conditional (.identifier "x") (.member (.identifier "y") "x") (.identifier "x")

/-- Arguments for the first two parameters only. -/
def twoFlags : List Value :=
  [.bool false, .bool true]

/-- Of the arguments for `x` the second counts, and `y` comes from the scope outside. -/
theorem repeated_replaced :
    (∀ pair ∈ repeated.params.zip twoFlags, isDenied pair.1 = false) ∧
    repeated.body.substitute (repeated.argument? twoFlags) =
      .conditional (.literal (.bool true)) (.member (.identifier "y") "x")
        (.literal (.bool true)) ∧
    ((Engine.ofGlobals [("x", .null)]).context.apply [[("y", .object [("x", .string "kept")])]]
      repeated twoFlags).outcome = .ok (.string "kept") := by
  have hparams : ∀ pair ∈ repeated.params.zip twoFlags, isDenied pair.1 = false := by decide
  refine ⟨hparams, rfl, ?_⟩
  rw [application_is_substitution _ _ _ _ hparams]
  rfl

end Repeated

end FieldLang

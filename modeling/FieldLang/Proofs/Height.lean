import FieldLang.Proofs.Lockstep
import FieldLang.Proofs.Reading

/-!
# Depth and Height

The bound on depth is a bound on the height of expressions. Evaluating an expression takes one level and
leaves the rest to its parts, each of which may use all of it. So an expression needs as many levels as
it is high, and no more, as long as nothing but expressions takes levels: built-in functions that call
others take some too.

That an expression needs all these levels can be said only if all of its parts are evaluated. The
conditional and the operators that may skip their right operand are left out there. Functions that call
others are not, because what they take comes on top.

Enough levels do not mean that there is a value. They mean that a fault, if there is one, is not that of
the bound, and so the first half is about faults and the second about values.

## Main definitions

* `Expr.height`: The height of an expression; that of a leaf is one.
* `Expr.callsBack`, `Expr.Flat`: Calls of functions that call others, and expressions without them.
* `Expr.skips`, `Expr.Eager`: Forms that may skip a part, and expressions without them.
* `Unhindered`: An outcome that is not the fault of the bound.

## Theorems

* `unhindered_evalAt`: As many levels as an expression is high are enough.
* `height_le_of_evalAt`: An expression with a value was given that many.
* `depth_is_height`: The bound on depth is a bound on height.
-/

namespace FieldLang

namespace Expr

mutual

/-- The height of an expression; that of a leaf is one. -/
def height : Expr → Nat
  | .literal _ => 1
  | .identifier _ => 1
  | .member object _ => object.height + 1
  | .index object key => max object.height key.height + 1
  | .binary _ lhs rhs => max lhs.height rhs.height + 1
  | .unary _ operand => operand.height + 1
  | .conditional condition thenBranch elseBranch =>
    max condition.height (max thenBranch.height elseBranch.height) + 1
  | .call _ args => heightArgs args + 1

/-- The greatest height of the arguments of a call. -/
def heightArgs : List Expr → Nat
  | [] => 0
  | arg :: args => max arg.height (heightArgs args)

end

/-- Whether an expression calls a built-in function that calls others. -/
def callsBack : Expr → Bool
  | .call name _ => (Builtin.ofName? name).any Builtin.takesCallback
  | _ => false

/-- No built-in function that calls others is called in an expression. -/
def Flat (e : Expr) : Prop :=
  ∀ x ∈ e.parts, x.callsBack = false

/-- Whether an expression may skip one of its parts. -/
def skips : Expr → Bool
  | .binary .and _ _ => true
  | .binary .or _ _ => true
  | .binary .coalesce _ _ => true
  | .conditional .. => true
  | _ => false

/-- All parts of an expression are evaluated with it. -/
def Eager (e : Expr) : Prop :=
  ∀ x ∈ e.parts, x.skips = false

instance (e : Expr) : Decidable e.Flat :=
  inferInstanceAs (Decidable (∀ x ∈ e.parts, x.callsBack = false))

instance (e : Expr) : Decidable e.Eager :=
  inferInstanceAs (Decidable (∀ x ∈ e.parts, x.skips = false))

theorem heightArgs_le_iff {args : List Expr} {n : Nat} :
    heightArgs args ≤ n ↔ ∀ arg ∈ args, arg.height ≤ n := by
  induction args with
  | nil => simp [heightArgs]
  | cons arg args ih =>
      rw [heightArgs, List.forall_mem_cons, Nat.max_le, ih]

end Expr

/-- An outcome is not the fault of a bound on depth. -/
def Unhindered {α : Type} (x : Except EvalError α) : Prop :=
  ∀ limit, x ≠ .error (.tooDeep limit)

namespace Unhindered

variable {α β : Type}

theorem ok (a : α) : Unhindered (.ok a) :=
  fun _ => nofun

/-- One step after the other meets the bound where one of them does. -/
theorem bind {x : Except EvalError α} {f : α → Except EvalError β} (hx : Unhindered x)
    (hf : ∀ a, Unhindered (f a)) : Unhindered (x >>= f) := by
  cases x with
  | ok a => exact hf a
  | error e =>
      intro limit h
      exact hx limit (by cases h; rfl)

/-- The faults of functions are their own. -/
theorem ofFunction (x : Except FunctionError α) : Unhindered (Traced.ofFunction x).outcome := by
  cases x with
  | ok a => exact .ok a
  | error e => exact fun _ => nofun

theorem mapM {f : α → Traced EvalError β} {as : List α} (h : ∀ a ∈ as, Unhindered (f a).outcome) :
    Unhindered (as.mapM f).outcome := by
  induction as with
  | nil => exact .ok []
  | cons a as ih =>
      rw [List.forall_mem_cons] at h
      simp only [List.mapM_cons, Traced.outcome_bind]
      exact h.1.bind fun b => (ih h.2).bind fun bs => .ok _

end Unhindered

theorem unhindered_guardKey (key : String) : Unhindered (guardKey key) := by
  unfold guardKey
  split
  · exact fun _ => nofun
  · exact .ok ()

theorem unhindered_lookup (engine : Engine) (scope : Scope) (name : String) :
    Unhindered (engine.lookup scope name) := by
  rw [Engine.lookup_eq]
  refine (unhindered_guardKey name).bind fun _ => ?_
  cases engine.binding? scope name with
  | some v => exact .ok v
  | none =>
      show Unhindered (engine.reference name)
      unfold Engine.reference
      split
      · exact .ok _
      · exact fun _ => nofun

theorem unhindered_property (v : Value) (property : String) : Unhindered (v.property property) := by
  unfold Value.property
  split
  · exact fun _ => nofun
  · exact .ok _

theorem unhindered_indexed (v index : Value) : Unhindered (v.indexed index) := by
  have hguard : Unhindered (Value.guardIndex index) := by
    unfold Value.guardIndex
    split
    · exact unhindered_guardKey _
    · exact .ok ()
  unfold Value.indexed
  refine hguard.bind fun _ => ?_
  -- A missing object is a fault of its own, whatever the index.
  by_cases hnullish : v.isNullish = true
  · rw [if_pos hnullish]
    exact fun _ => nofun
  · rw [if_neg hnullish]
    dsimp only
    split
    · exact (unhindered_guardKey _).bind fun _ => .ok _
    · exact unhindered_property _ _
    · exact .ok _
    · exact .ok _
    · exact .ok _

theorem unhindered_unary (op : UnaryOp) (v : Value) : Unhindered (op.apply v) := by
  unfold UnaryOp.apply
  split
  · exact .ok _
  · exact .ok _
  · exact fun _ => nofun

theorem unhindered_binary (op : BinaryOp) (v w : Value) : Unhindered (op.apply v w) := by
  by_cases hcompare : op.isComparison = true
  · cases op with
    | equal => exact .ok _
    | notEqual => exact .ok _
    | _ => cases hcompare
  · rw [BinaryOp.apply_eq (Bool.eq_false_iff.mpr hcompare)]
    split
    · exact .ok _
    · cases op.onAlike? v w with
      | some u => exact .ok u
      | none => exact fun _ => nofun

theorem unhindered_callAt (engine : Engine) (budget : Nat) {name : String} {exprs : List Expr}
    (h : (Expr.call name exprs).callsBack = false) (args : List Value) :
    Unhindered (engine.callAt budget name args).outcome := by
  cases hb : Builtin.ofName? name with
  | none =>
      rw [Engine.outcome_callAt_host _ _ hb]
      unfold Engine.callHost
      cases Keyed.get? name engine.functions with
      | none => exact fun _ => nofun
      | some function => exact .ofFunction (function args)
  | some b =>
      rw [Expr.callsBack, hb, Option.any_some] at h
      rw [Engine.callAt_apply _ _ hb h]
      exact .ofFunction (b.apply args)

section Levels

variable (engine : Engine) (scope : Scope)

/-- As many levels as a flat expression is high are enough: no fault is that of the bound. -/
theorem unhindered_evalAt {budget : Nat} {e : Expr} (hflat : e.Flat) (hheight : e.height ≤ budget) :
    Unhindered (engine.evalAt scope budget e).outcome := by
  -- Every part is lower by one and gets one level less, so the induction is on the budget.
  induction budget generalizing e with
  | zero => cases e <;> simp [Expr.height] at hheight
  | succ budget ih =>
      have hpart : ∀ x : Expr, (∀ y ∈ x.parts, y ∈ e.parts) → x.height ≤ budget →
          Unhindered (engine.evalAt scope budget x).outcome :=
        fun x hx hle => ih (fun y hy => hflat y (hx y hy)) hle
      cases e with
      | literal v => exact .ok v
      | identifier name => exact unhindered_lookup engine scope name
      | member object property =>
          simp only [Expr.height] at hheight
          have hobject := hpart object (fun x hx => by simp [Expr.parts, hx]) (by omega)
          simp only [Engine.evalAt, Traced.outcome_bind, Traced.outcome_ofExcept]
          exact (unhindered_guardKey property).bind fun _ =>
            hobject.bind fun target => unhindered_property target property
      | index object key =>
          simp only [Expr.height] at hheight
          have hobject := hpart object (fun x hx => by simp [Expr.parts, hx]) (by omega)
          have hkey := hpart key (fun x hx => by simp [Expr.parts, hx]) (by omega)
          simp only [Engine.evalAt, Traced.outcome_bind, Traced.outcome_ofExcept]
          exact hobject.bind fun target => hkey.bind fun index => unhindered_indexed target index
      | unary op operand =>
          simp only [Expr.height] at hheight
          have hoperand := hpart operand (fun x hx => by simp [Expr.parts, hx]) (by omega)
          simp only [Engine.evalAt, Traced.outcome_bind, Traced.outcome_ofExcept]
          exact hoperand.bind fun v => unhindered_unary op v
      | binary op lhs rhs =>
          simp only [Expr.height] at hheight
          have hlhs := hpart lhs (fun x hx => by simp [Expr.parts, hx]) (by omega)
          have hrhs := hpart rhs (fun x hx => by simp [Expr.parts, hx]) (by omega)
          simp only [Engine.evalAt, Traced.outcome_bind]
          refine hlhs.bind fun left => ?_
          split
          · exact .ok left
          · simp only [Traced.outcome_bind]
            refine hrhs.bind fun right => ?_
            split
            · exact .ok right
            · exact unhindered_binary op left right
      | conditional condition thenBranch elseBranch =>
          simp only [Expr.height] at hheight
          have hcondition := hpart condition (fun x hx => by simp [Expr.parts, hx]) (by omega)
          have hthen := hpart thenBranch (fun x hx => by simp [Expr.parts, hx]) (by omega)
          have helse := hpart elseBranch (fun x hx => by simp [Expr.parts, hx]) (by omega)
          simp only [Engine.evalAt, Traced.outcome_bind]
          refine hcondition.bind fun test => ?_
          split
          · exact hthen
          · exact helse
      | call name args =>
          simp only [Expr.height, Nat.add_le_add_iff_right, Expr.heightArgs_le_iff] at hheight
          have hargs : Unhindered (args.mapM (engine.evalAt scope budget)).outcome :=
            .mapM fun a ha => hpart a
              (fun x hx => by simp [Expr.parts, Expr.mem_partsArgs ha hx]) (hheight a ha)
          have hcall := hflat _ (Expr.mem_parts_self _)
          simp only [Engine.evalAt, Traced.outcome_bind, Traced.outcome_ofExcept]
          exact (unhindered_guardKey name).bind fun _ =>
            hargs.bind fun values => unhindered_callAt engine budget hcall values

/-- Only an operator that may skip its right operand is decided by the left one. -/
theorem decides_eq_false {op : BinaryOp} {lhs rhs : Expr} (h : (Expr.binary op lhs rhs).skips = false)
    (left : Value) : Engine.decides op left = false := by
  cases op with
  | and => cases h
  | or => cases h
  | coalesce => cases h
  | _ => rfl

/-- Steps for all elements have values only if each of them has one. -/
theorem exists_of_mapM {α β : Type} {f : α → Traced EvalError β} {as : List α} {bs : List β}
    (h : (as.mapM f).outcome = .ok bs) : ∀ a ∈ as, ∃ b, (f a).outcome = .ok b := by
  induction as generalizing bs with
  | nil => simp
  | cons a as ih =>
      simp only [List.mapM_cons, Traced.outcome_bind, bind_eq_ok_iff] at h
      obtain ⟨b, hb, bs, hbs, -⟩ := h
      exact List.forall_mem_cons.mpr ⟨⟨b, hb⟩, ih hbs⟩

/-- An expression that evaluates all its parts has a value only if there were as many levels as it is
    high. -/
theorem height_le_of_evalAt {budget : Nat} {e : Expr} (heager : e.Eager) {v : Value}
    (hvalue : (engine.evalAt scope budget e).outcome = .ok v) : e.height ≤ budget := by
  induction budget generalizing e v with
  | zero => cases hvalue
  | succ budget ih =>
      have hpart : ∀ x : Expr, (∀ y ∈ x.parts, y ∈ e.parts) →
          ∀ w, (engine.evalAt scope budget x).outcome = .ok w → x.height ≤ budget :=
        fun x hx w hw => ih (fun y hy => heager y (hx y hy)) hw
      -- Each part has a value too, so it is not higher than what is left of the budget.
      have hself := heager e e.mem_parts_self
      cases e with
      | literal v => simp [Expr.height]
      | identifier name => simp [Expr.height]
      | member object property =>
          simp only [Engine.evalAt, Traced.outcome_bind, bind_eq_ok_iff] at hvalue
          obtain ⟨-, -, target, htarget, -⟩ := hvalue
          have hobject := hpart object (fun x hx => by simp [Expr.parts, hx]) target htarget
          simp only [Expr.height]
          omega
      | index object key =>
          simp only [Engine.evalAt, Traced.outcome_bind, bind_eq_ok_iff] at hvalue
          obtain ⟨target, htarget, index, hindex, -⟩ := hvalue
          have hobject := hpart object (fun x hx => by simp [Expr.parts, hx]) target htarget
          have hkey := hpart key (fun x hx => by simp [Expr.parts, hx]) index hindex
          simp only [Expr.height]
          omega
      | unary op operand =>
          simp only [Engine.evalAt, Traced.outcome_bind, bind_eq_ok_iff] at hvalue
          obtain ⟨w, hw, -⟩ := hvalue
          have hoperand := hpart operand (fun x hx => by simp [Expr.parts, hx]) w hw
          simp only [Expr.height]
          omega
      | binary op lhs rhs =>
          simp only [Engine.evalAt, Traced.outcome_bind, bind_eq_ok_iff] at hvalue
          obtain ⟨left, hleft, hrest⟩ := hvalue
          have hlhs := hpart lhs (fun x hx => by simp [Expr.parts, hx]) left hleft
          -- The left operand alone never decides here, so the right one had a value as well.
          rw [if_neg (by rw [decides_eq_false hself]; decide), Traced.outcome_bind,
            bind_eq_ok_iff] at hrest
          obtain ⟨right, hright, -⟩ := hrest
          have hrhs := hpart rhs (fun x hx => by simp [Expr.parts, hx]) right hright
          simp only [Expr.height]
          omega
      | conditional condition thenBranch elseBranch => cases hself
      | call name args =>
          simp only [Engine.evalAt, Traced.outcome_bind, bind_eq_ok_iff] at hvalue
          obtain ⟨-, -, values, hvalues, -⟩ := hvalue
          have hargs : Expr.heightArgs args ≤ budget := by
            refine Expr.heightArgs_le_iff.mpr fun a ha => ?_
            obtain ⟨w, hw⟩ := exists_of_mapM hvalues a ha
            exact hpart a (fun x hx => by simp [Expr.parts, Expr.mem_partsArgs ha hx]) w hw
          simp only [Expr.height]
          omega

end Levels

/-- The bound on depth is a bound on height. An expression that calls no function which calls others
    never meets the bound if it is no higher than that; and one that evaluates all its parts has no
    value if it is higher. -/
theorem depth_is_height (engine : Engine) (scope : Scope) (e : Expr) :
    (e.Flat → e.height ≤ engine.maxDepth →
      ∀ limit, (engine.eval scope e).outcome ≠ .error (.tooDeep limit)) ∧
    (e.Eager → engine.maxDepth < e.height → ∀ v, (engine.eval scope e).outcome ≠ .ok v) := by
  refine ⟨fun hflat hheight => unhindered_evalAt engine scope hflat hheight, ?_⟩
  intro heager hheight v hvalue
  have hle := height_le_of_evalAt engine scope heager hvalue
  omega

/-- An engine with nothing but a bound on depth. -/
def bareEngine (maxDepth : Nat) : Engine where
  globals := []
  functions := []
  maxDepth := maxDepth

/-- Three texts joined from left to right, each of which is as high as all before it and one more. -/
def joined : Expr :=
  .binary .add (.binary .add (.literal (.string "a")) (.literal (.string "b")))
    (.literal (.string "c"))

/-- A chain of three terms needs three levels: with these it has a value, with two it has none. -/
theorem joined_needs_three_levels :
    joined.Flat ∧ joined.Eager ∧ joined.height = 3 ∧
    (∀ limit, ((bareEngine 3).eval [] joined).outcome ≠ .error (.tooDeep limit)) ∧
    ((bareEngine 3).eval [] joined).outcome = .ok (.string "abc") ∧
    ∀ v, ((bareEngine 2).eval [] joined).outcome ≠ .ok v := by
  have hflat : joined.Flat := by decide
  have heager : joined.Eager := by decide
  exact ⟨hflat, heager, rfl, (depth_is_height (bareEngine 3) [] joined).1 hflat (by decide), rfl,
    (depth_is_height (bareEngine 2) [] joined).2 heager (by decide)⟩

end FieldLang

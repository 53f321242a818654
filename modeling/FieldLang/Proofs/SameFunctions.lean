import FieldLang.Proofs.PipelineLockstep

/-!
# Engines with the Same Functions

Many comparisons are between two engines that call the same functions and differ in something else:
in where they find the values of names, or in how deeply they may go. Nothing is left out of sight
then. Values are compared as they are, every function may be referred to, and every fault may be
shared, so whatever an expression or a computed field brings in is the same in both runs. All that
is left to show is that both runs find the same values under names.

What expressions and computed fields bring in is the same already if every function and every name
behaves alike in the two engines. This is kept apart, for engines that differ in a function on
purpose and excuse the faults that come of it.

## Main definitions

* `View.whole`: The view that sees everything and allows every reference.
* `Pairing.Transparent`: Two engines in which all functions and names behave alike in this view.
* `Pairing.SameFunctions`: Two engines with the same functions, compared in this view.

## Theorems

* `Transparent.admits`, `Transparent.admitsField`: All parts of expressions and computed fields are
  the same in both engines.
* `Transparent.alikeScopes`: Scopes with the same bindings are alike.
* `SameFunctions.callable`, `SameFunctions.referable`, `SameFunctions.transparent`: Engines with the
  same functions are such engines.
-/

namespace FieldLang

/-- The view that sees everything and allows every reference. -/
def View.whole : View :=
  .exactly fun _ => True

theorem exact_whole : View.whole.Exact :=
  fun _ => rfl

theorem alike_whole (v : Value) : View.whole.Alike v v :=
  .self fun _ _ => trivial

/-- Two engines in which all functions and names behave alike, compared with nothing left out. -/
structure Pairing.Transparent (pairing : Pairing) : Prop where
  view_eq : pairing.view = .whole
  callable : ∀ name, pairing.Callable name
  referable : ∀ name, pairing.Referable name

namespace Pairing.Transparent

variable {pairing : Pairing} (h : pairing.Transparent)
include h

theorem exact : pairing.view.Exact := by
  rw [h.view_eq]
  exact exact_whole

theorem alike_self (v : Value) : pairing.view.Alike v v := by
  rw [h.view_eq]
  exact alike_whole v

/-- Every part of an expression is the same in both engines. -/
theorem admits (e : Expr) : pairing.Admits e := by
  -- A name or a call may reach a function, and a comparison sees all of a value.
  cases e with
  | literal v => exact h.alike_self v
  | identifier name => exact fun _ => h.referable name
  | binary op lhs rhs => exact fun _ => h.exact
  | call name args => exact fun _ => h.callable name
  | _ => trivial

/-- So is every part of a computed field. -/
theorem admitsField (c : Computed) : pairing.AdmitsField c := by
  cases c with
  | source e => exact fun x _ => h.admits x
  | literal v => exact h.alike_self v
  | call function args => exact h.callable function
  | pipeline p => exact fun x _ => h.admits x
  | _ => trivial

/-- Scopes are alike if the same values are bound to names. -/
theorem alikeScopes {scope scope' : Scope}
    (heq : ∀ name, pairing.left.binding? scope name = pairing.right.binding? scope' name) :
    pairing.AlikeScopes scope scope' := by
  intro name _
  rw [heq]
  -- Nothing is left out of sight, so every value is like itself.
  cases pairing.right.binding? scope' name with
  | none => exact .none
  | some v => exact .some (h.alike_self v)

end Pairing.Transparent

/-- Two engines with the same functions, compared with nothing left out. -/
structure Pairing.SameFunctions (pairing : Pairing) : Prop where
  view_eq : pairing.view = .whole
  functions_eq : pairing.right.functions = pairing.left.functions
  shared : ∀ e, pairing.faults.shared e

namespace Pairing.SameFunctions

variable {pairing : Pairing} (h : pairing.SameFunctions)
include h

theorem exact : pairing.view.Exact := by
  rw [h.view_eq]
  exact exact_whole

theorem refers (name : String) : pairing.view.refers name := by
  rw [h.view_eq]
  trivial

theorem ordinary : pairing.faults.Ordinary :=
  fun e _ => h.shared e

/-- Every function behaves the same in both engines. -/
theorem callable (name : String) : pairing.Callable name where
  exact_of_comparison _ _ _ := h.exact
  follows_host _ _ _ hargs :=
    follows_callHost h.ordinary (congrArg (Keyed.get? name) h.functions_eq)
      (fun _ _ => h.exact.respects fun _ _ _ _ name _ => h.refers name) (fun _ => h.shared _) hargs

theorem referable (name : String) : pairing.Referable name := by
  refine referable_of_eq h.ordinary ?_ fun _ => h.refers name
  unfold Engine.hasFunction
  rw [h.functions_eq]

theorem transparent : pairing.Transparent where
  view_eq := h.view_eq
  callable := h.callable
  referable := h.referable

end Pairing.SameFunctions

end FieldLang

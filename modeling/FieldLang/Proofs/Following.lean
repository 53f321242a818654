import FieldLang.Elements
import FieldLang.Engine.Traced
import Mathlib.Data.List.Forall2

/-!
# Two Runs in Step

Many facts about evaluation compare two runs: with other data, with other host functions, with more
depth. What they have in common is kept here. The second run follows the first if it has a like
value whenever the first one has a value, and the same fault whenever the first one has a fault,
unless that fault is excused. `Faults` says which faults are excused and which may be shared at all,
so that the same lemmas also tell which faults a run can end in.

Following goes through sequences, `Follows.bind`, and so through every loop over the elements of an
array, whatever the likeness of values is. All that the loops ask of it is that like values are both
truthy or both not, and, where arrays are spliced, that like arrays have like elements.

Of the host calls on the way nothing is said: only outcomes are compared.

## Main definitions

* `Faults`: The faults that are excused, and those that may be shared.
* `Follows`: Outcomes in step.
* `Faults.strict`: The rule that outcomes are in step without exception.
* `Faults.only`: The rule for runs that can end in certain faults only.

## Theorems

* `Follows.bind`, `Follows.andThen`: Sequences follow each other step by step.
* `Follows.self_iff`: Compared with itself, a run tells which faults it can end in.
* `follows_mapM`, `follows_transform`, `follows_select`, `follows_search`, `follows_any`,
  `follows_all`, `follows_accumulate`, `follows_splice`, `follows_merge`, `follows_sort`: So do the
  loops.
-/

namespace FieldLang

/-- What is said about the faults of two runs. -/
structure Faults (ε : Type) where
  /-- Once the first run ends in an excused fault, the second one may do anything. -/
  excused : ε → Prop
  /-- The faults that both runs may end in. -/
  shared : ε → Prop

/-- The second outcome follows the first: like values, or a shared fault, or an excused one. -/
def Follows {ε α β : Type} (faults : Faults ε) (R : α → β → Prop) (x : Except ε α)
    (y : Except ε β) : Prop :=
  match x with
  | .ok a => ∃ b, y = .ok b ∧ R a b
  | .error e => faults.excused e ∨ (y = .error e ∧ faults.shared e)

/-- No fault is excused, and all may be shared. -/
def Faults.strict (ε : Type) : Faults ε where
  excused _ := False
  shared _ := True

/-- No fault is excused, and only some may be shared. -/
def Faults.only {ε : Type} (shared : ε → Prop) : Faults ε where
  excused _ := False
  shared := shared

namespace Follows

variable {ε ε' α β γ δ : Type} {faults : Faults ε} {Q : α → β → Prop} {R : γ → δ → Prop}

theorem ok {a : α} {b : β} (h : Q a b) : Follows faults Q (.ok a) (.ok b) :=
  ⟨b, rfl, h⟩

theorem error {e : ε} (h : faults.shared e) :
    Follows faults Q (.error e : Except ε α) (.error e : Except ε β) :=
  Or.inr ⟨rfl, h⟩

theorem excused {e : ε} {y : Except ε β} (h : faults.excused e) :
    Follows faults Q (.error e : Except ε α) y :=
  Or.inl h

/-- Less may be asked of the values. -/
theorem imp {Q' : α → β → Prop} {x : Except ε α} {y : Except ε β} (h : Follows faults Q x y)
    (hQ : ∀ a b, Q a b → Q' a b) : Follows faults Q' x y := by
  cases x with
  | ok a =>
      rcases h with ⟨b, rfl, hab⟩
      exact ok (hQ a b hab)
  | error e => exact h

/-- Without excused faults, outcomes in step are equal if like values are. -/
theorem eq {Q : α → α → Prop} {x y : Except ε α} (hexcused : ∀ e, ¬faults.excused e)
    (hQ : ∀ a b, Q a b → a = b) (h : Follows faults Q x y) : x = y := by
  cases x with
  | ok a =>
      rcases h with ⟨b, rfl, hab⟩
      rw [hQ a b hab]
  | error e =>
      rcases h with h | ⟨rfl, _⟩
      · exact absurd h (hexcused e)
      · rfl

/-- Outcomes in step are the same if like values are, unless the first one is an excused fault. -/
theorem eq_or_excused {Q : α → α → Prop} {x y : Except ε α} (hQ : ∀ a b, Q a b → a = b)
    (h : Follows faults Q x y) : x = y ∨ ∃ e, x = .error e ∧ faults.excused e := by
  cases x with
  | ok a =>
      rcases h with ⟨b, rfl, hab⟩
      exact Or.inl (by rw [hQ a b hab])
  | error e =>
      rcases h with h | ⟨rfl, _⟩
      · exact Or.inr ⟨e, rfl, h⟩
      · exact Or.inl rfl

/-- Compared with itself, a run tells which faults it can end in. -/
theorem self_iff {shared : ε → Prop} {x : Except ε α} :
    Follows (.only shared) Eq x x ↔ ∀ e, x = .error e → shared e := by
  cases x with
  | ok a => exact ⟨fun _ e he => (by cases he), fun _ => ok rfl⟩
  | error e =>
      constructor
      · rintro (h | ⟨_, h⟩) e' he
        · exact absurd h not_false
        · cases he
          exact h
      · intro h
        exact error (h e rfl)

/-- Sequences follow each other if their first steps do and their second steps do on like values. -/
theorem bind {x : Except ε α} {y : Except ε β} {f : α → Except ε γ} {g : β → Except ε δ}
    (h : Follows faults Q x y) (hfg : ∀ a b, Q a b → Follows faults R (f a) (g b)) :
    Follows faults R (x >>= f) (y >>= g) := by
  cases x with
  | ok a =>
      rcases h with ⟨b, rfl, hab⟩
      exact hfg a b hab
  | error e =>
      rcases h with h | ⟨rfl, h⟩
      · exact excused h
      · exact error h

/-- The same for traced outcomes. -/
theorem andThen {x : Traced ε α} {y : Traced ε β} {f : α → Traced ε γ} {g : β → Traced ε δ}
    (h : Follows faults Q x.outcome y.outcome)
    (hfg : ∀ a b, Q a b → Follows faults R (f a).outcome (g b).outcome) :
    Follows faults R (x >>= f).outcome (y >>= g).outcome := by
  rw [Traced.outcome_bind, Traced.outcome_bind]
  exact h.bind hfg

/-- Faults can be put into another type on both sides. -/
theorem mapError {faults' : Faults ε'} {f : ε → ε'}
    (hexcused : ∀ e, faults.excused e → faults'.excused (f e))
    (hshared : ∀ e, faults.shared e → faults'.shared (f e)) {x : Except ε α} {y : Except ε β}
    (h : Follows faults Q x y) : Follows faults' Q (x.mapError f) (y.mapError f) := by
  cases x with
  | ok a =>
      rcases h with ⟨b, rfl, hab⟩
      exact ok hab
  | error e =>
      rcases h with h | ⟨rfl, h⟩
      · exact excused (hexcused e h)
      · exact error (hshared e h)

end Follows

section Loops

variable {ε α β : Type} {faults : Faults ε} {R : Value → Value → Prop}

/-- One like step for each element makes like steps for all. -/
theorem follows_mapM {f g : α → Traced ε β} {Q : β → β → Prop} {as : List α}
    (h : ∀ a ∈ as, Follows faults Q (f a).outcome (g a).outcome) :
    Follows faults (List.Forall₂ Q) (as.mapM f).outcome (as.mapM g).outcome := by
  -- Both runs go through the same list, so the induction is on it and not on related lists.
  induction as with
  | nil => exact .ok .nil
  | cons a as ih =>
      rw [List.mapM_cons, List.mapM_cons]
      refine (h a (by simp)).andThen fun b c hbc => ?_
      refine (ih fun a ha => h a (by simp [ha])).andThen fun bs cs hbcs => ?_
      exact .ok (.cons hbc hbcs)

/-- Steps that merge makes when it compares two heads. -/
theorem follows_merge {f g : Value → Value → Traced ε Ordering}
    (hfg : ∀ v w a b, R v w → R a b → Follows faults Eq (f v a).outcome (g w b).outcome)
    {vs ws as bs : List Value} (h : List.Forall₂ R vs ws) (hab : List.Forall₂ R as bs) :
    Follows faults (List.Forall₂ R) (Elements.merge f vs as).outcome
      (Elements.merge g ws bs).outcome := by
  -- Each comparison takes the head off one of the two lists, so one of the inductions goes on.
  induction h generalizing as bs with
  | nil =>
      rw [Elements.merge, Elements.merge]
      exact .ok hab
  | @cons v w vs ws hvw hvws ih =>
      induction hab with
      | nil =>
          rw [Elements.merge, Elements.merge]
          · exact .ok (.cons hvw hvws)
          · simp
          · simp
      | @cons a b as bs hab habs ih' =>
          rw [Elements.merge, Elements.merge]
          refine (hfg v w a b hvw hab).andThen fun order order' horder => ?_
          subst horder
          by_cases hgt : order = .gt
          · rw [if_pos hgt, if_pos hgt]
            exact ih'.andThen fun rest rest' hrest => .ok (.cons hab hrest)
          · rw [if_neg hgt, if_neg hgt]
            exact (ih (.cons hab habs)).andThen fun rest rest' hrest => .ok (.cons hvw hrest)

theorem follows_sort {f g : Value → Value → Traced ε Ordering}
    (hfg : ∀ v w a b, R v w → R a b → Follows faults Eq (f v a).outcome (g w b).outcome)
    {vs ws : List Value} (h : List.Forall₂ R vs ws) :
    Follows faults (List.Forall₂ R) (Elements.sort f vs).outcome (Elements.sort g ws).outcome := by
  -- The halves are shorter than the list, and like lists are cut in like halves.
  induction hn : vs.length using Nat.strongRecOn generalizing vs ws with
  | _ n ih =>
      subst hn
      have hlen := h.length_eq
      rw [Elements.sort.eq_def f vs, Elements.sort.eq_def g ws, ← hlen]
      by_cases hshort : vs.length ≤ 1
      · rw [dif_pos hshort, dif_pos hshort]
        exact .ok h
      · rw [dif_neg hshort, dif_neg hshort]
        have hleft : (vs.take (vs.length / 2)).length < vs.length := by
          rw [List.length_take]
          omega
        have hright : (vs.drop (vs.length / 2)).length < vs.length := by
          rw [List.length_drop]
          omega
        refine (ih _ hleft (List.forall₂_take _ h) rfl).andThen fun as bs hab => ?_
        refine (ih _ hright (List.forall₂_drop _ h) rfl).andThen fun cs ds hcd => ?_
        exact follows_merge hfg hab hcd

/-- Folding keeps the accumulated values alike. -/
theorem follows_accumulate {f g : Value → Nat → Value → Traced ε Value}
    (hfg : ∀ position a b v w, R a b → R v w →
      Follows faults R (f a position v).outcome (g b position w).outcome)
    {vs ws : List Value} (h : List.Forall₂ R vs ws) {a b : Value} (hab : R a b) (position : Nat) :
    Follows faults R (Elements.accumulate f a position vs).outcome
      (Elements.accumulate g b position ws).outcome := by
  -- The accumulated values change at every step, so they are general in the induction.
  induction h generalizing a b position with
  | nil => exact .ok hab
  | cons hvw _ ih =>
      refine (hfg position _ _ _ _ hab hvw).andThen fun c d hcd => ?_
      exact ih hcd (position + 1)

variable {f g : Nat → Value → Traced ε Value}
  (hfg : ∀ position v w, R v w → Follows faults R (f position v).outcome (g position w).outcome)
include hfg

theorem follows_transform {vs ws : List Value} (h : List.Forall₂ R vs ws) (position : Nat) :
    Follows faults (List.Forall₂ R) (Elements.transform f position vs).outcome
      (Elements.transform g position ws).outcome := by
  induction h generalizing position with
  | nil => exact .ok .nil
  | cons hvw _ ih =>
      refine (hfg position _ _ hvw).andThen fun a b hab => ?_
      refine (ih (position + 1)).andThen fun as bs habs => ?_
      exact .ok (.cons hab habs)

theorem follows_splice
    (hspliced : ∀ v w, R v w → List.Forall₂ R (Elements.spliced v) (Elements.spliced w))
    {vs ws : List Value} (h : List.Forall₂ R vs ws) (position : Nat) :
    Follows faults (List.Forall₂ R) (Elements.splice f position vs).outcome
      (Elements.splice g position ws).outcome := by
  induction h generalizing position with
  | nil => exact .ok .nil
  | cons hvw _ ih =>
      refine (hfg position _ _ hvw).andThen fun a b hab => ?_
      refine (ih (position + 1)).andThen fun as bs habs => ?_
      exact .ok (List.rel_append (hspliced a b hab) habs)

variable (htruthy : ∀ v w, R v w → v.isTruthy = w.isTruthy)
include htruthy

theorem follows_select {vs ws : List Value} (h : List.Forall₂ R vs ws) (position : Nat) :
    Follows faults (List.Forall₂ R) (Elements.select f position vs).outcome
      (Elements.select g position ws).outcome := by
  induction h generalizing position with
  | nil => exact .ok .nil
  | cons hvw _ ih =>
      refine (hfg position _ _ hvw).andThen fun a b hab => ?_
      refine (ih (position + 1)).andThen fun as bs habs => ?_
      -- Both runs keep the element or both leave it out.
      rw [htruthy a b hab]
      by_cases hb : b.isTruthy = true
      · rw [if_pos hb, if_pos hb]
        exact .ok (.cons hvw habs)
      · rw [if_neg hb, if_neg hb]
        exact .ok habs

theorem follows_search {vs ws : List Value} (h : List.Forall₂ R vs ws) (position : Nat) :
    Follows faults (Option.Rel R) (Elements.search f position vs).outcome
      (Elements.search g position ws).outcome := by
  induction h generalizing position with
  | nil => exact .ok .none
  | cons hvw _ ih =>
      refine (hfg position _ _ hvw).andThen fun a b hab => ?_
      -- Both runs stop at the same element, or go on.
      rw [htruthy a b hab]
      by_cases hb : b.isTruthy = true
      · rw [if_pos hb, if_pos hb]
        exact .ok (.some hvw)
      · rw [if_neg hb, if_neg hb]
        exact ih (position + 1)

theorem follows_any {vs ws : List Value} (h : List.Forall₂ R vs ws) (position : Nat) :
    Follows faults Eq (Elements.any f position vs).outcome
      (Elements.any g position ws).outcome := by
  induction h generalizing position with
  | nil => exact .ok rfl
  | cons hvw _ ih =>
      refine (hfg position _ _ hvw).andThen fun a b hab => ?_
      rw [htruthy a b hab]
      by_cases hb : b.isTruthy = true
      · rw [if_pos hb, if_pos hb]
        exact .ok rfl
      · rw [if_neg hb, if_neg hb]
        exact ih (position + 1)

theorem follows_all {vs ws : List Value} (h : List.Forall₂ R vs ws) (position : Nat) :
    Follows faults Eq (Elements.all f position vs).outcome
      (Elements.all g position ws).outcome := by
  induction h generalizing position with
  | nil => exact .ok rfl
  | cons hvw _ ih =>
      refine (hfg position _ _ hvw).andThen fun a b hab => ?_
      rw [htruthy a b hab]
      by_cases hb : b.isTruthy = true
      · rw [if_pos hb, if_pos hb]
        exact ih (position + 1)
      · rw [if_neg hb, if_neg hb]
        exact .ok rfl

end Loops

end FieldLang

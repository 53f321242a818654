import FieldLang.Value.Basic

/-!
# Traced Outcomes

Evaluation calls functions of the host, and the host may want to know which calls were made. So an
evaluation yields more than a value or an error: it also lists the calls, in the order in which they
were made, up to the point where it ended. A call is listed whether or not it failed.

Traced outcomes form a monad in which the second of two steps runs only if the first has a value, and
the lists of calls are joined. What a program computes is read off by `outcome`, which takes sequencing
here to sequencing of plain outcomes.

## Main definitions

* `HostCall`: A call of a host function.
* `Traced`: A value or an error, with the calls made on the way.
* `Traced.ofExcept`: An outcome reached without a call.
* `Traced.calling`: The outcome of a host function, with the call of it.
* `Traced.mapError`: An outcome with its error put into a wider type.

## Theorems

* `outcome_pure`, `outcome_bind`: The outcome of a sequence is the sequence of the outcomes.
* `bind_of_ok`, `bind_of_error`: A sequence whose first step is known.
* `map_eq`: A function of the value.
* `andThen_assoc`, `andThen_pure`, `pure_andThen`: The monad laws.
-/

namespace FieldLang

/-- A call of a host function. -/
structure HostCall where
  function : String
  args : List Value

/-- A value or an error, with the host calls made on the way to it. -/
structure Traced (ε α : Type) where
  calls : List HostCall
  outcome : Except ε α

namespace Traced

variable {ε α β : Type}

/-- An outcome that was reached without a call. -/
def ofExcept (outcome : Except ε α) : Traced ε α :=
  ⟨[], outcome⟩

/-- One step after the other; the second runs only if the first has a value. -/
def andThen (x : Traced ε α) (f : α → Traced ε β) : Traced ε β :=
  match x.outcome with
  | .ok a => ⟨x.calls ++ (f a).calls, (f a).outcome⟩
  | .error e => ⟨x.calls, .error e⟩

instance : Monad (Traced ε) where
  pure a := ofExcept (.ok a)
  bind := andThen

/-- An outcome that is an error. -/
def fail (e : ε) : Traced ε α :=
  ofExcept (.error e)

/-- The outcome of a host function, with the call of it. -/
def calling (function : String) (args : List Value) (outcome : Except ε α) : Traced ε α :=
  ⟨[⟨function, args⟩], outcome⟩

/-- An outcome with its error put into another type. -/
def mapError {ε' : Type} (f : ε → ε') (x : Traced ε α) : Traced ε' α :=
  ⟨x.calls, x.outcome.mapError f⟩

/-- A pure value is its own outcome. -/
@[simp] theorem outcome_pure (a : α) : (pure a : Traced ε α).outcome = .ok a :=
  rfl

/-- The outcome of a sequence is the sequence of the outcomes. -/
@[simp] theorem outcome_bind (x : Traced ε α) (f : α → Traced ε β) :
    (x >>= f).outcome = x.outcome >>= fun a => (f a).outcome := by
  show (andThen x f).outcome = _
  unfold andThen
  cases x.outcome <;> rfl

/-- An outcome reached without a call is that outcome. -/
@[simp] theorem outcome_ofExcept (outcome : Except ε α) : (ofExcept outcome).outcome = outcome :=
  rfl

/-- A failure is an error. -/
@[simp] theorem outcome_fail (e : ε) : (fail e : Traced ε α).outcome = .error e :=
  rfl

/-- Putting an error into another type does so to the outcome. -/
@[simp] theorem outcome_mapError {ε' : Type} (f : ε → ε') (x : Traced ε α) :
    (x.mapError f).outcome = x.outcome.mapError f :=
  rfl

/-- A step that has a value adds its calls to those of the next one. -/
theorem bind_of_ok {x : Traced ε α} {f : α → Traced ε β} {a : α} (h : x.outcome = .ok a) :
    x >>= f = ⟨x.calls ++ (f a).calls, (f a).outcome⟩ := by
  show andThen x f = _
  rw [andThen, h]

/-- A step that fails ends the sequence with its calls and its error. -/
theorem bind_of_error {x : Traced ε α} {f : α → Traced ε β} {e : ε} (h : x.outcome = .error e) :
    x >>= f = ⟨x.calls, .error e⟩ := by
  show andThen x f = _
  rw [andThen, h]

/-- A function of the value leaves the calls and an error alone. -/
theorem map_eq (f : α → β) (x : Traced ε α) : f <$> x = ⟨x.calls, x.outcome.map f⟩ := by
  show andThen x (fun a => ofExcept (.ok (f a))) = _
  rcases x with ⟨calls, outcome⟩
  cases outcome with
  | error e => rfl
  | ok a => simp [andThen, ofExcept, Except.map]

/-- Sequencing groups either way. -/
theorem andThen_assoc {γ : Type} (x : Traced ε α) (f : α → Traced ε β) (g : β → Traced ε γ) :
    (x.andThen f).andThen g = x.andThen fun a => (f a).andThen g := by
  rcases x with ⟨calls, outcome⟩
  cases outcome with
  | error e => rfl
  | ok a =>
    simp only [andThen]
    cases (f a).outcome <;> simp [List.append_assoc]

/-- A step that only passes its value on changes nothing. -/
theorem andThen_pure (x : Traced ε α) : (x.andThen fun a => ofExcept (.ok a)) = x := by
  rcases x with ⟨calls, outcome⟩
  cases outcome <;> simp [andThen, ofExcept]

/-- A step after a pure value is that step. -/
theorem pure_andThen (a : α) (f : α → Traced ε β) : (ofExcept (.ok a)).andThen f = f a := by
  simp [andThen, ofExcept]

instance : LawfulMonad (Traced ε) :=
  LawfulMonad.mk' (Traced ε) (fun x => andThen_pure x) pure_andThen andThen_assoc

end Traced

end FieldLang

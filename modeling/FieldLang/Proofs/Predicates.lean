import FieldLang.Builtin.Arrays
import FieldLang.Engine.Traced
import FieldLang.Proofs.Reading

/-!
# Functions That Take a Predicate

The functions `filter`, `find`, `some` and `every` ask a predicate about the elements of an array, from
the first on. The last three stop as soon as they know the answer, so they may have one where `filter`
fails: it asks about every element, also about those after the one that decides.

Three of the four are one search. Whether some element satisfies the predicate is whether the search
finds one, and whether all do is whether none satisfies the opposite predicate. These are equalities of
programs, so they cover the calls that are made as well as the answers and the errors. With `filter`
only the answers can be compared, and the errors in one direction.

## Main definitions

* `Elements.negated`: The opposite predicate.
* `Elements.callsOn`: The calls that a predicate makes when it is asked about the elements of a list.
* `Elements.SearchEnds`: How a search over an array ends.

## Theorems

* `any_eq_search`, `all_eq_any_negated`: The search behind `some` and `every`.
* `searchEnds_search`: A search asks about a first part of the array and ends at its last element.
* `search_of_select`, `all_of_select`: What the selected elements say about the others.
* `select_of_search_error`, `select_of_all_error`: A search that fails does so in a selection too.
* `predicates_cohere`: The four functions on an array.
-/

namespace FieldLang.Elements

section Programs

variable {m : Type → Type} [Monad m]

/-- The predicate that is satisfied where another is not. -/
def negated (f : Nat → Value → m Value) (position : Nat) (v : Value) : m Value := do
  return .bool !(← f position v).isTruthy

variable [LawfulMonad m] (f : Nat → Value → m Value)

/-- Some element satisfies a predicate if a search finds one. -/
theorem any_eq_search (position : Nat) (vs : List Value) :
    any f position vs = Option.isSome <$> search f position vs := by
  induction vs generalizing position with
  | nil => simp [any, search]
  | cons v vs ih =>
      rw [any, search, map_bind]
      refine congrArg _ (funext fun found => ?_)
      by_cases hfound : found.isTruthy = true
      · simp [hfound]
      · simp [hfound, ih]

/-- All elements satisfy a predicate if none satisfies the opposite one. -/
theorem all_eq_any_negated (position : Nat) (vs : List Value) :
    all f position vs = not <$> any (negated f) position vs := by
  induction vs generalizing position with
  | nil => simp [all, any]
  | cons v vs ih =>
      rw [all, any, map_bind, negated, bind_assoc]
      refine congrArg _ (funext fun holds => ?_)
      rw [pure_bind, Value.isTruthy]
      by_cases hholds : holds.isTruthy = true
      · simp [hholds, ih]
      · simp [hholds]

end Programs

section Outcomes

variable {ε : Type} (f : Nat → Value → Traced ε Value)

/-- The calls that a predicate makes when it is asked about the elements of a list, the first of which
    stands at a position. -/
def callsOn (position : Nat) (vs : List Value) : List HostCall :=
  (vs.zipIdx position).flatMap fun p => (f p.2 p.1).calls

/-- No element of a list satisfies a predicate, and it fails on none. -/
def Refused (position : Nat) (vs : List Value) : Prop :=
  ∀ p ∈ vs.zipIdx position, ∃ w, (f p.2 p.1).outcome = .ok w ∧ w.isTruthy = false

/-- A search that has seen some elements of a list and not the rest ends with a failure on the last one
    it has seen, or finds that one, or has seen all of them and finds none. -/
inductive SearchEnds (position : Nat) : (seen rest : List Value) → Except ε (Option Value) → Prop
  | failed {before v rest e} (hbefore : Refused f position before)
      (h : (f (position + before.length) v).outcome = .error e) :
      SearchEnds position (before ++ [v]) rest (.error e)
  | found {before v rest w} (hbefore : Refused f position before)
      (h : (f (position + before.length) v).outcome = .ok w) (hw : w.isTruthy = true) :
      SearchEnds position (before ++ [v]) rest (.ok (some v))
  | exhausted {vs} (h : Refused f position vs) : SearchEnds position vs [] (.ok none)

variable {f} {position : Nat} {v : Value} {vs : List Value}

variable (f position) in
theorem refused_nil : Refused f position [] := by
  simp [Refused]

theorem Refused.cons {w : Value} (h : (f position v).outcome = .ok w) (hw : w.isTruthy = false)
    (hvs : Refused f (position + 1) vs) : Refused f position (v :: vs) := by
  rw [Refused, List.zipIdx_cons]
  exact List.forall_mem_cons.mpr ⟨⟨w, h, hw⟩, hvs⟩

/-- A search that goes on after an element ends as it does on the others. -/
theorem SearchEnds.cons {w : Value} (h : (f position v).outcome = .ok w) (hw : w.isTruthy = false)
    {seen rest : List Value} {r : Except ε (Option Value)}
    (hends : SearchEnds f (position + 1) seen rest r) : SearchEnds f position (v :: seen) rest r := by
  have hposition : ∀ before : List Value,
      position + (v :: before).length = position + 1 + before.length := by
    intro before
    rw [List.length_cons]
    omega
  cases hends with
  | failed hbefore hlast =>
      rw [← hposition] at hlast
      exact .failed (hbefore.cons h hw) hlast
  | found hbefore hlast hfound =>
      rw [← hposition] at hlast
      exact .found (hbefore.cons h hw) hlast hfound
  | exhausted hvs => exact .exhausted (hvs.cons h hw)

variable (f) in
/-- A search asks about a first part of the elements, and makes no other calls. -/
theorem searchEnds_search (position : Nat) (vs : List Value) :
    ∃ seen rest, vs = seen ++ rest ∧ (search f position vs).calls = callsOn f position seen ∧
      SearchEnds f position seen rest (search f position vs).outcome := by
  induction vs generalizing position with
  | nil => exact ⟨[], [], rfl, rfl, .exhausted (refused_nil f position)⟩
  | cons v vs ih =>
      -- The search stops at an element that fails or satisfies, and otherwise the rest says where it
      -- stops.
      cases hv : (f position v).outcome with
      | error e =>
          rw [search, Traced.bind_of_error hv]
          refine ⟨[v], vs, rfl, by simp [callsOn], ?_⟩
          exact @SearchEnds.failed _ _ _ [] _ _ _ (refused_nil f position) hv
      | ok w =>
          rw [search, Traced.bind_of_ok hv]
          by_cases hw : w.isTruthy = true
          · simp only [hw, if_true]
            refine ⟨[v], vs, rfl, ?_, @SearchEnds.found _ _ _ [] _ _ _ (refused_nil f position) hv hw⟩
            simp [callsOn, pure, Traced.ofExcept]
          · obtain ⟨seen, rest, rfl, hcalls, hends⟩ := ih (position + 1)
            rw [Bool.not_eq_true] at hw
            simp only [hw, Bool.false_eq_true, if_false]
            refine ⟨v :: seen, rest, rfl, ?_, hends.cons hv hw⟩
            rw [hcalls, callsOn, callsOn, List.zipIdx_cons, List.flatMap_cons]

section Selecting

variable {ws : List Value}

/-- If the elements of a list can be selected, the first of them is what a search finds. -/
theorem search_of_select (h : (select f position vs).outcome = .ok ws) :
    (search f position vs).outcome = .ok ws.head? := by
  induction vs generalizing position ws with
  | nil =>
      cases h
      rfl
  | cons v vs ih =>
      rw [select, Traced.outcome_bind, bind_eq_ok_iff] at h
      obtain ⟨w, hv, h⟩ := h
      rw [Traced.outcome_bind, bind_eq_ok_iff] at h
      obtain ⟨us, hrest, h⟩ := h
      cases h
      rw [search, Traced.outcome_bind, hv, ok_bind]
      by_cases hw : w.isTruthy = true
      · simp [hw]
      · simp [hw, ih hrest]

/-- If the elements of a list can be selected, all are satisfied if none is left out. -/
theorem all_of_select (h : (select f position vs).outcome = .ok ws) :
    ws.length ≤ vs.length ∧ (all f position vs).outcome = .ok (decide (ws.length = vs.length)) := by
  induction vs generalizing position ws with
  | nil =>
      cases h
      exact ⟨Nat.le_refl _, rfl⟩
  | cons v vs ih =>
      rw [select, Traced.outcome_bind, bind_eq_ok_iff] at h
      obtain ⟨w, hv, h⟩ := h
      rw [Traced.outcome_bind, bind_eq_ok_iff] at h
      obtain ⟨us, hrest, h⟩ := h
      cases h
      obtain ⟨hle, hall⟩ := ih hrest
      rw [all, Traced.outcome_bind, hv, ok_bind]
      by_cases hw : w.isTruthy = true
      · simpa [hw, hall] using hle
      · -- The element left out makes the selection shorter than the list.
        have hlt : us.length ≠ vs.length + 1 := by omega
        simp only [hw, Bool.false_eq_true, if_false, List.length_cons, hlt, decide_false]
        exact ⟨by omega, rfl⟩

variable {e : ε}

/-- A search that fails does so in a selection. -/
theorem select_of_search_error (h : (search f position vs).outcome = .error e) :
    (select f position vs).outcome = .error e := by
  induction vs generalizing position with
  | nil => cases h
  | cons v vs ih =>
      rw [search, Traced.outcome_bind] at h
      rw [select, Traced.outcome_bind]
      cases hv : (f position v).outcome with
      | error e' =>
          rw [hv] at h
          cases h
          rfl
      | ok w =>
          rw [hv, ok_bind] at h
          rw [ok_bind, Traced.outcome_bind]
          -- A search goes past this element only if it does not satisfy, and then the failure is in
          -- the rest.
          split at h
          · cases h
          · rw [ih h]
            rfl

/-- Asking whether all elements satisfy a predicate fails as a selection does. -/
theorem select_of_all_error (h : (all f position vs).outcome = .error e) :
    (select f position vs).outcome = .error e := by
  induction vs generalizing position with
  | nil => cases h
  | cons v vs ih =>
      rw [all, Traced.outcome_bind] at h
      rw [select, Traced.outcome_bind]
      cases hv : (f position v).outcome with
      | error e' =>
          rw [hv] at h
          cases h
          rfl
      | ok w =>
          rw [hv, ok_bind] at h
          rw [ok_bind, Traced.outcome_bind]
          -- Here the rest is reached only if this element does satisfy.
          split at h
          · rw [ih h]
            rfl
          · cases h

end Selecting

end Outcomes

end FieldLang.Elements

namespace FieldLang.Arrays

open Elements (SearchEnds callsOn)

section Callbacks

variable {ε : Type} (call : List Value → Traced ε Value) (refuse : FunctionError → Traced ε Value)
  (items : List Value) (initial : Option Value)

/-- A predicate asked about an element of an array. -/
def visit (position : Nat) (v : Value) : Traced ε Value :=
  call [v, .ofNat position, .array items]

/-- The predicate that is satisfied where another is not. -/
def opposite (args : List Value) : Traced ε Value := do
  return .bool !(← call args).isTruthy

theorem withCallback_filter : withCallback .filter call refuse items initial =
    Value.array <$> Elements.select (visit call items) 0 items :=
  (map_eq_pure_bind ..).symm

theorem withCallback_find : withCallback .find call refuse items initial =
    (·.getD .undefined) <$> Elements.search (visit call items) 0 items :=
  (map_eq_pure_bind ..).symm

theorem withCallback_some : withCallback .some call refuse items initial =
    (fun found => .bool found.isSome) <$> Elements.search (visit call items) 0 items := by
  have hsome : withCallback .some call refuse items initial =
      Value.bool <$> Elements.any (visit call items) 0 items :=
    (map_eq_pure_bind ..).symm
  rw [hsome, Elements.any_eq_search, Functor.map_map]

theorem withCallback_every : withCallback .every call refuse items initial =
    Value.bool <$> Elements.all (visit call items) 0 items :=
  (map_eq_pure_bind ..).symm

/-- All elements satisfy a predicate if none satisfies the opposite one. -/
theorem withCallback_every_eq_opposite : withCallback .every call refuse items initial = (do
    return .bool !(← withCallback .some (opposite call) refuse items initial).isTruthy) := by
  have hsome : withCallback .some (opposite call) refuse items initial =
      Value.bool <$> Elements.any (Elements.negated (visit call items)) 0 items :=
    (map_eq_pure_bind ..).symm
  rw [withCallback_every, Elements.all_eq_any_negated, hsome, ← map_eq_pure_bind, Functor.map_map,
    Functor.map_map]
  rfl

end Callbacks

/-- A function of the value has no part in an error. -/
theorem eq_error_of_map {ε α β : Type} {x : Except ε α} {g : α → β} {e : ε}
    (h : x.map g = .error e) : x = .error e := by
  cases x with
  | ok a => cases h
  | error e' =>
      cases h
      rfl

/-- The four functions that take a predicate agree about an array, for every predicate, which may fail
    on some elements. `find` and `some` ask about the same first part of the array and fail alike or
    stop at the same element; `every` is the negation of `some` with the opposite predicate, in its
    calls, its answer and its error. If `filter` selects elements, `find` gives the first of them,
    `some` says whether there are any, and `every` whether they are as many as the elements of the
    array. And an error of one of the three is the error of `filter`. -/
theorem predicates_cohere {ε : Type} (call : List Value → Traced ε Value)
    (refuse : FunctionError → Traced ε Value) (items : List Value) (initial : Option Value) :
    (∃ seen rest r, items = seen ++ rest ∧ SearchEnds (visit call items) 0 seen rest r ∧
        withCallback .find call refuse items initial =
          ⟨callsOn (visit call items) 0 seen, r.map (·.getD .undefined)⟩ ∧
        withCallback .some call refuse items initial =
          ⟨callsOn (visit call items) 0 seen, r.map fun found => .bool found.isSome⟩) ∧
      withCallback .every call refuse items initial = (do
        return .bool !(← withCallback .some (opposite call) refuse items initial).isTruthy) ∧
      (∀ v, (withCallback .filter call refuse items initial).outcome = .ok v →
        ∃ selected, v = .array selected ∧
          (withCallback .find call refuse items initial).outcome =
            .ok (selected.head?.getD .undefined) ∧
          (withCallback .some call refuse items initial).outcome = .ok (.bool (selected ≠ [])) ∧
          (withCallback .every call refuse items initial).outcome =
            .ok (.bool (selected.length = items.length))) ∧
      ∀ e, (withCallback .find call refuse items initial).outcome = .error e ∨
          (withCallback .some call refuse items initial).outcome = .error e ∨
          (withCallback .every call refuse items initial).outcome = .error e →
        (withCallback .filter call refuse items initial).outcome = .error e := by
  refine ⟨?_, withCallback_every_eq_opposite call refuse items initial, fun v h => ?_, fun e h => ?_⟩
  · -- The first two functions do no more than look at the answer of one search.
    obtain ⟨seen, rest, hitems, hcalls, hends⟩ := Elements.searchEnds_search (visit call items) 0 items
    refine ⟨seen, rest, _, hitems, hends, ?_, ?_⟩
    · rw [withCallback_find, ← hcalls, Traced.map_eq]
    · rw [withCallback_some, ← hcalls, Traced.map_eq]
  · rw [withCallback_filter, Traced.map_eq] at h
    cases hselect : (Elements.select (visit call items) 0 items).outcome with
    | error e =>
        rw [hselect] at h
        cases h
    | ok selected =>
        rw [hselect] at h
        cases h
        -- A selection that succeeds has asked about all elements, so the other loops cannot fail.
        have hsearch := Elements.search_of_select hselect
        have hall := (Elements.all_of_select hselect).2
        refine ⟨selected, rfl, ?_, ?_, ?_⟩
        · rw [withCallback_find, Traced.map_eq, hsearch]
          rfl
        · rw [withCallback_some, Traced.map_eq, hsearch]
          cases selected <;> rfl
        · rw [withCallback_every, Traced.map_eq, hall]
          rfl
  · have hselect : (Elements.select (visit call items) 0 items).outcome = .error e := by
      rw [withCallback_find, withCallback_some, withCallback_every, Traced.map_eq, Traced.map_eq,
        Traced.map_eq] at h
      obtain h | h | h := h
      · exact Elements.select_of_search_error (eq_error_of_map h)
      · exact Elements.select_of_search_error (eq_error_of_map h)
      · exact Elements.select_of_all_error (eq_error_of_map h)
    rw [withCallback_filter, Traced.map_eq, hselect]
    rfl

/-- Whether a number is above three; zero is refused. -/
def aboveThree : List Value → Traced FunctionError Value
  | .number n :: _ =>
    if n == 0 then .fail (.argument "zero is not compared") else pure (.bool (3 < n))
  | _ => .fail (.argument "a number is compared")

/-- One of two numbers is above three. Where zero comes in the place of it, no function has an answer;
    a zero after it is reached by `filter` only. -/
theorem aboveThree_coheres :
    (withCallback .filter aboveThree (fun e => .fail e) [.number 2, .number 5] none).outcome =
        .ok (.array [.number 5]) ∧
      (withCallback .find aboveThree (fun e => .fail e) [.number 2, .number 5] none).outcome =
        .ok (.number 5) ∧
      (withCallback .some aboveThree (fun e => .fail e) [.number 2, .number 0] none).outcome =
        .error (.argument "zero is not compared") ∧
      (withCallback .filter aboveThree (fun e => .fail e) [.number 2, .number 0] none).outcome =
        .error (.argument "zero is not compared") ∧
      (withCallback .find aboveThree (fun e => .fail e) [.number 5, .number 0] none).outcome =
        .ok (.number 5) := by
  obtain ⟨-, -, hfilter, -⟩ :=
    predicates_cohere aboveThree (fun e => .fail e) [.number 2, .number 5] none
  obtain ⟨-, -, -, herror⟩ :=
    predicates_cohere aboveThree (fun e => .fail e) [.number 2, .number 0] none
  have hselected : (withCallback .filter aboveThree (fun e => .fail e)
      [.number 2, .number 5] none).outcome = .ok (.array [.number 5]) := rfl
  obtain ⟨selected, hv, hfind, -⟩ := hfilter _ hselected
  cases hv
  exact ⟨hselected, hfind, rfl, herror _ (.inr (.inl rfl)), rfl⟩

end FieldLang.Arrays

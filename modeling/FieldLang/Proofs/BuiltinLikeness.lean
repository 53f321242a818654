import FieldLang.Builtin.Apply
import FieldLang.Proofs.Likeness

/-!
# Built-in Functions on Like Values

Built-in functions cannot tell like values apart, with three exceptions: `includes`, `indexOf` and
`lastIndexOf` compare the structure of elements, so for them the view must be exact.

Most functions make a number, a text or a truth value from the numbers and texts of their arguments.
These do not depend on what a view leaves out, so their results are even equal. The functions that
make an array pick and join elements of their arguments, and like elements stay alike. The functions
that call another are followed call by call; what they need to know of it is only that like
arguments have like results.

## Main definitions

* `Builtin.isComparison`: The functions that compare the structure of elements.
* `Builtin.makesArray`: The functions that make an array from elements of their arguments.

## Theorems

* `apply_map_prune`: What makes a flat value does not see what is left out.
* `forall₂_sorted`: Like arrays are sorted alike.
* `follows_builtin`: Built-in functions that call no other.
* `follows_withCallback`: Built-in functions that call another.
-/

namespace FieldLang

namespace Builtin

/-- Whether a function compares the structure of values. -/
def isComparison : Builtin → Bool
  | .includes => true
  | .indexOf => true
  | .lastIndexOf => true
  | _ => false

/-- Whether a function that calls no other makes an array from elements of its arguments. -/
def makesArray : Builtin → Bool
  | .slice => true
  | .reverse => true
  | .flat => true
  | .push => true
  | .pop => true
  | .shift => true
  | .unshift => true
  | _ => false

end Builtin

section Flat

variable (skips : String → Bool) (args : List Value)

@[simp] theorem argument_map_prune (position : Nat) :
    Builtin.argument (args.map (Value.prune skips)) position =
      (Builtin.argument args position).prune skips := by
  unfold Builtin.argument
  rw [List.getElem?_map]
  cases args[position]? <;> rfl

@[simp] theorem chars_prune (v : Value) : Strings.chars (v.prune skips) = Strings.chars v := by
  rw [Strings.chars, Value.text_prune, Strings.chars]

@[simp] theorem absolute_prune (length : Nat) (v : Value) :
    Position.absolute length (v.prune skips) = Position.absolute length v := by
  rw [Position.absolute, Value.toNumber_prune, Position.absolute]

@[simp] theorem relative_prune (length : Nat) (v : Value) :
    Position.relative length (v.prune skips) = Position.relative length v := by
  rw [Position.relative, Value.toNumber_prune, Position.relative]

@[simp] theorem toBool_prune (v : Value) : Builtin.toBool (v.prune skips) = Builtin.toBool v := by
  cases v <;> rfl

@[simp] theorem numbers?_map_prune :
    Numeric.numbers? (args.map (Value.prune skips)) = Numeric.numbers? args := by
  have hmap : (args.map (Value.prune skips)).map Value.toNumber = args.map Value.toNumber := by
    rw [List.map_map]
    exact List.map_congr_left fun v _ => Value.toNumber_prune skips v
  rw [Numeric.numbers?, hmap, Numeric.numbers?]

@[simp] theorem sum_map_prune : Numeric.sum (args.map (Value.prune skips)) = Numeric.sum args := by
  rw [Numeric.sum, List.foldl_map, Numeric.sum]
  simp only [Value.toNumber_prune]

@[simp] theorem product_map_prune :
    Numeric.product (args.map (Value.prune skips)) = Numeric.product args := by
  rw [Numeric.product, List.foldl_map, Numeric.product]
  simp only [Value.toNumber_prune]

@[simp] theorem map_text_prune :
    (args.map (Value.prune skips)).map Value.text = args.map Value.text := by
  rw [List.map_map]
  exact List.map_congr_left fun v _ => Value.text_prune skips v

/-- What makes no array and compares no structure does not see what is left out. -/
theorem apply_map_prune {b : Builtin} (hb : b.makesArray = false) (hc : b.isComparison = false) :
    b.apply (args.map (Value.prune skips)) = b.apply args := by
  -- The functions that make arrays or compare are excluded; the others see texts, numbers and kinds.
  cases b with
  | slice => cases hb
  | reverse => cases hb
  | flat => cases hb
  | push => cases hb
  | pop => cases hb
  | shift => cases hb
  | unshift => cases hb
  | includes => cases hc
  | indexOf => cases hc
  | lastIndexOf => cases hc
  | isObject =>
      simp only [Builtin.apply, argument_map_prune]
      cases Builtin.argument args 0 <;> rfl
  | _ =>
      simp only [Builtin.apply, argument_map_prune, Numeric.least, Numeric.greatest,
        Strings.substring, Strings.length, Strings.parseInt, Strings.toFixed, numbers?_map_prune,
        sum_map_prune, product_map_prune, map_text_prune, chars_prune, absolute_prune, toBool_prune,
        Value.toNumber_prune, Value.text_prune, Value.tag_prune, Value.length?_prune,
        Value.typeName_prune, Value.isUndefined_prune]

end Flat

section Alike

variable {view : View}

theorem alike_found (position : Option Nat) :
    view.Alike (Position.found position) (Position.found position) := by
  cases position with
  | none => exact .number _
  | some n => exact .number _

/-- What makes no array makes a value without parts that refers to no function. -/
theorem alike_of_apply {b : Builtin} {args : List Value} {v : Value} (hb : b.makesArray = false)
    (h : b.apply args = .ok v) : view.Alike v v := by
  -- By what a function returns: a number, a text or a truth value.
  cases b with
  | slice => cases hb
  | reverse => cases hb
  | flat => cases hb
  | push => cases hb
  | pop => cases hb
  | shift => cases hb
  | unshift => cases hb
  | includes =>
      simp only [Builtin.apply] at h
      split at h
      all_goals
        cases h
        exact .bool _
  | indexOf =>
      simp only [Builtin.apply] at h
      split at h
      all_goals
        cases h
        exact alike_found _
  | lastIndexOf =>
      simp only [Builtin.apply] at h
      split at h
      all_goals
        cases h
        exact alike_found _
  | isObject =>
      simp only [Builtin.apply] at h
      split at h
      all_goals
        cases h
        exact .bool _
  | length =>
      simp only [Builtin.apply, Strings.length] at h
      split at h
      · cases h
        exact .number _
      · cases h
  | toFixed =>
      simp only [Builtin.apply, Strings.toFixed] at h
      split at h
      · cases h
      · cases h
        exact .string _
  | _ =>
      cases h
      all_goals first | exact .number _ | exact .string _ | exact .bool _

theorem alike_argument {args args' : List Value} (h : List.Forall₂ view.Alike args args')
    (position : Nat) :
    view.Alike (Builtin.argument args position) (Builtin.argument args' position) :=
  .getD (rel_getElem? h position)

/-- Like values are arrays with like elements, or are both refused. -/
theorem follows_require (b : Builtin) {v w : Value} (h : view.Alike v w) :
    Follows (.strict FunctionError) (List.Forall₂ view.Alike) (Arrays.require b v)
      (Arrays.require b w) := by
  rcases h.cases with ⟨vs, ws, rfl, rfl, hvs⟩ | ⟨_, _, rfl, rfl, _⟩ | ⟨hflat, rfl⟩
  · exact .ok hvs
  · exact .error trivial
  · cases w with
    | array items => cases hflat
    | object fields => cases hflat
    | _ => exact .error trivial

/-- Lists are flattened alike if their elements are. -/
theorem forall₂_flatten_of_items {levels : Option Nat} {vs ws : List Value}
    (h : List.Forall₂ view.Alike vs ws)
    (hitems : ∀ v ∈ vs, ∀ w, view.Alike v w →
      List.Forall₂ view.Alike (Arrays.flattenItem levels v) (Arrays.flattenItem levels w)) :
    List.Forall₂ view.Alike (Arrays.flatten levels vs) (Arrays.flatten levels ws) := by
  induction h with
  | nil => exact .nil
  | cons hvw _ ih =>
      rw [Arrays.flatten, Arrays.flatten]
      exact List.rel_append (hitems _ (by simp) _ hvw) (ih fun v hv => hitems v (by simp [hv]))

/-- Like values contribute like elements to a flattened array. -/
theorem forall₂_flattenItem {v w : Value} (h : view.Alike v w) (levels : Option Nat) :
    List.Forall₂ view.Alike (Arrays.flattenItem levels v) (Arrays.flattenItem levels w) := by
  induction v using Value.induction generalizing w levels with
  | array items ih =>
      rcases h.array_left with ⟨ws, rfl, hws⟩
      -- How far the elements are flattened depends on the levels left, so the induction is for all
      -- levels.
      match levels with
      | some 0 => exact .cons h .nil
      | some (n + 1) =>
          rw [Arrays.flattenItem, Arrays.flattenItem]
          exact forall₂_flatten_of_items hws fun v hv w hvw => ih v hv hvw (some n)
      | none =>
          rw [Arrays.flattenItem, Arrays.flattenItem]
          exact forall₂_flatten_of_items hws fun v hv w hvw => ih v hv hvw none
  | object fields _ =>
      rcases h.object_left with ⟨others, rfl, _⟩
      exact .cons h .nil
  | function name =>
      rcases h.function_left with ⟨rfl, _⟩
      exact .cons h .nil
  | _ =>
      rcases h.cases with ⟨_, _, hv, _⟩ | ⟨_, _, hv, _⟩ | ⟨_, rfl⟩
      · cases hv
      · cases hv
      · exact .cons h .nil

/-- Like lists are flattened alike. -/
theorem forall₂_flatten {vs ws : List Value} (h : List.Forall₂ view.Alike vs ws)
    (levels : Option Nat) :
    List.Forall₂ view.Alike (Arrays.flatten levels vs) (Arrays.flatten levels ws) :=
  forall₂_flatten_of_items h fun _ _ _ hvw => forall₂_flattenItem hvw levels

/-- Like lists have like parts between like positions. -/
theorem forall₂_slice {α : Type} {R : α → α → Prop} {as bs : List α} (h : List.Forall₂ R as bs)
    {i j k l : Value} (hij : view.Alike i j) (hkl : view.Alike k l) :
    List.Forall₂ R (Position.slice as i k) (Position.slice bs j l) := by
  have hrelative : ∀ {length : Nat} {a b : Value}, view.Alike a b →
      Position.relative length a = Position.relative length b := fun hab =>
    hab.observe (relative_prune _ _)
  rw [Position.slice, Position.slice, h.length_eq, hrelative hij, hrelative hkl, hkl.isUndefined]
  exact List.forall₂_drop _ (List.forall₂_take _ h)

/-- Like values have the same parts of their texts between like positions. -/
theorem alike_slice_chars {v w i j k l : Value} (h : view.Alike v w) (hij : view.Alike i j)
    (hkl : view.Alike k l) :
    view.Alike (.ofChars (Position.slice (Strings.chars v) i k))
      (.ofChars (Position.slice (Strings.chars w) j l)) := by
  -- Characters have nothing to leave out, so likeness of texts is equality.
  have hchars : List.Forall₂ Eq (Strings.chars v) (Strings.chars w) := by
    rw [List.forall₂_eq_eq_eq]
    exact h.observe (chars_prune _)
  have hslice := forall₂_slice hchars hij hkl
  rw [List.forall₂_eq_eq_eq] at hslice
  rw [hslice]
  exact .string _

/-- Like values are in the same default order. -/
theorem compare_of_alike {a b c d : Value} (hab : view.Alike a b) (hcd : view.Alike c d) :
    Arrays.compare a c = Arrays.compare b d := by
  -- Numbers are compared as they are, and otherwise texts, neither of which sees what is left out.
  have hprune : ∀ v w : Value,
      Arrays.compare (v.prune view.skips) (w.prune view.skips) = Arrays.compare v w := by
    intro v w
    have htexts : Ord.compare (v.prune view.skips).text (w.prune view.skips).text
        = Ord.compare v.text w.text := by
      rw [Value.text_prune, Value.text_prune]
    cases v <;> cases w <;> first | rfl | exact htexts
  rw [← hprune a c, hab.1, hcd.1, hprune]

/-- Like lists are sorted alike, since sorting sees nothing of the elements but their order. -/
theorem forall₂_sorted {vs ws : List Value} (h : List.Forall₂ view.Alike vs ws) :
    List.Forall₂ view.Alike (Arrays.sorted vs) (Arrays.sorted ws) := by
  -- The pairs of like elements can be sorted by either side, with the same result.
  have halike : ∀ p ∈ vs.zip ws, view.Alike p.1 p.2 := fun p hp => List.forall₂_zip h hp
  have hfst : (vs.zip ws).map Prod.fst = vs := List.map_fst_zip (Nat.le_of_eq h.length_eq)
  have hsnd : (vs.zip ws).map Prod.snd = ws := List.map_snd_zip (Nat.le_of_eq h.length_eq.symm)
  have hleft : ((vs.zip ws).mergeSort fun p q => Arrays.compare p.1 q.1 != .gt).map Prod.fst
      = Arrays.sorted vs := by
    rw [List.map_mergeSort (s := fun a b => Arrays.compare a b != .gt), hfst]
    · rfl
    · intro p _ q _
      rfl
  have hright : ((vs.zip ws).mergeSort fun p q => Arrays.compare p.1 q.1 != .gt).map Prod.snd
      = Arrays.sorted ws := by
    rw [List.map_mergeSort (s := fun a b => Arrays.compare a b != .gt), hsnd]
    · rfl
    · intro p hp q hq
      rw [compare_of_alike (halike p hp) (halike q hq)]
  rw [← hleft, ← hright, List.forall₂_map_left_iff, List.forall₂_map_right_iff, List.forall₂_same]
  intro p hp
  exact halike p (List.mem_mergeSort.mp hp)

/-- Like arguments have like results under a function that makes an array. -/
theorem follows_makesArray {b : Builtin} (hb : b.makesArray = true) {args args' : List Value}
    (h : List.Forall₂ view.Alike args args') :
    Follows (.strict FunctionError) view.Alike (b.apply args) (b.apply args') := by
  have hfirst := alike_argument h 0
  have hsecond := alike_argument h 1
  have hthird := alike_argument h 2
  have hrest := List.forall₂_drop 1 h
  -- Each takes elements off, joins or reorders them by position, which keeps them alike place by
  -- place.
  cases b with
  | slice =>
      simp only [Builtin.apply]
      have htext := alike_slice_chars hfirst hsecond hthird
      rcases hfirst.cases with ⟨vs, ws, hv, hw, hvs⟩ | ⟨_, _, hv, hw, _⟩ | ⟨hflat, hw⟩
      · rw [hv, hw]
        exact .ok (.array (forall₂_slice hvs hsecond hthird))
      · rw [hv, hw] at htext ⊢
        exact .ok htext
      · rw [hw] at htext ⊢
        cases hv : Builtin.argument args 0 with
        | array items =>
            rw [hv] at hflat
            cases hflat
        | _ =>
            rw [hv] at htext
            exact .ok htext
  | reverse =>
      exact (follows_require _ hfirst).bind fun vs ws hvs => .ok (.array (List.rel_reverse hvs))
  | flat =>
      have hlevels : Arrays.levels (Builtin.argument args 1)
          = Arrays.levels (Builtin.argument args' 1) := by
        rw [Arrays.levels, hsecond.isUndefined, hsecond.toNumber, Arrays.levels]
      refine (follows_require _ hfirst).bind fun vs ws hvs => .ok (.array ?_)
      rw [hlevels]
      exact forall₂_flatten hvs _
  | push =>
      exact (follows_require _ hfirst).bind fun vs ws hvs => .ok (.array (List.rel_append hvs hrest))
  | pop =>
      refine (follows_require _ hfirst).bind fun vs ws hvs => .ok (.array ?_)
      rw [List.dropLast_eq_take, List.dropLast_eq_take, hvs.length_eq]
      exact List.forall₂_take _ hvs
  | shift =>
      exact (follows_require _ hfirst).bind fun vs ws hvs => .ok (.array (List.forall₂_drop 1 hvs))
  | unshift =>
      exact (follows_require _ hfirst).bind fun vs ws hvs => .ok (.array (List.rel_append hrest hvs))
  | _ => cases hb

/-- Like arguments have like results under a function that calls no other, but to compare the
    structure of elements the view must be exact. -/
theorem follows_builtin (b : Builtin) (hb : b.isComparison = true → view.Exact)
    {args args' : List Value} (h : List.Forall₂ view.Alike args args') :
    Follows (.strict FunctionError) view.Alike (b.apply args) (b.apply args') := by
  by_cases harray : b.makesArray = true
  · exact follows_makesArray harray h
  rw [Bool.not_eq_true] at harray
  have hprune : args.map (Value.prune view.skips) = args'.map (Value.prune view.skips) :=
    List.forall₂_eq_eq_eq ▸ List.forall₂_map_left_iff.mpr
      (List.forall₂_map_right_iff.mpr (h.imp fun _ _ hvw => hvw.1))
  -- A comparison gets equal arguments; anything else gives the same on the pruned arguments.
  have hresult : b.apply args = b.apply args' := by
    by_cases hcompare : b.isComparison = true
    · have hexact := hb hcompare
      rw [List.map_congr_left fun v _ => hexact.prune_eq v, List.map_id',
        List.map_congr_left fun v _ => hexact.prune_eq v, List.map_id'] at hprune
      rw [hprune]
    · rw [Bool.not_eq_true] at hcompare
      rw [← apply_map_prune view.skips args harray hcompare, hprune,
        apply_map_prune view.skips args' harray hcompare]
  rw [← hresult]
  cases hv : b.apply args with
  | ok v => exact .ok (alike_of_apply harray hv)
  | error e => exact .error trivial

/-- Like values contribute like elements to a spliced list. -/
theorem forall₂_spliced {v w : Value} (h : view.Alike v w) :
    List.Forall₂ view.Alike (Elements.spliced v) (Elements.spliced w) := by
  rcases h.cases with ⟨vs, ws, rfl, rfl, hvs⟩ | ⟨_, _, rfl, rfl, _⟩ | ⟨hflat, rfl⟩
  · exact hvs
  · exact .cons h .nil
  · cases w with
    | array items => cases hflat
    | _ => exact .cons h .nil

end Alike

section Callbacks

variable {view : View} {faults : Faults EvalError} (hfaults : faults.Ordinary)
  {call call' : List Value → Traced EvalError Value}
  (hcall : ∀ args args', List.Forall₂ view.Alike args args' →
    Follows faults view.Alike (call args).outcome (call' args').outcome)
include hcall

/-- Calls that compare two elements put them in the same order. -/
theorem follows_orderOf {v w a b : Value} (hvw : view.Alike v w) (hab : view.Alike a b) :
    Follows faults Eq (do return Arrays.orderOf (← call [v, a])).outcome
      (do return Arrays.orderOf (← call' [w, b])).outcome := by
  refine (hcall _ _ (.cons hvw (.cons hab .nil))).andThen fun c d hcd => .ok ?_
  rw [Arrays.orderOf, hcd.toNumber, Arrays.orderOf]

include hfaults

/-- A reduction starts from like values and makes like steps. -/
theorem follows_reduce {vs ws : List Value} (h : List.Forall₂ view.Alike vs ws)
    {initial initial' : Option Value} (hinitial : Option.Rel view.Alike initial initial') :
    Follows faults view.Alike
      (Arrays.withCallback .reduce call (fun e => .fail (.function e)) vs initial).outcome
      (Arrays.withCallback .reduce call' (fun e => .fail (.function e)) ws initial').outcome := by
  have hstep : ∀ position a b v w, view.Alike a b → view.Alike v w →
      Follows faults view.Alike (call [a, v, .ofNat position, .array vs]).outcome
        (call' [b, w, .ofNat position, .array ws]).outcome := by
    intro position a b v w hab hvw
    exact hcall _ _ (.cons hab (.cons hvw (.cons (.number _) (.cons (.array h) .nil))))
  -- Without an initial value the first element takes its place, and an empty array is refused.
  cases hinitial with
  | some htotal => exact follows_accumulate hstep h htotal 0
  | none =>
      cases h with
      | nil => exact .error (hfaults _ nofun)
      | cons hvw hvws => exact follows_accumulate hstep hvws hvw 1

/-- A built-in function that calls another has like results on like elements. -/
theorem follows_withCallback (b : Builtin) {vs ws : List Value} (h : List.Forall₂ view.Alike vs ws)
    {initial initial' : Option Value} (hinitial : Option.Rel view.Alike initial initial') :
    Follows faults view.Alike
      (Arrays.withCallback b call (fun e => .fail (.function e)) vs initial).outcome
      (Arrays.withCallback b call' (fun e => .fail (.function e)) ws initial').outcome := by
  -- The callback gets the element, its position and the whole array.
  have hvisit : ∀ position v w, view.Alike v w →
      Follows faults view.Alike (call [v, .ofNat position, .array vs]).outcome
        (call' [w, .ofNat position, .array ws]).outcome := by
    intro position v w hvw
    exact hcall _ _ (.cons hvw (.cons (.number _) (.cons (.array h) .nil)))
  have htruthy : ∀ v w, view.Alike v w → v.isTruthy = w.isTruthy := fun _ _ hvw => hvw.isTruthy
  cases b with
  | map => exact (follows_transform hvisit h 0).andThen fun _ _ hvs => .ok (.array hvs)
  | filter => exact (follows_select hvisit htruthy h 0).andThen fun _ _ hvs => .ok (.array hvs)
  | find => exact (follows_search hvisit htruthy h 0).andThen fun _ _ hv => .ok (.getD hv)
  | some =>
      refine (follows_any hvisit htruthy h 0).andThen fun b _ hb => ?_
      subst hb
      exact .ok (.bool b)
  | every =>
      refine (follows_all hvisit htruthy h 0).andThen fun b _ hb => ?_
      subst hb
      exact .ok (.bool b)
  | flatMap =>
      have hspliced : ∀ v w, view.Alike v w →
          List.Forall₂ view.Alike (Elements.spliced v) (Elements.spliced w) := fun _ _ hvw =>
        forall₂_spliced hvw
      exact (follows_splice hvisit hspliced h 0).andThen fun _ _ hvs => .ok (.array hvs)
  | sort =>
      have horder := fun v w a b => follows_orderOf hcall (v := v) (w := w) (a := a) (b := b)
      exact (follows_sort horder h).andThen fun _ _ hvs => .ok (.array hvs)
  | reduce => exact follows_reduce hfaults hcall h hinitial
  | _ => exact .error (hfaults _ nofun)

end Callbacks

end FieldLang

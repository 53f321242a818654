import FieldLang.Engine.Access
import FieldLang.Engine.Operate
import FieldLang.Proofs.Following

/-!
# Likeness of Values

When two values cannot be told apart. A view leaves out the fields under some of the denied keys, at
every depth, and allows references to some functions only. Two values are alike in a view if they
are equal once those fields are left out and refer to allowed functions only. So likeness says two
things at once: what a run can see of its data is the same as in another run, and it can reach no
function but the allowed ones.

Whatever looks at values without comparing their structure cannot tell like values apart: their
types, their texts and numbers, their truth, and what they hold under a key that is not denied.
Comparing the structure of objects does see what a view leaves out, so it is covered only where the
view is exact, and then like values are equal.

## Main definitions

* `Value.prune`: A value without its fields under some keys, at every depth.
* `Value.references`: The functions that a value refers to, at any depth.
* `View`: What of values is looked at, and which functions they may refer to.
* `View.Alike`: Values that are the same in a view.
* `View.Exact`, `View.exactly`: Views that leave out nothing.

## Theorems

* `Alike.array_left`, `Alike.object_left`: Like arrays have like elements, and like objects like
  fields.
* `Alike.observe`: What does not depend on the fields left out is the same for like values.
* `text_prune`, `toNumber_prune`: Texts and numbers do not depend on them.
* `follows_property`, `follows_indexed`, `follows_unary`, `follows_binary`: Access and operators on
  like values.
-/

namespace FieldLang

namespace Value

mutual

/-- A value without its fields under some keys, at every depth. -/
def prune (skips : String → Bool) : Value → Value
  | .array items => .array (pruneItems skips items)
  | .object fields => .object (pruneFields skips fields)
  | v => v

/-- The elements of an array without their fields under some keys. -/
def pruneItems (skips : String → Bool) : List Value → List Value
  | [] => []
  | v :: vs => v.prune skips :: pruneItems skips vs

/-- The fields of an object that are not under some keys, and likewise inside them. -/
def pruneFields (skips : String → Bool) : List (String × Value) → List (String × Value)
  | [] => []
  | (key, v) :: fields =>
    if skips key then pruneFields skips fields
    else (key, v.prune skips) :: pruneFields skips fields

end

mutual

/-- The functions that a value refers to, at any depth. -/
def references : Value → List String
  | .array items => itemReferences items
  | .object fields => fieldReferences fields
  | .function name => [name]
  | _ => []

/-- The functions that the elements of an array refer to. -/
def itemReferences : List Value → List String
  | [] => []
  | v :: vs => v.references ++ itemReferences vs

/-- The functions that the fields of an object refer to. -/
def fieldReferences : List (String × Value) → List String
  | [] => []
  | (_, v) :: fields => v.references ++ fieldReferences fields

end

theorem pruneItems_eq_map (skips : String → Bool) (items : List Value) :
    pruneItems skips items = items.map (prune skips) := by
  induction items with
  | nil => rfl
  | cons v vs ih => rw [pruneItems, ih, List.map_cons]

theorem mem_itemReferences {n : String} {items : List Value} :
    n ∈ itemReferences items ↔ ∃ v ∈ items, n ∈ v.references := by
  induction items with
  | nil => simp [itemReferences]
  | cons v vs ih => simp [itemReferences, ih]

/-- What is found under a key that is kept. -/
theorem get?_pruneFields {skips : String → Bool} {key : String} (hkey : skips key = false)
    (fields : List (String × Value)) :
    Keyed.get? key (pruneFields skips fields) = (Keyed.get? key fields).map (prune skips) := by
  induction fields with
  | nil => rfl
  | cons field fields ih =>
      rcases field with ⟨k, v⟩
      -- A field under another key may be left out, but that does not change what is found.
      by_cases hk : k = key
      · subst hk
        simp [pruneFields, hkey, Keyed.get?]
      · by_cases hskip : skips k = true
        · simp [pruneFields, hskip, Keyed.get?, hk, ih]
        · simp [pruneFields, hskip, Keyed.get?, hk, ih]

theorem mem_fieldReferences_of_get? {n key : String} {v : Value} {fields : List (String × Value)}
    (h : Keyed.get? key fields = some v) (hn : n ∈ v.references) : n ∈ fieldReferences fields := by
  induction fields with
  | nil => cases h
  | cons field fields ih =>
      rcases field with ⟨k, w⟩
      rw [fieldReferences, List.mem_append]
      by_cases hk : k = key
      · rw [Keyed.get?, if_pos hk] at h
        cases h
        exact Or.inl hn
      · rw [Keyed.get?, if_neg hk] at h
        exact Or.inr (ih h)

/-- Induction over values, with one hypothesis for all elements of an array and one for all fields
    of an object. -/
@[elab_as_elim]
theorem induction {motive : Value → Prop} (null : motive .null) (undefined : motive .undefined)
    (bool : ∀ b, motive (.bool b)) (number : ∀ n, motive (.number n))
    (string : ∀ s, motive (.string s))
    (array : ∀ items, (∀ v ∈ items, motive v) → motive (.array items))
    (object : ∀ fields, (∀ p ∈ fields, motive p.2) → motive (.object fields))
    (function : ∀ name, motive (.function name)) (v : Value) : motive v :=
  @Value.rec motive (fun items => ∀ v ∈ items, motive v) (fun fields => ∀ p ∈ fields, motive p.2)
    (fun p => motive p.2) null undefined bool number string array object function (by simp)
    (fun _ _ hv hvs => List.forall_mem_cons.mpr ⟨hv, hvs⟩) (by simp)
    (fun _ _ hp hps => List.forall_mem_cons.mpr ⟨hp, hps⟩) (fun _ _ h => h) v

/-- Leaving fields out adds no references. -/
theorem mem_references_of_mem_prune {skips : String → Bool} {name : String} {v : Value}
    (h : name ∈ (v.prune skips).references) : name ∈ v.references := by
  induction v using Value.induction with
  | array items ih =>
      rw [prune, pruneItems_eq_map, references, mem_itemReferences] at h
      rcases h with ⟨_, hmem, hname⟩
      rcases List.mem_map.mp hmem with ⟨v, hv, rfl⟩
      exact mem_itemReferences.mpr ⟨v, hv, ih v hv hname⟩
  | object fields ih =>
      rw [prune, references] at h
      rw [references]
      induction fields with
      | nil => exact h
      | cons field fields ihfields =>
          rcases field with ⟨key, v⟩
          rw [fieldReferences, List.mem_append]
          -- A field that is left out takes its references with it.
          by_cases hkey : skips key = true
          · rw [pruneFields, if_pos hkey] at h
            exact Or.inr (ihfields (fun p hp => ih p (by simp [hp])) h)
          · rw [pruneFields, if_neg hkey, fieldReferences, List.mem_append] at h
            rcases h with h | h
            · exact Or.inl (ih (key, v) (by simp) h)
            · exact Or.inr (ihfields (fun p hp => ih p (by simp [hp])) h)
  | _ => exact h

/-- Whether a value has no parts. -/
def isFlat : Value → Bool
  | .array _ => false
  | .object _ => false
  | _ => true

section Observers

variable (skips : String → Bool) (v : Value)

@[simp] theorem tag_prune : (v.prune skips).tag = v.tag := by
  cases v <;> rfl

@[simp] theorem typeName_prune : (v.prune skips).typeName = v.typeName := by
  cases v <;> rfl

@[simp] theorem isNullish_prune : (v.prune skips).isNullish = v.isNullish := by
  cases v <;> rfl

@[simp] theorem isTruthy_prune : (v.prune skips).isTruthy = v.isTruthy := by
  cases v <;> rfl

@[simp] theorem isUndefined_prune : (v.prune skips).isUndefined = v.isUndefined := by
  cases v <;> rfl

@[simp] theorem isString_prune : (v.prune skips).isString = v.isString := by
  cases v <;> rfl

@[simp] theorem length?_prune : (v.prune skips).length? = v.length? := by
  cases v with
  | array items => simp [prune, length?, pruneItems_eq_map]
  | _ => rfl

/-- An object has the same plain text whatever it holds. -/
@[simp] theorem text_prune : (v.prune skips).text = v.text := by
  induction v using Value.induction with
  | array items ih =>
      -- Only arrays look into their elements for their text.
      have htexts : texts (pruneItems skips items) = texts items := by
        induction items with
        | nil => rfl
        | cons v vs ihvs =>
            rw [pruneItems, texts, texts, isNullish_prune, ih v (by simp),
              ihvs fun w hw => ih w (by simp [hw])]
      rw [prune, text, text, htexts]
  | _ => rfl

/-- An object has no number whatever it holds. -/
@[simp] theorem toNumber_prune : (v.prune skips).toNumber = v.toNumber := by
  induction v using Value.induction with
  | array items ih =>
      -- An array of one element has the number of that element.
      rcases items with _ | ⟨v, _ | ⟨w, vs⟩⟩
      · rfl
      · exact ih v (by simp)
      · rfl
  | _ => rfl

end Observers

end Value

/-- What of values is looked at. Fields are left out under denied keys only. -/
structure View where
  skips : String → Bool
  /-- The functions that values may refer to. -/
  refers : String → Prop
  isDenied_of_skips : ∀ key, skips key = true → isDenied key = true

namespace View

theorem isDenied_of_skips_nothing (key : String) (h : false = true) : isDenied key = true := by
  cases h

/-- The view that leaves nothing out and allows some references. -/
def exactly (refers : String → Prop) : View where
  skips _ := false
  refers := refers
  isDenied_of_skips := isDenied_of_skips_nothing

/-- The values are equal without the fields left out, and refer to allowed functions only. -/
def Alike (view : View) (v w : Value) : Prop :=
  v.prune view.skips = w.prune view.skips ∧
    ∀ n ∈ (v.prune view.skips).references, view.refers n

/-- Nothing is left out. -/
def Exact (view : View) : Prop :=
  ∀ key, view.skips key = false

namespace Alike

variable {view : View} {v w : Value}

/-- What does not depend on the fields left out is the same for like values. -/
theorem observe {α : Type} {f : Value → α} (hf : ∀ v : Value, f (v.prune view.skips) = f v)
    (h : view.Alike v w) : f v = f w := by
  rw [← hf v, h.1, hf w]

theorem isTruthy (h : view.Alike v w) : v.isTruthy = w.isTruthy :=
  h.observe (Value.isTruthy_prune _)

theorem isNullish (h : view.Alike v w) : v.isNullish = w.isNullish :=
  h.observe (Value.isNullish_prune _)

theorem isUndefined (h : view.Alike v w) : v.isUndefined = w.isUndefined :=
  h.observe (Value.isUndefined_prune _)

theorem typeName (h : view.Alike v w) : v.typeName = w.typeName :=
  h.observe (Value.typeName_prune _)

theorem text (h : view.Alike v w) : v.text = w.text :=
  h.observe (Value.text_prune _)

theorem toNumber (h : view.Alike v w) : v.toNumber = w.toNumber :=
  h.observe (Value.toNumber_prune _)

theorem function_left {n : String} (h : view.Alike (.function n) w) :
    w = .function n ∧ view.refers n := by
  refine ⟨?_, h.2 n (by simp [Value.prune, Value.references])⟩
  have hprune := h.1
  cases w <;> simp_all [Value.prune]

/-- Lists are alike place by place if they are equal without what is left out. -/
theorem forall₂_of_map_eq {vs ws : List Value}
    (h : vs.map (Value.prune view.skips) = ws.map (Value.prune view.skips))
    (hrefers : ∀ v ∈ vs, ∀ n ∈ (v.prune view.skips).references, view.refers n) :
    List.Forall₂ view.Alike vs ws := by
  induction vs generalizing ws with
  | nil =>
      cases ws with
      | nil => exact .nil
      | cons w ws => cases h
  | cons v vs ih =>
      cases ws with
      | nil => cases h
      | cons w ws =>
          rw [List.map_cons, List.map_cons, List.cons.injEq] at h
          exact .cons ⟨h.1, hrefers v (by simp)⟩ (ih h.2 fun u hu => hrefers u (by simp [hu]))

/-- What is like an array is an array of like elements. -/
theorem array_left {vs : List Value} (h : view.Alike (.array vs) w) :
    ∃ ws, w = .array ws ∧ List.Forall₂ view.Alike vs ws := by
  rcases h with ⟨hprune, hrefers⟩
  -- Leaving fields out keeps the kind of a value, so the other one is an array too.
  cases w with
  | array ws =>
      rw [Value.prune, Value.prune, Value.pruneItems_eq_map, Value.pruneItems_eq_map,
        Value.array.injEq] at hprune
      refine ⟨ws, rfl, forall₂_of_map_eq hprune fun v hv n hn => hrefers n ?_⟩
      rw [Value.prune, Value.pruneItems_eq_map, Value.references, Value.mem_itemReferences]
      exact ⟨v.prune view.skips, List.mem_map_of_mem hv, hn⟩
  | _ => cases hprune

theorem array {vs ws : List Value} (h : List.Forall₂ view.Alike vs ws) :
    view.Alike (.array vs) (.array ws) := by
  rw [Alike, Value.prune, Value.prune, Value.pruneItems_eq_map, Value.pruneItems_eq_map]
  induction h with
  | nil => exact ⟨rfl, by simp [Value.references, Value.itemReferences]⟩
  | @cons v w vs ws hvw _ ih =>
      rcases ih with ⟨heq, hrefers⟩
      rw [Value.array.injEq] at heq
      refine ⟨by rw [List.map_cons, List.map_cons, hvw.1, heq], fun n hn => ?_⟩
      rw [List.map_cons, Value.references, Value.itemReferences, List.mem_append] at hn
      rcases hn with hn | hn
      · exact hvw.2 n hn
      · exact hrefers n hn

/-- What is like an object is an object, with like fields under the keys that are not left out. -/
theorem object_left {fields : List (String × Value)} (h : view.Alike (.object fields) w) :
    ∃ others, w = .object others ∧ ∀ key, view.skips key = false →
      Option.Rel view.Alike (Keyed.get? key fields) (Keyed.get? key others) := by
  rcases h with ⟨hprune, hrefers⟩
  cases w with
  | object others =>
      rw [Value.prune, Value.prune, Value.object.injEq] at hprune
      refine ⟨others, rfl, fun key hkey => ?_⟩
      -- What is found under a kept key is found in the pruned fields, which are the same.
      have hget := congrArg (Keyed.get? key) hprune
      rw [Value.get?_pruneFields hkey, Value.get?_pruneFields hkey] at hget
      have hfields := Value.get?_pruneFields hkey fields
      cases hv : Keyed.get? key fields with
      | none =>
          rw [hv] at hget
          cases hw : Keyed.get? key others with
          | none => exact .none
          | some w =>
              rw [hw] at hget
              cases hget
      | some v =>
          rw [hv] at hget hfields
          cases hw : Keyed.get? key others with
          | none =>
              rw [hw] at hget
              cases hget
          | some w =>
              rw [hw, Option.map_some, Option.map_some, Option.some.injEq] at hget
              refine .some ⟨hget, fun n hn => hrefers n ?_⟩
              exact Value.mem_fieldReferences_of_get? hfields hn
  | _ => cases hprune

/-- Like values are arrays with like elements, objects with like fields, or the same. -/
theorem cases (h : view.Alike v w) :
    (∃ vs ws, v = .array vs ∧ w = .array ws ∧ List.Forall₂ view.Alike vs ws) ∨
    (∃ fields others, v = .object fields ∧ w = .object others ∧ ∀ key, view.skips key = false →
      Option.Rel view.Alike (Keyed.get? key fields) (Keyed.get? key others)) ∨
    (v.isFlat = true ∧ w = v) := by
  cases v with
  | array vs =>
      rcases h.array_left with ⟨ws, rfl, hvs⟩
      exact Or.inl ⟨vs, ws, rfl, rfl, hvs⟩
  | object fields =>
      rcases h.object_left with ⟨others, rfl, hfields⟩
      exact Or.inr (Or.inl ⟨fields, others, rfl, rfl, hfields⟩)
  | _ =>
      have hprune := h.1
      refine Or.inr (Or.inr ⟨rfl, ?_⟩)
      cases w <;> simp_all [Value.prune]

/-- A value that refers to allowed functions only is like itself. -/
theorem self (h : ∀ n ∈ v.references, view.refers n) : view.Alike v v :=
  ⟨rfl, fun n hn => h n (Value.mem_references_of_mem_prune hn)⟩

theorem undefined : view.Alike .undefined .undefined :=
  .self (by simp [Value.references])

theorem bool (b : Bool) : view.Alike (.bool b) (.bool b) :=
  .self (by simp [Value.references])

theorem number (n : Float) : view.Alike (.number n) (.number n) :=
  .self (by simp [Value.references])

theorem string (s : String) : view.Alike (.string s) (.string s) :=
  .self (by simp [Value.references])

theorem function {n : String} (h : view.refers n) : view.Alike (.function n) (.function n) :=
  .self (by simpa [Value.references] using h)

/-- A value that may be missing stands for undefined. -/
theorem getD {x y : Option Value} (h : Option.Rel view.Alike x y) :
    view.Alike (x.getD .undefined) (y.getD .undefined) := by
  cases h with
  | none => exact undefined
  | some h => exact h

end Alike

/-- In an exact view nothing is left out of a value. -/
theorem Exact.prune_eq {view : View} (hexact : view.Exact) (v : Value) :
    v.prune view.skips = v := by
  induction v using Value.induction with
  | array items ih =>
      rw [Value.prune, Value.pruneItems_eq_map, List.map_congr_left ih, List.map_id']
  | object fields ih =>
      -- No key is skipped, so the fields stay one by one.
      have hfields : Value.pruneFields view.skips fields = fields := by
        induction fields with
        | nil => rfl
        | cons field fields ihfields =>
            rcases field with ⟨key, v⟩
            rw [Value.pruneFields, if_neg (by simp [hexact key]), ih (key, v) (by simp),
              ihfields fun p hp => ih p (by simp [hp])]
      rw [Value.prune, hfields]
  | _ => rfl

/-- In an exact view like values are equal. -/
theorem Exact.eq_of_alike {view : View} (hexact : view.Exact) {v w : Value} (h : view.Alike v w) :
    v = w := by
  have heq := h.1
  rwa [hexact.prune_eq, hexact.prune_eq] at heq

/-- In an exact view values are alike if they are equal and refer to allowed functions only. -/
theorem Exact.alike_iff {view : View} (hexact : view.Exact) {v w : Value} :
    view.Alike v w ↔ v = w ∧ ∀ name ∈ v.references, view.refers name := by
  constructor
  · intro h
    have hrefers := h.2
    rw [hexact.prune_eq] at hrefers
    exact ⟨hexact.eq_of_alike h, hrefers⟩
  · rintro ⟨rfl, hrefers⟩
    exact .self hrefers

/-- In an exact view lists are alike if they are equal and refer to allowed functions only. -/
theorem Exact.forall₂_iff {view : View} (hexact : view.Exact) {vs ws : List Value} :
    List.Forall₂ view.Alike vs ws ↔
      vs = ws ∧ ∀ v ∈ vs, ∀ name ∈ v.references, view.refers name := by
  constructor
  · intro h
    have heq : vs = ws := by
      rw [← List.forall₂_eq_eq_eq]
      exact h.imp fun _ _ hvw => hexact.eq_of_alike hvw
    subst heq
    rw [List.forall₂_same] at h
    exact ⟨rfl, fun v hv => (hexact.alike_iff.mp (h v hv)).2⟩
  · rintro ⟨rfl, hrefers⟩
    exact List.forall₂_same.mpr fun v hv => .self (hrefers v hv)

end View

/-- Every fault of evaluation may be shared, except that a function is missing. -/
def Faults.Ordinary (faults : Faults EvalError) : Prop :=
  ∀ e, (∀ n, e ≠ .undefinedFunction n) → faults.shared e

section Access

variable {view : View} {faults : Faults EvalError} (hfaults : faults.Ordinary)
include hfaults

/-- Denied keys are refused in both runs, and any other key is one that the view keeps. -/
theorem follows_guardKey (key : String) :
    Follows faults (fun _ _ => isDenied key = false) (guardKey key) (guardKey key) := by
  unfold guardKey
  by_cases hkey : isDenied key = true
  · rw [if_pos hkey]
    exact .error (hfaults _ nofun)
  · rw [if_neg hkey]
    exact .ok (Bool.eq_false_iff.mpr hkey)

omit hfaults in
theorem alike_propertyOf {v w : Value} (h : view.Alike v w) {key : String}
    (hkey : view.skips key = false) : view.Alike (v.propertyOf key) (w.propertyOf key) := by
  -- The length is the same for like arrays; a field of an object is alike by its likeness.
  rcases h.cases with ⟨vs, ws, rfl, rfl, hvs⟩ | ⟨fields, others, rfl, rfl, hfields⟩ | ⟨hflat, rfl⟩
  · simp only [Value.propertyOf, Value.length?, hvs.length_eq]
    split
    · exact .number _
    · exact .undefined
  · exact .getD (hfields key hkey)
  · cases w with
    | array items => cases hflat
    | object fields => cases hflat
    | string s =>
        simp only [Value.propertyOf, Value.length?]
        split
        · exact .number _
        · exact .undefined
    | _ => exact .undefined

theorem follows_property {v w : Value} (h : view.Alike v w) {key : String}
    (hkey : view.skips key = false) :
    Follows faults view.Alike (v.property key) (w.property key) := by
  unfold Value.property
  rw [h.isNullish, h.typeName]
  by_cases hnullish : w.isNullish = true
  · rw [if_pos hnullish, if_pos hnullish]
    exact .error (hfaults _ nofun)
  · rw [if_neg hnullish, if_neg hnullish]
    exact .ok (alike_propertyOf h hkey)

omit hfaults in
theorem skips_of_not_isDenied {key : String} (h : isDenied key = false) :
    view.skips key = false := by
  rw [Bool.eq_false_iff]
  intro hskips
  rw [view.isDenied_of_skips key hskips] at h
  cases h

/-- The guard of an index lets the same indices pass in both runs. -/
theorem follows_guardIndex {i j : Value} (h : view.Alike i j) :
    Follows faults (fun _ _ => ∀ key, i = .string key → isDenied key = false)
      (Value.guardIndex i) (Value.guardIndex j) := by
  -- The guard looks only at whether the index is a text, and at that text.
  have hguard : Value.guardIndex i = Value.guardIndex j :=
    h.observe fun v => by cases v <;> rfl
  rw [← hguard]
  cases i with
  | string key =>
      refine (follows_guardKey hfaults key).imp fun _ _ hkey other heq => ?_
      cases heq
      exact hkey
  | _ => exact .ok nofun

omit hfaults in
/-- Like lists have like elements at every position, or none. -/
theorem rel_getElem? {α β : Type} {R : α → β → Prop} {as : List α} {bs : List β}
    (h : List.Forall₂ R as bs) (position : Nat) : Option.Rel R as[position]? bs[position]? := by
  induction h generalizing position with
  | nil => exact .none
  | cons hab _ ih =>
      cases position with
      | zero => exact .some hab
      | succ position => exact ih position

omit hfaults in
/-- A character of a text, like the absence of one, is like itself. -/
theorem alike_charAt (s : String) (position : Option Nat) :
    view.Alike ((position.map (Value.charAt s)).getD .undefined)
      ((position.map (Value.charAt s)).getD .undefined) := by
  cases position with
  | none => exact .undefined
  | some n =>
      show view.Alike (Value.charAt s n) (Value.charAt s n)
      unfold Value.charAt
      split
      · exact .string _
      · exact .undefined

/-- Like values have like values at like indices. -/
theorem follows_indexed {v w i j : Value} (h : view.Alike v w) (hij : view.Alike i j) :
    Follows faults view.Alike (v.indexed i) (w.indexed j) := by
  unfold Value.indexed
  refine (follows_guardIndex hfaults hij).bind fun _ _ hguard => ?_
  rw [h.isNullish, h.typeName, hij.text]
  by_cases hnullish : w.isNullish = true
  · rw [if_pos hnullish, if_pos hnullish]
    exact .error (hfaults _ nofun)
  rw [if_neg hnullish, if_neg hnullish]
  -- An object is asked for the text of the index, whatever the index is. Otherwise the index
  -- decides, and one that has parts denotes neither a position nor a property.
  rcases h.cases with ⟨vs, ws, rfl, rfl, hvs⟩ | ⟨fields, others, rfl, rfl, hfields⟩ | ⟨hflat, rfl⟩
  · rcases hij.cases with ⟨_, _, rfl, rfl, _⟩ | ⟨_, _, rfl, rfl, _⟩ | ⟨hi, rfl⟩
    · exact .ok .undefined
    · exact .ok .undefined
    · cases j with
      | string key => exact follows_property hfaults h (skips_of_not_isDenied (hguard key rfl))
      | number n =>
          refine .ok (.getD ?_)
          cases (Value.number n).position? with
          | none => exact .none
          | some position => exact rel_getElem? hvs position
      | array items => cases hi
      | object fields => cases hi
      | _ => exact .ok .undefined
  · have htext := hij.text
    show Follows faults view.Alike (guardKey i.text >>= fun _ => _) (guardKey j.text >>= fun _ => _)
    rw [htext]
    refine (follows_guardKey hfaults j.text).bind fun _ _ hkey => ?_
    exact .ok (.getD (hfields j.text (skips_of_not_isDenied hkey)))
  · rcases hij.cases with ⟨_, _, rfl, rfl, _⟩ | ⟨_, _, rfl, rfl, _⟩ | ⟨hi, rfl⟩
    · cases w with
      | array items => cases hflat
      | object fields => cases hflat
      | _ => exact .ok .undefined
    · cases w with
      | array items => cases hflat
      | object fields => cases hflat
      | _ => exact .ok .undefined
    · cases w with
      | array items => cases hflat
      | object fields => cases hflat
      | string s =>
          cases j with
          | string key => exact follows_property hfaults h (skips_of_not_isDenied (hguard key rfl))
          | _ => exact .ok (alike_charAt s _)
      | _ =>
          cases j with
          | string key => exact follows_property hfaults h (skips_of_not_isDenied (hguard key rfl))
          | _ => exact .ok .undefined

/-- Like values have like results under the unary operators. -/
theorem follows_unary (op : UnaryOp) {v w : Value} (h : view.Alike v w) :
    Follows faults view.Alike (op.apply v) (op.apply w) := by
  cases op with
  | not =>
      rw [UnaryOp.apply, UnaryOp.apply, h.isTruthy]
      exact .ok (.bool _)
  | negate =>
      rcases h.cases with ⟨_, _, rfl, rfl, _⟩ | ⟨_, _, rfl, rfl, _⟩ | ⟨_, rfl⟩
      · exact .error (hfaults _ nofun)
      · exact .error (hfaults _ nofun)
      · cases w with
        | number n => exact .ok (.number _)
        | _ => exact .error (hfaults _ nofun)

end Access

/-- Whether an operator compares the structure of its operands. -/
def BinaryOp.isComparison : BinaryOp → Bool
  | .equal => true
  | .notEqual => true
  | _ => false

/-- The result of an operator on two numbers or two texts. -/
def BinaryOp.onAlike? (op : BinaryOp) : Value → Value → Option Value
  | .number a, .number b => op.onNumbers? a b
  | .string a, .string b => op.onStrings? a b
  | _, _ => none

/-- An operator that compares no structure joins texts or works on two numbers or two texts. -/
theorem BinaryOp.apply_eq {op : BinaryOp} (hop : op.isComparison = false) (v w : Value) :
    op.apply v w =
      if op = .add ∧ (v.isString ∨ w.isString) then .ok (.string (v.text ++ w.text))
      else
        match op.onAlike? v w with
        | some u => .ok u
        | none => .error (op.refuse v w) := by
  cases op with
  | equal => cases hop
  | notEqual => cases hop
  | _ => rfl

/-- An operator that compares no structure does not see what is left out. -/
theorem BinaryOp.apply_prune {op : BinaryOp} (hop : op.isComparison = false) (skips : String → Bool)
    (v w : Value) : op.apply (v.prune skips) (w.prune skips) = op.apply v w := by
  have hresult : op.onAlike? (v.prune skips) (w.prune skips) = op.onAlike? v w := by
    cases v <;> cases w <;> rfl
  rw [apply_eq hop, apply_eq hop, hresult, refuse, refuse]
  simp only [Value.isString_prune, Value.text_prune, Value.typeName_prune]

/-- What an operator makes of two numbers or two texts has no parts and refers to no function. -/
theorem BinaryOp.alike_of_onAlike? {view : View} {op : BinaryOp} {v w u : Value}
    (h : op.onAlike? v w = some u) : view.Alike u u := by
  unfold onAlike? at h
  split at h
  · cases op <;> cases h
    all_goals first | exact .number _ | exact .bool _
  · cases op <;> cases h
    all_goals exact .bool _
  · cases h

/-- Like values have like results under the binary operators, but to compare their structure the
    view must be exact. -/
theorem follows_binary {view : View} {faults : Faults EvalError} (hfaults : faults.Ordinary)
    (op : BinaryOp) (hop : op.isComparison = true → view.Exact) {v w v' w' : Value}
    (hv : view.Alike v v') (hw : view.Alike w w') :
    Follows faults view.Alike (op.apply v w) (op.apply v' w') := by
  -- Comparing is the one thing that sees what is left out, so there the values must be equal.
  by_cases hcompare : op.isComparison = true
  · have hexact := hop hcompare
    rw [hexact.eq_of_alike hv, hexact.eq_of_alike hw]
    cases op with
    | equal => exact .ok (.bool _)
    | notEqual => exact .ok (.bool _)
    | _ => cases hcompare
  · rw [Bool.not_eq_true] at hcompare
    rw [← BinaryOp.apply_prune hcompare view.skips v w, hv.1, hw.1,
      BinaryOp.apply_prune hcompare, BinaryOp.apply_eq hcompare]
    split
    · exact .ok (.string _)
    · split
      · rename_i hresult
        exact .ok (BinaryOp.alike_of_onAlike? hresult)
      · exact .error (hfaults _ (by simp [BinaryOp.refuse]))

end FieldLang

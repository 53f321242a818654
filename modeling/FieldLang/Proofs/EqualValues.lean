import FieldLang.Proofs.DefaultOrder
import FieldLang.Proofs.JsonRoundTrip
import FieldLang.Proofs.Likeness

/-!
# Equal Values

What the equality of values is as a relation. It is symmetric and transitive. It is not reflexive,
because what is not a number differs from itself, and so does every value that has such a number in it,
at whatever depth. Equal values cannot be told apart by their types, their truth, their texts and the
default order, although they need not be the same: the two zeros are equal, and the fields of an object
may stand in any order.

The comparison of two objects looks up the fields of the first in the second, compares how many there are,
and never looks at the fields of the second. That is enough because no key occurs twice. The keys of the
first are then all among those of the second, and as many as they are, so there is no other key in the
second. With this an object is compared as an array is, place by place: two arrays hold equal values at
each position, or none, and two objects under each key. The order of the fields does not occur in it any
more. What is said of equal values is proved by an induction in this form, `equal_induction`.

## Main definitions

* `WellKeyed`: No object in a value has a key twice.
* `isPlain`: A value that is neither a number nor has parts.
* `Equals`: Equality as a relation.
* `Reordered`: A value with fields of objects in it in another order.
* `Interchangeable`: Values that equality does not tell apart.

## Theorems

* `equal_array_iff`, `equal_object_iff`: Equality place by place.
* `equal_induction`: Induction over two equal values.
* `equal_symm`, `equal_trans`, `equal_self_iff`: The laws of equality.
* `Reordered.interchangeable`: The order of fields is left out.
* `typeName_of_equal`, `isTruthy_of_equal`, `text_of_equal`, `compare_of_equal`: What equal values share.
* `equality_laws`: All of this for any three values.
-/

namespace FieldLang

namespace Value

/-- No object in a value, at whatever depth, has a key twice. -/
def WellKeyed (v : Value) : Prop :=
  ∀ w ∈ v.parts, w.hasUniqueKeys = true

/-- Whether a value is the number that is none. -/
def isNaN : Value → Bool
  | .number x => x.isNaN
  | _ => false

/-- Whether a value is neither a number nor an array or object. -/
def isPlain : Value → Bool
  | .number _ => false
  | .array _ => false
  | .object _ => false
  | _ => true

/-- Two values are equal. -/
def Equals (a b : Value) : Prop :=
  a.equal b = true

/-- The second value is the first with the fields of objects in it in another order. -/
inductive Reordered : Value → Value → Prop
  | refl (v) : Reordered v v
  | fields {fields others} (hkeys : (Keyed.keys fields).Nodup) (hperm : fields.Perm others) :
      Reordered (.object fields) (.object others)
  | inArray {before after v w} (h : Reordered v w) :
      Reordered (.array (before ++ v :: after)) (.array (before ++ w :: after))
  | inObject {before after key v w} (h : Reordered v w) :
      Reordered (.object (before ++ (key, v) :: after)) (.object (before ++ (key, w) :: after))
  | trans {u v w} (huv : Reordered u v) (hvw : Reordered v w) : Reordered u w

section Places

variable {R S T : Value → Value → Prop} {x y z : Option Value}

theorem exists_of_rel_some {v : Value} (h : Option.Rel R (some v) y) : ∃ w, y = some w ∧ R v w := by
  cases h with
  | some hvw => exact ⟨_, rfl, hvw⟩

/-- Of two places that hold related values or nothing, both hold one or none does. -/
theorem exists_iff_of_rel (h : Option.Rel R x y) : (∃ v, x = some v) ↔ ∃ w, y = some w := by
  cases h with
  | some hvw => simp
  | none => simp

theorem rel_imp (h : Option.Rel R x y) (hRS : ∀ v ∈ x, ∀ w ∈ y, R v w → S v w) :
    Option.Rel S x y := by
  cases h with
  | some hvw => exact .some (hRS _ rfl _ rfl hvw)
  | none => exact .none

theorem rel_swap (h : Option.Rel (fun v w => R w v) x y) : Option.Rel R y x := by
  cases h with
  | some hwv => exact .some hwv
  | none => exact .none

theorem rel_trans (hxy : Option.Rel R x y) (hyz : Option.Rel S y z)
    (hRST : ∀ u v, ∀ w ∈ z, R u v → S v w → T u w) : Option.Rel T x z := by
  cases hxy with
  | some huv =>
      cases hyz with
      | some hvw => exact .some (hRST _ _ _ rfl huv hvw)
  | none =>
      cases hyz with
      | none => exact .none

theorem rel_self_iff : Option.Rel R x x ↔ ∀ v ∈ x, R v v := by
  cases x with
  | none => exact iff_of_true .none nofun
  | some v =>
      constructor
      · intro h w hw
        cases hw
        cases h with
        | some hv => exact hv
      · exact fun h => .some (h v rfl)

/-- What related values share is the same at both places. -/
theorem map_eq_of_rel {α : Type} {f : Value → α} (h : Option.Rel (fun v w => f v = f w) x y) :
    x.map f = y.map f := by
  cases h with
  | some hvw => exact congrArg some hvw
  | none => rfl

end Places

section Parts

variable {p : Value → Prop}

/-- What holds at every depth of an array. -/
theorem forall_parts_array {items : List Value} :
    (∀ w ∈ (array items).parts, p w) ↔ p (.array items) ∧ ∀ v ∈ items, ∀ w ∈ v.parts, p w := by
  have hitems : (∀ w ∈ partsItems items, p w) ↔ ∀ v ∈ items, ∀ w ∈ v.parts, p w := by
    induction items with
    | nil => simp [partsItems]
    | cons v vs ih => rw [partsItems, List.forall_mem_append, List.forall_mem_cons, ih]
  rw [parts, List.forall_mem_cons, hitems]

/-- What holds at every depth of an object. -/
theorem forall_parts_object {fields : List (String × Value)} :
    (∀ w ∈ (object fields).parts, p w) ↔
      p (.object fields) ∧ ∀ field ∈ fields, ∀ w ∈ field.2.parts, p w := by
  have hfields : (∀ w ∈ partsFields fields, p w) ↔ ∀ field ∈ fields, ∀ w ∈ field.2.parts, p w := by
    induction fields with
    | nil => simp [partsFields]
    | cons field fields ih => rw [partsFields, List.forall_mem_append, List.forall_mem_cons, ih]
  rw [parts, List.forall_mem_cons, hfields]

theorem WellKeyed.item {items : List Value} (h : WellKeyed (.array items)) {position : Nat}
    {v : Value} (hv : items[position]? = some v) : WellKeyed v :=
  (forall_parts_array.mp h).2 v (List.mem_of_getElem? hv)

theorem WellKeyed.nodup {fields : List (String × Value)} (h : WellKeyed (.object fields)) :
    (Keyed.keys fields).Nodup :=
  of_decide_eq_true (forall_parts_object.mp h).1

theorem WellKeyed.field {fields : List (String × Value)} (h : WellKeyed (.object fields))
    {key : String} {v : Value} (hv : Keyed.get? key fields = some v) : WellKeyed v :=
  (forall_parts_object.mp h).2 (key, v) (Keyed.mem_of_get? hv)

end Parts

section Forms

/-- Arrays are equal if they hold equal values at each position. -/
theorem equal_array_iff {items others : List Value} :
    (array items).equal (.array others) = true ↔
      ∀ position : Nat, Option.Rel Equals items[position]? others[position]? := by
  rw [equal]
  -- The lists go in step, and the longer one has a position where the other has none.
  induction items generalizing others with
  | nil =>
      cases others with
      | nil => exact iff_of_true rfl fun position => .none
      | cons w ws => exact iff_of_false nofun fun h => nomatch h 0
  | cons v vs ih =>
      cases others with
      | nil => exact iff_of_false nofun fun h => nomatch h 0
      | cons w ws =>
          rw [equalLists, Bool.and_eq_true, ih]
          constructor
          · rintro ⟨hfirst, hrest⟩ position
            cases position with
            | zero => exact .some hfirst
            | succ position => exact hrest position
          · intro h
            have hfirst : Option.Rel Equals (some v) (some w) := h 0
            cases hfirst with
            | some hvw => exact ⟨hvw, fun position => h (position + 1)⟩

/-- Fields match if each is found under its key, and equal. -/
theorem matchFields_iff {fields others : List (String × Value)} :
    matchFields fields others = true ↔
      ∀ field ∈ fields, ∃ w, Keyed.get? field.1 others = some w ∧ Equals field.2 w := by
  induction fields with
  | nil => simp [matchFields]
  | cons field fields ih =>
      rw [matchFields, Bool.and_eq_true, ih, List.forall_mem_cons]
      refine and_congr_left fun _ => ?_
      cases hfound : Keyed.get? field.1 others with
      | none => simp
      | some w => simp [Equals]

/-- Objects are equal if they hold equal values under each key. -/
theorem equal_object_iff {fields others : List (String × Value)} (hfields : (Keyed.keys fields).Nodup)
    (hothers : (Keyed.keys others).Nodup) :
    (object fields).equal (.object others) = true ↔
      ∀ key, Option.Rel Equals (Keyed.get? key fields) (Keyed.get? key others) := by
  have hlength : ∀ table : Keyed Value, (Keyed.keys table).length = table.length := by
    intro table
    exact List.length_map ..
  rw [equal, Bool.and_eq_true, beq_iff_eq, matchFields_iff]
  constructor
  · rintro ⟨hcount, hmatch⟩ key
    -- The keys of the first object are among those of the second, and as many, so they are all of them.
    have hsubset : Keyed.keys fields ⊆ Keyed.keys others := by
      intro k hk
      obtain ⟨v, hv⟩ := Keyed.mem_keys_iff.mp hk
      obtain ⟨w, hw, -⟩ := hmatch _ (Keyed.mem_of_get? hv)
      exact Keyed.mem_keys_iff.mpr ⟨w, hw⟩
    have hperm : (Keyed.keys fields).Perm (Keyed.keys others) := by
      refine (List.subperm_of_subset hfields hsubset).perm_of_length_le ?_
      rw [hlength, hlength, hcount]
    cases hv : Keyed.get? key fields with
    | some v =>
        obtain ⟨w, hw, hequal⟩ := hmatch _ (Keyed.mem_of_get? hv)
        rw [hw]
        exact .some hequal
    | none =>
        have hnot : key ∉ Keyed.keys others := by
          intro hmem
          obtain ⟨v, hsome⟩ := Keyed.mem_keys_iff.mp (hperm.symm.subset hmem)
          rw [hv] at hsome
          cases hsome
        rw [Keyed.get?_of_not_mem_keys hnot]
        exact .none
  · intro h
    -- Under each key both or neither have a content, so the keys are the same and equally many.
    have hmem : ∀ key, key ∈ Keyed.keys fields ↔ key ∈ Keyed.keys others := by
      intro key
      rw [Keyed.mem_keys_iff, Keyed.mem_keys_iff]
      exact exists_iff_of_rel (h key)
    refine ⟨?_, fun field hfield => ?_⟩
    · rw [← hlength, ← hlength]
      exact ((List.perm_ext_iff_of_nodup hfields hothers).mpr hmem).length_eq
    · have hkey := h field.1
      rw [Keyed.get?_of_mem hfields hfield] at hkey
      exact exists_of_rel_some hkey

end Forms

section Inversion

variable {b : Value}

/-- Only the value itself equals one that is neither a number nor has parts. -/
theorem eq_of_isPlain {a : Value} (ha : a.isPlain = true) (h : Equals a b) : b = a := by
  unfold Equals at h
  cases a with
  | number | array | object => cases ha
  | null | undefined => cases b <;> first | rfl | cases h
  | bool | string | function =>
      cases b <;> first
      | cases h
      | exact congrArg _ (eq_of_beq h).symm

theorem equal_of_isPlain {v : Value} (hv : v.isPlain = true) : Equals v v := by
  cases v with
  | number | array | object => cases hv
  | null | undefined => rfl
  | bool | string | function => exact beq_self_eq_true _

theorem exists_number {x : Float} (h : Equals (.number x) b) : ∃ y, b = .number y ∧ (x == y) = true := by
  cases b with
  | number y => exact ⟨y, rfl, h⟩
  | _ => cases h

theorem exists_array {items : List Value} (h : Equals (.array items) b) : ∃ others, b = .array others := by
  cases b with
  | array others => exact ⟨others, rfl⟩
  | _ => cases h

theorem exists_object {fields : List (String × Value)} (h : Equals (.object fields) b) :
    ∃ others, b = .object others := by
  cases b with
  | object others => exact ⟨others, rfl⟩
  | _ => cases h

/-- Induction over two equal values. Plain values are the same, numbers are equal as numbers, arrays
    have the property at each position and objects under each key. -/
@[elab_as_elim]
theorem equal_induction {motive : Value → Value → Prop}
    (plain : ∀ v, v.isPlain = true → motive v v)
    (number : ∀ x y, (x == y) = true → motive (.number x) (.number y))
    (array : ∀ items others, (∀ position : Nat, Option.Rel motive items[position]? others[position]?) →
      motive (.array items) (.array others))
    (object : ∀ fields others, (Keyed.keys fields).Nodup → (Keyed.keys others).Nodup →
      (∀ key, Option.Rel motive (Keyed.get? key fields) (Keyed.get? key others)) →
      motive (.object fields) (.object others))
    {a b : Value} (ha : WellKeyed a) (hb : WellKeyed b) (h : Equals a b) : motive a b := by
  -- The first value is taken apart, and equality gives the second one the same form.
  induction a using Value.induction generalizing b with
  | array items ih =>
      obtain ⟨others, rfl⟩ := exists_array h
      refine array items others fun position => rel_imp (equal_array_iff.mp h position) ?_
      intro v hv w hw hvw
      exact ih v (List.mem_of_getElem? hv) (ha.item hv) (hb.item hw) hvw
  | object fields ih =>
      obtain ⟨others, rfl⟩ := exists_object h
      refine object fields others ha.nodup hb.nodup fun key =>
        rel_imp ((equal_object_iff ha.nodup hb.nodup).mp h key) ?_
      intro v hv w hw hvw
      exact ih _ (Keyed.mem_of_get? hv) (ha.field hv) (hb.field hw) hvw
  | number x =>
      obtain ⟨y, rfl, hxy⟩ := exists_number h
      exact number x y hxy
  | _ =>
      obtain rfl := eq_of_isPlain rfl h
      exact plain _ rfl

end Inversion

section Laws

variable {a b c : Value}

/-- Equality does not depend on which value comes first. -/
theorem equal_symm (ha : WellKeyed a) (hb : WellKeyed b) (h : Equals a b) : Equals b a := by
  refine equal_induction (motive := fun a b => Equals b a) ?_ ?_ ?_ ?_ ha hb h
  · exact fun v hv => equal_of_isPlain hv
  · exact fun x y hxy => BEq.symm hxy
  · exact fun items others h => equal_array_iff.mpr fun position => rel_swap (h position)
  · exact fun fields others hfields hothers h =>
      (equal_object_iff hothers hfields).mpr fun key => rel_swap (h key)

/-- Two values that equal a third are equal. -/
theorem equal_trans (ha : WellKeyed a) (hb : WellKeyed b) (hc : WellKeyed c)
    (hab : Equals a b) (hbc : Equals b c) : Equals a c := by
  -- The third value is general in the induction over the first two.
  revert c
  refine equal_induction (motive := fun a b => ∀ {c}, WellKeyed c → Equals b c → Equals a c)
    ?_ ?_ ?_ ?_ ha hb hab
  · exact fun v hv c hc h => h
  · intro x y hxy c hc h
    obtain ⟨z, rfl, hyz⟩ := exists_number h
    exact BEq.trans hxy hyz
  · intro items others ih c hc h
    obtain ⟨thirds, rfl⟩ := exists_array h
    refine equal_array_iff.mpr fun position =>
      rel_trans (ih position) (equal_array_iff.mp h position) ?_
    exact fun u v w hw huv hvw => huv (hc.item hw) hvw
  · intro fields others hfields hothers ih c hc h
    obtain ⟨thirds, rfl⟩ := exists_object h
    refine (equal_object_iff hfields hc.nodup).mpr fun key =>
      rel_trans (ih key) ((equal_object_iff hothers hc.nodup).mp h key) ?_
    exact fun u v w hw huv hvw => huv (hc.field hw) hvw

/-- A value equals itself just if nothing in it is a number that is none. -/
theorem equal_self_iff (ha : WellKeyed a) :
    Equals a a ↔ ∀ w ∈ a.parts, w.isNaN = false := by
  -- Only numbers can differ from themselves; arrays and objects pass the question on to what they
  -- hold.
  induction a using Value.induction with
  | array items ih =>
      rw [forall_parts_array, Equals, equal_array_iff]
      simp only [rel_self_iff, isNaN, true_and]
      constructor
      · intro h v hv
        obtain ⟨position, hposition⟩ := List.mem_iff_getElem?.mp hv
        exact (ih v hv (ha.item hposition)).mp (h position v hposition)
      · intro h position v hv
        have hmem := List.mem_of_getElem? hv
        exact (ih v hmem (ha.item hv)).mpr (h v hmem)
  | object fields ih =>
      rw [forall_parts_object, Equals, equal_object_iff ha.nodup ha.nodup]
      simp only [rel_self_iff, isNaN, true_and]
      constructor
      · intro h field hfield
        have hfound := Keyed.get?_of_mem ha.nodup hfield
        exact (ih field hfield (ha.field hfound)).mp (h field.1 field.2 hfound)
      · intro h key v hv
        have hmem := Keyed.mem_of_get? hv
        exact (ih _ hmem (ha.field hv)).mpr (h _ hmem)
  | number x =>
      have hself : Equals (.number x) (.number x) ↔ x ≠ Float.nan := Float.beq_self_iff
      rw [hself]
      simp [parts, isNaN, Float.isNaN_eq_decide_eq_nan]
  | _ => exact iff_of_true (equal_of_isPlain rfl) (by simp [parts, isNaN])

end Laws

section Order

variable {v w : Value}

/-- Two values that every value equals, or differs from, together. -/
def Interchangeable (v w : Value) : Prop :=
  ∀ c : Value, v.equal c = w.equal c ∧ c.equal v = c.equal w

/-- Objects with the same fields in another order are interchangeable. -/
theorem interchangeable_of_perm {fields others : List (String × Value)}
    (hkeys : (Keyed.keys fields).Nodup) (hperm : fields.Perm others) :
    Interchangeable (.object fields) (.object others) := by
  intro c
  cases c with
  | object thirds =>
      simp only [equal, hperm.length_eq]
      constructor
      · congr 1
        rw [Bool.eq_iff_iff, matchFields_iff, matchFields_iff]
        exact ⟨fun h field hfield => h field (hperm.symm.subset hfield),
          fun h field hfield => h field (hperm.subset hfield)⟩
      · congr 1
        rw [Bool.eq_iff_iff, matchFields_iff, matchFields_iff]
        simp only [Keyed.get?_of_perm hkeys hperm]
  | _ => exact ⟨rfl, rfl⟩

/-- An element may be replaced by one that is interchangeable with it. -/
theorem Interchangeable.inArray (h : Interchangeable v w) (before after : List Value) :
    Interchangeable (.array (before ++ v :: after)) (.array (before ++ w :: after)) := by
  intro c
  cases c with
  | array others =>
      simp only [equal]
      induction before generalizing others with
      | nil =>
          cases others with
          | nil => exact ⟨rfl, rfl⟩
          | cons u us => simp only [List.nil_append, equalLists, (h u).1, (h u).2, and_self]
      | cons first before ih =>
          cases others with
          | nil => exact ⟨rfl, rfl⟩
          | cons u us => simp only [List.cons_append, equalLists, (ih us).1, (ih us).2, and_self]
  | _ => exact ⟨rfl, rfl⟩

/-- The content of a field may be replaced by one that is interchangeable with it. -/
theorem Interchangeable.inObject (h : Interchangeable v w) (before after : List (String × Value))
    (key : String) :
    Interchangeable (.object (before ++ (key, v) :: after)) (.object (before ++ (key, w) :: after)) := by
  intro c
  cases c with
  | object others =>
      simp only [equal, List.length_append, List.length_cons]
      constructor
      · congr 1
        rw [Bool.eq_iff_iff, matchFields_iff, matchFields_iff]
        simp only [List.forall_mem_append, List.forall_mem_cons, Equals, (h _).1]
      · congr 1
        rw [Bool.eq_iff_iff, matchFields_iff, matchFields_iff]
        refine forall₂_congr fun field hfield => ?_
        -- Only what is under the key of the field can make a difference.
        obtain heq | ⟨hv, hw⟩ := Keyed.get?_replace before after key field.1 v w
        · rw [heq]
        · simp only [hv, hw, Option.some.injEq, exists_eq_left', Equals, (h field.2).2]
  | _ => exact ⟨rfl, rfl⟩

/-- The order of the fields of objects, at whatever depth, does not matter to equality. -/
theorem Reordered.interchangeable (h : Reordered v w) : Interchangeable v w := by
  induction h with
  | refl v => exact fun c => ⟨rfl, rfl⟩
  | fields hkeys hperm => exact interchangeable_of_perm hkeys hperm
  | inArray _ ih => exact ih.inArray _ _
  | inObject _ ih => exact ih.inObject _ _ _
  | trans _ _ ihuv ihvw => exact fun c => ⟨(ihuv c).1.trans (ihvw c).1, (ihuv c).2.trans (ihvw c).2⟩

end Order

section Sharing

variable {a b : Value}

/-- Numbers that are equal are the same or zeros. -/
theorem eq_or_zeros {x y : Float} (h : (x == y) = true) :
    x = y ∨ x = 0 ∧ y = -0 ∨ x = -0 ∧ y = 0 :=
  (Float.beq_iff_ne_nan_and_eq.mp h).2.2

/-- Equal numbers are shown alike, as the zeros are. -/
theorem numberText_of_beq {x y : Float} (h : (x == y) = true) : Number.text x = Number.text y := by
  obtain rfl | ⟨rfl, rfl⟩ | ⟨rfl, rfl⟩ := eq_or_zeros h
  · rfl
  · rfl
  · rfl

theorem isTruthy_of_beq {x y : Float} (h : (x == y) = true) :
    (number x).isTruthy = (number y).isTruthy := by
  obtain rfl | ⟨rfl, rfl⟩ | ⟨rfl, rfl⟩ := eq_or_zeros h
  · rfl
  · rfl
  · rfl

/-- Neither of two equal numbers comes before the other. -/
theorem compareNumbers_of_beq {x y : Float} (h : (x == y) = true) :
    Arrays.compareNumbers x y = .eq := by
  have hcompare : x.toModel.unpack.compare y.toModel.unpack = some .eq := beq_iff_eq.mp h
  have hless : ¬ x < y := by
    rw [Number.lt_iff_compare, hcompare]
    exact nofun
  have hmore : ¬ y < x := by
    rw [Number.lt_iff_compare, ← Number.compare_eq_gt_iff, hcompare]
    exact nofun
  rw [Arrays.compareNumbers, if_neg hless, if_neg hmore]

theorem texts_eq_map (items : List Value) :
    texts items = items.map fun v => if v.isNullish then "" else v.text := by
  induction items with
  | nil => rfl
  | cons v vs ih => rw [texts, ih, List.map_cons]

section

variable (ha : WellKeyed a) (hb : WellKeyed b) (h : Equals a b)
include ha hb h

theorem typeName_of_equal : a.typeName = b.typeName := by
  refine equal_induction (motive := fun a b => a.typeName = b.typeName) ?_ ?_ ?_ ?_ ha hb h
  · exact fun v hv => rfl
  · exact fun x y hxy => rfl
  · exact fun items others h => rfl
  · exact fun fields others hfields hothers h => rfl

theorem isTruthy_of_equal : a.isTruthy = b.isTruthy := by
  refine equal_induction (motive := fun a b => a.isTruthy = b.isTruthy) ?_ ?_ ?_ ?_ ha hb h
  · exact fun v hv => rfl
  · exact fun x y hxy => isTruthy_of_beq hxy
  · exact fun items others h => rfl
  · exact fun fields others hfields hothers h => rfl

/-- Equal values have the same text. -/
theorem text_of_equal : a.text = b.text := by
  -- In the text of an array nullish elements are left out, so these must be alike as well.
  suffices hboth : a.text = b.text ∧ a.isNullish = b.isNullish from hboth.1
  refine equal_induction (motive := fun a b => a.text = b.text ∧ a.isNullish = b.isNullish)
    ?_ ?_ ?_ ?_ ha hb h
  · exact fun v hv => ⟨rfl, rfl⟩
  · exact fun x y hxy => ⟨numberText_of_beq hxy, rfl⟩
  · intro items others ih
    have htexts : texts items = texts others := by
      rw [texts_eq_map, texts_eq_map]
      refine List.ext_getElem? fun position => ?_
      rw [List.getElem?_map, List.getElem?_map]
      refine map_eq_of_rel (rel_imp (ih position) fun v hv w hw hvw => ?_)
      rw [hvw.1, hvw.2]
    refine ⟨?_, rfl⟩
    rw [text, text, htexts]
  · exact fun fields others hfields hothers h => ⟨rfl, rfl⟩

/-- The default order puts neither of two equal values first. -/
theorem compare_of_equal : Arrays.compare a b = .eq := by
  obtain ⟨x, rfl⟩ | htag := Arrays.eq_number_or a
  · obtain ⟨y, rfl, hxy⟩ := exists_number h
    exact compareNumbers_of_beq hxy
  · rw [Arrays.compare_eq_text (.inl htag), text_of_equal ha hb h]
    exact compare_eq_iff_eq.mpr rfl

end

end Sharing

/-- Equality of values whose objects have each key once is symmetric and transitive, and a value equals
    itself just if nothing in it, at whatever depth, is a number that is none. It does not depend on the
    order of the fields of objects. And equal values have the same type, truth and text, and the default
    order does not tell them apart. -/
theorem equality_laws (a b c : Value) (ha : WellKeyed a) (hb : WellKeyed b)
    (hc : WellKeyed c) :
    (a.equal b = true → b.equal a = true) ∧
      (a.equal b = true → b.equal c = true → a.equal c = true) ∧
      (a.equal a = true ↔ ∀ w ∈ a.parts, w.isNaN = false) ∧
      (∀ a', Reordered a a' → a.equal b = a'.equal b ∧ b.equal a = b.equal a') ∧
      (a.equal b = true → a.typeName = b.typeName ∧ a.isTruthy = b.isTruthy ∧ a.text = b.text ∧
        Arrays.compare a b = .eq) := by
  refine ⟨equal_symm ha hb, equal_trans ha hb hc, equal_self_iff ha,
    fun a' h => h.interchangeable b, fun h => ?_⟩
  exact ⟨typeName_of_equal ha hb h, isTruthy_of_equal ha hb h, text_of_equal ha hb h,
    compare_of_equal ha hb h⟩

/-- An article with its price, a tag and no stock. -/
def article : Value :=
  .object [("price", .object [("net", .number 10), ("tax", .number 0)]),
    ("tags", .array [.string "new", .null])]

/-- The article written down in another order, with a negative zero. -/
def rewritten : Value :=
  .object [("tags", .array [.string "new", .null]),
    ("price", .object [("tax", .number (-0)), ("net", .number 10)])]

/-- The article equals what is written of it in another order, and each of them equals itself. -/
theorem article_equals_rewritten :
    WellKeyed article ∧ WellKeyed rewritten ∧ article.equal rewritten = true ∧
      rewritten.equal article = true ∧ article.equal article = true ∧ article.text = rewritten.text := by
  have harticle : WellKeyed article := by
    unfold WellKeyed
    decide
  have hrewritten : WellKeyed rewritten := by
    unfold WellKeyed
    decide
  have hequal : article.equal rewritten = true := by decide +kernel
  obtain ⟨hsymm, htrans, -, -, hshare⟩ :=
    equality_laws article rewritten article harticle hrewritten harticle
  exact ⟨harticle, hrewritten, hequal, hsymm hequal, htrans hequal (hsymm hequal), (hshare hequal).2.2.1⟩

end Value

end FieldLang

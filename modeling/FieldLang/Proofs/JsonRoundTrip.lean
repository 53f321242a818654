import FieldLang.Proofs.JsonNumbers
import FieldLang.Value.Equality

/-!
# Values through JSON

A value that is written as JSON text and read again. What comes back is `norm` of the value: JSON has no
place for undefined values, function references and numbers that are not finite, and they come back as
null; there is one zero; and all else is as it was, with the keys of objects in their order.

Reading and writing never see each other, so the document is the link. `Written` says of a document that a
text writes it by the grammar, that it stands for `norm` of the value, and that it is nested as deeply. Every
value has such a document, by induction on the value.

Two things are asked of the library. It reads the texts of the standard as what they write, and it reads back
the numbers of the value that it has written itself; integers need not be asked for. And two things are asked
of the value. No object in it has a key twice, which holds of every object built by insertion, and it is
nested less deeply than the reader's limit.

## Main definitions

* `parts`: A value and everything in it.
* `hasUniqueKeys`: A value, if it is an object, has each key once.
* `ReadsBack`: A value, if it is a number, is read back from the text that the library writes.
* `isLost`: JSON has no place for a value.
* `norm`: What JSON keeps of a value.
* `nesting`: How deeply arrays and objects are nested in a value.
* `Written`: A document is what a text of a value writes.

## Theorems

* `readsBack_exact`: The exact library reads back all numbers.
* `exists_written`: Every value writes a document.
* `toJson_norm`: What JSON keeps of a value is written as the value is.
* `norm_equal_iff`: What JSON keeps of a value equals the value just if nothing in it is lost.
* `json_round_trip`: A written value is read as what JSON keeps of it.
-/

namespace FieldLang

open Float.Model

namespace Value

mutual

/-- A value and all that is in it, at every depth. -/
def parts : Value → List Value
  | .array items => .array items :: partsItems items
  | .object fields => .object fields :: partsFields fields
  | v => [v]

/-- What is in the elements of an array. -/
def partsItems : List Value → List Value
  | [] => []
  | v :: vs => v.parts ++ partsItems vs

/-- What is in the fields of an object. -/
def partsFields : List (String × Value) → List Value
  | [] => []
  | (_, v) :: fields => v.parts ++ partsFields fields

end

/-- Whether a value, if it is an object, has each key once. -/
def hasUniqueKeys : Value → Bool
  | .object fields => decide (Keyed.keys fields).Nodup
  | _ => true

/-- A value is read back from the text that a library writes, if it is a number that JSON has a place for and
    that is no integer. -/
def ReadsBack (library : Json.Library) : Value → Prop
  | .number x => (x.isNaN || x.isInf) = false → Json.isInteger x = false → library.ReadsBack x
  | _ => True

/-- Whether JSON has no place for a value. -/
def isLost : Value → Bool
  | .undefined => true
  | .function _ => true
  | .number x => x.isNaN || x.isInf
  | _ => false

mutual

/-- What JSON keeps of a value: null for what it has no place for, and one zero. -/
def norm : Value → Value
  | .null => .null
  | .undefined => .null
  | .bool b => .bool b
  | .number x => if x.isNaN || x.isInf then .null else .number (if x == 0 then 0 else x)
  | .string s => .string s
  | .array items => .array (normItems items)
  | .object fields => .object (normFields fields)
  | .function _ => .null

/-- What JSON keeps of the elements of an array. -/
def normItems : List Value → List Value
  | [] => []
  | v :: vs => v.norm :: normItems vs

/-- What JSON keeps of the fields of an object. -/
def normFields : List (String × Value) → List (String × Value)
  | [] => []
  | (key, v) :: fields => (key, v.norm) :: normFields fields

end

mutual

/-- How deeply arrays and objects are nested in a value. -/
def nesting : Value → Nat
  | .array items => nestingItems items + 1
  | .object fields => nestingFields fields + 1
  | _ => 0

/-- How deeply arrays and objects are nested in the elements of an array. -/
def nestingItems : List Value → Nat
  | [] => 0
  | v :: vs => max v.nesting (nestingItems vs)

/-- How deeply arrays and objects are nested in the fields of an object. -/
def nestingFields : List (String × Value) → Nat
  | [] => 0
  | (_, v) :: fields => max v.nesting (nestingFields fields)

end

/-- The parts of the positive zero. -/
theorem unpack_zero : (0 : Float).toModel.unpack = .zero .positive := by
  have hbits : (0 : Float).toModel = .pack (.zero .positive) := by
    decide +kernel
  rw [hbits]
  exact UnpackedFloat.unpack_packedZero

/-- The exact library reads back all numbers. -/
theorem readsBack_exact (v : Value) : v.ReadsBack Json.exact := by
  cases v with
  | number x => exact Json.exact_readsBack
  | _ => trivial

section Written

variable [library : Json.Library]

/-- A number is not finite and written as null, or a zero and written as such, or any other. -/
theorem number_cases (x : Float) :
    (x.isNaN || x.isInf) = true ∧ Json.numberText x = "null" ∨
      (x.isNaN || x.isInf) = false ∧ (x == 0) = true ∧ Json.numberText x = "0" ∨
      (x.isNaN || x.isInf) = false ∧ (x == 0) = false ∧
        ∃ sign m e hm, x.toModel.unpack = .finite sign m e hm := by
  have hnan : x.isNaN = x.toModel.unpack.isNaN := rfl
  have hinf : x.isInf = x.toModel.unpack.isInf := rfl
  have hzero : (x == 0) = x.toModel.unpack.beq (.zero .positive) := by
    rw [← unpack_zero]
    rfl
  unfold Json.numberText
  rw [hnan, hinf, hzero]
  cases x.toModel.unpack with
  | notANumber => exact .inl ⟨rfl, rfl⟩
  | infinity sign => exact .inl ⟨rfl, rfl⟩
  | zero sign => exact .inr (.inl ⟨rfl, rfl, rfl⟩)
  | finite sign m e hm =>
      refine .inr (.inr ⟨rfl, ?_, sign, m, e, hm, rfl⟩)
      cases sign <;> rfl

/-- A document is what a text of a value writes, and it stands for what JSON keeps of the value. -/
structure Written (text : List Char) (v : Value) (d : Json.Document) : Prop where
  denotes : Json.Denotes text d
  value : Value.ofDocument? d = some v.norm
  nesting : d.nesting = v.nesting

/-- A numeral that is read as a finite number is what a text of the number writes. -/
theorem written_number {x : Float} {text : List Char} {n : Json.Numeral}
    (hx : (x.isNaN || x.isInf) = false) (hzero : (x == 0) = false) (htext : Json.NumeralText text n)
    (hvalue : Value.ofDocument? (.number n) = some (.number x)) :
    Written text (.number x) (.number n) := by
  refine ⟨.of_valueText (.number htext), ?_, rfl⟩
  rw [hvalue, norm, hx, hzero]
  rfl

/-- A zero is written by the digit. -/
theorem exists_written_zero {x : Float} (hx : (x.isNaN || x.isInf) = false) (hzero : (x == 0) = true) :
    ∃ d, Written "0".toList (.number x) d := by
  have htext : Json.NumeralText "0".toList ⟨false, ['0'], [], none⟩ :=
    @Json.NumeralText.intro false _ _ _ _ _ .zero .none .none
  refine ⟨_, .of_valueText (.number htext), ?_, rfl⟩
  rw [norm, hx, hzero]
  rfl

/-- The text of a number in JSON writes a document, if the number is read back from it. -/
theorem exists_written_toJson_number {x : Float} (h : (Value.number x).ReadsBack library) :
    ∃ d, Written (Value.number x).toJson.toList (.number x) d := by
  rw [toJson]
  obtain ⟨hlost, htext⟩ | ⟨hx, hzero, htext⟩ | ⟨hx, hzero, sign, m, e, hm, hunpack⟩ := number_cases x
  · refine ⟨.null, ?_, ?_, rfl⟩
    · rw [htext]
      exact .of_valueText .null
    · -- A number that JSON has no place for is written as null, and that is what is kept of it.
      rw [norm, if_pos hlost]
      rfl
  · rw [htext]
    exact exists_written_zero hx hzero
  · -- An integer needs nothing of the library, and any other number is the library's own text.
    cases hinteger : Json.isInteger x with
    | true =>
        obtain ⟨n, htext, hvalue⟩ := Json.exists_numeralText_integer hunpack hinteger
        exact ⟨_, written_number hx hzero htext hvalue⟩
    | false =>
        obtain ⟨n, htext, hvalue⟩ := h hx hinteger
        refine ⟨_, written_number hx hzero ?_ hvalue⟩
        rw [Json.numberText, hunpack]
        simp only [hinteger, Bool.false_eq_true, if_false]
        exact htext

section Styles

variable (style : Json.Style)

/-- The text of a string writes a document. -/
theorem exists_written_string (s : String) : ∃ d, Written (style.string s) (.string s) d := by
  obtain ⟨pieces, hstring, htext⟩ := Json.exists_stringText style s
  refine ⟨.string pieces, .of_valueText (.string hstring), ?_, rfl⟩
  rw [norm, Value.ofDocument?, htext]
  rfl

/-- The text of an array writes a document if the texts of its elements do. -/
theorem exists_written_array {texts : List (List Char)} {items : List Value}
    (h : List.Forall₂ (fun text v => ∃ d, Written text v d) texts items) :
    ∃ d, Written (style.array texts) (.array items) d := by
  -- The documents of the elements, with their values and their nesting, are found together.
  have hitems : ∃ ds, List.Forall₂ Json.Denotes texts ds ∧
      Value.ofDocuments? ds = some (normItems items) ∧
      Json.Document.nestingItems ds = nestingItems items := by
    induction h with
    | nil => exact ⟨[], .nil, rfl, rfl⟩
    | cons hd _ ih =>
        obtain ⟨d, hd⟩ := hd
        obtain ⟨ds, hdenotes, hvalues, hnesting⟩ := ih
        refine ⟨d :: ds, .cons hd.denotes hdenotes, ?_, ?_⟩
        · rw [normItems, Value.ofDocuments?, hd.value, hvalues]
          rfl
        · rw [nestingItems, Json.Document.nestingItems, hd.nesting, hnesting]
  obtain ⟨ds, hdenotes, hvalues, hnesting⟩ := hitems
  refine ⟨.array ds, .array style hdenotes, ?_, ?_⟩
  · rw [norm, Value.ofDocument?, hvalues]
    rfl
  · rw [nesting, ← hnesting]
    rfl

/-- The text of an object with each key once writes a document if the texts of its contents do. -/
theorem exists_written_object {texts : List (List Char)} {fields : List (String × Value)}
    (hkeys : (Keyed.keys fields).Nodup)
    (h : List.Forall₂ (fun text field => ∃ content d,
      text = style.member field.1 content ∧ Written content field.2 d) texts fields) :
    ∃ d, Written (style.object texts) (.object fields) d := by
  -- The members are inserted into the fields before them, so these are general in the induction.
  have hfields : ∃ ms, List.Forall₂ Json.MemberText texts ms ∧
      (∀ table, (Keyed.keys table ++ Keyed.keys fields).Nodup →
        Value.ofMembers? table ms = some (table ++ normFields fields)) ∧
      Json.Document.nestingMembers ms = nestingFields fields := by
    clear hkeys
    induction h with
    | nil => exact ⟨[], .nil, fun table _ => by rw [Value.ofMembers?, normFields, List.append_nil], rfl⟩
    | @cons text field texts fields hd _ ih =>
        obtain ⟨content, d, rfl, hd⟩ := hd
        obtain ⟨ms, hdenotes, hvalues, hnesting⟩ := ih
        obtain ⟨pieces, htext, hmember⟩ := Json.exists_memberText style field.1 hd.denotes
        refine ⟨(pieces, d) :: ms, .cons hmember hdenotes, fun table hkeys => ?_, ?_⟩
        · have hnew : field.1 ∉ Keyed.keys table := fun hmem =>
            (List.nodup_append.mp hkeys).2.2 field.1 hmem field.1 (by simp [Keyed.keys]) rfl
          rw [Value.ofMembers?, htext, hd.value]
          simp only [Option.bind_eq_bind, Option.bind_some]
          rw [Keyed.insert_of_not_mem_keys hnew, hvalues, normFields, List.append_assoc,
            List.singleton_append]
          simpa [Keyed.keys] using hkeys
        · rw [nestingFields, Json.Document.nestingMembers, hd.nesting, hnesting]
  obtain ⟨ms, hdenotes, hvalues, hnesting⟩ := hfields
  refine ⟨.object ms, .object style hdenotes, ?_, ?_⟩
  · rw [norm, Value.ofDocument?, hvalues [] hkeys]
    rfl
  · rw [nesting, ← hnesting]
    rfl

end Styles

/-- What is asked of a value and everything in it, so that its text writes a document. -/
def Writable (library : Json.Library) (v : Value) : Prop :=
  v.hasUniqueKeys = true ∧ v.ReadsBack library

mutual

/-- Every value writes a document, if no object in it has a key twice and its numbers are read back. -/
theorem exists_written : (v : Value) → (∀ w ∈ v.parts, w.Writable library) →
    ∃ d, Written v.toJson.toList v d
  | .null, _ => ⟨.null, .of_valueText .null, rfl, rfl⟩
  | .undefined, _ => ⟨.null, .of_valueText .null, rfl, rfl⟩
  | .function _, _ => ⟨.null, .of_valueText .null, rfl, rfl⟩
  | .bool b, _ => ⟨.bool b, .of_valueText (.bool b), rfl, rfl⟩
  | .number _, h => exists_written_toJson_number (h _ (List.mem_singleton_self _)).2
  | .string s, _ => by
    rw [toJson, Json.toList_quote]
    exact exists_written_string Json.compact s
  | .array items, h => by
    rw [parts, List.forall_mem_cons] at h
    have htext : (Value.array items).toJson.toList =
        Json.compact.array ((toJsonItems items).map String.toList) := by
      simp [toJson, String.toList_intercalate, Json.Style.array, Json.Style.separated, Json.compact]
    rw [htext]
    exact exists_written_array Json.compact (exists_written_items items h.2)
  | .object fields, h => by
    rw [parts, List.forall_mem_cons] at h
    have htext : (Value.object fields).toJson.toList =
        Json.compact.object ((toJsonFields fields).map String.toList) := by
      simp [toJson, String.toList_intercalate, Json.Style.object, Json.Style.separated, Json.compact]
    rw [htext]
    exact exists_written_object Json.compact (of_decide_eq_true h.1.1) (exists_written_fields fields h.2)

/-- The elements of an array write documents. -/
theorem exists_written_items : (items : List Value) →
    (∀ w ∈ partsItems items, w.Writable library) →
    List.Forall₂ (fun text v => ∃ d, Written text v d) ((toJsonItems items).map String.toList) items
  | [], _ => .nil
  | v :: vs, h => by
    rw [partsItems, List.forall_mem_append] at h
    exact .cons (exists_written v h.1) (exists_written_items vs h.2)

/-- The fields of an object write members. -/
theorem exists_written_fields : (fields : List (String × Value)) →
    (∀ w ∈ partsFields fields, w.Writable library) →
    List.Forall₂ (fun text field => ∃ content d,
      text = Json.compact.member field.1 content ∧ Written content field.2 d)
      ((toJsonFields fields).map String.toList) fields
  | [], _ => .nil
  | (key, v) :: fields, h => by
    rw [partsFields, List.forall_mem_append] at h
    obtain ⟨d, hd⟩ := exists_written v h.1
    exact .cons ⟨_, d, Json.toList_member key v.toJson, hd⟩ (exists_written_fields fields h.2)

end

mutual

/-- What JSON keeps of a value is written as the value is. -/
theorem toJson_norm : (v : Value) → v.norm.toJson = v.toJson
  | .null => rfl
  | .undefined => rfl
  | .function _ => rfl
  | .bool _ => rfl
  | .number x => by
    obtain ⟨hlost, htext⟩ | ⟨hkept, hzero, htext⟩ | ⟨hkept, hzero, -⟩ := number_cases x
    · rw [norm, if_pos hlost, toJson, toJson, htext]
    · have hpositive : Json.numberText 0 = "0" := by
        rw [Json.numberText, unpack_zero]
      rw [norm, hkept, hzero, toJson, htext]
      exact hpositive
    · rw [norm, hkept, hzero]
      rfl
  | .string _ => rfl
  | .array items => by rw [norm, toJson, toJsonItems_normItems, toJson]
  | .object fields => by rw [norm, toJson, toJsonFields_normFields, toJson]

theorem toJsonItems_normItems : (items : List Value) →
    toJsonItems (normItems items) = toJsonItems items
  | [] => rfl
  | v :: vs => by rw [normItems, toJsonItems, toJson_norm v, toJsonItems_normItems vs, toJsonItems]

theorem toJsonFields_normFields : (fields : List (String × Value)) →
    toJsonFields (normFields fields) = toJsonFields fields
  | [] => rfl
  | (key, v) :: fields => by
    rw [normFields, toJsonFields, toJson_norm v, toJsonFields_normFields fields, toJsonFields]

end

end Written

/-- JSON drops no field. -/
theorem length_normFields (fields : List (String × Value)) :
    (normFields fields).length = fields.length := by
  induction fields with
  | nil => rfl
  | cons field fields ih => rw [normFields, List.length_cons, List.length_cons, ih]

/-- A finite number equals what JSON keeps of it, although the zeros are different doubles. -/
theorem number_equal {x : Float} (hx : (x.isNaN || x.isInf) = false) :
    ((if x == 0 then 0 else x) == x) = true := by
  split
  · rename_i hzero
    exact BEq.symm hzero
  · rw [Bool.or_eq_false_iff, Float.isNaN_eq_decide_eq_nan, decide_eq_false_iff_not] at hx
    exact Float.beq_self_iff.mpr hx.1

mutual

/-- What JSON keeps of a value equals the value just if nothing in it is lost. -/
theorem norm_equal_iff : (v : Value) → (∀ w ∈ v.parts, w.hasUniqueKeys = true) →
    (v.norm.equal v = true ↔ ∀ w ∈ v.parts, w.isLost = false)
  | .null, _ => by simp [norm, equal, parts, isLost]
  | .undefined, _ => by simp [norm, equal, parts, isLost]
  | .function _, _ => by simp [norm, equal, parts, isLost]
  | .bool _, _ => by simp [norm, equal, parts, isLost]
  | .string _, _ => by simp [norm, equal, parts, isLost]
  | .number x, _ => by
    simp only [parts, List.mem_singleton, forall_eq, isLost, norm]
    cases hx : x.isNaN || x.isInf with
    | true => simp only [if_true, equal, reduceCtorEq]
    | false => simp only [Bool.false_eq_true, if_false, equal, number_equal hx]
  | .array items, h => by
    rw [parts, List.forall_mem_cons] at h ⊢
    rw [norm, equal, normItems_equal_iff items h.2]
    simp [isLost]
  | .object fields, h => by
    rw [parts, List.forall_mem_cons] at h ⊢
    -- A field is found under its own key, as no other has that key.
    have hkeys : (Keyed.keys fields).Nodup := of_decide_eq_true h.1
    rw [norm, equal, Bool.and_eq_true, length_normFields,
      normFields_match_iff fields h.2 fun p hp => Keyed.get?_of_mem hkeys hp]
    simp [isLost]

theorem normItems_equal_iff : (items : List Value) →
    (∀ w ∈ partsItems items, w.hasUniqueKeys = true) →
    (equalLists (normItems items) items = true ↔ ∀ w ∈ partsItems items, w.isLost = false)
  | [], _ => by simp [normItems, equalLists, partsItems]
  | v :: vs, h => by
    rw [partsItems, List.forall_mem_append] at h ⊢
    rw [normItems, equalLists, Bool.and_eq_true, norm_equal_iff v h.1, normItems_equal_iff vs h.2]

theorem normFields_match_iff {others : List (String × Value)} : (fields : List (String × Value)) →
    (∀ w ∈ partsFields fields, w.hasUniqueKeys = true) →
    (∀ p ∈ fields, Keyed.get? p.1 others = some p.2) →
    (matchFields (normFields fields) others = true ↔ ∀ w ∈ partsFields fields, w.isLost = false)
  | [], _, _ => by simp [normFields, matchFields, partsFields]
  | (key, v) :: fields, h, hothers => by
    rw [partsFields, List.forall_mem_append] at h ⊢
    rw [List.forall_mem_cons] at hothers
    rw [normFields, matchFields, hothers.1, Bool.and_eq_true]
    simp only
    rw [norm_equal_iff v h.1, normFields_match_iff fields h.2 hothers.2]

end

section RoundTrip

variable [library : Json.Library] (htexts : library.ReadsTexts)
include htexts

/-- A text that writes a document which is not nested too deeply is read as what JSON keeps of the value. -/
theorem Written.read? {text : String} {v : Value} {d : Json.Document} (h : Written text.toList v d)
    (hnesting : v.nesting < 128) : Value.read? text = some v.norm := by
  have hshallow : d.shallow? = some d := by
    rw [Json.Document.shallow?, h.nesting]
    exact if_pos (Nat.le_of_lt_succ hnesting)
  rw [Value.read?, htexts text d h.denotes]
  simp only [Option.bind_eq_bind, Option.bind_some, hshallow, h.value]

/-- A written value is read as what JSON keeps of it: what it has no place for has become null and the
    negative zero the positive one, at every depth, and all else is unchanged. So it is written as the
    same text again, and it equals the value just if nothing in the value was lost. -/
theorem json_round_trip (v : Value) (hkeys : ∀ w ∈ v.parts, w.hasUniqueKeys = true)
    (hnumbers : ∀ w ∈ v.parts, w.ReadsBack library) (hnesting : v.nesting < 128) :
    Value.read? v.toJson = some v.norm ∧ v.norm.toJson = v.toJson ∧
      (v.norm.equal v = true ↔ ∀ w ∈ v.parts, w.isLost = false) := by
  obtain ⟨d, hd⟩ := exists_written v fun w hw => ⟨hkeys w hw, hnumbers w hw⟩
  exact ⟨hd.read? htexts hnesting, toJson_norm v, norm_equal_iff v hkeys⟩

end RoundTrip

/-- An order with an absent entry, a negative zero, an integer past the 64 bits and a fraction. -/
def order : Value :=
  .object [("lines", .array [.undefined, .number (-0), .number 9223372036854775808]),
    ("note", .string "tab\t"), ("discount", .object [("rate", .number 0.1)])]

/-- Through the exact library the order is read back with the absent entry lost and everything else kept. -/
theorem order_round_trip :
    Json.exact.ReadsTexts ∧ (∀ w ∈ order.parts, w.hasUniqueKeys = true) ∧
      (∀ w ∈ order.parts, w.ReadsBack Json.exact) ∧ order.nesting < 128 ∧
      Value.read? order.toJson = some order.norm ∧ order.norm.toJson = order.toJson ∧
      (order.norm.equal order = true ↔ ∀ w ∈ order.parts, w.isLost = false) := by
  have hkeys : ∀ w ∈ order.parts, w.hasUniqueKeys = true := by decide
  have hnumbers : ∀ w ∈ order.parts, w.ReadsBack Json.exact := fun w _ => readsBack_exact w
  have hnesting : order.nesting < 128 := by decide
  exact ⟨Json.exact_readsTexts, hkeys, hnumbers, hnesting,
    json_round_trip Json.exact_readsTexts order hkeys hnumbers hnesting⟩

end Value

end FieldLang

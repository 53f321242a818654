import FieldLang.Proofs.EqualValues
import FieldLang.Proofs.NumberText

/-!
# The Written Form as JSON

The written form of a value shows it to a reader. It is put together apart from the JSON writer, with
blanks after commas and colons, numbers that never have an exponent, and another table of escapes.
Still it is JSON: if JSON has a place for everything in the value, the written form is a JSON text, and
a JSON library that reads numerals as the nearest numbers reads it as the value.

The grammar of JSON says which document a text writes, and it knows neither of the two writers. So one
induction on the value does for both parts: the written form writes a document by the grammar, and the document
stands for the value. What a library makes of such a document has been said where values go through JSON; it
does not matter there which writer has written it.

The equality of values leaves out the order of fields. So the order of the keys is a statement of its
own, about the `outline` of a value, in which nothing is left but arrays, objects and their keys.

## Main definitions

* `outline`: The arrays and objects of a value, with their keys.

## Theorems

* `exists_written_text`: The text that a number is shown as writes a document.
* `exists_written_render`: The written form writes a document.
* `outline_norm`: JSON keeps all arrays and objects and the order of their keys.
* `written_form_is_json`: The written form is JSON and is read as a value that equals the one written.
-/

namespace FieldLang

namespace Value

section Render

theorem toList_quoted (s : String) : (Text.quoted s).toList = Json.spaced.string s := by
  simp [Text.quoted, Json.Style.string, Json.spaced]

theorem renderItems_eq_map (items : List Value) : renderItems items = items.map render := by
  induction items with
  | nil => rfl
  | cons v vs ih => rw [renderItems, ih, List.map_cons]

theorem renderFields_eq_map (fields : List (String × Value)) :
    renderFields fields =
      fields.map fun field => Text.quoted field.1 ++ ": " ++ field.2.render := by
  induction fields with
  | nil => rfl
  | cons field fields ih => rw [renderFields, ih, List.map_cons]

theorem toList_render_array (items : List Value) :
    (array items).render.toList = Json.spaced.array (items.map fun v => v.render.toList) := by
  rw [render, renderItems_eq_map]
  simp [String.toList_intercalate, Json.Style.array, Json.Style.separated, Json.spaced,
    Function.comp_def]

theorem toList_render_object (fields : List (String × Value)) :
    (object fields).render.toList = Json.spaced.object
      (fields.map fun field => Json.spaced.member field.1 field.2.render.toList) := by
  rw [render, renderFields_eq_map]
  simp [String.toList_intercalate, toList_quoted, Json.Style.object, Json.Style.separated,
    Json.Style.member, Json.spaced, Function.comp_def]

variable [library : Json.Library] (hnearest : library.ReadsNearest)
include hnearest

/-- The text that a finite number is shown as writes a document. -/
theorem exists_written_text {x : Float} (hx : (x.isNaN || x.isInf) = false) :
    ∃ d, Written (Number.text x).toList (.number x) d := by
  obtain ⟨hlost, -⟩ | ⟨-, hzero, -⟩ | ⟨-, hzero, sign, m, e, hm, hunpack⟩ := number_cases x
  · rw [hx] at hlost
    cases hlost
  · -- Equal numbers are shown alike, so the sign of a zero does not show.
    have htext : Number.text 0 = "0" := by
      rw [Number.text, Number.chars, unpack_zero]
    rw [numberText_of_beq hzero, htext]
    exact exists_written_zero hx hzero
  · obtain ⟨n, htext, hsign, hmem⟩ := Number.exists_numeralText_chars hunpack
    refine ⟨_, written_number hx hzero ?_ (Json.ofDocument?_of_mem hunpack hsign hmem hnearest)⟩
    rw [Number.text, String.toList_ofList]
    exact htext

/-- The written form of a value writes a document if JSON has a place for everything in it. -/
theorem exists_written_render {v : Value} (hkeys : WellKeyed v)
    (hkept : ∀ w ∈ v.parts, w.isLost = false) : ∃ d, Written v.render.toList v d := by
  -- The form is written with blanks, which makes no difference to what it denotes.
  induction v using Value.induction with
  | null => exact ⟨.null, .of_valueText .null, rfl, rfl⟩
  | bool b => exact ⟨.bool b, .of_valueText (.bool b), rfl, rfl⟩
  | undefined | function name => cases hkept _ (List.mem_singleton_self _)
  | number x => exact exists_written_text hnearest (hkept _ (List.mem_singleton_self _))
  | string s =>
      rw [render, toList_quoted]
      exact exists_written_string Json.spaced s
  | array items ih =>
      rw [toList_render_array]
      refine exists_written_array Json.spaced (List.forall₂_map_left_iff.mpr ?_)
      refine List.forall₂_same.mpr fun v hv => ?_
      exact ih v hv ((forall_parts_array.mp hkeys).2 v hv) ((forall_parts_array.mp hkept).2 v hv)
  | object fields ih =>
      rw [toList_render_object]
      refine exists_written_object Json.spaced hkeys.nodup (List.forall₂_map_left_iff.mpr ?_)
      refine List.forall₂_same.mpr fun field hfield => ?_
      obtain ⟨d, hd⟩ := ih field hfield ((forall_parts_object.mp hkeys).2 field hfield)
        ((forall_parts_object.mp hkept).2 field hfield)
      exact ⟨_, d, rfl, hd⟩

end Render

mutual

/-- The arrays and objects of a value with their keys, and null for everything else. -/
def outline : Value → Value
  | .array items => .array (outlineItems items)
  | .object fields => .object (outlineFields fields)
  | _ => .null

/-- The outlines of the elements of an array. -/
def outlineItems : List Value → List Value
  | [] => []
  | v :: vs => v.outline :: outlineItems vs

/-- The outlines of the fields of an object, under their keys. -/
def outlineFields : List (String × Value) → List (String × Value)
  | [] => []
  | (key, v) :: fields => (key, v.outline) :: outlineFields fields

end

mutual

/-- JSON keeps all arrays and objects, and the keys of the objects in their order. -/
theorem outline_norm : (v : Value) → v.norm.outline = v.outline
  | .null => rfl
  | .undefined => rfl
  | .function _ => rfl
  | .bool _ => rfl
  | .number x => by
    rw [norm]
    split <;> rfl
  | .string _ => rfl
  | .array items => by rw [norm, outline, outlineItems_normItems, outline]
  | .object fields => by rw [norm, outline, outlineFields_normFields, outline]

theorem outlineItems_normItems : (items : List Value) →
    outlineItems (normItems items) = outlineItems items
  | [] => rfl
  | v :: vs => by rw [normItems, outlineItems, outline_norm v, outlineItems_normItems vs, outlineItems]

theorem outlineFields_normFields : (fields : List (String × Value)) →
    outlineFields (normFields fields) = outlineFields fields
  | [] => rfl
  | (key, v) :: fields => by
    rw [normFields, outlineFields, outline_norm v, outlineFields_normFields fields, outlineFields]

end

/-- The written form of a value without undefined values, function references and numbers that are not
    finite is JSON. With a library that reads the texts of the standard, and numerals as the nearest numbers,
    it is read as a value that equals the one written, with the same keys in the same order in every object.
    If the library also reads back the numbers that it writes itself, the JSON text of the value is read as the
    same. -/
theorem written_form_is_json [library : Json.Library] (htexts : library.ReadsTexts)
    (hnearest : library.ReadsNearest) (v : Value) (hkeys : WellKeyed v)
    (hkept : ∀ w ∈ v.parts, w.isLost = false) (hnesting : v.nesting < 128) :
    Json.IsText v.render.toList ∧
      ∃ w, Value.read? v.render = some w ∧
        ((∀ u ∈ v.parts, u.ReadsBack library) → Value.read? v.toJson = some w) ∧
        w.equal v = true ∧ w.outline = v.outline := by
  obtain ⟨d, hd⟩ := exists_written_render hnearest hkeys hkept
  refine ⟨⟨d, hd.denotes⟩, v.norm, hd.read? htexts hnesting, fun hnumbers => ?_,
    (norm_equal_iff v hkeys).mpr hkept, outline_norm v⟩
  exact (json_round_trip htexts v hkeys hnumbers hnesting).1

/-- A reading with a negative zero, a fraction, control characters and parts that are empty. -/
def reading : Value :=
  .object [("unit \x22°C\x22\n", .string "\x01\\ \t"), ("empty", .array [.object [], .array []]),
    ("values", .array [.number (-0), .number 0.1, .null, .bool true])]

/-- The reading is JSON as it is written, and through the exact library it is read back. -/
theorem reading_read_back :
    Json.exact.ReadsTexts ∧ Json.exact.ReadsNearest ∧
      WellKeyed reading ∧ (∀ w ∈ reading.parts, w.isLost = false) ∧ reading.nesting < 128 ∧
      Json.IsText reading.render.toList ∧
        ∃ w, Value.read? reading.render = some w ∧ Value.read? reading.toJson = some w ∧
          w.equal reading = true ∧ w.outline = reading.outline := by
  have hkeys : WellKeyed reading := by
    unfold WellKeyed
    decide
  have hkept : ∀ w ∈ reading.parts, w.isLost = false := by decide +kernel
  have hnesting : reading.nesting < 128 := by decide
  obtain ⟨htext, w, hread, hjson, hequal⟩ := written_form_is_json Json.exact_readsTexts
    Json.exact_readsNearest reading hkeys hkept hnesting
  exact ⟨Json.exact_readsTexts, Json.exact_readsNearest, hkeys, hkept, hnesting, htext, w, hread,
    hjson fun u _ => readsBack_exact u, hequal⟩

end Value

end FieldLang

import FieldLang.Proofs.EqualValues

/-!
# Two Ways of Decoding JSON

A text can be decoded to a value at once, or to data that still tells integers from floating-point numbers
and then to a value. Both ways give the same value, with the keys of every object in the same order, and both
fail on the same texts.

That numbers are converted alike is one lemma, `ofNumber_eq`. How a numeral is read does not matter for it,
nor how texts are taken apart, so all of this holds for every JSON library and nothing is asked of it.

What could keep the two ways apart are members with one key. The first way puts the contents of members into a table
when they are values, the second when they are data, and converts the table. An insertion only looks at keys,
so it may as well come after the conversion. That is `toFields_insert`, and it carries the induction on the
members of an object.

The conversion of a table goes over the fields as they stand. It may as well insert them one by one into a
new table, because no key occurs twice in a decoded object. That is worth knowing of values in general: what
is said of values whose objects have each key once is said of every value that was read.

Which documents have a value is a matter of their leaves. A number may be out of range and a string may have
half a surrogate pair; nothing else can go wrong in a document that is not nested too deeply.

## Main definitions

* `Json.collect`: The value of JSON data, with the fields of objects inserted one by one.
* `Json.Document.HasMeaning`: The numbers of a document are in range and its strings are texts.

## Theorems

* `Json.ofNumber_eq`: The two ways on a number.
* `Json.toFields_insert`: Inserting a field and converting the fields.
* `Json.ofDocument?_eq_map`: The two ways on a document.
* `Value.wellKeyed_of_ofDocument?`: A decoded value has no key twice in an object.
* `Json.collect_eq_toValue`: The conversion may insert the fields one by one.
* `Json.exists_ofDocument?_iff`: Which documents have a value.
* `decoders_agree`: The two ways on a text.
-/

namespace FieldLang

namespace Json

mutual

/-- The value of JSON data, where the fields of an object are inserted one by one. -/
def collect : Json → Value
  | .null => .null
  | .bool b => .bool b
  | .number n => .number (n.asFloat?.getD FieldLang.Number.nan)
  | .string s => .string s
  | .array items => .array (collectItems items)
  | .object fields => .object (Keyed.ofPairs (collectFields fields))

/-- The values of the elements of an array. -/
def collectItems : List Json → List Value
  | [] => []
  | j :: js => j.collect :: collectItems js

/-- The values of the fields of an object, before they are inserted. -/
def collectFields : List (String × Json) → List (String × Value)
  | [] => []
  | (key, j) :: rest => (key, j.collect) :: collectFields rest

end

/-- A number has the same value at once and as the floating-point number that data have for it. -/
theorem ofNumber_eq (n : Number) :
    Value.ofNumber n = .number (n.asFloat?.getD FieldLang.Number.nan) := by
  cases n <;> rfl

/-- A field may be inserted before the fields are converted or after. -/
theorem toFields_insert (key : String) (j : Json) (fields : Keyed Json) :
    toFields (Keyed.insert key j fields) = Keyed.insert key j.toValue (toFields fields) := by
  induction fields with
  | nil => rfl
  | cons field fields ih =>
      rw [Keyed.insert, toFields, Keyed.insert]
      split
      · rfl
      · rw [toFields, ih]

section Documents

variable [library : Library]

mutual

/-- Every number in a document is in range, and every string in it, keys included, is a text. -/
def Document.HasMeaning : Document → Prop
  | .null => True
  | .bool _ => True
  | .number n => ∃ number, n.number? = some number
  | .string pieces => ∃ s, text? pieces = some s
  | .array items => Document.ItemsHaveMeaning items
  | .object members => Document.MembersHaveMeaning members

/-- The same for the elements of an array. -/
def Document.ItemsHaveMeaning : List Document → Prop
  | [] => True
  | d :: ds => d.HasMeaning ∧ Document.ItemsHaveMeaning ds

/-- The same for the members of an object. -/
def Document.MembersHaveMeaning : List (List Piece × Document) → Prop
  | [] => True
  | (key, d) :: rest => (∃ s, text? key = some s) ∧ d.HasMeaning ∧ Document.MembersHaveMeaning rest

end

mutual

/-- The value of a document is the value of its data. -/
theorem ofDocument?_eq_map : (d : Document) → Value.ofDocument? d = (ofDocument? d).map toValue
  | .null => rfl
  | .bool _ => rfl
  | .number n => by
    rw [Value.ofDocument?, ofDocument?]
    cases n.number? with
    | none => rfl
    | some number => exact congrArg some (ofNumber_eq number)
  | .string pieces => by
    rw [Value.ofDocument?, ofDocument?]
    cases text? pieces <;> rfl
  | .array items => by
    rw [Value.ofDocument?, ofDocument?, ofDocuments?_eq_map items]
    cases ofDocuments? items <;> rfl
  | .object ms => by
    -- The members go into an object that is empty at first; the fields in it are converted all the
    -- time.
    have hmembers : Value.ofMembers? [] ms = (ofMembers? [] ms).map toFields := ofMembers?_eq_map ms []
    rw [Value.ofDocument?, ofDocument?, hmembers]
    cases ofMembers? [] ms <;> rfl

theorem ofDocuments?_eq_map : (ds : List Document) →
    Value.ofDocuments? ds = (ofDocuments? ds).map toValues
  | [] => rfl
  | d :: ds => by
    rw [Value.ofDocuments?, ofDocuments?, ofDocument?_eq_map d, ofDocuments?_eq_map ds]
    cases ofDocument? d with
    | none => rfl
    | some j => cases ofDocuments? ds <;> rfl

/-- Whatever fields are there already, the members are inserted into them in both ways. -/
theorem ofMembers?_eq_map : (ms : List (List Piece × Document)) → (fields : Keyed Json) →
    Value.ofMembers? (toFields fields) ms = (ofMembers? fields ms).map toFields
  | [], _ => rfl
  | (key, d) :: ms, fields => by
    rw [Value.ofMembers?, ofMembers?, ofDocument?_eq_map d]
    cases text? key with
    | none => rfl
    | some s =>
        cases ofDocument? d with
        | none => rfl
        | some j =>
            simp only [Option.map_some, Option.bind_eq_bind, Option.bind_some]
            rw [← toFields_insert, ofMembers?_eq_map ms]

end

end Documents

end Json

namespace Value

open Json (Document Piece)

variable [library : Json.Library]

mutual

/-- A decoded value has no key twice in an object. -/
theorem wellKeyed_of_ofDocument? : (d : Document) → ∀ {v : Value}, ofDocument? d = some v → WellKeyed v
  | .null, _, h => by
    cases h
    simp [WellKeyed, parts, hasUniqueKeys]
  | .bool _, _, h => by
    cases h
    simp [WellKeyed, parts, hasUniqueKeys]
  | .number n, _, h => by
    rw [ofDocument?] at h
    obtain ⟨number, -, h⟩ := Option.bind_eq_some_iff.mp h
    cases h
    rw [Json.ofNumber_eq]
    simp [WellKeyed, parts, hasUniqueKeys]
  | .string pieces, _, h => by
    rw [ofDocument?] at h
    obtain ⟨s, -, h⟩ := Option.bind_eq_some_iff.mp h
    cases h
    simp [WellKeyed, parts, hasUniqueKeys]
  | .array items, _, h => by
    rw [ofDocument?] at h
    obtain ⟨vs, hvs, h⟩ := Option.bind_eq_some_iff.mp h
    cases h
    exact forall_parts_array.mpr ⟨rfl, wellKeyed_of_ofDocuments? items hvs⟩
  | .object ms, _, h => by
    rw [ofDocument?] at h
    obtain ⟨fields, hfields, h⟩ := Option.bind_eq_some_iff.mp h
    cases h
    -- Insertion keeps keys apart, starting from none.
    obtain ⟨hkeys, hcontents⟩ := wellKeyed_of_ofMembers? ms hfields (by simp [Keyed.keys]) nofun
    exact forall_parts_object.mpr ⟨decide_eq_true hkeys, hcontents⟩

theorem wellKeyed_of_ofDocuments? : (ds : List Document) → ∀ {vs : List Value},
    ofDocuments? ds = some vs → ∀ v ∈ vs, WellKeyed v
  | [], _, h => by
    cases h
    exact nofun
  | d :: ds, _, h => by
    rw [ofDocuments?] at h
    obtain ⟨v, hv, h⟩ := Option.bind_eq_some_iff.mp h
    obtain ⟨vs, hvs, h⟩ := Option.bind_eq_some_iff.mp h
    cases h
    exact List.forall_mem_cons.mpr ⟨wellKeyed_of_ofDocument? d hv, wellKeyed_of_ofDocuments? ds hvs⟩

/-- Inserting members keeps the keys different. -/
theorem wellKeyed_of_ofMembers? : (ms : List (List Piece × Document)) → ∀ {table fields : Keyed Value},
    ofMembers? table ms = some fields → (Keyed.keys table).Nodup → (∀ p ∈ table, WellKeyed p.2) →
    (Keyed.keys fields).Nodup ∧ ∀ p ∈ fields, WellKeyed p.2
  | [], _, _, h, hkeys, hcontents => by
    cases h
    exact ⟨hkeys, hcontents⟩
  | (key, d) :: ms, table, _, h, hkeys, hcontents => by
    rw [ofMembers?] at h
    obtain ⟨s, -, h⟩ := Option.bind_eq_some_iff.mp h
    obtain ⟨v, hv, h⟩ := Option.bind_eq_some_iff.mp h
    refine wellKeyed_of_ofMembers? ms h (Keyed.nodup_keys_insert hkeys s v) fun p hp => ?_
    obtain rfl | hp := Keyed.eq_or_mem_of_mem_insert hp
    · exact wellKeyed_of_ofDocument? d hv
    · exact hcontents p hp

end

end Value

namespace Json

mutual

/-- Where no key occurs twice, the fields may be inserted one by one. -/
theorem collect_eq_toValue : (j : Json) → j.toValue.WellKeyed → j.collect = j.toValue
  | .null, _ => rfl
  | .bool _, _ => rfl
  | .number _, _ => rfl
  | .string _, _ => rfl
  | .array items, h => by
    rw [collect, toValue, collectItems_eq_toValues items (Value.forall_parts_array.mp h).2]
  | .object fields, h => by
    have hkeys : (Keyed.keys (toFields fields)).Nodup := h.nodup
    rw [collect, toValue, collectFields_eq_toFields fields (Value.forall_parts_object.mp h).2,
      Keyed.ofPairs_of_nodup hkeys]

theorem collectItems_eq_toValues : (items : List Json) → (∀ v ∈ toValues items, v.WellKeyed) →
    collectItems items = toValues items
  | [], _ => rfl
  | j :: js, h => by
    rw [toValues, List.forall_mem_cons] at h
    rw [collectItems, collect_eq_toValue j h.1, collectItems_eq_toValues js h.2, toValues]

theorem collectFields_eq_toFields : (fields : List (String × Json)) →
    (∀ p ∈ toFields fields, p.2.WellKeyed) → collectFields fields = toFields fields
  | [], _ => rfl
  | (key, j) :: fields, h => by
    rw [toFields, List.forall_mem_cons] at h
    rw [collectFields, collect_eq_toValue j h.1, collectFields_eq_toFields fields h.2, toFields]

end

section Meaning

variable [library : Library]

mutual

/-- A document has a value just if its leaves have a meaning. -/
theorem exists_ofDocument?_iff : (d : Document) →
    ((∃ v, Value.ofDocument? d = some v) ↔ d.HasMeaning)
  | .null => iff_of_true ⟨_, rfl⟩ trivial
  | .bool _ => iff_of_true ⟨_, rfl⟩ trivial
  | .number n => by
    rw [Value.ofDocument?, Document.HasMeaning]
    cases n.number? <;> simp
  | .string pieces => by
    rw [Value.ofDocument?, Document.HasMeaning]
    cases text? pieces <;> simp
  | .array items => by
    rw [Value.ofDocument?, Document.HasMeaning, ← exists_ofDocuments?_iff items]
    cases Value.ofDocuments? items <;> simp
  | .object ms => by
    rw [Value.ofDocument?, Document.HasMeaning, ← exists_ofMembers?_iff ms []]
    cases Value.ofMembers? [] ms <;> simp

theorem exists_ofDocuments?_iff : (ds : List Document) →
    ((∃ vs, Value.ofDocuments? ds = some vs) ↔ Document.ItemsHaveMeaning ds)
  | [] => iff_of_true ⟨_, rfl⟩ trivial
  | d :: ds => by
    rw [Value.ofDocuments?, Document.ItemsHaveMeaning, ← exists_ofDocument?_iff d,
      ← exists_ofDocuments?_iff ds]
    cases Value.ofDocument? d with
    | none => simp
    | some v => cases Value.ofDocuments? ds <;> simp

/-- What is inserted already has no part in whether the other members can be. -/
theorem exists_ofMembers?_iff : (ms : List (List Piece × Document)) → (table : Keyed Value) →
    ((∃ fields, Value.ofMembers? table ms = some fields) ↔ Document.MembersHaveMeaning ms)
  | [], _ => iff_of_true ⟨_, rfl⟩ trivial
  | (key, d) :: ms, table => by
    rw [Value.ofMembers?, Document.MembersHaveMeaning, ← exists_ofDocument?_iff d]
    cases text? key with
    | none => simp
    | some s =>
        cases Value.ofDocument? d with
        | none => simp
        | some v => simp [exists_ofMembers?_iff ms]

end

/-- A document that is not nested too deeply is decoded as it is. -/
theorem read?_of_shallow {text : String} {d : Document} (hd : library.document? text = some d)
    (hnesting : d.nesting < 128) : Value.read? text = Value.ofDocument? d := by
  have hshallow : d.shallow? = some d := if_pos (Nat.le_of_lt_succ hnesting)
  rw [Value.read?, hd]
  simp only [Option.bind_eq_bind, Option.bind_some, hshallow]

end Meaning

end Json

/-- Decoding a text at once gives the same value, and fails on the same texts, as decoding it to data and
    converting that, whether the conversion takes over the fields of objects or inserts them one by one into
    new ones. No key occurs twice in an object of the value. And of the documents that are nested fewer than
    128 levels, those have a value whose numbers are in range and whose strings are texts. This is so with every
    JSON library. -/
theorem decoders_agree [library : Json.Library] (text : String) :
    Value.read? text = (Json.read? text).map Json.toValue ∧
      Value.read? text = (Json.read? text).map Json.collect ∧
      (∀ v, Value.read? text = some v → v.WellKeyed) ∧
      ∀ d, library.document? text = some d → d.nesting < 128 →
        ((∃ v, Value.read? text = some v) ↔ d.HasMeaning) := by
  have hmap : Value.read? text = (Json.read? text).map Json.toValue := by
    unfold Value.read? Json.read?
    cases library.document? text with
    | none => rfl
    | some d =>
        -- Both refuse what is nested too deep, before they look at any number.
        cases hshallow : d.shallow? with
        | none => simp [hshallow]
        | some d => simp [hshallow, Json.ofDocument?_eq_map]
  have hkeyed : ∀ v, Value.read? text = some v → v.WellKeyed := by
    intro v hv
    obtain ⟨d, -, hv⟩ := Option.bind_eq_some_iff.mp hv
    obtain ⟨d, -, hv⟩ := Option.bind_eq_some_iff.mp hv
    exact Value.wellKeyed_of_ofDocument? d hv
  refine ⟨hmap, ?_, hkeyed, fun d hd hnesting => ?_⟩
  · rw [hmap] at hkeyed ⊢
    -- Inserting fields one by one takes them over unchanged where no key occurs twice.
    cases hjson : Json.read? text with
    | none => rfl
    | some j =>
        rw [hjson] at hkeyed
        exact congrArg some (Json.collect_eq_toValue j (hkeyed _ rfl)).symm
  · rw [Json.read?_of_shallow hd hnesting]
    exact Json.exists_ofDocument?_iff d

/-- An account in which a key is repeated, on both levels, with the integers at the ends of 64 bits. -/
def account : String :=
  "\x7b\"id\":18446744073709551615,\"of\":\x7b\"k\":\"a\",\"k\":\"b\"\x7d,\"id\":[-9223372036854775808]\x7d"

/-- The document that the account writes. -/
def accountDocument : Json.Document :=
  .object [([.char 'i', .char 'd'], .number ⟨false, "18446744073709551615".toList, [], none⟩),
    ([.char 'o', .char 'f'],
      .object [([.char 'k'], .string [.char 'a']), ([.char 'k'], .string [.char 'b'])]),
    ([.char 'i', .char 'd'], .array [.number ⟨true, "9223372036854775808".toList, [], none⟩])]

/-- Of the members with one key the last gives the content and the first the place, in both ways. -/
theorem account_decoded :
    Json.exact.document? account = some accountDocument ∧ accountDocument.nesting < 128 ∧
      accountDocument.HasMeaning ∧
      Value.read? account = some (.object [
        ("id", .array [.number (-Float.ofNat 9223372036854775808)]),
        ("of", .object [("k", .string "b")])]) ∧
      (Json.read? account).map Json.toValue = Value.read? account := by
  obtain ⟨hmap, -, -, hmeaning⟩ := decoders_agree account
  have hread : Json.exact.document? account = some accountDocument := by
    show Json.Document.read? account = some accountDocument
    cbv
  have hnesting : accountDocument.nesting < 128 := by decide
  have hvalue : Value.read? account = some (.object [
      ("id", .array [.number (-Float.ofNat 9223372036854775808)]),
      ("of", .object [("k", .string "b")])]) := by
    rw [Json.read?_of_shallow hread hnesting]
    rfl
  exact ⟨hread, hnesting, (hmeaning accountDocument hread hnesting).mp ⟨_, hvalue⟩, hvalue, hmap.symm⟩

end FieldLang

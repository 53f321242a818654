import FieldLang.Proofs.Nearest
import FieldLang.Proofs.NumeralForms

/-!
# Texts of Numbers

Which texts convert to a number as a whole, and to which. Apart from blanks at its ends such a text is
empty, or an infinity or a decimal numeral with an optional sign, or a hexadecimal integer.

The conversion reads hexadecimal integers as words: it takes a sign after the mark, and what does not
fit into 64 bits is no number. A grammar of numerals would have it otherwise, with digits only and of
any size. The forms are therefore stated for any kind of hexadecimal integer, and both kinds are given.

## Main definitions

* `IsHexDigit`, `HexDigits`: Hexadecimal digits.
* `TextForm`: The texts of numbers, given those of hexadecimal integers.
* `WordForm`: Hexadecimal integers as words with a sign.
* `PlainForm`: Hexadecimal integers without a sign, of any size.

## Theorems

* `ofHexadecimal_eq_iff`: A hexadecimal integer is read as a word.
* `ofTrimmedText_eq_iff`: A text without blanks at its ends is read.
* `texts_of_numbers`: The texts that convert to numbers.
-/

namespace FieldLang.Number

open Float.Model

/-- A hexadecimal digit, in either case. -/
def IsHexDigit (c : Char) : Prop :=
  c.isDigit = true ∨ ('a' ≤ c ∧ c ≤ 'f') ∨ ('A' ≤ c ∧ c ≤ 'F')

/-- Hexadecimal digits, at least one of them. -/
def HexDigits (ds : List Char) : Prop :=
  ds ≠ [] ∧ ∀ c ∈ ds, IsHexDigit c

/-- The texts of numbers without blanks at their ends, and the number that each is the text of, where
    `hexadecimal` tells what may follow the mark of a hexadecimal integer. -/
inductive TextForm (hexadecimal : List Char → Float → Prop) : List Char → Float → Prop
  | empty : TextForm hexadecimal [] 0
  | infinite {sign : List Char} {negative : Bool} (hsign : SignForm sign negative) :
      TextForm hexadecimal (sign ++ "Infinity".toList) (withSign negative infinity)
  | hexadecimal {mark : Char} {cs : List Char} {x : Float} (hmark : mark = 'x' ∨ mark = 'X')
      (hcs : hexadecimal cs x) : TextForm hexadecimal ('0' :: mark :: cs) x
  | numeral {sign cs : List Char} {negative : Bool} {n : Numeral} (hsign : SignForm sign negative)
      (hcs : NumeralForm cs n) : TextForm hexadecimal (sign ++ cs) (withSign negative n.value)

/-- The integer that hexadecimal digits write after a sign. -/
def signedInteger (negative : Bool) (ds : List Char) : Int :=
  if negative then -(natOfDigits 16 ds : Int) else natOfDigits 16 ds

/-- Hexadecimal digits with an optional sign, of an integer of 64 bits. -/
inductive WordForm : List Char → Float → Prop
  | intro {sign ds : List Char} {negative : Bool} (hsign : SignForm sign negative)
      (hds : HexDigits ds) (hlow : leastInt64 ≤ signedInteger negative ds)
      (hhigh : signedInteger negative ds ≤ greatestInt64) :
      WordForm (sign ++ ds) (Float.ofInt (signedInteger negative ds))

/-- Hexadecimal digits of an integer of any size, and the double nearest to it. -/
def PlainForm (ds : List Char) (x : Float) : Prop :=
  HexDigits ds ∧ IsNearest x (natOfDigits 16 ds)

section Hexadecimal

/-- The digits that are read in radix sixteen. -/
theorem isSome_digitIn?_iff {c : Char} : (digitIn? 16 c).isSome = true ↔ IsHexDigit c := by
  unfold digitIn? digitValue? IsHexDigit
  simp only [Char.isDigit, Char.isLower, Char.isUpper, Char.le_def, UInt32.le_iff_toNat_le]
  split_ifs with hdigit hlower hupper <;> simp at * <;> omega

theorem HexDigits.head_not_sign {ds : List Char} (h : HexDigits ds) :
    ∀ c ∈ ds.head?, c ≠ '+' ∧ c ≠ '-' := by
  obtain ⟨d, ds, rfl⟩ := List.exists_cons_of_ne_nil h.1
  have hd : (digitIn? 16 d).isSome = true := isSome_digitIn?_iff.mpr (h.2 d (by simp))
  intro c hc
  obtain rfl : d = c := by simpa using hc
  constructor
  · rintro rfl
    exact absurd hd (by decide)
  · rintro rfl
    exact absurd hd (by decide)

/-- The test for hexadecimal digits. -/
theorem hexDigits_iff {ds : List Char} :
    (ds.isEmpty || !ds.all fun c => (digitIn? 16 c).isSome) = false ↔ HexDigits ds := by
  simp [HexDigits, isSome_digitIn?_iff]

/-- A sign and hexadecimal digits are read as an integer, if it fits into a word. -/
theorem ofHexadecimal_append {sign ds : List Char} {negative : Bool} (hsign : SignForm sign negative)
    (hds : HexDigits ds) :
    ofHexadecimal (sign ++ ds) =
      if leastInt64 ≤ signedInteger negative ds ∧ signedInteger negative ds ≤ greatestInt64 then
        Float.ofInt (signedInteger negative ds)
      else nan := by
  unfold ofHexadecimal
  rw [scanSign_append hsign hds.head_not_sign]
  dsimp only
  rw [hexDigits_iff.mpr hds, if_neg (by decide)]
  rfl

/-- If what follows the sign is not hexadecimal digits to the end, nothing is read. -/
theorem ofHexadecimal_of_not_digits {cs : List Char} (hds : ¬ HexDigits (scanSign cs).2) :
    ofHexadecimal cs = nan := by
  unfold ofHexadecimal
  dsimp only
  rw [if_pos (by rwa [← hexDigits_iff, Bool.not_eq_false] at hds)]

/-- An integer of 64 bits is converted to the nearest double. -/
theorem isNearest_of_range {n : Int} (hlow : leastInt64 ≤ n) (hhigh : n ≤ greatestInt64) :
    IsNearest (Float.ofInt n) n := by
  unfold leastInt64 at hlow
  unfold greatestInt64 at hhigh
  exact isNearest_ofInt (by omega) (by omega)

/-- What follows the mark of a hexadecimal integer is read if it is a word with a sign. -/
theorem ofHexadecimal_eq_iff {cs : List Char} {x : Float} :
    ofHexadecimal cs = x ∧ x.isNaN = false ↔ WordForm cs x := by
  constructor
  · rintro ⟨rfl, hnumber⟩
    obtain ⟨sign, hsign, hcs⟩ := exists_sign cs
    by_cases hds : HexDigits (scanSign cs).2
    · rw [hcs, ofHexadecimal_append hsign hds] at hnumber ⊢
      split at hnumber
      · rename_i hrange
        rw [if_pos hrange]
        exact .intro hsign hds hrange.1 hrange.2
      · cases hnumber
    · rw [ofHexadecimal_of_not_digits hds] at hnumber
      cases hnumber
  · rintro ⟨hsign, hds, hlow, hhigh⟩
    rw [ofHexadecimal_append hsign hds, if_pos ⟨hlow, hhigh⟩]
    exact ⟨rfl, (isNearest_of_range hlow hhigh).isNaN⟩

end Hexadecimal

section Decimal

/-- The number of a text that is neither empty nor marked as hexadecimal. -/
def ofPlainText (cs : List Char) : Float :=
  if (scanSign cs).2 = "Infinity".toList then withSign (scanSign cs).1 infinity
  else
    match scanNumeral (scanSign cs).2 with
    | some (numeral, []) => withSign (scanSign cs).1 numeral.value
    | _ => nan

theorem isNaN_withSign (negative : Bool) (x : Float) : (withSign negative x).isNaN = x.isNaN := by
  cases negative with
  | false => rfl
  | true =>
      show (-x).toModel.unpack.isNaN = x.toModel.unpack.isNaN
      rw [unpack_neg]
      cases x.toModel.unpack <;> rfl

theorem Numeral.isNaN_value (n : Numeral) : n.value.isNaN = false :=
  isNaN_of_unsigned n.unsigned_value

/-- A numeral has no mark of a hexadecimal integer: the mark would end it. -/
theorem NumeralForm.ne_mark {cs ds : List Char} {n : Numeral} (h : NumeralForm cs n) {mark : Char}
    (hmark : mark = 'x' ∨ mark = 'X') : cs ≠ '0' :: mark :: ds := by
  rintro rfl
  have hscan := h.scanNumeral_eq
  obtain rfl | rfl := hmark <;> cases hscan

theorem ofPlainText_infinity {sign : List Char} {negative : Bool} (hsign : SignForm sign negative) :
    ofPlainText (sign ++ "Infinity".toList) = withSign negative infinity := by
  cases hsign <;> rfl

theorem ofPlainText_numeral {sign cs : List Char} {negative : Bool} {n : Numeral}
    (hsign : SignForm sign negative) (hcs : NumeralForm cs n) :
    ofPlainText (sign ++ cs) = withSign negative n.value := by
  have hne : cs ≠ "Infinity".toList := by
    rintro rfl
    cases hcs.scanNumeral_eq
  rw [ofPlainText, scanSign_append hsign hcs.head_not_sign, if_neg hne, hcs.scanNumeral_eq]

/-- What is neither empty nor marked as hexadecimal is an infinity or a numeral, with a sign. -/
theorem exists_of_ofPlainText {cs : List Char} (h : (ofPlainText cs).isNaN = false) :
    ∃ sign negative rest, SignForm sign negative ∧ cs = sign ++ rest ∧
      (rest = "Infinity".toList ∨ ∃ n, NumeralForm rest n) := by
  obtain ⟨sign, hsign, hcs⟩ := exists_sign cs
  refine ⟨sign, _, _, hsign, hcs, ?_⟩
  unfold ofPlainText at h
  split at h
  · rename_i hinfinity
    exact .inl hinfinity
  · split at h
    · rename_i n hscan
      exact .inr ⟨n, scanNumeral_eq_iff.mp hscan⟩
    · cases h

end Decimal

section Texts

/-- The number of a text without blanks at its ends. -/
def ofTrimmedText : List Char → Float
  | [] => 0
  | '0' :: 'x' :: ds => ofHexadecimal ds
  | '0' :: 'X' :: ds => ofHexadecimal ds
  | cs => ofPlainText cs

theorem ofText_eq (cs : List Char) : ofText cs = ofTrimmedText (Text.trim cs) :=
  rfl

theorem ofTrimmedText_of_mark {mark : Char} (hmark : mark = 'x' ∨ mark = 'X') (ds : List Char) :
    ofTrimmedText ('0' :: mark :: ds) = ofHexadecimal ds := by
  obtain rfl | rfl := hmark <;> rfl

theorem ofTrimmedText_of_plain {cs : List Char} (hne : cs ≠ [])
    (hmark : ∀ mark, mark = 'x' ∨ mark = 'X' → ∀ ds, cs ≠ '0' :: mark :: ds) :
    ofTrimmedText cs = ofPlainText cs := by
  unfold ofTrimmedText
  split
  · exact absurd rfl hne
  · exact absurd rfl (hmark 'x' (.inl rfl) _)
  · exact absurd rfl (hmark 'X' (.inr rfl) _)
  · rfl

/-- A text is read just if it has one of the forms, and as the number of that form. -/
theorem ofTrimmedText_eq_iff {cs : List Char} {x : Float} :
    ofTrimmedText cs = x ∧ x.isNaN = false ↔ TextForm WordForm cs x := by
  constructor
  · rintro ⟨rfl, hnumber⟩
    unfold ofTrimmedText at hnumber ⊢
    -- The first characters decide how a text is read: as empty, as hexadecimal, or as plain.
    split at hnumber
    · exact .empty
    · exact .hexadecimal (.inl rfl) (ofHexadecimal_eq_iff.mp ⟨rfl, hnumber⟩)
    · exact .hexadecimal (.inr rfl) (ofHexadecimal_eq_iff.mp ⟨rfl, hnumber⟩)
    · obtain ⟨sign, negative, rest, hsign, rfl, rfl | ⟨n, hn⟩⟩ := exists_of_ofPlainText hnumber
      · rw [ofPlainText_infinity hsign]
        exact .infinite hsign
      · rw [ofPlainText_numeral hsign hn]
        exact .numeral hsign hn
  · intro h
    cases h with
    | empty => exact ⟨rfl, rfl⟩
    | infinite hsign =>
        refine ⟨?_, (isNaN_withSign ..).trans rfl⟩
        cases hsign <;> rfl
    | hexadecimal hmark hcs =>
        rw [ofTrimmedText_of_mark hmark]
        exact ofHexadecimal_eq_iff.mpr hcs
    | @numeral sign cs negative n hsign hcs =>
        refine ⟨?_, (isNaN_withSign ..).trans n.isNaN_value⟩
        -- A numeral is neither empty nor does it start with a mark, so it is read as plain.
        rw [ofTrimmedText_of_plain ?_ ?_, ofPlainText_numeral hsign hcs]
        · intro hnil
          obtain rfl := (List.append_eq_nil_iff.mp hnil).2
          cases hcs.scanNumeral_eq
        · intro mark hmark ds heq
          cases hsign with
          | none => exact hcs.ne_mark hmark heq
          | plus => cases heq
          | minus => cases heq

end Texts

/-- The texts that convert to numbers. Without the blanks at its ends such a text is empty, or an infinity or
    a numeral with an optional sign, or the mark of a hexadecimal integer with a word after it, and what it
    converts to is the number of its form. Hexadecimal digits after an optional sign convert to the nearest
    double of the integer that they write, if it fits into 64 bits, and to no number if not. -/
theorem texts_of_numbers (cs : List Char) :
    ((ofText cs).isNaN = false ↔ ∃ x, TextForm WordForm (Text.trim cs) x) ∧
    (∀ x, TextForm WordForm (Text.trim cs) x → ofText cs = x) ∧
    ∀ (mark : Char) (sign ds : List Char) (negative : Bool), mark = 'x' ∨ mark = 'X' →
      SignForm sign negative → HexDigits ds → Text.trim cs = '0' :: mark :: (sign ++ ds) →
      if leastInt64 ≤ signedInteger negative ds ∧ signedInteger negative ds ≤ greatestInt64 then
        IsNearest (ofText cs) (signedInteger negative ds)
      else (ofText cs).isNaN = true := by
  rw [ofText_eq]
  refine ⟨?_, fun x hx => (ofTrimmedText_eq_iff.mpr hx).1, ?_⟩
  · constructor
    · exact fun hnumber => ⟨_, ofTrimmedText_eq_iff.mp ⟨rfl, hnumber⟩⟩
    · rintro ⟨x, hx⟩
      obtain ⟨rfl, hnumber⟩ := ofTrimmedText_eq_iff.mpr hx
      exact hnumber
  · intro mark sign ds negative hmark hsign hds htrim
    rw [htrim, ofTrimmedText_of_mark hmark, ofHexadecimal_append hsign hds]
    -- The word is an integer of 64 bits, which is rounded, or it is refused.
    split
    · rename_i hrange
      exact isNearest_of_range hrange.1 hrange.2
    · rfl

/-- Between blanks `0xfF` converts to 255, and `0x-8000000000000001` lies just out of range. -/
theorem two_hexadecimal_integers :
    IsNearest (ofText [' ', '0', 'x', 'f', 'F', '\n']) 255 ∧
      (ofText ("0x-8000000000000001".toList)).isNaN = true := by
  obtain ⟨-, -, hword⟩ := texts_of_numbers [' ', '0', 'x', 'f', 'F', '\n']
  have hnearest := hword 'x' [] ['f', 'F'] false (.inl rfl) .none (hexDigits_iff.mp rfl) rfl
  rw [if_pos (by decide)] at hnearest
  obtain ⟨-, -, hword⟩ := texts_of_numbers "0x-8000000000000001".toList
  have hbeyond := hword 'x' ['-'] "8000000000000001".toList true (.inl rfl) .minus
    (hexDigits_iff.mp (by decide)) (by decide)
  rw [if_neg (by decide)] at hbeyond
  exact ⟨hnearest, hbeyond⟩

/-- Read as words, hexadecimal integers are not plain ones: in `0x-1` a sign after the mark is accepted, and
    in `0xFFFFFFFFFFFFFFFF` an integer of 64 bits without one is not. -/
theorem words_are_not_plain :
    ((ofText ['0', 'x', '-', '1']).isNaN = false ∧
        ¬ ∃ x, TextForm PlainForm (Text.trim ['0', 'x', '-', '1']) x) ∧
      (ofText ('0' :: 'x' :: List.replicate 16 'F')).isNaN = true ∧
        ∃ x, TextForm PlainForm (Text.trim ('0' :: 'x' :: List.replicate 16 'F')) x := by
  refine ⟨⟨by decide +kernel, ?_⟩, by decide +kernel, ?_⟩
  · rintro ⟨x, h⟩
    rw [show Text.trim ['0', 'x', '-', '1'] = ['0', 'x', '-', '1'] from rfl] at h
    -- None of the forms fits the text.
    generalize hts : ['0', 'x', '-', '1'] = ts at h
    cases h with
    | empty => cases hts
    | infinite hsign => cases hsign <;> cases hts
    | hexadecimal hmark hcs =>
        cases hts
        exact absurd (isSome_digitIn?_iff.mpr (hcs.1.2 '-' (by simp))) (by decide)
    | numeral hsign hcs =>
        cases hsign with
        | none => exact hcs.ne_mark (.inl rfl) hts.symm
        | plus => cases hts
        | minus => cases hts
  · have hdigits : HexDigits (List.replicate 16 'F') := hexDigits_iff.mp (by decide)
    exact ⟨_, .hexadecimal (.inl rfl) ⟨hdigits, isNearest_ofNat (by decide)⟩⟩

end FieldLang.Number

import FieldLang.Json.Decode
import FieldLang.Json.Writer
import FieldLang.Proofs.Decimals
import FieldLang.Proofs.JsonReading
import FieldLang.Proofs.Numerals

/-!
# Numbers in JSON

What is asked of a JSON library so that numbers come back, and why the exact library has it.

Integers come back through every library, because they are written by all their digits and read before the
library is asked. The upper bound of 64 bits is no double, though. The comparison with it lets the power of
two above it pass, and the clamped integer is the one below. That one still lies in the interval of the power
of two and is rounded to it.

Other numbers come back only if the library reads what it has written as the number that it was. That is
asked of single numbers, because not every library does so for all of them. A library that reads every
numeral as the nearest number does so with the numerals of every text that lies in the interval of a number,
whoever has written it.

So it is enough to follow the magnitude of a numeral. The exact library writes digits without a point,
digits with a point among them, or one digit before the point with an exponent, and each of these is the text
of a numeral of the magnitude that was to be written.

## Main definitions

* `Library.ReadsTexts`: Every text of the standard is read as the document that it writes.
* `Library.ReadsBack`: The text of a number is read back as it.
* `Library.ReadsNearest`: Every numeral is read as the nearest number.
* `Numeral.magnitude`: The number that a numeral writes, without its sign.
* `Numeral.Writes`: A text is that of a numeral with a sign and a magnitude.

## Theorems

* `ofDocument?_of_integer?`: An integer in the interval of a double is read as that double.
* `ofDocument?_of_mem`: So is every numeral, if the library takes the nearest number.
* `exists_writes_decimalText`: The text of a decimal is that of a numeral of its value.
* `exists_integerText_eq`: The text of an integer lies in the interval of its double.
* `exact_readsTexts`, `exact_readsNearest`, `exact_readsBack`: What is asked of libraries holds of the exact
  one.
-/

namespace FieldLang.Json

open Float.Model
open Float.Model.UnpackedFloat (Sign)
open FieldLang.Number (Digits natOfDigits ofDecimal Canonical Span Decimal signed withSign)

namespace Library

variable (library : Library)

/-- Every text of the standard is read as the document that it writes. -/
def ReadsTexts : Prop :=
  ∀ text d, Denotes text.toList d → library.document? text = some d

/-- The text of a number is read back as it. -/
def ReadsBack (x : Float) : Prop :=
  ∃ n, NumeralText (library.floatText x).toList n ∧ Value.ofDocument? (.number n) = some (.number x)

/-- Every numeral that is in range is read as the nearest number, and no other is read. -/
def ReadsNearest : Prop :=
  ∀ n, library.float? n = n.nearest?

end Library

/-- The number that a numeral writes, without its sign. -/
def Numeral.magnitude (n : Numeral) : ℚ :=
  natOfDigits 10 (n.whole ++ n.fraction) * 10 ^ (n.power - n.fraction.length)

section Reading

variable {x : Float} {sign : Sign} {m : ℕ} {e : ℤ} {hm : 0 < m}
  (hx : x.toModel.unpack = .finite sign m e hm) {n : Numeral}
  (hsign : n.negative = (sign == .negative)) (hmem : (Span.of m e).Mem n.magnitude)

/-- A natural number is rounded as the decimal without an exponent is. -/
theorem ofNat_eq_ofDecimal (n : ℕ) : Float.ofNat n = ofDecimal n 0 :=
  rfl

include hx hsign hmem

/-- An integer in the interval of a double is that double as a value. -/
theorem ofNumber_of_integer? {number : Number} (h : n.integer? = some number) :
    Value.ofNumber number = .number x := by
  unfold Numeral.integer? at h
  split at h
  · rename_i hwhole
    rw [Bool.and_eq_true, List.isEmpty_iff, Option.isNone_iff_eq_none] at hwhole
    -- Without a fraction and an exponent the digits are the magnitude.
    have hmem' : (Span.of m e).Mem (natOfDigits 10 n.whole * 10 ^ (0 : ℤ)) := by
      simpa [Numeral.magnitude, Numeral.power, hwhole.1, hwhole.2] using hmem
    have hnat := Number.ofDecimal_eq_of_mem (Number.canonical_of_unpack hx) hmem'
    -- The sign decides between the two kinds of integers, and each comes back with it.
    rw [Number.eq_withSign hx, ← hsign, ← hnat, ← ofNat_eq_ofDecimal]
    simp only at h
    split at h
    · rename_i hnegative
      split at h
      · cases h
        rw [hnegative]
        rfl
      · cases h
    · rename_i hnegative
      split at h
      · cases h
        rw [Bool.not_eq_true] at hnegative
        rw [hnegative]
        rfl
      · cases h
  · cases h

/-- The nearest number of a numeral in the interval of a double is that double. -/
theorem nearest_eq : n.nearest = x := by
  rw [Number.eq_withSign hx, ← hsign]
  exact congrArg _ (Number.ofDecimal_eq_of_mem (Number.canonical_of_unpack hx) hmem)

theorem nearest?_eq : n.nearest? = some x := by
  have hfinite : x.isInf = false := by
    show x.toModel.unpack.isInf = false
    rw [hx]
    rfl
  rw [Numeral.nearest?, nearest_eq hx hsign hmem, hfinite]
  rfl

variable [library : Library]

/-- An integer in the interval of a double is read as that double by every library. -/
theorem ofDocument?_of_integer? (hinteger : n.integer?.isSome = true) :
    Value.ofDocument? (.number n) = some (.number x) := by
  obtain ⟨number, hnumber⟩ := Option.isSome_iff_exists.mp hinteger
  have hvalue := ofNumber_of_integer? hx hsign hmem hnumber
  rw [Value.ofDocument?, Numeral.number?, hnumber, ← hvalue]
  rfl

/-- A numeral in the interval of a double is read as that double, if the library takes the nearest. -/
theorem ofDocument?_of_mem (hnearest : library.ReadsNearest) :
    Value.ofDocument? (.number n) = some (.number x) := by
  -- Integers are none of the library's business, so only the others need what it promises.
  cases hinteger : n.integer? with
  | some number => exact ofDocument?_of_integer? hx hsign hmem (by rw [hinteger]; rfl)
  | none =>
      rw [Value.ofDocument?, Numeral.number?, hinteger, hnearest, nearest?_eq hx hsign hmem]
      rfl

end Reading

/-- A text is that of a numeral with a sign and a magnitude. -/
structure Numeral.Writes (n : Numeral) (negative : Bool) (cs : List Char) (r : ℚ) : Prop where
  text : NumeralText (signed negative cs) n
  negative_eq : n.negative = negative
  magnitude_eq : n.magnitude = r

section Notations

/-- Digits of which a zero is in front only if it is alone are those of an integer. -/
theorem wholeText_of_digits {ds : List Char} (hds : Digits ds)
    (hzero : ds.head? = some '0' → ds.length ≤ 1) : WholeText ds := by
  by_cases hhead : ds.head? = some '0'
  · have hlength := hzero hhead
    obtain ⟨rest, rfl⟩ := List.head?_eq_some_iff.mp hhead
    obtain rfl : rest = [] := by simpa using hlength
    exact .zero
  · exact .digits hds hhead

/-- Digits with zeros behind them are a numeral. -/
theorem writes_whole {n : ℕ} (hn : 0 < n) (k : ℕ) (negative : Bool) :
    Numeral.Writes ⟨negative, Text.decimal n ++ List.replicate k '0', [], none⟩ negative
      (Text.decimal n ++ List.replicate k '0') (n * 10 ^ k) := by
  have hdigits : ∀ c ∈ Text.decimal n ++ List.replicate k '0', c.isDigit = true := fun _ =>
    Number.isDigit_of_mem_shifted
  -- Zeros behind the digits leave the first one as it was, and the number is not zero.
  have hhead : (Text.decimal n ++ List.replicate k '0').head? ≠ some '0' := by
    have hsame : (Text.decimal n ++ List.replicate k '0').head? = (Text.decimal n).head? :=
      List.head?_append_of_ne_nil _ Nat.toDigits_ne_nil
    rw [hsame]
    exact Number.head?_decimal hn
  -- Each zero multiplies by ten.
  have hnat : natOfDigits 10 (Text.decimal n ++ List.replicate k '0') = 10 ^ k * n := by
    rw [Number.natOfDigits_eq hdigits, Nat.ofDigitChars_append, Nat.ofDigitChars_replicate_zero,
      ← Number.natOfDigits_eq fun _ => Number.isDigit_of_mem_decimal, Number.natOfDigits_decimal]
  refine ⟨?_, rfl, ?_⟩
  · have htext := @NumeralText.intro negative _ _ _ _ _
      (.digits ⟨by simp [Text.decimal], hdigits⟩ hhead) .none .none
    rwa [List.append_nil, List.append_nil] at htext
  · simp only [Numeral.magnitude, Numeral.power, List.append_nil, hnat]
    push_cast
    simp [mul_comm]

/-- Zeros in front of digits add nothing. -/
theorem natOfDigits_padLeft (width n : ℕ) :
    natOfDigits 10 (Text.padLeft width (Text.decimal n)) = n := by
  rw [Number.natOfDigits_eq fun _ =>
      Number.isDigit_of_mem_padLeft fun _ => Number.isDigit_of_mem_decimal,
    Text.padLeft, Nat.ofDigitChars_append, Nat.ofDigitChars_replicate_zero, mul_zero,
    ← Number.natOfDigits_eq fun _ => Number.isDigit_of_mem_decimal, Number.natOfDigits_decimal]

/-- What is left before the point is an integer: zeros are put in front until it has one digit. -/
theorem wholeText_padLeft {n : ℕ} (hn : 0 < n) {places : ℕ} {cs : List Char}
    (hcs : Text.padLeft (places + 1) (Text.decimal n) = cs) (hds : Digits cs) :
    WholeText (cs.take (cs.length - places)) := by
  have hlen : places + 1 ≤ cs.length := hcs ▸ Number.le_length_padLeft _ _
  refine wholeText_of_digits (hds.take (by omega)) fun hzero => ?_
  -- The first digit is a zero only if zeros were needed, and then it is the only one.
  by_cases hshort : (Text.decimal n).length < places + 1
  · have hlength : cs.length = places + 1 := by
      rw [← hcs, Text.padLeft, List.length_append, List.length_replicate]
      omega
    simp [hlength]
  · have hsame : cs = Text.decimal n := by
      rw [← hcs, Text.padLeft, Nat.sub_eq_zero_of_le (by omega)]
      rfl
    have hhead : (cs.take (cs.length - places)).head? = (Text.decimal n).head? := by
      rw [List.head?_take, if_neg (by omega), hsame]
    exact absurd (hhead.symm.trans hzero) (Number.head?_decimal hn)

/-- Digits with a point among them are a numeral. -/
theorem writes_point {n : ℕ} (hn : 0 < n) {places : ℕ} (hplaces : places ≠ 0) (negative : Bool) :
    ∃ numeral : Numeral, numeral.Writes negative (Number.withPoint places (Text.decimal n))
      (n * 10 ^ (-places : ℤ)) := by
  have hlen := Number.le_length_padLeft (places + 1) (Text.decimal n)
  have hnat := natOfDigits_padLeft (places + 1) n
  unfold Number.withPoint
  rw [if_neg hplaces]
  simp only
  generalize hpadded : Text.padLeft (places + 1) (Text.decimal n) = cs at hlen hnat ⊢
  have hds : Digits cs := by
    refine ⟨List.ne_nil_of_length_pos (by omega), ?_⟩
    rw [← hpadded]
    exact fun _ => Number.isDigit_of_mem_padLeft fun _ => Number.isDigit_of_mem_decimal
  -- Behind the point stand as many digits as there are places.
  have hfraction : (cs.drop (cs.length - places)).length = places := by
    rw [List.length_drop]
    omega
  have hpoint : Digits (cs.drop (cs.length - places)) := hds.drop (by omega)
  refine ⟨⟨negative, cs.take (cs.length - places), cs.drop (cs.length - places), none⟩, ?_, rfl, ?_⟩
  · have htext := @NumeralText.intro negative _ _ _ _ _ (wholeText_padLeft hn hpadded hds)
      (.point hpoint) .none
    rwa [List.append_nil] at htext
  · simp only [Numeral.magnitude, Numeral.power, List.take_append_drop, hnat, hfraction, zero_sub]

/-- A decimal written without an exponent is a numeral of its value. -/
theorem exists_writes_positional {d : Decimal} (hd : 0 < d.digits) (negative : Bool) :
    ∃ n : Numeral, n.Writes negative d.positional (d.digits * 10 ^ d.exponent) := by
  unfold Decimal.positional
  -- The exponent says how many zeros are behind the digits, or how many places behind the point.
  by_cases hplaces : (-d.exponent).toNat = 0
  · obtain ⟨k, hk⟩ := Int.eq_ofNat_of_zero_le (show 0 ≤ d.exponent by omega)
    rw [hk, Int.toNat_natCast, Number.withPoint, if_pos (by omega), zpow_natCast]
    exact ⟨_, writes_whole hd k negative⟩
  · have hexponent : d.exponent = -((-d.exponent).toNat : ℤ) := by omega
    rw [show d.exponent.toNat = 0 by omega, List.replicate_zero, List.append_nil]
    conv in (10 : ℚ) ^ d.exponent => rw [hexponent]
    exact writes_point hd hplaces negative

/-- A power of ten after its letter and sign is an exponent. -/
theorem exponentText_decimal (place : ℤ) :
    ExponentText ('e' :: (if place < 0 then '-' else '+') :: Text.decimal place.natAbs)
      (some (decide (place < 0), Text.decimal place.natAbs)) := by
  by_cases hnegative : place < 0
  · rw [if_pos hnegative, decide_eq_true hnegative]
    exact .power (.inl rfl) .minus (Number.digits_decimal _)
  · rw [if_neg hnegative, decide_eq_false hnegative]
    exact .power (.inl rfl) .plus (Number.digits_decimal _)

/-- A decimal written with an exponent is a numeral of its value. -/
theorem exists_writes_scientific (d : Decimal) (negative : Bool) :
    ∃ n : Numeral, n.Writes negative
      (scientific (Text.decimal d.digits) (d.exponent + (Text.decimal d.digits).length - 1))
      (d.digits * 10 ^ d.exponent) := by
  have hds := Number.digits_decimal d.digits
  have hnat := Number.natOfDigits_decimal d.digits
  have hlen : 0 < (Text.decimal d.digits).length := Nat.length_toDigits_pos
  generalize Text.decimal d.digits = ds at hds hnat hlen ⊢
  generalize hplace : d.exponent + ds.length - 1 = place
  -- One digit alone is an integer whatever it is.
  have hwhole : WholeText (ds.take 1) :=
    wholeText_of_digits (hds.take Nat.one_pos) fun _ => List.length_take_le _ _
  refine ⟨⟨negative, ds.take 1, ds.drop 1, some (decide (place < 0), Text.decimal place.natAbs)⟩,
    ?_, rfl, ?_⟩
  · unfold scientific
    by_cases hone : ds.length ≤ 1
    · -- A single digit has no point after it.
      have htext := @NumeralText.intro negative _ _ _ _ _ hwhole .none (exponentText_decimal place)
      rw [List.take_of_length_le hone] at htext
      rwa [List.drop_eq_nil_of_le hone, if_pos hone, List.take_of_length_le hone]
    · have htext := @NumeralText.intro negative _ _ _ _ _ hwhole
        (.point (hds.drop (not_le.mp hone))) (exponentText_decimal place)
      rw [if_neg hone, List.append_assoc]
      exact htext
  · -- The point moved to the left by as many places as the exponent was raised.
    have hpower : (if place < 0 then -(place.natAbs : ℤ) else place.natAbs) -
        (ds.length - 1 : ℕ) = d.exponent := by
      split <;> omega
    simp only [Numeral.magnitude, Numeral.power, List.take_append_drop, decide_eq_true_eq,
      Number.natOfDigits_decimal, List.length_drop, hpower, hnat]

/-- The text of a decimal is that of a numeral of its value. -/
theorem exists_writes_decimalText {d : Decimal} (hd : 0 < d.digits) (negative : Bool) :
    ∃ n : Numeral, n.Writes negative (decimalText d) (d.digits * 10 ^ d.exponent) := by
  unfold decimalText
  simp only
  split
  · exact exists_writes_positional hd negative
  · exact exists_writes_scientific d negative

end Notations

section Integers

/-- The form in which a double holds the first power of two that 64 bits have no place for. -/
theorem canonical_bound : Canonical (2 ^ 52) 11 :=
  ⟨by decide, by decide, by decide, by decide, fun _ => le_rfl⟩

/-- The greatest integer of 64 bits is rounded up to the next power of two. -/
theorem toModel_greatestInt64 :
    (Float.ofInt Number.greatestInt64).toModel =
      .pack (.finite .positive (2 ^ 52) 11 canonical_bound.pos) := by
  decide +kernel

/-- The least integer of 64 bits is a double. -/
theorem toModel_leastInt64 :
    (Float.ofInt Number.leastInt64).toModel =
      .pack (.finite .negative (2 ^ 52) 11 canonical_bound.pos) := by
  decide +kernel

/-- The order of doubles is that of their unpacked parts. -/
theorem unpack_le_of_le {x y : Float} (h : x ≤ y) : x.toModel.unpack.le y.toModel.unpack = true :=
  of_decide_eq_true h

/-- A finite number between the bounds has at most 63 bits before the point. -/
theorem le_bound {x : Float} {sign : Sign} {m : ℕ} {e : ℤ} {hm : 0 < m}
    (hx : x.toModel.unpack = .finite sign m e hm)
    (hlow : Float.ofInt Number.leastInt64 ≤ x) (hhigh : x ≤ Float.ofInt Number.greatestInt64) :
    e < 11 ∨ e = 11 ∧ m ≤ 2 ^ 52 := by
  replace hlow := unpack_le_of_le hlow
  replace hhigh := unpack_le_of_le hhigh
  rw [toModel_leastInt64, Number.unpack_pack canonical_bound, hx] at hlow
  rw [toModel_greatestInt64, Number.unpack_pack canonical_bound, hx] at hhigh
  -- A comparison goes by the exponents first, on the side on which the number is.
  cases sign with
  | positive =>
      simp only [UnpackedFloat.le, UnpackedFloat.compare, Option.any_some, Ordering.isLE_then_iff_or,
        Int.compare_eq_lt, Int.compare_eq_eq, Nat.isLE_compare] at hhigh
      omega
  | negative =>
      simp only [UnpackedFloat.le, UnpackedFloat.compare, Option.any_some, Ordering.swap_then,
        Int.compare_swap, Nat.compare_swap, Ordering.isLE_then_iff_or, Int.compare_eq_lt,
        Int.compare_eq_eq, Nat.isLE_compare] at hlow
      omega

/-- A number without a fraction is truncated to itself. -/
theorem exists_toInt_eq {x : Float} {sign : Sign} {m : ℕ} {e : ℤ} {hm : 0 < m}
    (hx : x.toModel.unpack = .finite sign m e hm) (hintegral : Number.isIntegral x = true)
    (low high : ℤ) :
    ∃ n : ℕ, (n : ℚ) = m * 2 ^ e ∧ x.toModel.unpack.toInt low high = sign.apply n := by
  have hdvd : 2 ^ (-e).toNat ∣ m := by
    unfold Number.isIntegral at hintegral
    rw [hx] at hintegral
    exact Nat.dvd_of_mod_eq_zero (beq_iff_eq.mp hintegral)
  -- The fraction that is cut off is none, as the power divides the significand.
  obtain ⟨q, hq⟩ := hdvd
  have hvalue : ((q * 2 ^ e.toNat : ℕ) : ℚ) = m * 2 ^ e := by
    rw [hq, Number.zpow_eq_div two_ne_zero]
    push_cast
    field_simp
  refine ⟨q * 2 ^ e.toNat, hvalue, ?_⟩
  have hquotient : m * 2 ^ e.toNat / 2 ^ (-e).toNat = q * 2 ^ e.toNat := by
    rw [hq, mul_assoc, Nat.mul_div_cancel_left _ (by positivity)]
  rw [hx]
  show UnpackedFloat.roundToInt sign m e = _
  rw [Number.roundToInt_eq, hquotient]

/-- A natural number between the bounds fits into 64 bits, but for the power of two above them. -/
theorem natural_le_bound {x : Float} {sign : Sign} {m : ℕ} {e : ℤ} {hm : 0 < m}
    (hx : x.toModel.unpack = .finite sign m e hm) {n : ℕ} (hvalue : (n : ℚ) = m * 2 ^ e)
    (hlow : Float.ofInt Number.leastInt64 ≤ x) (hhigh : x ≤ Float.ofInt Number.greatestInt64) :
    n < 2 ^ 63 ∨ n = 2 ^ 63 ∧ m = 2 ^ 52 ∧ e = 11 := by
  have hlt : (m : ℚ) < 2 ^ 53 := by exact_mod_cast (Number.canonical_of_unpack hx).lt
  -- A lower exponent leaves room for 63 bits, and at the highest only the bound itself is possible.
  obtain he | ⟨rfl, hm'⟩ := le_bound hx hlow hhigh
  · left
    have hvalue' : (n : ℚ) < 2 ^ 63 :=
      calc (n : ℚ) = m * 2 ^ e := hvalue
        _ ≤ m * 2 ^ (10 : ℤ) :=
            mul_le_mul_of_nonneg_left (zpow_le_zpow_right₀ one_le_two (by omega)) (by positivity)
        _ < 2 ^ 53 * 2 ^ (10 : ℤ) := mul_lt_mul_of_pos_right hlt (by positivity)
        _ = 2 ^ 63 := by norm_num
    exact_mod_cast hvalue'
  · have hn' : n = m * 2 ^ 11 := by exact_mod_cast hvalue
    omega

/-- The text of an integer between the bounds is that of a natural number in its interval, which fits into
    64 bits. -/
theorem exists_integerText_eq {x : Float} {sign : Sign} {m : ℕ} {e : ℤ} {hm : 0 < m}
    (hx : x.toModel.unpack = .finite sign m e hm) (h : isInteger x = true) :
    ∃ n : ℕ, 0 < n ∧ n ≤ 2 ^ 63 ∧ (Span.of m e).Mem n ∧
      integerText (Number.toInt Number.leastInt64 Number.greatestInt64 x) =
        signed (sign == .negative) (Text.decimal n) := by
  rw [isInteger, Bool.and_eq_true, Bool.and_eq_true, decide_eq_true_iff, decide_eq_true_iff] at h
  obtain ⟨⟨hintegral, hlow⟩, hhigh⟩ := h
  obtain ⟨n, hvalue, htoInt⟩ :=
    exists_toInt_eq hx hintegral Number.leastInt64 Number.greatestInt64
  have hn : 0 < n := by
    have hpos : (0 : ℚ) < n := by
      rw [hvalue]
      positivity
    exact_mod_cast hpos
  have hbound := natural_le_bound hx hvalue hlow hhigh
  unfold integerText Number.toInt
  rw [htoInt]
  -- Clamping to 64 bits changes only the bound itself, and that only if it is positive.
  cases sign with
  | negative =>
      have hclamp : max Number.leastInt64 (min Number.greatestInt64 (Sign.negative.apply n)) = -n := by
        simp only [Sign.apply, Number.leastInt64, Number.greatestInt64]
        omega
      refine ⟨n, hn, by omega, hvalue ▸ Span.mem_self hm e, ?_⟩
      rw [hclamp, decide_eq_true (by omega), Int.natAbs_neg, Int.natAbs_natCast]
      rfl
  | positive =>
      obtain hlt | ⟨rfl, rfl, rfl⟩ := hbound
      · have hclamp : max Number.leastInt64 (min Number.greatestInt64 (Sign.positive.apply n)) = n := by
          simp only [Sign.apply, Number.leastInt64, Number.greatestInt64]
          omega
        refine ⟨n, hn, by omega, hvalue ▸ Span.mem_self hm e, ?_⟩
        rw [hclamp, decide_eq_false (by omega), Int.natAbs_natCast]
        rfl
      · -- The clamped integer is one less than the number, which is still closer than the next double.
        refine ⟨2 ^ 63 - 1, by decide, by decide, ?_, by decide⟩
        have hmem : (Span.of (2 ^ 52) 11).contains 0 (2 ^ 63 - 1) = true := by decide
        simpa using Span.contains_iff.mp hmem

/-- Digits of a number that fits into 64 bits, with a sign or without, are an integer. -/
theorem isSome_integer?_decimal {n : ℕ} (hn : 0 < n) (hbound : n ≤ 2 ^ 63) (negative : Bool) :
    (Numeral.integer? ⟨negative, Text.decimal n, [], none⟩).isSome = true := by
  unfold Numeral.integer?
  simp only [List.isEmpty_nil, Option.isNone_none, Bool.and_self, if_true, Number.natOfDigits_decimal]
  cases negative with
  | true => rw [if_pos rfl, if_pos ⟨hn, hbound⟩]; rfl
  | false => rw [if_neg Bool.false_ne_true, if_pos (by omega)]; rfl

/-- A number that is written as an integer is read back by every library. -/
theorem exists_numeralText_integer [Library] {x : Float} {sign : Sign} {m : ℕ} {e : ℤ} {hm : 0 < m}
    (hx : x.toModel.unpack = .finite sign m e hm) (h : isInteger x = true) :
    ∃ n, NumeralText (numberText x).toList n ∧ Value.ofDocument? (.number n) = some (.number x) := by
  obtain ⟨n, hn, hbound, hmem, htext⟩ := exists_integerText_eq hx h
  have hwrites := writes_whole hn 0 (sign == .negative)
  rw [List.replicate_zero, List.append_nil, pow_zero, mul_one] at hwrites
  refine ⟨_, ?_, ofDocument?_of_integer? hx rfl (hwrites.magnitude_eq ▸ hmem)
    (isSome_integer?_decimal hn hbound _)⟩
  rw [numberText, hx]
  simp only [h, if_true]
  rw [String.toList_ofList, htext]
  exact hwrites.text

end Integers

section Exact

theorem exact_readsTexts : exact.ReadsTexts :=
  fun _ _ => read?_of_denotes

theorem exact_readsNearest : exact.ReadsNearest :=
  fun _ => rfl

/-- Both zeros are written as integers. -/
theorem isInteger_of_unpack_zero {x : Float} {sign : Sign} (hx : x.toModel.unpack = .zero sign) :
    isInteger x = true := by
  rw [← Number.ofModel_pack_of_unpack hx]
  cases sign <;> decide +kernel

/-- The fewest digits that read back do read back. -/
theorem exact_readsBack {x : Float} (hfinite : (x.isNaN || x.isInf) = false)
    (hinteger : isInteger x = false) : exact.ReadsBack x := by
  have hunpacked : (x.toModel.unpack.isNaN || x.toModel.unpack.isInf) = false := hfinite
  -- What is not finite is excluded, and zeros are integers, so the shortest decimal is what remains.
  cases hx : x.toModel.unpack with
  | notANumber =>
      rw [hx] at hunpacked
      cases hunpacked
  | infinity sign =>
      rw [hx] at hunpacked
      cases hunpacked
  | zero sign =>
      rw [isInteger_of_unpack_zero hx] at hinteger
      cases hinteger
  | finite sign m e hm =>
      have hcanonical := Number.canonical_of_unpack hx
      have hmem := Number.mem_shortest hcanonical .even
      obtain ⟨n, hwrites⟩ :=
        exists_writes_decimalText (Number.pos_of_mem hcanonical hmem) (sign == .negative)
      refine ⟨n, ?_, ofDocument?_of_mem hx hwrites.negative_eq (hwrites.magnitude_eq ▸ hmem)
        exact_readsNearest⟩
      show NumeralText (shortestText x).toList n
      rw [shortestText, hx]
      simp only
      rw [String.toList_ofList]
      exact hwrites.text

end Exact

end FieldLang.Json

import FieldLang.Number.Numeral
import FieldLang.Number.Text
import Mathlib

/-!
# Numerals and the Numbers They Write

What a numeral can write and what a number's text looks like. A numeral has no sign, so the number
it writes has none either: it is a zero, a positive number or, where the numeral is too large,
infinity, and never the result without a value. In the other direction the text of a finite number
without a sign is a numeral again, with a digit before the point and one after it.

That a numeral is rounded to the right number plays no part here. Signs go through the arithmetic on
doubles alone: rounding and packing into bits keep any sign, and multiplying with or dividing by a
power of ten keeps `Unsigned`.

## Main definitions

* `Unsigned`: Numbers without a sign, the result without a value left out.
* `HasSign`: Numbers with a given sign.
* `Plain`: Texts that are digits, with digits after a point if there is one.

## Theorems

* `hasSign_unpack_pack`: Packing keeps the sign of a number.
* `Numeral.unsigned_value`: A numeral writes a number without a sign.
* `natOfDigits_decimal`: The digits of a number write that number.
* `plain_chars`: The text of a finite number without a sign.
* `chars_of_infinite`: The text of infinity.
-/

namespace FieldLang.Number

open Float.Model
open Float.Model.UnpackedFloat (Sign Accuracy packComponents)

/-- A number, not the result without a value, whose sign is positive. -/
def Unsigned : UnpackedFloat → Prop
  | .notANumber => False
  | .infinity sign => sign = .positive
  | .zero sign => sign = .positive
  | .finite sign _ _ _ => sign = .positive

/-- A number, not the result without a value, that has a sign, be it a zero. -/
def HasSign (sign : Sign) : UnpackedFloat → Prop
  | .notANumber => False
  | .infinity sign' => sign' = sign
  | .zero sign' => sign' = sign
  | .finite sign' _ _ _ => sign' = sign

theorem unsigned_iff {u : UnpackedFloat} : Unsigned u ↔ HasSign .positive u := by
  cases u <;> rfl

/-- Whether a number is positive and finite. -/
def isPositive : UnpackedFloat → Bool
  | .finite .positive _ _ _ => true
  | _ => false

theorem exists_of_isPositive {u : UnpackedFloat} (h : isPositive u = true) :
    ∃ m e hm, u = .finite .positive m e hm := by
  cases u with
  | finite sign m e hm =>
      cases sign with
      | positive => exact ⟨m, e, hm, rfl⟩
      | negative => cases h
  | _ => cases h

/-- Parts with a sign make a number with that sign, unless they are those of the result without a
    value. -/
theorem hasSign_unpack_packComponents {spec : Format} (sign : Sign)
    {exponent : BitVec spec.exponentBits} {mantissa : BitVec spec.mantissaBitsWithoutImplicit}
    (h : exponent = -1#_ → mantissa = 0#_) :
    HasSign sign (.unpack spec (packComponents spec sign exponent mantissa)) := by
  unfold UnpackedFloat.unpack
  simp only [UnpackedFloat.unpackMantissa_packComponents,
    UnpackedFloat.unpackExponent_packComponents, UnpackedFloat.unpackSign_packComponents,
    Sign.ofBitVec_toBitVec]
  -- Only an exponent with all bits set can make something that is not a number.
  by_cases he : exponent = -1#_
  · rw [if_pos he, if_pos (h he)]
    rfl
  · rw [if_neg he]
    split
    · split
      · rfl
      · rfl
    · rfl

/-- Packing keeps the sign of a number, also where it overflows to infinity. -/
theorem hasSign_unpack_pack {sign : Sign} {u : UnpackedFloat} (h : HasSign sign u) :
    HasSign sign (Float.Model.pack u).unpack := by
  show HasSign sign (.unpack Format.binary64 (UnpackedFloat.pack Format.binary64 u))
  cases u with
  | notANumber => exact h.elim
  | infinity sign' =>
      cases h
      exact hasSign_unpack_packComponents _ fun _ => rfl
  | zero sign' =>
      cases h
      exact hasSign_unpack_packComponents _ fun _ => rfl
  | finite sign' m e hm =>
      cases h
      unfold UnpackedFloat.pack
      simp only
      split
      · exact hasSign_unpack_packComponents _ fun _ => rfl
      · split
        · -- The exponent of a normal number is below the one with all bits set.
          refine hasSign_unpack_packComponents _ fun hones => ?_
          have hnat := congrArg BitVec.toNat hones
          rw [BitVec.toNat_ofNat, Nat.mod_eq_of_lt (by omega),
            show (-1#11).toNat = 2 ^ 11 - 1 by decide] at hnat
          omega
        · exact hasSign_unpack_packComponents _ fun hones => absurd hones (by decide)

theorem hasSign_roundWithAccuracy (spec : Format) (sign : Sign) (m : Nat) (e : Int)
    (accuracy : Accuracy) : HasSign sign (.roundWithAccuracy spec sign m e accuracy) := by
  unfold UnpackedFloat.roundWithAccuracy
  simp only
  split
  · rfl
  · rfl

theorem unsigned_unpack_pack {u : UnpackedFloat} (h : Unsigned u) :
    Unsigned (Float.Model.pack u).unpack :=
  unsigned_iff.mpr (hasSign_unpack_pack (unsigned_iff.mp h))

theorem unsigned_roundWithAccuracy (spec : Format) (m : Nat) (e : Int) (accuracy : Accuracy) :
    Unsigned (.roundWithAccuracy spec .positive m e accuracy) :=
  unsigned_iff.mpr (hasSign_roundWithAccuracy ..)

theorem unsigned_mul {spec : Format} {u v : UnpackedFloat} (hu : Unsigned u)
    (hv : isPositive v = true) : Unsigned (.mul spec u v) := by
  rcases exists_of_isPositive hv with ⟨m, e, hm, rfl⟩
  cases u with
  | notANumber => exact hu.elim
  | infinity sign =>
      cases hu
      rfl
  | zero sign =>
      cases hu
      rfl
  | finite sign n f hn =>
      cases hu
      exact unsigned_roundWithAccuracy ..

theorem unsigned_div {spec : Format} {u v : UnpackedFloat} (hu : Unsigned u)
    (hv : isPositive v = true) : Unsigned (.div spec u v) := by
  rcases exists_of_isPositive hv with ⟨m, e, hm, rfl⟩
  cases u with
  | notANumber => exact hu.elim
  | infinity sign =>
      cases hu
      rfl
  | zero sign =>
      cases hu
      rfl
  | finite sign n f hn =>
      cases hu
      exact unsigned_roundWithAccuracy ..

theorem unsigned_add {spec : Format} {u v : UnpackedFloat} (hu : Unsigned u) (hv : Unsigned v) :
    Unsigned (.add spec u v) := by
  cases u with
  | notANumber => exact hu.elim
  | infinity sign =>
      cases hu
      cases v with
      | notANumber => exact hv.elim
      | infinity sign' => cases hv; rfl
      | zero sign' => rfl
      | finite sign' n f hn => rfl
  | zero sign =>
      cases hu
      cases v with
      | notANumber => exact hv.elim
      | infinity sign' => exact hv
      | zero sign' => cases hv; rfl
      | finite sign' n f hn => exact hv
  | finite sign m e hm =>
      cases hu
      cases v with
      | notANumber => exact hv.elim
      | infinity sign' => exact hv
      | zero sign' => rfl
      | finite sign' n f hn =>
          cases hv
          -- The sum of two mantissas is not negative.
          simp only [UnpackedFloat.add, UnpackedFloat.normalize, Sign.apply]
          split
          · rename_i hlt
            have := Int.compare_eq_lt.mp hlt
            omega
          · rfl
          · exact unsigned_roundWithAccuracy ..

theorem unsigned_ofNat (spec : Format) (n : Nat) : Unsigned (.ofNat spec n) := by
  unfold UnpackedFloat.ofNat UnpackedFloat.ofInt UnpackedFloat.normalize
  -- By the sign of the number: a natural number is not negative.
  split
  · rename_i hlt
    have hneg : (n : Int) < 0 := Int.compare_eq_lt.mp hlt
    omega
  · rfl
  · exact unsigned_roundWithAccuracy ..

/-- The powers of ten that are doubles are positive. -/
theorem isPositive_powerOfTen :
    ∀ x ∈ Float.exactlyRepresentablePowersOfTen, isPositive x.toModel.unpack = true := by
  -- The table is short, so its entries are unpacked one by one.
  decide +kernel

theorem unsigned_ofScientific (spec : Format) (m : Nat) (e : Int) :
    Unsigned (.ofScientific spec m e) := by
  unfold UnpackedFloat.ofScientific
  split
  · rfl
  · split
    · rfl
    · split
      · rfl
      · split
        · exact unsigned_mul (show Sign.positive = .positive from rfl) rfl
        · exact unsigned_div (show Sign.positive = .positive from rfl) rfl

/-- Scaling by a power of ten keeps a number unsigned, in the short way over doubles and in the long
    one. -/
theorem unsigned_ofDecimal (n : Nat) (exponent : Int) :
    Unsigned (ofDecimal n exponent).toModel.unpack := by
  unfold ofDecimal Float.ofScientific
  -- Small numerals with a small exponent need one multiplication or division of exact doubles.
  split
  · have hn : Unsigned n.toUInt64.toFloat.toModel.unpack :=
      unsigned_unpack_pack (unsigned_ofNat ..)
    split
    · exact unsigned_unpack_pack
        (unsigned_div hn (isPositive_powerOfTen _ (Array.getElem_mem _)))
    · exact unsigned_unpack_pack
        (unsigned_mul hn (isPositive_powerOfTen _ (Array.getElem_mem _)))
  · exact unsigned_unpack_pack (unsigned_ofScientific ..)

/-- What has no sign is a number. -/
theorem isNaN_of_unsigned {x : Float} (h : Unsigned x.toModel.unpack) : x.isNaN = false := by
  show x.toModel.unpack.isNaN = false
  cases hu : x.toModel.unpack with
  | notANumber =>
      rw [hu] at h
      exact h.elim
  | _ => rfl

/-- A numeral writes a number without a sign. -/
theorem Numeral.unsigned_value (n : Numeral) : Unsigned n.value.toModel.unpack :=
  unsigned_ofDecimal ..

/-- What all of a text satisfies and the text after it does not start with is taken exactly. -/
theorem takeWhile_append_of_head {p : Char → Bool} {cs rest : List Char} (hcs : ∀ c ∈ cs, p c = true)
    (hrest : ∀ c ∈ rest.head?, p c = false) : (cs ++ rest).takeWhile p = cs := by
  have hnil : rest.takeWhile p = [] := by
    cases rest with
    | nil => rfl
    | cons c rest => rw [List.takeWhile_cons, hrest c rfl]; rfl
  rw [List.takeWhile_append_of_pos hcs, hnil, List.append_nil]

/-- Digits, and after a point, if there is one, digits again. -/
inductive Plain : List Char → Prop
  | whole {ds} (hne : ds ≠ []) (hds : ∀ c ∈ ds, c.isDigit = true) : Plain ds
  | point {ds fs} (hds : ∀ c ∈ ds, c.isDigit = true) (hfs : ∀ c ∈ fs, c.isDigit = true)
      (hne : ds ≠ []) (hfne : fs ≠ []) : Plain (ds ++ '.' :: fs)

theorem Plain.head {cs : List Char} (h : Plain cs) :
    ∃ c rest, cs = c :: rest ∧ c.isDigit = true := by
  cases h with
  | whole hne hds =>
      rcases List.exists_cons_of_ne_nil hne with ⟨c, rest, rfl⟩
      exact ⟨c, rest, rfl, hds c (by simp)⟩
  | point hds hfs hne hfne =>
      rcases List.exists_cons_of_ne_nil hne with ⟨c, rest, rfl⟩
      exact ⟨c, _, rfl, hds c (by simp)⟩

theorem isDigit_of_mem_decimal {n : Nat} {c : Char} (h : c ∈ Text.decimal n) : c.isDigit = true :=
  Nat.isDigit_of_mem_toDigits (by decide) (by decide) h

theorem isDigit_of_mem_zeros {k : Nat} {c : Char} (h : c ∈ List.replicate k '0') :
    c.isDigit = true := by
  rw [List.eq_of_mem_replicate h]
  rfl

/-- Zeros behind the digits of a number are digits too. -/
theorem isDigit_of_mem_shifted {n k : Nat} {c : Char}
    (h : c ∈ Text.decimal n ++ List.replicate k '0') : c.isDigit = true :=
  (List.mem_append.mp h).elim isDigit_of_mem_decimal isDigit_of_mem_zeros

/-- Zeros in front of digits are digits too. -/
theorem isDigit_of_mem_padLeft {width : Nat} {cs : List Char} (hcs : ∀ c ∈ cs, c.isDigit = true)
    {c : Char} (h : c ∈ Text.padLeft width cs) : c.isDigit = true :=
  (List.mem_append.mp h).elim isDigit_of_mem_zeros (hcs c)

theorem le_length_padLeft (width : Nat) (cs : List Char) :
    width ≤ (Text.padLeft width cs).length := by
  rw [Text.padLeft, List.length_append, List.length_replicate]
  omega

/-- What digits write, by the library's reading of them. -/
theorem natOfDigits_eq {cs : List Char} (h : ∀ c ∈ cs, c.isDigit = true) :
    natOfDigits 10 cs = Nat.ofDigitChars 10 cs 0 := by
  unfold natOfDigits Nat.ofDigitChars
  refine List.foldl_ext _ _ _ fun n c hc => ?_
  simp only [digitValue?, h c hc, if_true, Option.getD_some, mul_comm n 10]
  rfl

/-- The digits of a number write that number. -/
theorem natOfDigits_decimal (n : Nat) : natOfDigits 10 (Text.decimal n) = n := by
  rw [natOfDigits_eq fun _ => isDigit_of_mem_decimal]
  exact Nat.ofDigitChars_ten_toDigits

/-- The digits of a positive number do not start with a zero. -/
theorem head?_decimal {n : Nat} (hn : 0 < n) : (Text.decimal n).head? ≠ some '0' := by
  induction n using Nat.strong_induction_on with
  | _ n ih =>
      unfold Text.decimal
      obtain hlt | hle := lt_or_ge n 10
      · rw [Nat.toDigits_of_lt_base hlt]
        interval_cases n <;> decide
      · rw [Nat.toDigits_of_base_le (by decide) hle, List.head?_append_of_ne_nil _ Nat.toDigits_ne_nil]
        exact ih (n / 10) (by omega) (by omega)

theorem plain_decimal (n : Nat) : Plain (Text.decimal n) :=
  .whole Nat.toDigits_ne_nil fun _ => isDigit_of_mem_decimal

theorem plain_withPoint {places : Nat} {cs : List Char} (hne : cs ≠ [])
    (hcs : ∀ c ∈ cs, c.isDigit = true) : Plain (withPoint places cs) := by
  unfold withPoint
  by_cases hplaces : places = 0
  · rw [if_pos hplaces]
    exact .whole hne hcs
  · rw [if_neg hplaces]
    -- The digits are padded so that at least one stands before the point.
    have hlen := le_length_padLeft (places + 1) cs
    refine .point (fun c hc => isDigit_of_mem_padLeft hcs (List.mem_of_mem_take hc))
      (fun c hc => isDigit_of_mem_padLeft hcs (List.mem_of_mem_drop hc)) ?_ ?_
    · rw [ne_eq, ← List.length_eq_zero_iff, List.length_take]
      omega
    · rw [ne_eq, ← List.length_eq_zero_iff, List.length_drop]
      omega

theorem plain_positional (d : Decimal) : Plain d.positional :=
  plain_withPoint (List.append_ne_nil_of_left_ne_nil Nat.toDigits_ne_nil _) fun _ =>
    isDigit_of_mem_shifted

/-- A finite number without a sign is shown as a numeral. -/
theorem plain_chars {x : Float} (hx : Unsigned x.toModel.unpack) (hfinite : x.isFinite = true) :
    Plain (chars x) := by
  have hfinite : x.toModel.unpack.isFinite = true := hfinite
  -- Of the shapes that a number is shown in, those of NaN and infinity are ruled out, and no sign is
  -- written.
  unfold chars
  split
  · rename_i hu
    rw [hu] at hfinite
    cases hfinite
  · rename_i hu
    rw [hu] at hfinite
    cases hfinite
  · exact plain_decimal 0
  · rename_i hu
    rw [hu] at hx
    cases hx
    rw [signed, if_neg (by decide)]
    split
    · exact plain_decimal _
    · exact plain_positional _

/-- Infinity is shown as a name. -/
theorem chars_of_infinite {x : Float} (hx : Unsigned x.toModel.unpack) (hinf : x.isInf = true) :
    chars x = "Infinity".toList := by
  have hinf : x.toModel.unpack.isInf = true := hinf
  unfold chars
  split
  · rename_i hu
    rw [hu] at hinf
    cases hinf
  · rename_i hu
    rw [hu] at hx
    cases hx
    rfl
  · rename_i hu
    rw [hu] at hinf
    cases hinf
  · rename_i hu
    rw [hu] at hinf
    cases hinf

/-- A number without a sign is finite or infinity. -/
theorem isFinite_of_not_isInf {x : Float} (hx : Unsigned x.toModel.unpack)
    (hinf : x.isInf = false) : x.isFinite = true := by
  have hinf : x.toModel.unpack.isInf = false := hinf
  show x.toModel.unpack.isFinite = true
  cases hu : x.toModel.unpack with
  | notANumber =>
      rw [hu] at hx
      exact hx.elim
  | infinity sign =>
      rw [hu] at hinf
      cases hinf
  | zero sign => rfl
  | finite sign m e hm => rfl

end FieldLang.Number

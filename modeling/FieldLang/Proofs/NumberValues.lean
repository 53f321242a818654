import FieldLang.Proofs.Decimals
import FieldLang.Proofs.Numerals

/-!
# What Doubles Stand For

A double that is a number stands for a rational number, and comparing two doubles compares what they
stand for. The infinities stand for the power of two at which doubles end, so that they are the greatest
and the least of all.

Integers up to `2^53` are doubles, and arithmetic that stays among them is exact. `StandsFor` says
that a double is an integer. A natural number is converted to such a double, truncating a double gives
one, and converting it back gives the integer. The sum of two is one again if it lies between zero and
`2^53`, and so is their product on either side of zero. A sum that is not positive may be rounded, but
it keeps its sign. Counting down by one is exact from 53 bits on downwards, and does not come below them
from a larger integer.

A larger natural number is rounded, perhaps to infinity, but never to zero or to a negative double.

## Main definitions

* `limit`: The power of two at which doubles end.
* `exactValue`, `value`: The number that a double stands for.
* `StandsFor`: A double is an integer.

## Theorems

* `lt_iff_value`: Doubles are ordered by what they stand for.
* `standsFor_ofNat`: Natural numbers up to `2^53` are doubles.
* `truncated_eq`: Truncating goes towards zero.
* `standsFor_truncate`, `truncate_cases`: Truncating a double gives an integer.
* `StandsFor.toInt_eq`: Converting an integer to words gives that integer.
* `StandsFor.add`, `StandsFor.not_pos_add`: Sums of integers.
* `StandsFor.mul`, `StandsFor.neg`, `StandsFor.abs`: Products, negatives and magnitudes of integers.
* `zero_le_ofNat`, `ofNat_beq_zero_iff`: Natural numbers of any size.
* `one_mul_eq`, `neg_one_mul_eq`: Multiplying by a unit.
* `StandsFor.exists_sub_one`: An integer without one.
-/

namespace FieldLang.Number

open Float.Model
open Float.Model.UnpackedFloat (Sign)

/-- The power of two at which doubles end. -/
def limit : ℚ :=
  2 ^ (1024 : ℤ)

theorem limit_pos : 0 < limit := by
  unfold limit
  positivity

/-- The number that the parts of a double stand for. The infinities stand for the power of two at which
    doubles end, on either side. -/
def exactValue : UnpackedFloat → ℚ
  | .notANumber => 0
  | .infinity sign => sign.apply 1 * limit
  | .zero _ => 0
  | .finite sign m e _ => sign.apply m * 2 ^ e

/-- The number that a double stands for. -/
def value (x : Float) : ℚ :=
  exactValue x.toModel.unpack

section Order

/-- Canonical parts with a larger exponent make up more than any mantissa does with a smaller one. -/
theorem full_le_scaled {n : ℕ} {e f : ℤ} (he : -1074 ≤ e) (hn : Canonical n f) (h : e < f) :
    (2 ^ 53 * 2 ^ e : ℚ) ≤ n * 2 ^ f := by
  -- The larger exponent is not the least one, so its mantissa has all 53 bits.
  have hnormal : (2 ^ 52 : ℚ) ≤ n := by exact_mod_cast hn.normal (by linarith)
  calc (2 ^ 53 * 2 ^ e : ℚ) = 2 ^ 52 * 2 ^ (e + 1) := by
        rw [zpow_add₀ two_ne_zero, zpow_one]
        ring
    _ ≤ 2 ^ 52 * 2 ^ f :=
        mul_le_mul_of_nonneg_left (zpow_le_zpow_right₀ one_le_two (by omega)) (by positivity)
    _ ≤ n * 2 ^ f := mul_le_mul_of_nonneg_right hnormal (by positivity)

/-- Canonical parts are ordered by their exponents first. -/
theorem scaled_lt_of_lt {m n : ℕ} {e f : ℤ} (hm : Canonical m e) (hn : Canonical n f) (h : e < f) :
    (m * 2 ^ e : ℚ) < n * 2 ^ f := by
  have hlt : (m : ℚ) < 2 ^ 53 := by exact_mod_cast hm.lt
  calc (m * 2 ^ e : ℚ) < 2 ^ 53 * 2 ^ e := mul_lt_mul_of_pos_right hlt (by positivity)
    _ ≤ n * 2 ^ f := full_le_scaled hm.least hn h

/-- Canonical parts are ordered by their exponents, and those with the same by their mantissas. -/
theorem compare_then_eq_lt_iff {m n : ℕ} {e f : ℤ} (hm : Canonical m e) (hn : Canonical n f) :
    (compare e f).then (compare m n) = .lt ↔ (m * 2 ^ e : ℚ) < n * 2 ^ f := by
  rw [Ordering.then_eq_lt, Int.compare_eq_lt, Int.compare_eq_eq, Nat.compare_eq_lt]
  obtain hlt | rfl | hgt := lt_trichotomy e f
  · exact iff_of_true (.inl hlt) (scaled_lt_of_lt hm hn hlt)
  · have hpos : (0 : ℚ) < 2 ^ e := by positivity
    rw [mul_lt_mul_iff_left₀ hpos, Nat.cast_lt]
    omega
  · have hback := scaled_lt_of_lt hn hm hgt
    refine iff_of_false ?_ hback.not_gt
    omega

/-- Canonical parts lie strictly between zero and the power of two at which doubles end. -/
theorem scaled_bounds {m : ℕ} {e : ℤ} (hm : Canonical m e) :
    (0 : ℚ) < m * 2 ^ e ∧ (m * 2 ^ e : ℚ) < limit := by
  have hpos : (0 : ℚ) < m := by exact_mod_cast hm.pos
  exact ⟨by positivity, ((Span.mem_self hm.pos e).range hm).2⟩

theorem lt_iff_compare {x y : Float} :
    x < y ↔ x.toModel.unpack.compare y.toModel.unpack = some .lt := by
  show decide (_ = true) = true ↔ _
  rw [decide_eq_true_iff]
  exact beq_iff_eq

/-- The order of two doubles turns round with them. -/
theorem compare_eq_gt_iff {x y : UnpackedFloat} : x.compare y = some .gt ↔ y.compare x = some .lt := by
  cases x with
  | notANumber => cases y <;> simp [UnpackedFloat.compare]
  | infinity sign =>
      cases y with
      | notANumber => simp [UnpackedFloat.compare]
      | infinity sign' => cases sign <;> cases sign' <;> simp [UnpackedFloat.compare, compare]
      | zero sign' => cases sign <;> simp [UnpackedFloat.compare]
      | finite sign' n f hn => cases sign <;> simp [UnpackedFloat.compare]
  | zero sign =>
      cases y with
      | notANumber => simp [UnpackedFloat.compare]
      | infinity sign' => cases sign' <;> simp [UnpackedFloat.compare]
      | zero sign' => simp [UnpackedFloat.compare]
      | finite sign' n f hn => cases sign' <;> simp [UnpackedFloat.compare]
  | finite sign m e hm =>
      cases y with
      | notANumber => simp [UnpackedFloat.compare]
      | infinity sign' => cases sign' <;> simp [UnpackedFloat.compare]
      | zero sign' => cases sign <;> simp [UnpackedFloat.compare]
      | finite sign' n f hn =>
          cases sign <;> cases sign' <;> simp [UnpackedFloat.compare]
          all_goals
            -- Numbers with the same sign are compared by their parts one after the other, and each
            -- turns round.
            rw [← Int.compare_swap, ← Nat.compare_swap, ← Ordering.swap_then]
            simp

/-- The parts of doubles are compared by what they stand for, if both are numbers. -/
theorem compare_eq_lt_iff {x y : Float} :
    x.toModel.unpack.compare y.toModel.unpack = some .lt ↔
      x.isNaN = false ∧ y.isNaN = false ∧ value x < value y := by
  have hlimit := limit_pos
  show _ ↔ x.toModel.unpack.isNaN = false ∧ y.toModel.unpack.isNaN = false ∧
    exactValue x.toModel.unpack < exactValue y.toModel.unpack
  -- Signs and infinities decide most pairs of forms, since a finite value is between zero and the
  -- limit. Only two finite numbers with the same sign are compared by their parts.
  cases hu : x.toModel.unpack with
  | notANumber => simp [UnpackedFloat.compare, UnpackedFloat.isNaN]
  | infinity sign =>
      cases hv : y.toModel.unpack with
      | notANumber => simp [UnpackedFloat.compare, UnpackedFloat.isNaN]
      | infinity sign' =>
          cases sign <;> cases sign' <;>
            simp [UnpackedFloat.compare, UnpackedFloat.isNaN, exactValue, compare, Sign.apply] <;>
            linarith
      | zero sign' =>
          cases sign <;>
            simp [UnpackedFloat.compare, UnpackedFloat.isNaN, exactValue, Sign.apply] <;> linarith
      | finite sign' n f hn =>
          obtain ⟨hpos, hlt⟩ := scaled_bounds (canonical_of_unpack hv)
          cases sign <;> cases sign' <;>
            simp [UnpackedFloat.compare, UnpackedFloat.isNaN, exactValue, Sign.apply] <;> linarith
  | zero sign =>
      cases hv : y.toModel.unpack with
      | notANumber => simp [UnpackedFloat.compare, UnpackedFloat.isNaN]
      | infinity sign' =>
          cases sign' <;>
            simp [UnpackedFloat.compare, UnpackedFloat.isNaN, exactValue, Sign.apply] <;> linarith
      | zero sign' => simp [UnpackedFloat.compare, exactValue]
      | finite sign' n f hn =>
          obtain ⟨hpos, hlt⟩ := scaled_bounds (canonical_of_unpack hv)
          cases sign' <;>
            simp [UnpackedFloat.compare, UnpackedFloat.isNaN, exactValue, Sign.apply] <;> linarith
  | finite sign m e hm =>
      obtain ⟨hpos, hlt⟩ := scaled_bounds (canonical_of_unpack hu)
      cases hv : y.toModel.unpack with
      | notANumber => simp [UnpackedFloat.compare, UnpackedFloat.isNaN]
      | infinity sign' =>
          cases sign <;> cases sign' <;>
            simp [UnpackedFloat.compare, UnpackedFloat.isNaN, exactValue, Sign.apply] <;> linarith
      | zero sign' =>
          cases sign <;>
            simp [UnpackedFloat.compare, UnpackedFloat.isNaN, exactValue, Sign.apply] <;> linarith
      | finite sign' n f hn =>
          obtain ⟨hpos', hlt'⟩ := scaled_bounds (canonical_of_unpack hv)
          have hvalue := compare_then_eq_lt_iff (canonical_of_unpack hu) (canonical_of_unpack hv)
          have hvalue' := compare_then_eq_lt_iff (canonical_of_unpack hv) (canonical_of_unpack hu)
          simp only [UnpackedFloat.isNaN, true_and]
          cases sign <;> cases sign' <;>
            simp only [UnpackedFloat.compare, Option.some.injEq, exactValue, Sign.apply, Int.cast_neg,
              Int.cast_natCast, neg_mul, neg_lt_neg_iff, reduceCtorEq, true_iff, false_iff, not_lt]
          · -- Of two negative numbers the one with the greater parts is less.
            rw [Ordering.swap_eq_lt, ← hvalue', ← Ordering.swap_eq_gt, Ordering.swap_then,
              Int.compare_swap, Nat.compare_swap]
          · linarith
          · linarith
          · exact hvalue

/-- Doubles that are numbers are ordered by what they stand for. -/
theorem lt_iff_value {x y : Float} :
    x < y ↔ x.isNaN = false ∧ y.isNaN = false ∧ value x < value y :=
  lt_iff_compare.trans compare_eq_lt_iff

end Order

section Finite

variable {x : Float}

/-- A finite double is a zero, or it has a mantissa and an exponent. -/
theorem unpack_of_isFinite (h : x.isFinite = true) :
    (∃ sign, x.toModel.unpack = .zero sign) ∨
      ∃ sign m e hm, x.toModel.unpack = .finite sign m e hm := by
  replace h : x.toModel.unpack.isFinite = true := h
  cases hu : x.toModel.unpack with
  | notANumber => rw [hu] at h; cases h
  | infinity sign => rw [hu] at h; cases h
  | zero sign => exact .inl ⟨sign, rfl⟩
  | finite sign m e hm => exact .inr ⟨sign, m, e, hm, rfl⟩

/-- A double that is not finite is an infinity, if it is a number at all. -/
theorem unpack_of_not_isFinite (h : x.isFinite = false) :
    x.toModel.unpack = .notANumber ∨ ∃ sign, x.toModel.unpack = .infinity sign := by
  replace h : x.toModel.unpack.isFinite = false := h
  cases hu : x.toModel.unpack with
  | notANumber => exact .inl rfl
  | infinity sign => exact .inr ⟨sign, rfl⟩
  | zero sign => rw [hu] at h; cases h
  | finite sign m e hm => rw [hu] at h; cases h

theorem isNaN_of_isFinite (h : x.isFinite = true) : x.isNaN = false := by
  show x.toModel.unpack.isNaN = false
  obtain ⟨sign, hu⟩ | ⟨sign, m, e, hm, hu⟩ := unpack_of_isFinite h <;> rw [hu] <;> rfl

/-- Where the infinities would go is of no concern to a finite double. -/
theorem toInt_of_isFinite (h : x.isFinite = true) (low high : ℤ) :
    x.toModel.unpack.toInt low high = truncated x := by
  unfold truncated
  obtain ⟨sign, hu⟩ | ⟨sign, m, e, hm, hu⟩ := unpack_of_isFinite h <;> rw [hu] <;> rfl

/-- Only infinity equals infinity. -/
theorem beq_infinity :
    (x == infinity) = true ↔ x.toModel.unpack = .infinity .positive := by
  have hinfinity : infinity.toModel.unpack = .infinity .positive := rfl
  show x.toModel.unpack.beq infinity.toModel.unpack = true ↔ _
  rw [hinfinity]
  cases x.toModel.unpack with
  | infinity sign =>
      cases sign with
      | positive => exact iff_of_true rfl rfl
      | negative => exact iff_of_false nofun nofun
  | _ => simp [UnpackedFloat.beq, UnpackedFloat.compare]

theorem beq_infinity_of_isFinite (hx : x.isFinite = true) :
    ¬ (x == infinity) = true := by
  rw [beq_infinity]
  intro hu
  obtain ⟨sign, hv⟩ | ⟨sign, m, e, hm, hv⟩ := unpack_of_isFinite hx <;>
    exact nomatch hu.symm.trans hv

/-- The whole part of a mantissa on a scale. -/
theorem floor_scaled (m : ℕ) (e : ℤ) :
    ⌊(m * 2 ^ e : ℚ)⌋ = (m * 2 ^ e.toNat / 2 ^ (-e).toNat : ℕ) := by
  have hquotient : (m * 2 ^ e : ℚ) = (m * 2 ^ e.toNat : ℕ) / (2 ^ (-e).toNat : ℕ) := by
    rw [zpow_eq_div two_ne_zero]
    push_cast
    ring
  rw [hquotient, ← Int.natCast_floor_eq_floor (by positivity), Nat.floor_div_eq_div]

/-- Truncating goes towards zero, to the whole number next to what a finite double stands for. -/
theorem truncated_eq (h : x.isFinite = true) :
    truncated x = if 0 ≤ value x then ⌊value x⌋ else ⌈value x⌉ := by
  unfold truncated value
  obtain ⟨sign, hu⟩ | ⟨sign, m, e, hm, hu⟩ := unpack_of_isFinite h
  · rw [hu, exactValue, if_pos le_rfl, Int.floor_zero]
    rfl
  · have hpos : (0 : ℚ) < m * 2 ^ e := by positivity
    rw [hu, exactValue, UnpackedFloat.toInt, roundToInt_eq, ← floor_scaled]
    cases sign with
    | positive =>
        simp only [Sign.apply, Int.cast_natCast]
        rw [if_pos hpos.le]
    | negative =>
        simp only [Sign.apply, Int.cast_neg, Int.cast_natCast, neg_mul]
        rw [if_neg (by linarith), Int.ceil_neg]

end Finite

section Negation

/-- Changing the sign of a double changes the sign of its parts. -/
theorem unpack_neg (x : Float) : (-x).toModel.unpack = x.toModel.unpack.neg := by
  show (Float.Model.pack x.toModel.unpack.neg).unpack = _
  cases hu : x.toModel.unpack with
  | notANumber => rfl
  | infinity sign => cases sign <;> rfl
  | zero sign => cases sign <;> rfl
  | finite sign m e hm => exact unpack_pack (canonical_of_unpack hu) (-sign)

theorem value_neg (x : Float) : value (-x) = -value x := by
  rw [value, value, unpack_neg]
  cases x.toModel.unpack with
  | notANumber => simp [UnpackedFloat.neg, exactValue]
  | infinity sign => cases sign <;> simp [UnpackedFloat.neg, exactValue, Sign.apply]
  | zero sign => simp [UnpackedFloat.neg, exactValue]
  | finite sign m e hm => cases sign <;> simp [UnpackedFloat.neg, exactValue, Sign.apply]

theorem isFinite_neg (x : Float) : (-x).isFinite = x.isFinite := by
  show (-x).toModel.unpack.isFinite = x.toModel.unpack.isFinite
  rw [unpack_neg]
  cases x.toModel.unpack <;> rfl

/-- The magnitude of a double is that of its parts. -/
theorem unpack_abs (x : Float) : x.abs.toModel.unpack = x.toModel.unpack.abs := by
  show (Float.Model.pack x.toModel.unpack.abs).unpack = _
  cases hu : x.toModel.unpack with
  | notANumber => rfl
  | infinity sign => cases sign <;> rfl
  | zero sign => cases sign <;> rfl
  | finite sign m e hm => exact unpack_pack (canonical_of_unpack hu) .positive

theorem value_abs (x : Float) : value x.abs = |value x| := by
  have hlimit := limit_pos
  rw [value, value, unpack_abs]
  cases x.toModel.unpack with
  | notANumber => simp [UnpackedFloat.abs, exactValue]
  | infinity sign => cases sign <;> simp [UnpackedFloat.abs, exactValue, Sign.apply, abs_of_pos hlimit]
  | zero sign => simp [UnpackedFloat.abs, exactValue]
  | finite sign m e hm => cases sign <;> simp [UnpackedFloat.abs, exactValue, Sign.apply, abs_mul]

/-- Taking a double away is adding its negative. -/
theorem sub_eq_add (x y : Float) : x - y = x + (-y) := by
  show Float.ofModel (.pack (.sub .binary64 x.toModel.unpack y.toModel.unpack)) =
    .ofModel (.pack (.add .binary64 x.toModel.unpack (-y).toModel.unpack))
  rw [unpack_neg]
  cases x.toModel.unpack with
  | finite sign m e hm =>
      cases y.toModel.unpack with
      | finite sign' n f hn =>
          have happly (k : ℕ) : (-sign').apply (k : ℤ) = -sign'.apply k := by
            cases sign' with
            | positive => rfl
            | negative => exact (Int.neg_neg k).symm
          simp only [UnpackedFloat.sub, UnpackedFloat.add, UnpackedFloat.neg, happly, sub_eq_add_neg]
      | _ => rfl
  | _ => cases y.toModel.unpack <;> rfl

end Negation

/-- A double is finite and stands for an integer. -/
def StandsFor (x : Float) (k : ℤ) : Prop :=
  x.isFinite = true ∧ value x = k

/-- A double whose parts make up a natural number stands for it, with its sign. -/
theorem standsFor_of_finite {x : Float} {sign : Sign} {m : ℕ} {e : ℤ} {hm : 0 < m}
    (hx : x.toModel.unpack = .finite sign m e hm) {n : ℕ} (hvalue : (m * 2 ^ e : ℚ) = n) :
    StandsFor x (sign.apply n) := by
  show x.toModel.unpack.isFinite = true ∧ exactValue x.toModel.unpack = _
  rw [hx]
  refine ⟨rfl, ?_⟩
  cases sign with
  | positive => simpa [exactValue, Sign.apply] using hvalue
  | negative => simpa [exactValue, Sign.apply] using hvalue

theorem standsFor_of_zero {x : Float} {sign : Sign} (hx : x.toModel.unpack = .zero sign) :
    StandsFor x 0 := by
  show x.toModel.unpack.isFinite = true ∧ exactValue x.toModel.unpack = _
  rw [hx]
  exact ⟨rfl, Int.cast_zero.symm⟩

theorem standsFor_pack_zero (sign : Sign) : StandsFor (.ofModel (.pack (.zero sign))) 0 := by
  -- A zero keeps its sign, so there are two of them.
  cases sign with
  | positive => exact @standsFor_of_zero _ .positive rfl
  | negative => exact @standsFor_of_zero _ .negative rfl

theorem standsFor_zero : StandsFor 0 0 :=
  standsFor_pack_zero .positive

/-- What is a natural number up to `2^53` stands for it after rounding. -/
theorem standsFor_round {n : ℕ} (hn : 0 < n) (hle : n ≤ 2 ^ 53) {m : ℕ} {e : ℤ}
    (hvalue : (m * 2 ^ e : ℚ) = n) (sign : Sign) :
    StandsFor (.ofModel (.pack (.round .binary64 sign m e))) (sign.apply n) := by
  obtain ⟨M, E, hM, hround, -, hexact⟩ := exists_round_eq hn hle hvalue sign
  rw [hround]
  exact standsFor_of_finite (unpack_pack hM sign) hexact

/-- A natural number up to `2^53` is converted to the double that stands for it. -/
theorem standsFor_ofNat {n : ℕ} (hle : n ≤ 2 ^ 53) : StandsFor (Float.ofNat n) n := by
  obtain rfl | hn := Nat.eq_zero_or_pos n
  · exact @standsFor_of_zero _ .positive rfl
  · obtain ⟨m, e, hm, -, hexact⟩ := exists_canonical hn hle
    have hmem : (Span.of m e).Mem (n * 10 ^ (0 : ℤ)) := by
      rw [zpow_zero, mul_one, ← hexact]
      exact Span.mem_self hm.pos e
    have hdouble : Float.ofNat n = .ofModel (.pack (.finite .positive m e hm.pos)) :=
      ofDecimal_eq_of_mem hm hmem
    rw [hdouble]
    exact standsFor_of_finite (unpack_pack hm .positive) hexact

/-- A mantissa of at most 53 bits is a double as it is, also if it is zero. -/
theorem standsFor_ofBinary {n : ℕ} (hlt : n < 2 ^ 53) (sign : Sign) :
    StandsFor (ofBinary (sign == .negative) n 0) (sign.apply n) := by
  have hround : ofBinary (sign == .negative) n 0 = .ofModel (.pack (.round .binary64 sign n 0)) := by
    cases sign <;> rfl
  obtain rfl | hn := Nat.eq_zero_or_pos n
  · cases sign with
    | positive => exact standsFor_pack_zero .positive
    | negative => exact standsFor_pack_zero .negative
  · rw [hround]
    exact standsFor_round hn hlt.le (by rw [zpow_zero, mul_one]) sign

/-- Truncating a finite double gives the double that stands for its whole part. -/
theorem standsFor_truncate {x : Float} (h : x.isFinite = true) :
    StandsFor (toIntegral .truncate x) (truncated x) := by
  unfold truncated toIntegral
  obtain ⟨sign, hu⟩ | ⟨sign, m, e, hm, hu⟩ := unpack_of_isFinite h
  · rw [hu]
    exact standsFor_of_zero hu
  · rw [hu]
    simp only [UnpackedFloat.toInt, roundToInt_eq]
    by_cases he : e < 0
    · -- The quotient has no more bits than the mantissa that it is taken of.
      have hlt : m / 2 ^ (-e).toNat < 2 ^ 53 :=
        (Nat.div_le_self ..).trans_lt (canonical_of_unpack hu).lt
      rw [if_pos he, show e.toNat = 0 by omega, pow_zero, mul_one]
      exact standsFor_ofBinary hlt sign
    · -- Without a negative exponent there is no fraction to cut off.
      obtain ⟨k, rfl⟩ := Int.eq_ofNat_of_zero_le (not_lt.mp he)
      rw [if_neg he]
      refine standsFor_of_finite hu ?_
      rw [show (-(k : ℤ)).toNat = 0 by omega, Int.toNat_natCast, pow_zero, Nat.div_one, zpow_natCast]
      push_cast
      rfl

/-- A double without its fraction, where what is not a number is zero, is an integer. Only an infinity
    stays what it is. -/
theorem truncate_cases (x : Float) :
    (∀ sign, x.toModel.unpack ≠ .infinity sign) ∧
        (∀ low high, x.toModel.unpack.toInt low high = truncated x) ∧
        StandsFor (if x.isNaN then 0 else toIntegral .truncate x) (truncated x) ∨
      ∃ sign, x.toModel.unpack = .infinity sign ∧
        (if x.isNaN then 0 else toIntegral .truncate x) = x := by
  -- An infinity is the one case in which nothing is truncated; what is not a number is replaced by
  -- zero.
  by_cases hfinite : x.isFinite = true
  · refine .inl ⟨fun sign hu => ?_, toInt_of_isFinite hfinite, ?_⟩
    · obtain ⟨sign', hv⟩ | ⟨sign', m, e, hm, hv⟩ := unpack_of_isFinite hfinite <;>
        exact nomatch hu.symm.trans hv
    · rw [isNaN_of_isFinite hfinite]
      exact standsFor_truncate hfinite
  · rw [Bool.not_eq_true] at hfinite
    have hnan : x.isNaN = x.toModel.unpack.isNaN := rfl
    obtain hu | ⟨sign, hu⟩ := unpack_of_not_isFinite hfinite
    · rw [hnan, hu, truncated, hu]
      exact .inl ⟨nofun, fun low high => rfl, standsFor_zero⟩
    · refine .inr ⟨sign, hu, ?_⟩
      rw [hnan, hu, if_neg nofun, toIntegral, hu]

namespace StandsFor

variable {x y : Float} {a b : ℤ}

theorem isNaN (hx : StandsFor x a) : x.isNaN = false :=
  isNaN_of_isFinite hx.1

theorem neg (hx : StandsFor x a) : StandsFor (-x) (-a) :=
  ⟨(isFinite_neg x).trans hx.1, by rw [value_neg, hx.2, Int.cast_neg]⟩

theorem abs (hx : StandsFor x a) : StandsFor x.abs |a| := by
  refine ⟨?_, by rw [value_abs, hx.2, Int.cast_abs]⟩
  show x.abs.toModel.unpack.isFinite = true
  rw [unpack_abs]
  obtain ⟨sign, hu⟩ | ⟨sign, m, e, hm, hu⟩ := unpack_of_isFinite hx.1 <;> rw [hu] <;> rfl

/-- Integers are compared as integers. -/
theorem lt_iff (hx : StandsFor x a) (hy : StandsFor y b) : x < y ↔ a < b := by
  rw [lt_iff_value, hx.2, hy.2, Int.cast_lt]
  exact ⟨fun h => h.2.2, fun h => ⟨hx.isNaN, hy.isNaN, h⟩⟩

theorem exists_compare (hx : StandsFor x a) (hy : StandsFor y b) :
    ∃ order, x.toModel.unpack.compare y.toModel.unpack = some order := by
  obtain ⟨sign, hu⟩ | ⟨sign, m, e, hm, hu⟩ := unpack_of_isFinite hx.1 <;>
    obtain ⟨sign', hv⟩ | ⟨sign', n, f, hn, hv⟩ := unpack_of_isFinite hy.1 <;>
    rw [hu, hv] <;> cases sign <;> cases sign' <;> exact ⟨_, rfl⟩

/-- Integers are compared as integers. -/
theorem le_iff (hx : StandsFor x a) (hy : StandsFor y b) : x ≤ y ↔ a ≤ b := by
  have hlt := lt_iff_compare.symm.trans (hy.lt_iff hx)
  have hle : x ≤ y ↔ (x.toModel.unpack.compare y.toModel.unpack).any (·.isLE) = true := by
    show decide (_ = true) = true ↔ _
    rw [decide_eq_true_iff]
    rfl
  obtain ⟨order, horder⟩ := hx.exists_compare hy
  rw [← compare_eq_gt_iff, horder, Option.some.injEq] at hlt
  rw [hle, horder, ← not_lt, ← hlt]
  cases order <;> decide

/-- Doubles that stand for the same integer are equal, although there are two for zero. -/
theorem beq (hx : StandsFor x a) (hy : StandsFor y a) : (x == y) = true := by
  obtain ⟨order, horder⟩ := hx.exists_compare hy
  show (x.toModel.unpack.compare y.toModel.unpack == some .eq) = true
  cases order with
  | lt => exact absurd ((hx.lt_iff hy).mp (lt_iff_compare.mpr horder)) (lt_irrefl a)
  | eq => rw [horder]; rfl
  | gt =>
      have hless := lt_iff_compare.mpr (compare_eq_gt_iff.mp horder)
      exact absurd ((hy.lt_iff hx).mp hless) (lt_irrefl a)

theorem eq_zero (hx : StandsFor x a) {sign : Sign} (hu : x.toModel.unpack = .zero sign) : a = 0 := by
  have hvalue := hx.2
  rw [value, hu, exactValue] at hvalue
  exact_mod_cast hvalue.symm

/-- The parts of a double that is an integer make up a natural number. -/
theorem exists_natural (hx : StandsFor x a) {sign : Sign} {m : ℕ} {e : ℤ} {hm : 0 < m}
    (hu : x.toModel.unpack = .finite sign m e hm) :
    ∃ n : ℕ, a = sign.apply n ∧ (m * 2 ^ e : ℚ) = n := by
  have hpos : (0 : ℚ) ≤ m * 2 ^ e := by positivity
  have hvalue := hx.2
  rw [value, hu] at hvalue
  -- The parts without the sign are not negative, so they make up the natural number of the integer.
  cases sign with
  | positive =>
      simp only [exactValue, Sign.apply, Int.cast_natCast] at hvalue ⊢
      obtain ⟨n, rfl⟩ := Int.eq_ofNat_of_zero_le (show 0 ≤ a by exact_mod_cast hvalue ▸ hpos)
      exact ⟨n, rfl, hvalue⟩
  | negative =>
      simp only [exactValue, Sign.apply, Int.cast_neg, Int.cast_natCast, neg_mul] at hvalue ⊢
      have hneg : (0 : ℚ) ≤ (-a : ℤ) := by
        push_cast
        linarith
      obtain ⟨n, hn⟩ := Int.eq_ofNat_of_zero_le (show 0 ≤ -a by exact_mod_cast hneg)
      obtain rfl : a = -n := by omega
      exact ⟨n, rfl, by push_cast at hvalue; linarith⟩

/-- Truncating an integer changes nothing. -/
theorem toInt_eq (hx : StandsFor x a) (low high : ℤ) : x.toModel.unpack.toInt low high = a := by
  rw [toInt_of_isFinite hx.1, truncated_eq hx.1, hx.2, Int.floor_intCast, Int.ceil_intCast, ite_self]

end StandsFor

/-- A signed mantissa on a finer scale. -/
theorem signed_shiftLeft (sign : Sign) (m : ℕ) {e target : ℤ} (h : target ≤ e) :
    ((sign.apply (m <<< (e - target).toNat : ℕ) : ℤ) : ℚ) * 2 ^ target = sign.apply m * 2 ^ e := by
  obtain ⟨k, rfl⟩ := Int.le.dest h
  rw [add_sub_cancel_left, Int.toNat_natCast, Nat.shiftLeft_eq, zpow_add₀ two_ne_zero]
  cases sign <;> simp [Sign.apply] <;> ring

/-- Two doubles that are finite and not zero are added as integers on a common scale. -/
theorem exists_add_eq {x y : Float} {s₁ s₂ : Sign} {m₁ m₂ : ℕ} {e₁ e₂ : ℤ} {h₁ : 0 < m₁} {h₂ : 0 < m₂}
    (hx : x.toModel.unpack = .finite s₁ m₁ e₁ h₁) (hy : y.toModel.unpack = .finite s₂ m₂ e₂ h₂) :
    ∃ s e : ℤ, x + y = .ofModel (.pack (.normalize .binary64 s e .positive)) ∧
      (s * 2 ^ e : ℚ) = value x + value y := by
  refine ⟨s₁.apply (m₁ <<< (e₁ - min e₁ e₂).toNat : ℕ) + s₂.apply (m₂ <<< (e₂ - min e₁ e₂).toNat : ℕ),
    min e₁ e₂, ?_, ?_⟩
  · show Float.ofModel (.pack (.add .binary64 x.toModel.unpack y.toModel.unpack)) = _
    rw [hx, hy]
    rfl
  · rw [value, value, hx, hy, Int.cast_add, add_mul, signed_shiftLeft s₁ m₁ (min_le_left ..),
      signed_shiftLeft s₂ m₂ (min_le_right ..)]
    rfl

/-- An integer on a scale is normalized to the positive double in whose interval it lies. -/
theorem normalize_eq_of_mem {s e : ℤ} {M : ℕ} {E : ℤ} (hM : Canonical M E)
    (hmem : (Span.of M E).Mem (s * 2 ^ e)) :
    UnpackedFloat.normalize .binary64 s e .positive = .finite .positive M E hM.pos := by
  have hs : 0 < s := by
    have hpow : (0 : ℚ) < 2 ^ e := by positivity
    have hprod : (0 : ℚ) < s * 2 ^ e := lt_of_lt_of_le (by positivity) (hmem.range hM).1
    exact_mod_cast pos_of_mul_pos_left hprod hpow.le
  obtain ⟨m, rfl⟩ := Int.eq_ofNat_of_zero_le hs.le
  have hsign : compare (m : ℤ) 0 = .gt := Int.compare_eq_gt.mpr hs
  unfold UnpackedFloat.normalize
  simp only [hsign, Int.toNat_natCast]
  exact round_eq_of_mem hM (by exact_mod_cast hmem) .positive

/-- A positive integer up to `2^53` is normalized to the double that stands for it. -/
theorem standsFor_normalize {s e : ℤ} {k : ℤ} (hvalue : (s * 2 ^ e : ℚ) = k) (hpos : 0 < k)
    (hle : k ≤ 2 ^ 53) :
    StandsFor (.ofModel (.pack (.normalize .binary64 s e .positive))) k := by
  obtain ⟨n, rfl⟩ := Int.eq_ofNat_of_zero_le hpos.le
  obtain ⟨M, E, hM, -, hexact⟩ := exists_canonical (by omega : 0 < n) (by omega)
  have hmem : (Span.of M E).Mem (s * 2 ^ e) := by
    rw [hvalue, Int.cast_natCast, ← hexact]
    exact Span.mem_self hM.pos E
  rw [normalize_eq_of_mem hM hmem]
  exact standsFor_of_finite (unpack_pack hM .positive) hexact

/-- A difference that is zero is normalized to a zero. -/
theorem standsFor_normalize_zero {s e : ℤ} (hvalue : (s * 2 ^ e : ℚ) = 0) :
    StandsFor (.ofModel (.pack (.normalize .binary64 s e .positive))) 0 := by
  have hpow : (2 : ℚ) ^ e ≠ 0 := by positivity
  obtain rfl : s = 0 := by exact_mod_cast (mul_eq_zero.mp hvalue).resolve_right hpow
  exact standsFor_zero

theorem hasSign_round (sign : Sign) (m : ℕ) (e : ℤ) :
    HasSign sign (.round .binary64 sign m e) :=
  hasSign_roundWithAccuracy ..

/-- A double with a negative sign is not positive. -/
theorem not_pos_of_hasSign {x : Float} (h : HasSign .negative x.toModel.unpack) : ¬ 0 < x := by
  have hvalue : exactValue x.toModel.unpack ≤ 0 := by
    cases hu : x.toModel.unpack with
    | notANumber => rw [hu] at h; exact h.elim
    | infinity sign =>
        rw [hu] at h
        cases h
        simp [exactValue, Sign.apply, limit_pos.le]
    | zero sign => exact le_rfl
    | finite sign m e hm =>
        rw [hu] at h
        cases h
        have hpos : (0 : ℚ) ≤ m * 2 ^ e := by positivity
        simpa [exactValue, Sign.apply] using hpos
  rw [lt_iff_value, standsFor_zero.2, Int.cast_zero]
  exact fun hlt => absurd hlt.2.2 (not_lt.mpr hvalue)

/-- What is not positive is not normalized to a positive double. -/
theorem not_pos_normalize {s : ℤ} (hs : s ≤ 0) (e : ℤ) :
    ¬ 0 < Float.ofModel (.pack (.normalize .binary64 s e .positive)) := by
  unfold UnpackedFloat.normalize
  split
  · exact not_pos_of_hasSign (hasSign_unpack_pack (hasSign_round ..))
  · decide +kernel
  · rename_i hgt
    have := Int.compare_eq_gt.mp hgt
    omega

namespace StandsFor

variable {x y : Float} {a b : ℤ}

/-- An infinity lies below an integer if it is the negative one. -/
theorem infinity_lt_iff (hx : StandsFor x a) {sign : Sign} (hy : y.toModel.unpack = .infinity sign) :
    y < x ↔ sign = .negative := by
  rw [lt_iff_compare, hy]
  obtain ⟨sign', hu⟩ | ⟨sign', m, e, hm, hu⟩ := unpack_of_isFinite hx.1 <;> rw [hu] <;> cases sign <;>
    simp [UnpackedFloat.compare]

/-- An infinity lies above an integer if it is the positive one. -/
theorem lt_infinity_iff (hx : StandsFor x a) {sign : Sign} (hy : y.toModel.unpack = .infinity sign) :
    x < y ↔ sign = .positive := by
  rw [lt_iff_compare, hy]
  obtain ⟨sign', hu⟩ | ⟨sign', m, e, hm, hu⟩ := unpack_of_isFinite hx.1 <;> rw [hu] <;> cases sign <;>
    simp [UnpackedFloat.compare]

/-- Adding an integer to an infinity changes nothing. -/
theorem add_infinity (hx : StandsFor x a) {sign : Sign} (hy : y.toModel.unpack = .infinity sign) :
    x + y = .ofModel (.pack (.infinity sign)) := by
  show Float.ofModel (.pack (.add .binary64 x.toModel.unpack y.toModel.unpack)) = _
  obtain ⟨sign', hu⟩ | ⟨sign', m, e, hm, hu⟩ := unpack_of_isFinite hx.1 <;> rw [hu, hy] <;> rfl

section Sums

variable (hx : StandsFor x a) (hy : StandsFor y b)
include hx hy

/-- Sums with a zero are exact, and any others are integers on a common scale that are rounded. -/
theorem add_cases :
    StandsFor (x + y) (a + b) ∨
      ∃ s e : ℤ, x + y = .ofModel (.pack (.normalize .binary64 s e .positive)) ∧
        (s * 2 ^ e : ℚ) = (a + b : ℤ) := by
  have hsum : x + y = .ofModel (.pack (.add .binary64 x.toModel.unpack y.toModel.unpack)) := rfl
  -- A zero hands back the other side as it is.
  obtain ⟨sign, hu⟩ | ⟨sign, m, e, hm, hu⟩ := unpack_of_isFinite hx.1
  · obtain rfl := hx.eq_zero hu
    rw [zero_add]
    obtain ⟨sign', hv⟩ | ⟨sign', n, f, hn, hv⟩ := unpack_of_isFinite hy.1
    · obtain rfl := hy.eq_zero hv
      rw [hsum, hu, hv]
      cases sign <;> cases sign' <;> exact .inl (@standsFor_of_zero _ _ rfl)
    · have hback : x + y = y := by
        rw [hsum, hu, hv]
        exact ofModel_pack_of_unpack hv
      rw [hback]
      exact .inl hy
  · obtain ⟨sign', hv⟩ | ⟨sign', n, f, hn, hv⟩ := unpack_of_isFinite hy.1
    · obtain rfl := hy.eq_zero hv
      have hback : x + y = x := by
        rw [hsum, hu, hv]
        exact ofModel_pack_of_unpack hu
      rw [add_zero, hback]
      exact .inl hx
    · obtain ⟨s, e, hnormal, hvalue⟩ := exists_add_eq hu hv
      refine .inr ⟨s, e, hnormal, ?_⟩
      rw [hvalue, hx.2, hy.2, Int.cast_add]

/-- A sum between zero and `2^53` is exact. -/
theorem add (hnonneg : 0 ≤ a + b) (hle : a + b ≤ 2 ^ 53) : StandsFor (x + y) (a + b) := by
  obtain hexact | ⟨s, e, hsum, hvalue⟩ := hx.add_cases hy
  · exact hexact
  · rw [hsum]
    obtain hzero | hpos := hnonneg.eq_or_lt
    · rw [← hzero] at hvalue ⊢
      exact standsFor_normalize_zero (by rw [hvalue, Int.cast_zero])
    · exact standsFor_normalize hvalue hpos hle

/-- A sum that is not positive is not rounded to a positive one. -/
theorem not_pos_add (hle : a + b ≤ 0) : ¬ 0 < x + y := by
  obtain hexact | ⟨s, e, hsum, hvalue⟩ := hx.add_cases hy
  · rw [standsFor_zero.lt_iff hexact]
    omega
  · rw [hsum]
    refine not_pos_normalize ?_ e
    by_contra hs
    have hprod : (0 : ℚ) < s * 2 ^ e := by
      have : (0 : ℚ) < s := by exact_mod_cast not_le.mp hs
      positivity
    rw [hvalue] at hprod
    have : 0 < a + b := by exact_mod_cast hprod
    omega

end Sums

/-- The parts of an integer that is not zero: a mantissa with all bits, and the natural number that they
    make up. -/
theorem exists_full (hx : StandsFor x a) {sign : Sign} {m : ℕ} {e : ℤ} {hm : 0 < m}
    (hu : x.toModel.unpack = .finite sign m e hm) :
    ∃ n : ℕ, a = sign.apply n ∧ (m * 2 ^ e : ℚ) = n ∧ 0 < n ∧ 2 ^ 52 ≤ m := by
  obtain ⟨n, ha, hn⟩ := hx.exists_natural hu
  have hcanonical := canonical_of_unpack hu
  have hpos : (0 : ℚ) < n := by
    rw [← hn]
    positivity
  have hone : (1 : ℚ) ≤ n := by exact_mod_cast hpos
  refine ⟨n, ha, hn, by exact_mod_cast hpos, hcanonical.normal ?_⟩
  refine lt_of_le_of_ne hcanonical.least fun he => ?_
  -- On the least scale all numbers are less than one.
  have hlt : (m : ℚ) < 2 ^ 53 := by exact_mod_cast hcanonical.lt
  have hsmall : (n : ℚ) < 1 :=
    calc (n : ℚ) = m * 2 ^ (-1074 : ℤ) := by rw [← hn, he]
      _ < 2 ^ 53 * 2 ^ (-53 : ℤ) :=
        mul_lt_mul'' hlt (zpow_lt_zpow_right₀ one_lt_two (by decide)) (by positivity) (by positivity)
      _ = 1 := by norm_num
  exact absurd hone (not_le.mpr hsmall)

/-- A product up to `2^53` is exact, on either side of zero. -/
theorem mul (hx : StandsFor x a) (hy : StandsFor y b) (hle : (a * b).natAbs ≤ 2 ^ 53) :
    StandsFor (x * y) (a * b) := by
  have hproduct : x * y = .ofModel (.pack (.mul .binary64 x.toModel.unpack y.toModel.unpack)) := rfl
  obtain ⟨sign, hu⟩ | ⟨sign, m, e, hm, hu⟩ := unpack_of_isFinite hx.1
  · obtain rfl := hx.eq_zero hu
    rw [zero_mul, hproduct, hu]
    obtain ⟨sign', hv⟩ | ⟨sign', n, f, hn, hv⟩ := unpack_of_isFinite hy.1 <;> rw [hv] <;>
      exact standsFor_pack_zero (sign * sign')
  · obtain ⟨sign', hv⟩ | ⟨sign', n, f, hn, hv⟩ := unpack_of_isFinite hy.1
    · obtain rfl := hy.eq_zero hv
      rw [mul_zero, hproduct, hu, hv]
      exact standsFor_pack_zero (sign * sign')
    · -- Both sides have all their bits, so the product has enough of them, and it is exact because
      -- it has the parts of a double itself.
      obtain ⟨k, rfl, hk, hkpos, hkbits⟩ := hx.exists_full hu
      obtain ⟨l, rfl, hl, hlpos, hlbits⟩ := hy.exists_full hv
      have hsign : sign.apply k * sign'.apply l = (sign * sign').apply (k * l : ℕ) := by
        rw [Nat.cast_mul]
        cases sign <;> cases sign' <;> simp only [Sign.apply] <;> ring_nf
      have hbound : k * l ≤ 2 ^ 53 := by
        rw [hsign] at hle
        generalize k * l = n at hle ⊢
        cases hs : sign * sign' <;> rw [hs] at hle <;> simpa [Sign.apply] using hle
      obtain ⟨M, E, hM, -, hexact⟩ := exists_canonical (Nat.mul_pos hkpos hlpos) hbound
      have hmem : (Span.of M E).Mem (m * 2 ^ e * (n * 2 ^ f)) := by
        rw [hk, hl, ← Nat.cast_mul, ← hexact]
        exact Span.mem_self hM.pos E
      have hround : x * y = .ofModel (.pack (.finite (sign * sign') M E hM.pos)) := by
        rw [hproduct, hu, hv, mul_eq_of_mem hm hn hM (by nlinarith) hmem]
      rw [hsign, hround]
      exact standsFor_of_finite (unpack_pack hM _) hexact

end StandsFor

section Naturals

variable {n : ℕ}

/-- A natural number that is not zero is not converted to a zero, however many bits it has. -/
theorem unpack_ofNat_ne_zero (hn : 0 < n) (sign : Sign) : (Float.ofNat n).toModel.unpack ≠ .zero sign := by
  intro hzero
  -- A small number is exact, and a large one is rounded to a mantissa that is not zero.
  by_cases hsmall : n < 2 ^ 53
  · have := (standsFor_ofNat hsmall.le).eq_zero hzero
    omega
  · have hscientific : Float.ofNat n = .ofModel (.pack (.ofScientific .binary64 n 0)) :=
      dif_neg fun h => hsmall h.1
    have hbits : 2 ^ 52 ≤ n <<< 53 * 10 ^ (0 : ℤ).toNat := by
      rw [Nat.shiftLeft_eq]
      show 2 ^ 52 ≤ n * 2 ^ 53 * 1
      omega
    obtain ⟨M, E, hM, hround, hlow, hhigh, hE⟩ :=
      exists_roundWithAccuracy_eq (e := -53 + 0) hbits (by decide) .positive
    have hproduct : UnpackedFloat.ofScientific .binary64 n 0 = .finite .positive M E hM := by
      rw [← hround]
      unfold UnpackedFloat.ofScientific
      rw [dif_neg hn.ne', if_neg (by decide), if_neg (by simp), if_pos le_rfl]
      rfl
    rw [hscientific, hproduct] at hzero
    obtain hpack | hpack := unpack_pack_cases hlow hhigh hE hM .positive
    · exact nomatch hpack.symm.trans hzero
    · exact nomatch hpack.symm.trans hzero

/-- A natural number is not converted to a negative double. -/
theorem zero_le_ofNat (n : ℕ) : 0 ≤ Float.ofNat n := by
  have hunsigned : Unsigned (Float.ofNat n).toModel.unpack := unsigned_ofDecimal n 0
  show decide ((UnpackedFloat.zero .positive).le (Float.ofNat n).toModel.unpack = true) = true
  rw [decide_eq_true_iff]
  cases hu : (Float.ofNat n).toModel.unpack with
  | notANumber => rw [hu] at hunsigned; exact hunsigned.elim
  | infinity sign => rw [hu] at hunsigned; cases hunsigned; rfl
  | zero sign => rfl
  | finite sign m e hm => rw [hu] at hunsigned; cases hunsigned; rfl

/-- Only zero is converted to a double that equals zero. -/
theorem ofNat_beq_zero_iff : (Float.ofNat n == 0) = true ↔ n = 0 := by
  constructor
  · intro h
    have hbeq : (Float.ofNat n).toModel.unpack.beq (.zero .positive) = true := h
    by_contra hn
    have hne := unpack_ofNat_ne_zero (Nat.pos_of_ne_zero hn)
    cases hu : (Float.ofNat n).toModel.unpack with
    | notANumber => rw [hu] at hbeq; cases hbeq
    | infinity sign => rw [hu] at hbeq; cases sign <;> cases hbeq
    | zero sign => exact hne sign hu
    | finite sign m e hm => rw [hu] at hbeq; cases sign <;> cases hbeq
  · rintro rfl
    rfl

end Naturals

section Predecessor

theorem unpack_one :
    (1 : Float).toModel.unpack = .finite .positive (2 ^ 52) (-52) (by decide) := rfl

theorem unpack_neg_one :
    (-1 : Float).toModel.unpack = .finite .negative (2 ^ 52) (-52) (by decide) := rfl

/-- Multiplying by a unit changes nothing but the sign. -/
theorem mul_unit (sign : Sign) (x : Float) :
    UnpackedFloat.mul .binary64 (.finite sign (2 ^ 52) (-52) (by decide)) x.toModel.unpack =
      match sign with
      | .positive => x.toModel.unpack
      | .negative => x.toModel.unpack.neg := by
  cases hu : x.toModel.unpack with
  | finite sign' m e hm =>
      have hmem : (Span.of m e).Mem ((2 ^ 52 : ℕ) * 2 ^ (-52 : ℤ) * (m * 2 ^ e)) := by
        convert Span.mem_self hm e using 1
        norm_num
      rw [mul_eq_of_mem (by decide) hm (canonical_of_unpack hu) (by omega) hmem]
      cases sign <;> cases sign' <;> rfl
  | notANumber => cases sign <;> rfl
  | infinity sign' => cases sign <;> cases sign' <;> rfl
  | zero sign' => cases sign <;> cases sign' <;> rfl

theorem one_mul_eq (x : Float) : 1 * x = x := by
  show Float.ofModel (.pack (.mul .binary64 (1 : Float).toModel.unpack x.toModel.unpack)) = x
  rw [unpack_one, mul_unit]
  exact ofModel_pack_of_unpack rfl

theorem neg_one_mul_eq (x : Float) : -1 * x = -x := by
  show Float.ofModel (.pack (.mul .binary64 (-1 : Float).toModel.unpack x.toModel.unpack)) = -x
  rw [unpack_neg_one, mul_unit]
  rfl

theorem standsFor_one : StandsFor 1 1 :=
  standsFor_of_finite (n := 1) unpack_one (by norm_num)

theorem standsFor_neg_one : StandsFor (-1) (-1) :=
  standsFor_of_finite (n := 1) unpack_neg_one (by norm_num)

/-- The lower end lies at least a quarter of a unit of the last place below the double. -/
theorem Span.low_le {m : ℕ} (hm : 0 < m) (e : ℤ) : ((Span.of m e).low : ℚ) ≤ 4 * m - 1 := by
  have hlow : (Span.of m e).low + 1 ≤ 4 * m := by
    simp only [Span.of]
    split <;> omega
  have : ((Span.of m e).low + 1 : ℚ) ≤ 4 * m := by exact_mod_cast hlow
  linarith

/-- The lower end lies half a unit of the last place below a double that is no power of two. -/
theorem Span.low_of_ne {m : ℕ} (hm : 0 < m) (hne : m ≠ 2 ^ 52) (e : ℤ) :
    ((Span.of m e).low : ℚ) = 4 * m - 2 := by
  have hlow : (Span.of m e).low + 2 = 4 * m := by
    simp only [Span.of]
    rw [if_neg (fun h => hne h.1)]
    omega
  have : ((Span.of m e).low + 2 : ℚ) = 4 * m := by exact_mod_cast hlow
  linarith

/-- One less than a double `m · 2^e` of more than 53 bits is rounded to that double, or to the one
    below it. -/
theorem exists_span_sub_one {m : ℕ} {e : ℤ} (hm : Canonical m e) (hlarge : (2 ^ 53 : ℚ) < m * 2 ^ e) :
    ∃ M E, Canonical M E ∧ 0 < E ∧ 2 ^ 52 ≤ M ∧ (Span.of M E).Mem (m * 2 ^ e - 1) := by
  -- More than 53 bits need a positive exponent, so the doubles around are at least two apart.
  have hpos : 0 < e := by
    by_contra he
    have hpow : (2 : ℚ) ^ e ≤ 1 := zpow_le_one_of_nonpos₀ one_le_two (by omega)
    have hlt : (m : ℚ) < 2 ^ 53 := by exact_mod_cast hm.lt
    nlinarith
  have hbits := hm.normal (by omega)
  obtain rfl | hlarger : e = 1 ∨ 2 ≤ e := by omega
  · by_cases hodd : m % 2 = 1
    · -- The difference lies in the middle between two doubles, of which the lower one is even.
      obtain ⟨n, rfl⟩ : ∃ n, m = n + 1 := ⟨m - 1, by omega⟩
      refine ⟨n, 1, ⟨by omega, by have := hm.lt; omega, hm.least, hm.greatest, fun _ => by omega⟩,
        one_pos, by omega, ?_⟩
      have hvalue : ((n + 1 : ℕ) * 2 ^ (1 : ℤ) - 1 : ℚ) = (n + 1 / 2) * 2 ^ (1 : ℤ) := by
        push_cast
        ring
      have hlow := Span.low_le (show 0 < n by omega) 1
      rw [hvalue, Span.mem_of_iff, if_pos (by omega)]
      constructor <;> linarith
    · have hne : m ≠ 2 ^ 52 := by
        rintro rfl
        norm_num at hlarge
      refine ⟨m, 1, hm, hpos, hbits, ?_⟩
      have hvalue : (m * 2 ^ (1 : ℤ) - 1 : ℚ) = (m - 1 / 2) * 2 ^ (1 : ℤ) := by ring
      have hlow := Span.low_of_ne hm.pos hne 1
      rw [hvalue, Span.mem_of_iff, if_pos (by omega)]
      constructor <;> linarith
  · refine ⟨m, e, hm, hpos, hbits, ?_⟩
    -- One is at most a quarter of the distance, and the interval reaches that far even below a power
    -- of two.
    have hvalue : (m * 2 ^ e - 1 : ℚ) = (m - 1 / 2 ^ e) * 2 ^ e := by field_simp
    have hpow : (4 : ℚ) ≤ 2 ^ e :=
      calc (4 : ℚ) = 2 ^ (2 : ℤ) := by norm_num
        _ ≤ 2 ^ e := zpow_le_zpow_right₀ one_le_two hlarger
    have hquarter : (1 / 2 ^ e : ℚ) ≤ 1 / 4 := one_div_le_one_div_of_le four_pos hpow
    have hzero : (0 : ℚ) < 1 / 2 ^ e := by positivity
    rw [hvalue, Span.mem_of_iff]
    split
    · have hlow := Span.low_le hm.pos e
      constructor <;> linarith
    · have hlow := Span.low_of_ne hm.pos (by rintro rfl; omega) e
      constructor <;> linarith

/-- A positive integer without one. Up to 53 bits the difference is exact; of a larger one it has more
    than 53 bits again. -/
theorem StandsFor.exists_sub_one {x : Float} {k : ℤ} (hx : StandsFor x k) (hk : 0 < k) :
    ∃ j, StandsFor (x - 1) j ∧ (k ≤ 2 ^ 53 → j = k - 1) ∧ (2 ^ 53 < k → 2 ^ 53 ≤ j) := by
  rw [sub_eq_add]
  -- Up to 53 bits the difference is small enough to be exact.
  by_cases hlarge : 2 ^ 53 < k
  · obtain ⟨sign, hu⟩ | ⟨sign, m, e, hm, hu⟩ := unpack_of_isFinite hx.1
    · rw [hx.eq_zero hu] at hk
      exact absurd hk (lt_irrefl 0)
    · obtain ⟨n, rfl, hn⟩ := hx.exists_natural hu
      obtain ⟨s, f, hsum, hvalue⟩ := exists_add_eq hu unpack_neg_one
      rw [hx.2, standsFor_neg_one.2] at hvalue
      cases sign with
      | negative =>
          simp only [Sign.apply] at hk
          omega
      | positive =>
          have hlarger : (2 ^ 53 : ℚ) < m * 2 ^ e := by
            rw [hn]
            exact_mod_cast (show 2 ^ 53 < (n : ℤ) from hlarge)
          obtain ⟨M, E, hM, hE, hbits, hmem⟩ := exists_span_sub_one (canonical_of_unpack hu) hlarger
          -- The exact difference is rounded as a whole, to a double with at least 53 bits.
          have hdifference : (s * 2 ^ f : ℚ) = m * 2 ^ e - 1 := by
            rw [hvalue, hn]
            simp only [Sign.apply, Int.cast_natCast, Int.cast_neg, Int.cast_one]
            ring
          obtain ⟨i, rfl⟩ := Int.eq_ofNat_of_zero_le hE.le
          have hround : x + -1 = .ofModel (.pack (.finite .positive M i hM.pos)) := by
            rw [hsum, normalize_eq_of_mem hM (by rwa [hdifference])]
          refine ⟨(M * 2 ^ i : ℕ), ?_, fun h => absurd h (not_le.mpr hlarge), fun _ => ?_⟩
          · rw [hround]
            exact standsFor_of_finite (unpack_pack hM .positive) (by push_cast; rw [zpow_natCast])
          · have : 2 ^ 52 * 2 ^ 1 ≤ M * 2 ^ i :=
              Nat.mul_le_mul hbits (Nat.pow_le_pow_right two_pos (by omega))
            omega
  · refine ⟨k - 1, ?_, fun _ => rfl, fun h => absurd h hlarge⟩
    obtain hexact | ⟨s, e, hsum, hvalue⟩ := hx.add_cases standsFor_neg_one
    · exact hexact
    · rw [hsum]
      obtain rfl | hmore : k = 1 ∨ 0 < k - 1 := by omega
      · exact standsFor_normalize_zero (by simpa using hvalue)
      · exact standsFor_normalize hvalue hmore (by omega)

end Predecessor

end FieldLang.Number

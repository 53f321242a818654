import FieldLang.Number.Shortest
import Mathlib

/-!
# Rounding to Doubles

Which double an exact number is rounded to. A positive double is a mantissa and an exponent in
canonical form, and the numbers that are rounded to it are those of the interval that also decides
which digits are shown for it.

The arithmetic of doubles carries an exact number as a mantissa with two residual bits, which tell
where the number lies between the mantissa and the next one. `Describes` reads the bits that way.
Dropping a bit of the mantissa halves the number that is described, so nothing that rounding depends
on is lost on the way to the final scale.

There are only two scales on which a number in the interval of a double can end up: that of the double
and, just below a power of two, the next finer one, where the mantissa is rounded up and carries. In
both the result is the double, which is `roundWithAccuracy_eq_of_mem`. A product or a quotient is an
exact number that is rounded once, so the same holds for them.

## Main definitions

* `Describes`: The numbers that a mantissa with its residual bits stands for.
* `Canonical`: The parts of a positive double.
* `Span.Mem`: The numbers in an interval.

## Theorems

* `roundWithAccuracy_eq_of_mem`: A number is rounded to the double in whose interval it lies.
* `mul_eq_of_mem`, `div_eq_of_mem`: So are products and quotients.
* `canonical_of_unpack`: A finite double has canonical parts.
* `unpack_pack`: Canonical parts survive packing.
* `exists_roundWithAccuracy_eq`, `unpack_pack_cases`: What becomes of larger numbers.
-/

namespace FieldLang.Number

open Float.Model
open Float.Model.UnpackedFloat (Sign Accuracy ExtendedMantissa packComponents unpackExponent
  unpackMantissa)

/-- A number lies where a mantissa with its residual bits says: on the mantissa, below the midpoint to
    the next one, on the midpoint, or above it. -/
def Describes : ExtendedMantissa → ℚ → Prop
  | ⟨m, false, false⟩, r => r = m
  | ⟨m, false, true⟩, r => m < r ∧ r < m + 1 / 2
  | ⟨m, true, false⟩, r => r = m + 1 / 2
  | ⟨m, true, true⟩, r => m + 1 / 2 < r ∧ r < m + 1

/-- Without accuracy to account for, the number is the mantissa. -/
theorem describes_exact (m : ℕ) : Describes (.ofMantissaAndAccuracy m .exact) m :=
  rfl

/-- The mantissa is the whole part of the number. -/
theorem Describes.floor {em : ExtendedMantissa} {r : ℚ} (h : Describes em r) :
    (em.mantissa : ℚ) ≤ r ∧ r < em.mantissa + 1 := by
  obtain ⟨m, roundBit, stickyBit⟩ := em
  cases roundBit <;> cases stickyBit <;> simp only [Describes] at h <;>
    constructor <;> linarith

/-- Dropping the last bit halves the number. -/
theorem Describes.shiftRightOne {em : ExtendedMantissa} {r : ℚ} (h : Describes em r) :
    Describes em.shiftRightOne (r / 2) := by
  obtain ⟨m, roundBit, stickyBit⟩ := em
  obtain ⟨k, last, rfl⟩ : ∃ (k : ℕ) (last : Bool), m = 2 * k + last.toNat := by
    obtain ⟨k, rfl | rfl⟩ := Nat.even_or_odd' m
    · exact ⟨k, false, rfl⟩
    · exact ⟨k, true, rfl⟩
  -- The bit that is dropped becomes the round bit, and the two residual bits the sticky one.
  have hshift : ExtendedMantissa.shiftRightOne ⟨2 * k + last.toNat, roundBit, stickyBit⟩ =
      ⟨k, last, roundBit || stickyBit⟩ := by
    cases last <;> simp [ExtendedMantissa.shiftRightOne]
    omega
  rw [hshift]
  cases last <;> cases roundBit <;> cases stickyBit <;>
    simp only [Describes, Bool.or_true, Bool.or_false, Bool.toNat_true, Bool.toNat_false] at h ⊢ <;>
    push_cast at h <;> first | linarith | constructor <;> linarith

/-- Dropping bits divides the number by a power of two. -/
theorem Describes.shiftRight {em : ExtendedMantissa} {r : ℚ} (h : Describes em r) (n : ℕ) :
    Describes (em >>> n) (r / 2 ^ n) := by
  show Describes (n.repeat ExtendedMantissa.shiftRightOne em) _
  induction n with
  | zero => simpa [Nat.repeat] using h
  | succ n ih =>
      rw [Nat.repeat, pow_succ, ← div_div]
      exact ih.shiftRightOne

/-- Dropping bits divides the mantissa. -/
theorem mantissa_shiftRight (em : ExtendedMantissa) (n : ℕ) :
    (em >>> n).mantissa = em.mantissa / 2 ^ n := by
  show (n.repeat ExtendedMantissa.shiftRightOne em).mantissa = _
  induction n with
  | zero => simp [Nat.repeat]
  | succ n ih =>
      rw [Nat.repeat, pow_succ, ← Nat.div_div_eq_div_mul, ← ih]
      rfl

/-- A finite number without its fraction. -/
theorem roundToInt_eq (sign : Sign) (m : ℕ) (e : ℤ) :
    UnpackedFloat.roundToInt sign m e = sign.apply (m * 2 ^ e.toNat / 2 ^ (-e).toNat : ℕ) := by
  unfold UnpackedFloat.roundToInt UnpackedFloat.decreaseExponent UnpackedFloat.shiftToExponent
  simp only [sub_zero, Nat.shiftLeft_eq, mantissa_shiftRight,
    show (0 - (e - (e.toNat : ℤ))).toNat = (-e).toNat by omega]
  rfl

/-- The rounded mantissa is the one that is at most half a unit away, the even one on a tie. -/
theorem Describes.roundedMantissa_eq {em : ExtendedMantissa} {r : ℚ} (h : Describes em r) {M : ℕ}
    (hlow : (M : ℚ) - 1 / 2 ≤ r) (hhigh : r ≤ M + 1 / 2)
    (htie : (r = M - 1 / 2 ∨ r = M + 1 / 2) → M % 2 = 0) : em.roundedMantissa = M := by
  obtain ⟨m, roundBit, stickyBit⟩ := em
  have hfloor := h.floor
  -- Only the mantissa and the next one are near enough.
  have hM : M = m ∨ M = m + 1 := by
    have hup : (M : ℚ) < m + 2 := by linarith
    have hdown : (m : ℚ) < M + 1 := by linarith
    norm_cast at hup hdown
    omega
  -- The two bits say on which side of the middle the number is, and only in the middle the tie is
  -- asked.
  cases roundBit <;> cases stickyBit <;>
    simp only [Describes, ExtendedMantissa.roundedMantissa, ExtendedMantissa.accuracy,
      Accuracy.roundToNearestEven] at h ⊢
  case false.false | false.true =>
    obtain rfl | rfl := hM
    · rfl
    · push_cast at hlow
      linarith
  case true.false =>
    obtain rfl | rfl := hM
    · have := htie (.inr h)
      omega
    · have := htie (.inl (by push_cast; linarith))
      omega
  case true.true =>
    obtain rfl | rfl := hM
    · linarith
    · rfl

/-- The mantissa and the exponent of a positive double: the mantissa has 53 bits, or fewer if the
    exponent is the least one. -/
structure Canonical (m : ℕ) (e : ℤ) : Prop where
  pos : 0 < m
  lt : m < 2 ^ 53
  least : -1074 ≤ e
  greatest : e ≤ 971
  normal : -1074 < e → 2 ^ 52 ≤ m

/-- A number lies in an interval. -/
def Span.Mem (span : Span) (r : ℚ) : Prop :=
  if span.closed then span.low * 2 ^ span.scale ≤ r ∧ r ≤ span.high * 2 ^ span.scale
  else span.low * 2 ^ span.scale < r ∧ r < span.high * 2 ^ span.scale

/-- The interval of a double, in quarters of its last place. -/
theorem Span.mem_of_iff {m : ℕ} {e : ℤ} {r : ℚ} :
    (Span.of m e).Mem (r * 2 ^ e) ↔
      if m % 2 = 0 then ((Span.of m e).low : ℚ) ≤ 4 * r ∧ 4 * r ≤ 4 * m + 2
      else ((Span.of m e).low : ℚ) < 4 * r ∧ 4 * r < 4 * m + 2 := by
  have hscale : (2 : ℚ) ^ (e - 2) = 2 ^ e / 4 := by
    rw [zpow_sub₀ two_ne_zero]
    norm_num
  have hpos : (0 : ℚ) < 2 ^ e / 4 := by positivity
  have hr : r * 2 ^ e = (4 * r) * (2 ^ e / 4) := by ring
  have hle (a b : ℚ) : a * (2 ^ e / 4) ≤ b * (2 ^ e / 4) ↔ a ≤ b := mul_le_mul_iff_left₀ hpos
  have hlt (a b : ℚ) : a * (2 ^ e / 4) < b * (2 ^ e / 4) ↔ a < b := mul_lt_mul_iff_left₀ hpos
  simp only [Span.Mem, show (Span.of m e).scale = e - 2 from rfl, hscale, hr, hle, hlt,
    show (Span.of m e).closed = (m % 2 == 0) from rfl, beq_iff_eq,
    show (Span.of m e).high = 4 * m + 2 from rfl]
  push_cast
  rfl

/-- What lies in an interval lies between its ends. -/
theorem Span.Mem.bounds {m : ℕ} {e : ℤ} {r : ℚ} (h : (Span.of m e).Mem (r * 2 ^ e)) :
    ((Span.of m e).low : ℚ) ≤ 4 * r ∧ 4 * r ≤ 4 * m + 2 := by
  rw [Span.mem_of_iff] at h
  split at h
  · exact h
  · exact ⟨h.1.le, h.2.le⟩

/-- The lower end lies half a unit of the last place below the double, or a quarter of one if the
    double is a power of two. -/
theorem Span.low_of {m : ℕ} (hm : 0 < m) (e : ℤ) :
    (4 * m - 2 : ℚ) ≤ (Span.of m e).low ∧
      (m = 2 ^ 52 → -1074 < e → ((Span.of m e).low : ℚ) = 4 * m - 1) := by
  simp only [Span.of]
  split
  · rw [Nat.cast_sub (by omega)]
    push_cast
    exact ⟨by linarith, fun _ _ => rfl⟩
  · rename_i hpower
    rw [Nat.cast_sub (by omega)]
    push_cast
    exact ⟨le_rfl, fun h he => absurd ⟨h, he⟩ hpower⟩

theorem targetExponent_binary64 (place : ℤ) :
    Format.binary64.targetExponent place = max (place - 53) (-1074) := by
  simp only [Format.targetExponent, Format.mantissaBits, Format.minExponent]
  norm_num

/-- A mantissa of at most 53 bits stays as it is. -/
theorem shiftToTargetExponent_of_lt {m : ℕ} {e : ℤ} (hm : m < 2 ^ 53) (he : -1074 ≤ e) :
    UnpackedFloat.shiftToTargetExponent .binary64 m e .exact = (⟨m, false, false⟩, e) := by
  have hlog : m.log2 ≤ 52 := by
    by_cases hzero : m = 0
    · simp [hzero]
    · have := (Nat.log2_lt hzero).mpr hm
      omega
  have hshift : (max (totalExponent m e - 53) (-1074) - e).toNat = 0 := by
    unfold totalExponent
    omega
  simp only [UnpackedFloat.shiftToTargetExponent, targetExponent_binary64,
    UnpackedFloat.shiftToExponent, hshift, Nat.cast_zero, add_zero]
  rfl

/-- A mantissa that was rounded up to one bit more loses its last bit, which is zero. -/
theorem shiftToTargetExponent_carry {e : ℤ} (he : -1074 ≤ e) :
    UnpackedFloat.shiftToTargetExponent .binary64 (2 ^ 53) e .exact =
      (⟨2 ^ 52, false, false⟩, e + 1) := by
  have hshift : (max (totalExponent (2 ^ 53) e - 53) (-1074) - e).toNat = 1 := by
    rw [totalExponent, Nat.log2_two_pow]
    omega
  simp only [UnpackedFloat.shiftToTargetExponent, targetExponent_binary64,
    UnpackedFloat.shiftToExponent, hshift, Nat.cast_one]
  rfl

/-- The first shift brings a number to 53 bits, or to fewer on the least scale. -/
theorem exists_shiftToTargetExponent {m : ℕ} {e : ℤ} {accuracy : Accuracy} {r : ℚ}
    (hr : Describes (.ofMantissaAndAccuracy m accuracy) r)
    (he : e ≤ Format.binary64.targetExponent (totalExponent m e)) :
    ∃ em t r', UnpackedFloat.shiftToTargetExponent .binary64 m e accuracy = (em, t) ∧
      Describes em r' ∧ r * 2 ^ e = r' * 2 ^ t ∧ -1074 ≤ t ∧ r' < 2 ^ 53 ∧
      (-1074 < t → 2 ^ 52 ≤ r') := by
  rw [targetExponent_binary64, totalExponent] at he
  obtain ⟨k, hk⟩ := Int.le.dest he
  -- Whatever was lost before, the number is between the mantissa and the next one.
  have hfloor : (m : ℚ) ≤ r ∧ r < m + 1 := by
    have hm : (ExtendedMantissa.ofMantissaAndAccuracy m accuracy).mantissa = m := by
      unfold ExtendedMantissa.ofMantissaAndAccuracy
      split <;> rfl
    simpa only [hm] using hr.floor
  refine ⟨_, e + k, r / 2 ^ k, ?_, hr.shiftRight k, ?_, by omega, ?_, ?_⟩
  · have hshift : (max (totalExponent m e - 53) (-1074) - e).toNat = k := by
      unfold totalExponent
      omega
    simp only [UnpackedFloat.shiftToTargetExponent, targetExponent_binary64,
      UnpackedFloat.shiftToExponent, hshift]
  · rw [zpow_add₀ two_ne_zero, zpow_natCast]
    field_simp
  · rw [div_lt_iff₀ (by positivity), ← pow_add]
    have hlog : m + 1 ≤ 2 ^ (53 + k) :=
      Nat.lt_log2_self.trans_le (Nat.pow_le_pow_right two_pos (by omega))
    exact hfloor.2.trans_le (by exact_mod_cast hlog)
  · intro ht
    rw [le_div_iff₀ (by positivity), ← pow_add]
    -- Above the least scale the shift leaves the leading bit in place 53.
    have hlog : m.log2 = 52 + k := by omega
    have hne : m ≠ 0 := by
      rintro rfl
      simp at hlog
      omega
    have hm : 2 ^ (52 + k) ≤ m := hlog ▸ Nat.log2_self_le hne
    exact le_trans (by exact_mod_cast hm) hfloor.1

section Scales

variable {em : ExtendedMantissa} {v : ℚ} {M : ℕ} {E : ℤ} (hM : Canonical M E)
include hM

/-- On the scale of a double, a number in its interval is rounded to its mantissa. -/
theorem rounded_on_own_scale (hv : Describes em v) (hmem : (Span.of M E).Mem (v * 2 ^ E)) :
    em.roundedMantissa = M := by
  have hlow := (Span.low_of hM.pos E).1
  refine hv.roundedMantissa_eq ?_ ?_ ?_
  · linarith [hmem.bounds]
  · linarith [hmem.bounds]
  · intro htie
    -- The ends belong to the interval of an even mantissa only.
    by_contra hodd
    rw [Span.mem_of_iff, if_neg hodd] at hmem
    obtain h | h := htie <;> linarith

/-- A scale on which a number in the interval has at most 53 bits is finer by one place only, and only
    just below a power of two. There the number is rounded up, and its mantissa carries. -/
theorem rounded_on_finer_scale {t : ℤ} (hv : Describes em v) (ht : -1074 ≤ t) (hlt : v < 2 ^ 53)
    (hmem : (Span.of M E).Mem (v * 2 ^ t)) (hfiner : t < E) :
    t + 1 = E ∧ M = 2 ^ 52 ∧ em.roundedMantissa = 2 ^ 53 := by
  have hlow := Span.low_of hM.pos E
  have hmantissa := hM.normal (by omega)
  obtain ⟨k, rfl⟩ := Int.lt.dest hfiner
  rw [show v * 2 ^ t = (v / 2 ^ (k + 1)) * 2 ^ (t + (k + 1 : ℕ)) by
    rw [zpow_add₀ two_ne_zero, zpow_natCast]; field_simp] at hmem
  have hbounds := hmem.bounds
  have hv0 : 0 ≤ v := le_trans (by positivity) hv.floor.1
  have hhalf : v / 2 ^ (k + 1) ≤ v / 2 :=
    div_le_div_of_nonneg_left hv0 two_pos (le_self_pow₀ one_le_two (by omega))
  -- The number is below 2^52 units of the double, and below half of that if the scale is finer by more
  -- than one place.
  obtain rfl : M = 2 ^ 52 := by
    by_contra hne
    have hnext : ((2 ^ 52 + 1 : ℕ) : ℚ) ≤ M := by
      exact_mod_cast Nat.lt_of_le_of_ne hmantissa (Ne.symm hne)
    push_cast at hnext
    linarith
  rw [hlow.2 rfl (by omega)] at hbounds
  push_cast at hbounds
  obtain rfl : k = 0 := by
    by_contra hne
    have hfourth : v / 2 ^ (k + 1) ≤ v / 2 ^ 2 :=
      div_le_div_of_nonneg_left hv0 (by positivity) (pow_le_pow_right₀ one_le_two (by omega))
    linarith
  refine ⟨rfl, rfl, hv.roundedMantissa_eq ?_ ?_ ?_⟩
  · push_cast
    linarith
  · push_cast
    linarith
  · intro _
    rfl

/-- A number in the interval has less than 53 bits on every coarser scale. -/
theorem not_on_coarser_scale {t : ℤ} (hnormal : -1074 < t → 2 ^ 52 ≤ v)
    (hmem : (Span.of M E).Mem (v * 2 ^ t)) : ¬ E < t := by
  intro hcoarser
  have hmantissa := hnormal (by linarith [hM.least])
  obtain ⟨k, rfl⟩ := Int.lt.dest hcoarser
  rw [show v * 2 ^ (E + (k + 1 : ℕ)) = (v * 2 ^ (k + 1)) * 2 ^ E by
    rw [zpow_add₀ two_ne_zero, zpow_natCast]; ring] at hmem
  have hM' : (M : ℚ) + 1 ≤ 2 ^ 53 := by exact_mod_cast hM.lt
  have hscaled : (2 : ℚ) ^ 52 * 2 ≤ v * 2 ^ (k + 1) :=
    mul_le_mul hmantissa (le_self_pow₀ one_le_two (by omega)) zero_le_two (by linarith)
  linarith [hmem.bounds]

/-- A number in the interval of a double is rounded on the scale of the double or on the next finer
    one. -/
theorem rounded_on_scale {t : ℤ} (hv : Describes em v) (ht : -1074 ≤ t) (hlt : v < 2 ^ 53)
    (hnormal : -1074 < t → 2 ^ 52 ≤ v) (hmem : (Span.of M E).Mem (v * 2 ^ t)) :
    (t = E ∧ em.roundedMantissa = M) ∨
      (t + 1 = E ∧ M = 2 ^ 52 ∧ em.roundedMantissa = 2 ^ 53) := by
  obtain hfiner | rfl | hcoarser := lt_trichotomy t E
  · exact .inr (rounded_on_finer_scale hM hv ht hlt hmem hfiner)
  · exact .inl ⟨rfl, rounded_on_own_scale hM hv hmem⟩
  · exact absurd hcoarser (not_on_coarser_scale hM hnormal hmem)

end Scales

/-- A number is rounded to the double in whose interval it lies. -/
theorem roundWithAccuracy_eq_of_mem {m : ℕ} {e : ℤ} {accuracy : Accuracy} {r : ℚ}
    (hr : Describes (.ofMantissaAndAccuracy m accuracy) r)
    (he : e ≤ Format.binary64.targetExponent (totalExponent m e)) {M : ℕ} {E : ℤ}
    (hM : Canonical M E) (hmem : (Span.of M E).Mem (r * 2 ^ e)) (sign : Sign) :
    UnpackedFloat.roundWithAccuracy .binary64 sign m e accuracy = .finite sign M E hM.pos := by
  obtain ⟨em, t, v, hshift, hv, hvalue, ht, hlt, hnormal⟩ := exists_shiftToTargetExponent hr he
  rw [hvalue] at hmem
  unfold UnpackedFloat.roundWithAccuracy
  simp only [hshift]
  obtain ⟨rfl, hrounded⟩ | ⟨rfl, rfl, hrounded⟩ := rounded_on_scale hM hv ht hlt hnormal hmem
  · simp only [hrounded, shiftToTargetExponent_of_lt hM.lt ht]
    rw [dif_neg hM.pos.ne']
  · simp only [hrounded, shiftToTargetExponent_carry ht]
    rw [dif_neg (by decide)]

/-- Rounding goes to the mantissa or to the next one. -/
theorem roundedMantissa_bounds (em : ExtendedMantissa) :
    em.mantissa ≤ em.roundedMantissa ∧ em.roundedMantissa ≤ em.mantissa + 1 := by
  obtain ⟨m, roundBit, stickyBit⟩ := em
  cases roundBit <;> cases stickyBit <;>
    simp only [ExtendedMantissa.roundedMantissa, ExtendedMantissa.accuracy,
      Accuracy.roundToNearestEven] <;> omega

/-- A mantissa of at least 53 bits is rounded to one of exactly 53. -/
theorem exists_roundWithAccuracy_eq {m : ℕ} {e : ℤ} (hbits : 2 ^ 52 ≤ m) (he : -1074 ≤ e)
    (sign : Sign) :
    ∃ M E, ∃ hM : 0 < M,
      UnpackedFloat.roundWithAccuracy .binary64 sign m e .exact = .finite sign M E hM ∧
        2 ^ 52 ≤ M ∧ M < 2 ^ 53 ∧ -1074 ≤ E := by
  have hlog : 52 ≤ m.log2 := (Nat.le_log2 (by omega)).mpr hbits
  obtain ⟨em, t, v, hshift, hv, hvalue, ht, hlt, hnormal⟩ :=
    exists_shiftToTargetExponent (e := e) (describes_exact m)
      (by rw [targetExponent_binary64, totalExponent]; omega)
  have hlarge : (2 ^ 52 : ℚ) ≤ v := by
    obtain hmore | rfl : -1074 < t ∨ t = -1074 := by omega
    · exact hnormal hmore
    · -- On the least scale there is nothing to drop.
      have hm : (2 ^ 52 : ℚ) ≤ m := by exact_mod_cast hbits
      have hscale : (2 ^ (-1074 : ℤ) : ℚ) ≤ 2 ^ e := zpow_le_zpow_right₀ one_le_two he
      refine hm.trans (le_of_mul_le_mul_right ?_ (by positivity : (0 : ℚ) < 2 ^ (-1074 : ℤ)))
      rw [← hvalue]
      exact mul_le_mul_of_nonneg_left hscale (by positivity)
  have hlow : 2 ^ 52 ≤ em.mantissa := by
    have hnext : (2 ^ 52 : ℚ) < em.mantissa + 1 := hlarge.trans_lt hv.floor.2
    exact Nat.le_of_lt_succ (by exact_mod_cast hnext)
  have hhigh : em.mantissa < 2 ^ 53 := by exact_mod_cast hv.floor.1.trans_lt hlt
  have hround := roundedMantissa_bounds em
  unfold UnpackedFloat.roundWithAccuracy
  simp only [hshift]
  -- Rounding up may need one bit more, and then the mantissa is a power of two on the next scale.
  by_cases hcarry : em.roundedMantissa < 2 ^ 53
  · simp only [shiftToTargetExponent_of_lt hcarry ht]
    exact ⟨em.roundedMantissa, t, by omega, dif_neg (by omega), by omega, hcarry, ht⟩
  · have hfull : em.roundedMantissa = 2 ^ 53 := by omega
    simp only [hfull, shiftToTargetExponent_carry ht]
    exact ⟨2 ^ 52, t + 1, by omega, dif_neg (by omega), le_rfl, by omega, by omega⟩

/-- A quotient of natural numbers, with the accuracy that its remainder gives. -/
theorem describes_quotient (a : ℕ) {b : ℕ} (hb : 0 < b) :
    Describes (.ofMantissaAndAccuracy (a / b) (UnpackedFloat.accuracyOfFraction (a % b) b))
      ((a : ℚ) / b) := by
  have hb' : (0 : ℚ) < b := by exact_mod_cast hb
  have hvalue : (a : ℚ) / b = (a / b : ℕ) + (a % b : ℕ) / b := by
    rw [add_div' _ _ _ hb'.ne', mul_comm]
    congr 1
    exact_mod_cast (Nat.div_add_mod a b).symm
  rw [hvalue]
  unfold UnpackedFloat.accuracyOfFraction
  split
  · rename_i hzero
    show _ = _
    rw [hzero]
    simp
  · rename_i hne
    have hrem : (0 : ℚ) < (a % b : ℕ) := by exact_mod_cast Nat.pos_of_ne_zero hne
    have hlt : ((a % b : ℕ) : ℚ) < b := by exact_mod_cast Nat.mod_lt a hb
    -- Twice the remainder is compared with the divisor, as the fraction is with a half.
    cases hcmp : compare (2 * (a % b)) b with
    | lt =>
        have hhalf : ((2 * (a % b) : ℕ) : ℚ) < b := by exact_mod_cast Nat.compare_eq_lt.mp hcmp
        push_cast at hhalf
        refine ⟨lt_add_of_pos_right _ (by positivity), add_lt_add_right ?_ _⟩
        rw [div_lt_iff₀ hb']
        linarith
    | eq =>
        have hhalf : ((2 * (a % b) : ℕ) : ℚ) = b := by exact_mod_cast Nat.compare_eq_eq.mp hcmp
        push_cast at hhalf
        show _ = _
        rw [← hhalf]
        field_simp
    | gt =>
        have hhalf : (b : ℚ) < (2 * (a % b) : ℕ) := by exact_mod_cast Nat.compare_eq_gt.mp hcmp
        push_cast at hhalf
        refine ⟨add_lt_add_right ?_ _, add_lt_add_right ?_ _⟩
        · rw [lt_div_iff₀ hb']
          linarith
        · rw [div_lt_one hb']
          exact hlt

section Arithmetic

variable {m₁ m₂ : ℕ} {e₁ e₂ : ℤ} (h₁ : 0 < m₁) (h₂ : 0 < m₂) {M : ℕ} {E : ℤ} (hM : Canonical M E)
include hM

/-- A product is the double in whose interval the exact product lies. It needs 53 bits, because
    rounding never adds any. -/
theorem mul_eq_of_mem {sign₁ sign₂ : Sign} (hbits : 2 ^ 52 ≤ m₁ * m₂)
    (hmem : (Span.of M E).Mem (m₁ * 2 ^ e₁ * (m₂ * 2 ^ e₂))) :
    UnpackedFloat.mul .binary64 (.finite sign₁ m₁ e₁ h₁) (.finite sign₂ m₂ e₂ h₂) =
      .finite (sign₁ * sign₂) M E hM.pos := by
  have hlog : 52 ≤ (m₁ * m₂).log2 := (Nat.le_log2 (by positivity)).mpr hbits
  refine roundWithAccuracy_eq_of_mem (describes_exact _) ?_ hM ?_ _
  · rw [targetExponent_binary64, totalExponent]
    omega
  · rw [zpow_add₀ two_ne_zero]
    push_cast
    convert hmem using 1
    ring

/-- A quotient is the double in whose interval the exact quotient lies. -/
theorem div_eq_of_mem (hmem : (Span.of M E).Mem (m₁ * 2 ^ e₁ / (m₂ * 2 ^ e₂))) :
    UnpackedFloat.div .binary64 (.finite .positive m₁ e₁ h₁) (.finite .positive m₂ e₂ h₂) =
      .finite .positive M E hM.pos := by
  show UnpackedFloat.roundWithAccuracy .binary64 _ (_ / _) _ _ = _
  refine roundWithAccuracy_eq_of_mem (describes_quotient _ h₂) ?_ hM ?_ _
  all_goals
    simp only [targetExponent_binary64, totalExponent]
    generalize ht : min (e₁ - e₂) (max (m₁.log2 + 1 + e₁ - (m₂.log2 + 1 + e₂) - 53) (-1074)) = t
    obtain ⟨k, hk⟩ := Int.le.dest (show t ≤ e₁ - e₂ by omega)
    rw [show (e₁ - e₂ - t).toNat = k by omega, Nat.shiftLeft_eq]
  · -- Enough places were added to the dividend for a quotient of 53 bits.
    by_cases hleast : t ≤ -1074
    · omega
    · have hdividend : 2 ^ (m₂.log2 + 1 + 52) ≤ m₁ * 2 ^ k :=
        calc 2 ^ (m₂.log2 + 1 + 52) ≤ 2 ^ (m₁.log2 + k) := Nat.pow_le_pow_right two_pos (by omega)
          _ = 2 ^ m₁.log2 * 2 ^ k := pow_add ..
          _ ≤ m₁ * 2 ^ k := Nat.mul_le_mul_right _ (Nat.log2_self_le h₁.ne')
      have hquotient : 2 ^ 52 ≤ m₁ * 2 ^ k / m₂ := by
        rw [Nat.le_div_iff_mul_le h₂]
        calc 2 ^ 52 * m₂ ≤ 2 ^ 52 * 2 ^ (m₂.log2 + 1) := Nat.mul_le_mul_left _ Nat.lt_log2_self.le
          _ = 2 ^ (m₂.log2 + 1 + 52) := by rw [← pow_add, add_comm]
          _ ≤ m₁ * 2 ^ k := hdividend
      have hlog : 52 ≤ (m₁ * 2 ^ k / m₂).log2 := (Nat.le_log2 (by omega)).mpr hquotient
      omega
  · -- The places added are taken back by the exponent.
    convert hmem using 1
    have hexp : (2 : ℚ) ^ e₁ = 2 ^ e₂ * 2 ^ t * 2 ^ k := by
      rw [← zpow_natCast, ← zpow_add₀ two_ne_zero, ← zpow_add₀ two_ne_zero]
      congr 1
      omega
    rw [hexp]
    push_cast
    field_simp

end Arithmetic

/-- The leading bit of a mantissa, which is not stored. -/
theorem toNat_leading (mantissa : BitVec 52) :
    (1#1 ++ mantissa).toNat = 2 ^ 52 + mantissa.toNat := by
  rw [BitVec.toNat_append, ← Nat.shiftLeft_add_eq_or_of_lt mantissa.isLt]
  simp [Nat.shiftLeft_eq]

/-- A finite double has canonical parts. -/
theorem canonical_of_unpack {x : Float.Model} {sign : Sign} {m : ℕ} {e : ℤ} {hm : 0 < m}
    (h : x.unpack = .finite sign m e hm) : Canonical m e := by
  unfold Float.Model.unpack UnpackedFloat.unpack at h
  simp only at h
  set mantissa := @unpackMantissa .binary64 x.toBits.toBitVec
  set exponent := @unpackExponent .binary64 x.toBits.toBitVec
  have hmantissa : mantissa.toNat < 2 ^ 52 := mantissa.isLt
  have hexponent : exponent.toNat < 2 ^ 11 := exponent.isLt
  split at h
  · split at h <;> cases h
  · rename_i hones
    split at h
    · rename_i hzero
      split at h
      · cases h
      · injection h with _ hm' he
        -- The stored exponent zero is that of the least scale, without a leading bit.
        have hleast : e = -1074 := by
          rw [← he, hzero]
          rfl
        exact ⟨hm, by omega, by omega, by omega, by omega⟩
    · rename_i hzero
      have hpos : exponent.toNat ≠ 0 := fun h => hzero (BitVec.eq_of_toNat_eq h)
      have hlt : exponent.toNat ≠ 2 ^ 11 - 1 := fun h => hones (BitVec.eq_of_toNat_eq h)
      injection h with _ hm' he
      -- All others have a leading bit that is not stored.
      have hm'' : m = 2 ^ 52 + mantissa.toNat := hm'.symm.trans (toNat_leading mantissa)
      have he' : e = exponent.toNat - 1075 := he.symm
      exact ⟨hm, by omega, by omega, by omega, by omega⟩

/-- The fields that canonical parts are packed to. -/
theorem pack_finite {m : ℕ} {e : ℤ} (h : Canonical m e) (sign : Sign) :
    UnpackedFloat.pack .binary64 (.finite sign m e h.pos) =
      packComponents .binary64 sign (BitVec.ofNat 11 (if m < 2 ^ 52 then 0 else (e + 1075).toNat))
        (BitVec.ofNat 52 m) := by
  obtain ⟨hpos, hlt, hleast, hgreatest, hnormal⟩ := h
  have hbiased : (e + Format.binary64.exponentBias +
      Format.binary64.mantissaBitsWithoutImplicit).toNat = (e + 1075).toNat := by
    simp [Format.exponentBias]
    omega
  unfold UnpackedFloat.pack
  simp only [hbiased]
  rw [if_neg (by simp; omega)]
  -- Whether the leading bit is there decides between the stored exponents.
  by_cases hsmall : m < 2 ^ 52
  · have hlog := (Nat.log2_lt hpos.ne').mpr hsmall
    rw [if_neg (by simp [Format.mantissaBits]; omega), if_pos hsmall]
  · have hlog := (Nat.log2_lt hpos.ne').mpr hlt
    have hlog' := (Nat.le_log2 hpos.ne').mpr (not_lt.mp hsmall)
    rw [if_pos (by simp [Format.mantissaBits]; omega), if_neg hsmall]

/-- Canonical parts survive packing. -/
theorem unpack_pack {m : ℕ} {e : ℤ} (h : Canonical m e) (sign : Sign) :
    (Float.Model.pack (.finite sign m e h.pos)).unpack = .finite sign m e h.pos := by
  show UnpackedFloat.unpack .binary64 (UnpackedFloat.pack .binary64 (.finite sign m e h.pos)) = _
  rw [pack_finite h]
  obtain ⟨hpos, hlt, hleast, hgreatest, hnormal⟩ := h
  unfold UnpackedFloat.unpack
  simp only [UnpackedFloat.unpackMantissa_packComponents,
    UnpackedFloat.unpackExponent_packComponents, UnpackedFloat.unpackSign_packComponents,
    Sign.ofBitVec_toBitVec]
  by_cases hsmall : m < 2 ^ 52
  · -- A small mantissa is stored as it is, and it is not zero.
    have hmantissa : (BitVec.ofNat 52 m).toNat = m := by
      rw [BitVec.toNat_ofNat, Nat.mod_eq_of_lt hsmall]
    have hne : BitVec.ofNat 52 m ≠ 0#_ := fun h => hpos.ne' (by rw [← hmantissa, h]; rfl)
    obtain rfl : e = -1074 := by omega
    rw [if_pos hsmall, if_neg (by decide), if_pos rfl, dif_neg hne]
    simp only [hmantissa]
    rfl
  · have hexponent : (BitVec.ofNat 11 (e + 1075).toNat).toNat = (e + 1075).toNat := by
      rw [BitVec.toNat_ofNat, Nat.mod_eq_of_lt (by omega)]
    have hmantissa : (1#1 ++ BitVec.ofNat 52 m).toNat = m := by
      rw [toNat_leading, BitVec.toNat_ofNat]
      omega
    -- The stored exponent is neither that of the small numbers nor that of infinity.
    rw [if_neg hsmall, if_neg, if_neg]
    · simp only [hmantissa, hexponent]
      congr 1
      simp [Format.exponentBias]
      omega
    · intro h
      have := congrArg BitVec.toNat h
      rw [hexponent] at this
      simp at this
      omega
    · intro h
      have := congrArg BitVec.toNat h
      rw [hexponent] at this
      simp [BitVec.neg_one_eq_allOnes] at this
      omega

/-- Packing a mantissa of 53 bits gives it back, or it overflows to infinity. -/
theorem unpack_pack_cases {m : ℕ} {e : ℤ} (hlow : 2 ^ 52 ≤ m) (hhigh : m < 2 ^ 53) (he : -1074 ≤ e)
    (hm : 0 < m) (sign : Sign) :
    (Float.Model.pack (.finite sign m e hm)).unpack = .finite sign m e hm ∨
      (Float.Model.pack (.finite sign m e hm)).unpack = .infinity sign := by
  by_cases hfits : e ≤ 971
  · exact .inl (unpack_pack ⟨hm, hhigh, he, hfits, fun _ => hlow⟩ sign)
  · right
    have hpack : UnpackedFloat.pack .binary64 (.finite sign m e hm) =
        UnpackedFloat.pack .binary64 (.infinity sign) := by
      unfold UnpackedFloat.pack
      simp only
      rw [if_pos]
      simp [Format.exponentBias]
      omega
    show UnpackedFloat.unpack .binary64 (UnpackedFloat.pack .binary64 (.finite sign m e hm)) = _
    rw [hpack]
    cases sign <;> rfl

end FieldLang.Number

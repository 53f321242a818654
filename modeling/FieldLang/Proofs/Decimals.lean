import FieldLang.Number.Numeral
import FieldLang.Proofs.Rounding

/-!
# Decimals and Their Doubles

A decimal is read as the double in whose interval it lies, and the digits that are shown for a double
lie in its interval, so they read back as that double.

Reading takes one of two ways. A decimal of few digits and a small exponent is one product or quotient
of doubles that are exact. Any other is a product or quotient of natural numbers, after a check that the
exponent is not out of all proportion; what the check turns away is no double's.

The search for the fewest digits looks at grids from coarse to fine, and what it finds on a grid is in
the interval by its own test. If it finds nothing, the exact value is cut off at the last grid. That
grid is finer than a quarter of the last place, which is what `ten_zpow_le_two_zpow` is for, so the
interval is not left.

## Theorems

* `round_eq_of_mem`: Rounding gives the double in whose interval a number lies.
* `exists_round_eq`: Natural numbers up to `2^53` stay exact.
* `ofDecimal_eq_of_mem`: A decimal is read as the double in whose interval it lies.
* `mem_shortest`: The shortest decimal of a double lies in its interval.
* `eq_withSign`: A finite number is its magnitude with its sign.
-/

namespace FieldLang.Number

open Float.Model
open Float.Model.UnpackedFloat (Sign)

/-- A power as a quotient of powers with natural exponents. -/
theorem zpow_eq_div {b : ℚ} (hb : b ≠ 0) (z : ℤ) : b ^ z = b ^ z.toNat / b ^ (-z).toNat := by
  rw [← zpow_natCast, ← zpow_natCast, ← zpow_sub₀ hb]
  congr 1
  omega

/-- A double lies in its own interval. -/
theorem Span.mem_self {m : ℕ} (hm : 0 < m) (e : ℤ) : (Span.of m e).Mem (m * 2 ^ e) := by
  have hlow : ((Span.of m e).low : ℚ) < 4 * m := by
    have : (Span.of m e).low < 4 * m := by
      simp only [Span.of]
      split <;> omega
    exact_mod_cast this
  rw [Span.mem_of_iff]
  split
  · exact ⟨hlow.le, by linarith⟩
  · exact ⟨hlow, by linarith⟩

/-- Everything that is rounded to a double lies in the range of doubles. -/
theorem Span.Mem.range {m : ℕ} {e : ℤ} (hm : Canonical m e) {r : ℚ}
    (h : (Span.of m e).Mem r) : (2 : ℚ) ^ (-1075 : ℤ) ≤ r ∧ r < 2 ^ (1024 : ℤ) := by
  obtain ⟨v, rfl⟩ : ∃ v, r = v * 2 ^ e := ⟨r / 2 ^ e, by field_simp⟩
  have hbounds := h.bounds
  have hlow := (Span.low_of hm.pos e).1
  have hpos : (1 : ℚ) ≤ m := by exact_mod_cast hm.pos
  have hlt : (m : ℚ) + 1 ≤ 2 ^ 53 := by exact_mod_cast hm.lt
  -- The bounds of the interval are largest and smallest at the ends of the range of exponents.
  constructor
  · calc (2 : ℚ) ^ (-1075 : ℤ) = 2 ^ (-1 : ℤ) * 2 ^ (-1074 : ℤ) := by
          rw [← zpow_add₀ two_ne_zero]
          norm_num
      _ ≤ v * 2 ^ e := by
          refine mul_le_mul ?_ (zpow_le_zpow_right₀ one_le_two hm.least) (by positivity) (by linarith)
          norm_num
          linarith
  · calc v * 2 ^ e ≤ v * 2 ^ (971 : ℤ) :=
          mul_le_mul_of_nonneg_left (zpow_le_zpow_right₀ one_le_two hm.greatest) (by linarith)
      _ < 2 ^ (53 : ℤ) * 2 ^ (971 : ℤ) := by
          refine mul_lt_mul_of_pos_right ?_ (by positivity)
          norm_num at hlt ⊢
          linarith
      _ = 2 ^ (1024 : ℤ) := by
          rw [← zpow_add₀ two_ne_zero]
          norm_num

/-- A decimal that is rounded to a positive double is not zero. -/
theorem pos_of_mem {n : ℕ} {k : ℤ} {m : ℕ} {e : ℤ} (hm : Canonical m e)
    (hmem : (Span.of m e).Mem (n * 10 ^ k)) : 0 < n := by
  rw [Nat.pos_iff_ne_zero]
  rintro rfl
  have hlow := (hmem.range hm).1
  rw [Nat.cast_zero, zero_mul] at hlow
  exact absurd hlow (not_le.mpr (by positivity))

/-- The nearest double of `n · 10^k`. -/
theorem ofScientific_eq_of_mem {n : ℕ} {k : ℤ} {m : ℕ} {e : ℤ} (hm : Canonical m e)
    (hmem : (Span.of m e).Mem (n * 10 ^ k)) :
    UnpackedFloat.ofScientific .binary64 n k = .finite .positive m e hm.pos := by
  obtain ⟨hlow, hhigh⟩ := hmem.range hm
  have hn := (pos_of_mem hm hmem).ne'
  unfold UnpackedFloat.ofScientific
  -- What passes the checks is a product or a quotient of natural numbers, by the sign of the
  -- exponent.
  rw [dif_neg hn, if_neg, if_neg]
  · by_cases hk : 0 ≤ k
    · obtain ⟨j, rfl⟩ := Int.eq_ofNat_of_zero_le hk
      rw [if_pos hk]
      refine mul_eq_of_mem _ _ hm ?_ ?_
      · rw [Nat.shiftLeft_eq]
        have : 0 < n * 10 ^ j := by positivity
        show 2 ^ 52 ≤ n * 2 ^ 53 * 10 ^ j
        nlinarith
      · convert hmem using 1
        rw [Nat.shiftLeft_eq]
        show ((n * 2 ^ 53 : ℕ) : ℚ) * 2 ^ (-53 : ℤ) * ((10 ^ j : ℕ) * 2 ^ (0 : ℤ)) = n * 10 ^ (j : ℤ)
        push_cast
        rw [zpow_natCast, zpow_neg]
        norm_num
        field_simp
    · obtain ⟨j, hj⟩ := Int.eq_ofNat_of_zero_le (show 0 ≤ -k by omega)
      obtain rfl : k = -j := by omega
      rw [if_neg hk]
      refine div_eq_of_mem _ _ hm ?_
      convert hmem using 1
      rw [neg_neg, Int.toNat_natCast, zpow_neg, zpow_natCast]
      push_cast
      field_simp
  · -- Below the safety check the decimal is below all doubles.
    intro hk
    have hk' : (n.log2 : ℤ) + 1 + k ≤ -1075 := by
      simp at hk
      omega
    have hpow : (10 : ℚ) ^ k ≤ 2 ^ k := by
      rw [← neg_neg k, zpow_neg, zpow_neg 2]
      exact inv_anti₀ (by positivity) (zpow_le_zpow_left₀ (by omega) zero_le_two (by norm_num))
    have hlog : (n : ℚ) < 2 ^ ((n.log2 : ℤ) + 1) := by exact_mod_cast @Nat.lt_log2_self n
    refine absurd hlow (not_le.mpr ?_)
    calc (n : ℚ) * 10 ^ k ≤ n * 2 ^ k := mul_le_mul_of_nonneg_left hpow (by positivity)
      _ < 2 ^ ((n.log2 : ℤ) + 1) * 2 ^ k := mul_lt_mul_of_pos_right hlog (by positivity)
      _ = 2 ^ ((n.log2 : ℤ) + 1 + k) := (zpow_add₀ two_ne_zero _ _).symm
      _ ≤ 2 ^ (-1075 : ℤ) := zpow_le_zpow_right₀ one_le_two hk'
  · -- Above the safety check it is above all doubles.
    intro hk
    have hk' : 1024 ≤ k := by
      simp at hk
      omega
    have hone : (1 : ℚ) ≤ n := by exact_mod_cast Nat.pos_of_ne_zero hn
    refine absurd hhigh (not_lt.mpr ?_)
    calc (2 : ℚ) ^ (1024 : ℤ) ≤ 2 ^ k := zpow_le_zpow_right₀ one_le_two hk'
      _ ≤ 10 ^ k := zpow_le_zpow_left₀ (by omega) zero_le_two (by norm_num)
      _ ≤ n * 10 ^ k := le_mul_of_one_le_left (by positivity) hone

/-- Rounding gives the double in whose interval a number lies. -/
theorem round_eq_of_mem {m : ℕ} {e : ℤ} {M : ℕ} {E : ℤ} (hM : Canonical M E)
    (hmem : (Span.of M E).Mem (m * 2 ^ e)) (sign : Sign) :
    UnpackedFloat.round .binary64 sign m e = .finite sign M E hM.pos := by
  -- Zero is in no interval.
  have hm : m ≠ 0 := by
    rintro rfl
    have hlow := (hmem.range hM).1
    rw [Nat.cast_zero, zero_mul] at hlow
    exact absurd hlow (not_le.mpr (by positivity))
  unfold UnpackedFloat.round UnpackedFloat.decreaseExponent
  simp only [Nat.shiftLeft_eq]
  generalize hk : (e - Format.binary64.targetExponent (totalExponent m e)).toNat = k
  refine roundWithAccuracy_eq_of_mem (describes_exact _) ?_ hM ?_ _
  · -- Zeros behind the mantissa leave the place of its first bit as it is.
    have hlog : m.log2 + k ≤ (m * 2 ^ k).log2 := by
      rw [Nat.le_log2 (by positivity), pow_add]
      exact Nat.mul_le_mul_right _ (Nat.log2_self_le hm)
    rw [targetExponent_binary64, totalExponent] at hk ⊢
    omega
  · rw [zpow_sub₀ two_ne_zero, zpow_natCast]
    push_cast
    convert hmem using 1
    field_simp

/-- A natural number up to `2^53` has canonical parts, and a mantissa with all bits. -/
theorem exists_canonical {n : ℕ} (hn : 0 < n) (hle : n ≤ 2 ^ 53) :
    ∃ m e, Canonical m e ∧ 2 ^ 52 ≤ m ∧ (m * 2 ^ e : ℚ) = n := by
  obtain rfl | hlt := hle.eq_or_lt
  · -- The number itself has one bit too many, of which the last one is zero.
    exact ⟨2 ^ 52, 1, ⟨by decide, by decide, by decide, by decide, fun _ => le_rfl⟩, le_rfl, by norm_num⟩
  have hlog := (Nat.log2_lt hn.ne').mpr hlt
  -- Zeros are put behind the number until it has 53 bits.
  obtain ⟨s, hs⟩ := Nat.exists_eq_add_of_le (Nat.le_of_lt_succ hlog)
  have hlow : 2 ^ 52 ≤ n * 2 ^ s :=
    calc 2 ^ 52 = 2 ^ n.log2 * 2 ^ s := by rw [hs, pow_add]
      _ ≤ n * 2 ^ s := Nat.mul_le_mul_right _ (Nat.log2_self_le hn.ne')
  have hhigh : n * 2 ^ s < 2 ^ 53 :=
    calc n * 2 ^ s < 2 ^ (n.log2 + 1) * 2 ^ s :=
          Nat.mul_lt_mul_of_pos_right Nat.lt_log2_self (by positivity)
      _ = 2 ^ 53 := by rw [← pow_add]; congr 1; omega
  refine ⟨n * 2 ^ s, -s, ⟨by omega, hhigh, by omega, by omega, fun _ => hlow⟩, hlow, ?_⟩
  push_cast
  rw [zpow_neg, zpow_natCast]
  field_simp

/-- What is a natural number up to `2^53` stays exact when it is rounded. -/
theorem exists_round_eq {n : ℕ} (hn : 0 < n) (hle : n ≤ 2 ^ 53) {m : ℕ} {e : ℤ}
    (hvalue : (m * 2 ^ e : ℚ) = n) (sign : Sign) :
    ∃ M E, ∃ hM : Canonical M E, UnpackedFloat.round .binary64 sign m e = .finite sign M E hM.pos ∧
      2 ^ 52 ≤ M ∧ (M * 2 ^ E : ℚ) = n := by
  obtain ⟨M, E, hM, hbits, hexact⟩ := exists_canonical hn hle
  refine ⟨M, E, hM, round_eq_of_mem hM ?_ sign, hbits, hexact⟩
  rw [hvalue, ← hexact]
  exact Span.mem_self hM.pos _

theorem ofNat_eq_round {n : ℕ} (hn : 0 < n) :
    UnpackedFloat.ofNat .binary64 n = .round .binary64 .positive n 0 := by
  have hsign : compare (n : ℤ) 0 = .gt := Int.compare_eq_gt.mpr (by omega)
  unfold UnpackedFloat.ofNat UnpackedFloat.ofInt UnpackedFloat.normalize
  simp only [hsign, Int.toNat_natCast]

/-- A natural number of at most 53 bits is a double. -/
theorem exists_unpack_toFloat {n : ℕ} (hn : 0 < n) (hlt : n < 2 ^ 53) :
    ∃ m e hm, n.toUInt64.toFloat.toModel.unpack = .finite .positive m e hm ∧ 2 ^ 52 ≤ m ∧
      (m * 2 ^ e : ℚ) = n := by
  have hword : n.toUInt64.toNat = n := by
    rw [Nat.toUInt64, UInt64.toNat_ofNat', Nat.mod_eq_of_lt (by omega)]
  show ∃ m e hm, (Float.Model.pack (UnpackedFloat.ofNat .binary64 n.toUInt64.toNat)).unpack = _ ∧ _
  obtain ⟨m, e, hm, hround, hbits, hexact⟩ :=
    exists_round_eq hn hlt.le (by rw [zpow_zero, mul_one] : (n * 2 ^ (0 : ℤ) : ℚ) = n) .positive
  refine ⟨m, e, hm.pos, ?_, hbits, hexact⟩
  rw [hword, ofNat_eq_round hn, hround, unpack_pack hm]

/-- Whether a number is exactly a power of ten. -/
def isPowerOfTen (k : ℕ) : UnpackedFloat → Bool
  | .finite .positive m e _ => m * Nat.pow 2 e.toNat == Nat.pow 10 k * Nat.pow 2 (-e).toNat
  | _ => false

/-- The powers of ten in the table are exact. -/
theorem isPowerOfTen_table : ∀ k : Fin 23,
    isPowerOfTen k Float.exactlyRepresentablePowersOfTen[k].toModel.unpack = true := by
  decide +kernel

theorem exists_of_isPowerOfTen {k : ℕ} {u : UnpackedFloat} (h : isPowerOfTen k u = true) :
    ∃ m e hm, u = .finite .positive m e hm ∧ (m * 2 ^ e : ℚ) = 10 ^ k := by
  cases u with
  | finite sign m e hm =>
      cases sign with
      | positive =>
          refine ⟨m, e, hm, rfl, ?_⟩
          have hnat : m * 2 ^ e.toNat = 10 ^ k * 2 ^ (-e).toNat := beq_iff_eq.mp h
          have hrat : (m : ℚ) * 2 ^ e.toNat = 10 ^ k * 2 ^ (-e).toNat := by exact_mod_cast hnat
          rw [zpow_eq_div two_ne_zero, mul_div_assoc', hrat, mul_div_cancel_right₀ _ (by positivity)]
      | negative => cases h
  | _ => cases h

/-- Reading a decimal gives the double in whose interval it lies. -/
theorem ofDecimal_eq_of_mem {n : ℕ} {k : ℤ} {m : ℕ} {e : ℤ} (hm : Canonical m e)
    (hmem : (Span.of m e).Mem (n * 10 ^ k)) :
    ofDecimal n k = .ofModel (.pack (.finite .positive m e hm.pos)) := by
  unfold ofDecimal Float.ofScientific
  split
  · -- Numerals of at most 53 bits with a small exponent are scaled by one operation on exact doubles.
    rename_i hsmall
    obtain ⟨m₁, e₁, h₁, hunpack₁, hbits, hvalue₁⟩ :=
      exists_unpack_toFloat (pos_of_mem hm hmem) hsmall.1
    obtain ⟨m₂, e₂, h₂, hunpack₂, hvalue₂⟩ :=
      exists_of_isPowerOfTen (isPowerOfTen_table ⟨k.natAbs, by omega⟩)
    split
    · rename_i hk
      have hmem' : (Span.of m e).Mem (m₁ * 2 ^ e₁ / (m₂ * 2 ^ e₂)) := by
        have hk' : k = -(k.natAbs : ℤ) := by
          have := of_decide_eq_true hk
          omega
        rw [hvalue₁, hvalue₂]
        rwa [hk', zpow_neg, zpow_natCast, ← div_eq_mul_inv] at hmem
      rw [← div_eq_of_mem h₁ h₂ hm hmem', ← hunpack₁, ← hunpack₂]
      rfl
    · rename_i hk
      have hmem' : (Span.of m e).Mem (m₁ * 2 ^ e₁ * (m₂ * 2 ^ e₂)) := by
        have hk' : k = (k.natAbs : ℤ) := by
          have := of_decide_eq_false (Bool.not_eq_true _ ▸ hk)
          omega
        rw [hvalue₁, hvalue₂]
        rwa [hk', zpow_natCast] at hmem
      have hproduct : UnpackedFloat.mul .binary64 (.finite .positive m₁ e₁ h₁)
          (.finite .positive m₂ e₂ h₂) = .finite .positive m e hm.pos :=
        mul_eq_of_mem h₁ h₂ hm (by nlinarith) hmem'
      rw [← hproduct, ← hunpack₁, ← hunpack₂]
      rfl
  · -- All other decimals are read as products or quotients of natural numbers.
    rw [← ofScientific_eq_of_mem hm hmem]
    have hk : (if decide (k < 0) = true then Int.negOfNat k.natAbs else Int.ofNat k.natAbs) = k := by
      split
      · rename_i hk
        have := of_decide_eq_true hk
        rw [Int.negOfNat_eq, Int.ofNat_eq_natCast]
        omega
      · rename_i hk
        have := of_decide_eq_false (Bool.not_eq_true _ ▸ hk)
        rw [Int.ofNat_eq_natCast]
        omega
    simp only [hk]
    rfl

/-- The units of a grid as a rational number. -/
theorem Span.units_eq (span : Span) (grid : ℤ) :
    0 < (span.units grid).2 ∧
      ((span.units grid).1 : ℚ) / (span.units grid).2 = 2 ^ span.scale / 10 ^ grid := by
  constructor
  · show 0 < 2 ^ _ * 10 ^ _
    positivity
  · show ((2 ^ span.scale.toNat * 10 ^ (-grid).toNat : ℕ) : ℚ) /
      ((2 ^ (-span.scale).toNat * 10 ^ grid.toNat : ℕ) : ℚ) = _
    rw [zpow_eq_div two_ne_zero span.scale, zpow_eq_div (by norm_num : (10 : ℚ) ≠ 0) grid]
    push_cast
    field_simp

/-- Comparing with a point of a grid, in units of the grid. -/
theorem Span.le_grid_iff {span : Span} {grid : ℤ} {a n : ℕ} :
    a * (span.units grid).1 ≤ n * (span.units grid).2 ↔
      (a * 2 ^ span.scale : ℚ) ≤ n * 10 ^ grid := by
  obtain ⟨hpos, hunits⟩ := span.units_eq grid
  have hpos' : (0 : ℚ) < (span.units grid).2 := by exact_mod_cast hpos
  rw [← Nat.cast_le (α := ℚ)]
  push_cast
  rw [← div_le_iff₀ hpos', mul_div_assoc, hunits, ← mul_div_assoc, div_le_iff₀ (by positivity)]

theorem Span.grid_le_iff {span : Span} {grid : ℤ} {a n : ℕ} :
    n * (span.units grid).2 ≤ a * (span.units grid).1 ↔
      (n * 10 ^ grid : ℚ) ≤ a * 2 ^ span.scale := by
  obtain ⟨hpos, hunits⟩ := span.units_eq grid
  have hpos' : (0 : ℚ) < (span.units grid).2 := by exact_mod_cast hpos
  rw [← Nat.cast_le (α := ℚ)]
  push_cast
  rw [← le_div_iff₀ hpos', mul_div_assoc, hunits, ← mul_div_assoc, le_div_iff₀ (by positivity)]

/-- The test on a grid is about the interval. -/
theorem Span.contains_iff {span : Span} {grid : ℤ} {n : ℕ} :
    span.contains grid n = true ↔ span.Mem (n * 10 ^ grid) := by
  unfold Span.contains Span.Mem
  simp only
  split
  · rw [Bool.and_eq_true, decide_eq_true_iff, decide_eq_true_iff, Span.le_grid_iff, Span.grid_le_iff]
  · rw [Bool.and_eq_true, decide_eq_true_iff, decide_eq_true_iff, ← not_le, ← not_le, Span.le_grid_iff,
      Span.grid_le_iff, not_le, not_le]

/-- A decimal found on a grid lies in the interval. -/
theorem Span.mem_of_onGrid {span : Span} {tie : Tie} {grid : ℤ} {d : Decimal}
    (h : span.onGrid tie grid = some d) : span.Mem (d.digits * 10 ^ d.exponent) := by
  rw [← Span.contains_iff]
  unfold Span.onGrid at h
  simp only at h
  cases hbelow : span.contains grid (span.value * (span.units grid).1 / (span.units grid).2) <;>
    cases habove : span.contains grid (span.value * (span.units grid).1 / (span.units grid).2 + 1) <;>
    simp only [hbelow, habove] at h
  case false.false => cases h
  case false.true => cases h; exact habove
  case true.false => cases h; exact hbelow
  case true.true =>
    -- Both neighbours are in the interval, so it does not matter which is nearer.
    split at h
    · cases h
      exact hbelow
    · cases h
      exact habove
    · split at h
      · cases h
        exact habove
      · cases h
        simp only
        split
        · exact hbelow
        · exact habove

/-- If the last grid is finer than a quarter of the last place, the search ends in the interval. -/
theorem Span.mem_search {span : Span} (hlow : span.low < span.value) (hhigh : span.value < span.high)
    (tie : Tie) (count : ℕ) {grid : ℤ} (hfine : (10 : ℚ) ^ (grid - count) ≤ 2 ^ span.scale) :
    span.Mem ((span.search tie count grid).digits * 10 ^ (span.search tie count grid).exponent) := by
  -- A grid that is found is right by its own test, so only the cut at the last grid needs the bound.
  induction count generalizing grid with
  | zero =>
      rw [Nat.cast_zero, sub_zero] at hfine
      simp only [Span.search]
      set below := span.value * (span.units grid).1 / (span.units grid).2
      have hbelow : (below * 10 ^ grid : ℚ) ≤ span.value * 2 ^ span.scale :=
        Span.grid_le_iff.mp (Nat.div_mul_le_self ..)
      have habove : (span.value * 2 ^ span.scale : ℚ) < (below + 1 : ℕ) * 10 ^ grid := by
        rw [← not_le, ← Span.grid_le_iff, not_le]
        exact Nat.lt_mul_of_div_lt (Nat.lt_succ_self _) (span.units_eq grid).1
      have hscale : (0 : ℚ) < 2 ^ span.scale := by positivity
      -- What is cut off is less than a unit of the grid, and that is no more than one of the scale.
      have hlow' : ((span.low : ℚ) + 1) * 2 ^ span.scale ≤ span.value * 2 ^ span.scale :=
        mul_le_mul_of_nonneg_right (by exact_mod_cast hlow) hscale.le
      have hhigh' : (span.value * 2 ^ span.scale : ℚ) < span.high * 2 ^ span.scale :=
        mul_lt_mul_of_pos_right (by exact_mod_cast hhigh) hscale
      push_cast at habove
      unfold Span.Mem
      split <;> constructor <;> linarith
  | succ count ih =>
      simp only [Span.search]
      split
      · rename_i d hd
        exact Span.mem_of_onGrid hd
      · refine ih ?_
        convert hfine using 2
        push_cast
        ring

/-- How many decimal places make up for binary ones. -/
theorem ten_zpow_le_two_zpow {grid scale : ℤ} (h : 100000 * grid + 244335 ≤ 30103 * scale)
    (hlow : -2000 ≤ scale) (hhigh : scale ≤ 2000) : (10 : ℚ) ^ grid ≤ 2 ^ scale := by
  obtain hgrid | hgrid := le_total 0 grid
  · -- A thousand is at most 2^10.
    rw [← pow_le_pow_iff_left₀ (by positivity) (by positivity) (show 3 ≠ 0 by norm_num)]
    calc ((10 : ℚ) ^ grid) ^ 3 = (10 ^ 3) ^ grid := by rw [← zpow_natCast, ← zpow_natCast, zpow_comm]
      _ ≤ (2 ^ 10) ^ grid := zpow_le_zpow_left₀ hgrid (by norm_num) (by norm_num)
      _ = 2 ^ (10 * grid) := by rw [zpow_mul]; norm_num
      _ ≤ 2 ^ (3 * scale) := zpow_le_zpow_right₀ one_le_two (by omega)
      _ = (2 ^ scale) ^ 3 := by rw [← zpow_natCast, ← zpow_mul, mul_comm]; norm_num
  · -- Here the powers are those of fractions, and 2^93 is at most 10^28.
    rw [← pow_le_pow_iff_left₀ (by positivity) (by positivity) (show 28 ≠ 0 by norm_num)]
    calc ((10 : ℚ) ^ grid) ^ 28 = (10 ^ 28) ^ grid := by
          rw [← zpow_natCast, ← zpow_natCast, zpow_comm]
      _ ≤ (2 ^ 93) ^ grid := by
          rw [← neg_neg grid, zpow_neg, zpow_neg (2 ^ 93)]
          exact inv_anti₀ (by positivity) (zpow_le_zpow_left₀ (by omega) (by norm_num) (by norm_num))
      _ = 2 ^ (93 * grid) := by rw [zpow_mul]; norm_num
      _ ≤ 2 ^ (28 * scale) := zpow_le_zpow_right₀ one_le_two (by omega)
      _ = (2 ^ scale) ^ 28 := by rw [← zpow_natCast, ← zpow_mul, mul_comm]; norm_num

/-- The shortest decimal of a double lies in its interval. -/
theorem mem_shortest {m : ℕ} {e : ℤ} (hm : Canonical m e) (tie : Tie) :
    (Span.of m e).Mem ((shortest tie m e).digits * 10 ^ (shortest tie m e).exponent) := by
  have hlog := (Nat.log2_lt hm.pos.ne').mpr hm.lt
  have hpos := hm.pos
  have hleast := hm.least
  have hgreatest := hm.greatest
  refine Span.mem_search ?_ ?_ tie 20 (ten_zpow_le_two_zpow ?_ ?_ ?_)
  · simp only [Span.of]
    split <;> omega
  · simp only [Span.of]
    omega
  all_goals simp only [Span.of, coarsestGrid]; omega

/-- A double is what its parts are put together to. -/
theorem ofModel_pack_of_unpack {x : Float} {u : UnpackedFloat} (h : x.toModel.unpack = u) :
    Float.ofModel (.pack u) = x := by
  rw [← h]
  exact Float.ofBits_toBits x

/-- A finite number is the double of its magnitude with its sign. -/
theorem eq_withSign {x : Float} {sign : Sign} {m : ℕ} {e : ℤ} {hm : 0 < m}
    (hx : x.toModel.unpack = .finite sign m e hm) :
    x = withSign (sign == .negative) (.ofModel (.pack (.finite .positive m e hm))) := by
  have hcanonical := canonical_of_unpack hx
  have hpack := ofModel_pack_of_unpack hx
  cases sign with
  | positive => exact hpack.symm
  | negative =>
      have hneg : -Float.ofModel (.pack (.finite .positive m e hm)) =
          .ofModel (.pack (Float.Model.pack (.finite .positive m e hm)).unpack.neg) := rfl
      show x = -Float.ofModel (.pack (.finite .positive m e hm))
      rw [hneg, unpack_pack hcanonical]
      exact hpack.symm

end FieldLang.Number

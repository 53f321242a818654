import FieldLang.Proofs.NumberValues

/-!
# Nearest Doubles

What it means that a number is rounded to the nearest double, said by distances alone: no finite double
lies closer. The interval of a double was introduced as the numbers that are rounded to it. Here it is
shown that its numbers are those that no other double is closer to, so that rounding does what its name
says.

Of the doubles only the neighbours matter. A larger one lies above by at least a unit of the last place.
A smaller one lies below by as much, or by half of that if the double is a power of two, and then the
interval reaches down only half as far as well.

## Main definitions

* `IsNearest`: No finite double is closer to a number.
* `InRange`: Zero, and what lies between the least positive double and the greatest one.

## Theorems

* `isNearest_of_mem`: A double is nearest to the numbers of its interval.
* `exists_span`: What lies in range lies in the interval of a double.
* `isNearest_ofDecimal`: A decimal in range is converted to the nearest double.
* `isNearest_ofInt`: So is an integer of at most 64 bits.
-/

namespace FieldLang.Number

open Float.Model
open Float.Model.UnpackedFloat (Sign)

/-- A double is finite, and no other finite one is closer to a number. -/
structure IsNearest (x : Float) (r : ℚ) : Prop where
  finite : x.isFinite = true
  closest : ∀ y : Float, y.isFinite = true → |value x - r| ≤ |value y - r|

section Neighbours

variable {m n : ℕ} {e f : ℤ} (hm : Canonical m e) (hn : Canonical n f)
include hm hn

/-- A larger double is larger by a unit of the last place. -/
theorem succ_scaled_le (h : (m * 2 ^ e : ℚ) < n * 2 ^ f) : ((m + 1) * 2 ^ e : ℚ) ≤ n * 2 ^ f := by
  have hlt : (m + 1 : ℚ) ≤ 2 ^ 53 := by exact_mod_cast hm.lt
  obtain hlower | rfl | hhigher := lt_trichotomy e f
  · calc ((m + 1) * 2 ^ e : ℚ) ≤ 2 ^ 53 * 2 ^ e := mul_le_mul_of_nonneg_right hlt (by positivity)
      _ ≤ n * 2 ^ f := full_le_scaled hm.least hn hlower
  · have hpos : (0 : ℚ) < 2 ^ e := by positivity
    rw [mul_lt_mul_iff_left₀ hpos, Nat.cast_lt] at h
    exact mul_le_mul_of_nonneg_right (by exact_mod_cast h) hpos.le
  · exact absurd h (scaled_lt_of_lt hn hm hhigher).not_gt

/-- A smaller double is smaller by a unit of the last place, or by half a unit than a power of two. -/
theorem scaled_le_pred (h : (n * 2 ^ f : ℚ) < m * 2 ^ e) :
    (n * 2 ^ f : ℚ) ≤ (m - 1) * 2 ^ e ∨
      m = 2 ^ 52 ∧ -1074 < e ∧ (n * 2 ^ f : ℚ) ≤ (m - 1 / 2) * 2 ^ e := by
  have hpos : (0 : ℚ) < 2 ^ e := by positivity
  obtain hlower | rfl | hhigher := lt_trichotomy f e
  · -- On a lower scale the other double is below the least one of this scale, by half a unit of it.
    have hnormal := hm.normal (by linarith [hn.least])
    have hbelow : (n * 2 ^ f : ℚ) ≤ (2 ^ 52 - 1 / 2) * 2 ^ e := by
      have hlt : (n : ℚ) ≤ 2 ^ 53 - 1 := by
        have : (n + 1 : ℚ) ≤ 2 ^ 53 := by exact_mod_cast hn.lt
        linarith
      have hscale : (2 : ℚ) ^ e = 2 * 2 ^ (e - 1) := by
        rw [zpow_sub₀ two_ne_zero]
        field_simp
      calc (n * 2 ^ f : ℚ) ≤ (2 ^ 53 - 1) * 2 ^ (e - 1) :=
            mul_le_mul hlt (zpow_le_zpow_right₀ one_le_two (by omega)) (by positivity) (by norm_num)
        _ = (2 ^ 52 - 1 / 2) * 2 ^ e := by
            rw [hscale]
            ring
    obtain heq | hmore := hnormal.eq_or_lt
    · refine .inr ⟨heq.symm, by linarith [hn.least], ?_⟩
      rw [← heq]
      exact_mod_cast hbelow
    · have hsucc : (2 ^ 52 + 1 : ℚ) ≤ m := by exact_mod_cast hmore
      refine .inl (hbelow.trans (mul_le_mul_of_nonneg_right ?_ hpos.le))
      linarith
  · -- On the same scale the mantissas differ by one at least.
    rw [mul_lt_mul_iff_left₀ hpos, Nat.cast_lt] at h
    have hsucc : (n + 1 : ℚ) ≤ m := by exact_mod_cast h
    exact .inl (mul_le_mul_of_nonneg_right (by linarith) hpos.le)
  · exact absurd h (scaled_lt_of_lt hm hn hhigher).not_gt

end Neighbours

section Distances

variable {x y r : ℚ}

/-- Up to the middle between two numbers the smaller one is closer. -/
theorem dist_le_of_lt (h : x < y) (hr : 2 * r ≤ x + y) : |x - r| ≤ |y - r| := by
  obtain hle | hgt := le_or_gt r x
  · rw [abs_of_nonneg (sub_nonneg.mpr hle), abs_of_nonneg (by linarith)]
    linarith
  · rw [abs_of_neg (sub_neg.mpr hgt), abs_of_nonneg (by linarith)]
    linarith

/-- From the middle between two numbers on the larger one is closer. -/
theorem dist_le_of_gt (h : y < x) (hr : x + y ≤ 2 * r) : |x - r| ≤ |y - r| := by
  obtain hle | hgt := le_or_gt x r
  · rw [abs_of_nonpos (sub_nonpos.mpr hle), abs_of_nonpos (by linarith)]
    linarith
  · rw [abs_of_pos (sub_pos.mpr hgt), abs_of_nonpos (by linarith)]
    linarith

end Distances

section Nearest

/-- A finite double that stands for a positive number has canonical parts. -/
theorem exists_canonical_of_pos {y : Float} (hy : y.isFinite = true) (hpos : 0 < value y) :
    ∃ n f, Canonical n f ∧ value y = n * 2 ^ f := by
  unfold value at hpos ⊢
  obtain ⟨sign, hu⟩ | ⟨sign, n, f, hn, hu⟩ := unpack_of_isFinite hy
  · rw [hu] at hpos
    exact absurd hpos (lt_irrefl 0)
  · rw [hu] at hpos ⊢
    cases sign with
    | positive => exact ⟨n, f, canonical_of_unpack hu, by simp [exactValue, Sign.apply]⟩
    | negative =>
        have : (0 : ℚ) < n * 2 ^ f := by positivity
        simp only [exactValue, Sign.apply, Int.cast_neg, Int.cast_natCast, neg_mul] at hpos
        linarith

/-- A double is nearest to the numbers of its interval. -/
theorem isNearest_of_mem {x : Float} {m : ℕ} {e : ℤ} {hm : 0 < m} {r : ℚ}
    (hx : x.toModel.unpack = .finite .positive m e hm) (hr : (Span.of m e).Mem r) :
    IsNearest x r := by
  have hc := canonical_of_unpack hx
  have hvalue : value x = m * 2 ^ e := by
    rw [value, hx]
    simp [exactValue, Sign.apply]
  have hpow : (0 : ℚ) < 2 ^ e := by positivity
  obtain ⟨v, rfl⟩ : ∃ v, r = v * 2 ^ e := ⟨r / 2 ^ e, by field_simp⟩
  obtain ⟨hlow, hhigh⟩ := hr.bounds
  obtain ⟨hhalf, hquarter⟩ := Span.low_of hm e
  have hone : (1 : ℚ) ≤ m := by exact_mod_cast hm
  refine ⟨?_, fun y hy => ?_⟩
  · show x.toModel.unpack.isFinite = true
    rw [hx]
    rfl
  · rw [hvalue]
    by_cases hpos : 0 < value y
    · obtain ⟨n, f, hn, hyvalue⟩ := exists_canonical_of_pos hy hpos
      rw [hyvalue]
      -- A double on one side of this one is no nearer if the number is in the half of the gap that
      -- belongs to the interval.
      obtain hlt | heq | hgt := lt_trichotomy (m * 2 ^ e : ℚ) (n * 2 ^ f)
      · refine dist_le_of_lt hlt ?_
        have := succ_scaled_le hc hn hlt
        nlinarith
      · rw [heq]
      · refine dist_le_of_gt hgt ?_
        obtain hunit | ⟨hpower, hleast, hunit⟩ := scaled_le_pred hc hn hgt
        · nlinarith
        · have := hquarter hpower hleast
          nlinarith
    · -- A number of the interval is not closer to zero than to the double.
      have hnonpos := not_lt.mp hpos
      have : (m * 2 ^ e : ℚ) ≤ 2 * (v * 2 ^ e) := by nlinarith
      exact dist_le_of_gt (by nlinarith) (by linarith)

/-- Distances stay when signs change. -/
theorem IsNearest.neg {x : Float} {r : ℚ} (h : IsNearest x r) : IsNearest (-x) (-r) := by
  refine ⟨(isFinite_neg x).trans h.finite, fun y hy => ?_⟩
  have hclosest := h.closest (-y) ((isFinite_neg y).trans hy)
  have hleft : |value (-x) - -r| = |value x - r| := by
    rw [value_neg, neg_sub_neg, abs_sub_comm]
  have hright : |value y - -r| = |value (-y) - r| := by
    rw [value_neg, ← abs_neg]
    congr 1
    ring
  rwa [hleft, hright]

theorem IsNearest.isNaN {x : Float} {r : ℚ} (h : IsNearest x r) : x.isNaN = false :=
  isNaN_of_isFinite h.finite

end Nearest

section Range

/-- Zero, and what lies between the least positive double and the greatest one, on either side. -/
def InRange (r : ℚ) : Prop :=
  r = 0 ∨ 2 ^ (-1074 : ℤ) ≤ |r| ∧ |r| ≤ (2 ^ 53 - 1) * 2 ^ (971 : ℤ)

/-- At the least scale the lower end lies half a unit of the last place below every double. -/
theorem Span.low_of_least {m : ℕ} (hm : 0 < m) : ((Span.of m (-1074)).low : ℚ) = 4 * m - 2 := by
  have hlow : (Span.of m (-1074)).low + 2 = 4 * m := by
    simp only [Span.of]
    rw [if_neg (fun h => absurd h.2 (by decide))]
    omega
  have : ((Span.of m (-1074)).low + 2 : ℚ) = 4 * m := by exact_mod_cast hlow
  linarith

/-- What has at most 53 bits before the point, on a scale of doubles, lies in the interval of a double. On
    all scales but the least there have to be 53, and on the greatest one nothing may be rounded up to the
    next power of two. -/
theorem exists_span_of_bits {v : ℚ} {s : ℤ} (hpos : 1 ≤ v) (hhigh : v < 2 ^ 53) (hs : -1074 ≤ s)
    (hs' : s ≤ 971) (hnormal : -1074 < s → 2 ^ 52 ≤ v) (hgreatest : s = 971 → v ≤ 2 ^ 53 - 1) :
    ∃ m e, Canonical m e ∧ (Span.of m e).Mem (v * 2 ^ s) := by
  have hfloor : (⌊v⌋₊ : ℚ) ≤ v := Nat.floor_le (by linarith)
  have hceil : v < ⌊v⌋₊ + 1 := Nat.lt_floor_add_one v
  have hone : 1 ≤ ⌊v⌋₊ := Nat.le_floor (by exact_mod_cast hpos)
  have hbits : -1074 < s → 2 ^ 52 ≤ ⌊v⌋₊ := fun h => Nat.le_floor (by exact_mod_cast hnormal h)
  have hfew : ⌊v⌋₊ < 2 ^ 53 := (Nat.floor_lt (by linarith)).mpr (by exact_mod_cast hhigh)
  generalize ⌊v⌋₊ = q at hfloor hceil hone hbits hfew
  -- The number is rounded to one of the two mantissas around it, down in the middle if that is even.
  by_cases hdown : v < q + 1 / 2 ∨ v = q + 1 / 2 ∧ q % 2 = 0
  · have hbelow := Span.low_le (show 0 < q by omega) s
    refine ⟨q, s, ⟨by omega, hfew, hs, hs', hbits⟩, ?_⟩
    rw [Span.mem_of_iff]
    obtain hless | ⟨hmiddle, heven⟩ := hdown
    · split <;> constructor <;> linarith
    · rw [if_pos heven]
      constructor <;> linarith
  · rw [not_or, not_lt, not_and'] at hdown
    obtain ⟨hmiddle, hodd⟩ := hdown
    by_cases hcarry : q + 1 < 2 ^ 53
    · have hbelow : ((Span.of (q + 1) s).low : ℚ) = 4 * (q + 1) - 2 := by
        obtain rfl | hscale := hs.eq_or_lt
        · exact_mod_cast Span.low_of_least (Nat.succ_pos q)
        · have := hbits hscale
          exact_mod_cast Span.low_of_ne (Nat.succ_pos q) (by omega) s
      refine ⟨q + 1, s, ⟨by omega, hcarry, hs, hs', fun h => (hbits h).trans (Nat.le_succ q)⟩, ?_⟩
      rw [Span.mem_of_iff]
      split
      · push_cast
        constructor <;> linarith
      · -- Next to an odd mantissa the middle goes to the even one below.
        have hmore := lt_of_le_of_ne hmiddle (Ne.symm (hodd (by omega)))
        push_cast
        constructor <;> linarith
    · -- The last number before a power of two is rounded to that power on the next scale.
      have hq : (q : ℚ) = 2 ^ 53 - 1 := by
        have : (q + 1 : ℚ) = 2 ^ 53 := by exact_mod_cast (show q + 1 = 2 ^ 53 by omega)
        linarith
      have hless : s < 971 := by
        refine lt_of_le_of_ne hs' fun heq => ?_
        have := hgreatest heq
        linarith
      have hscale : v * 2 ^ s = v / 2 * 2 ^ (s + 1) := by
        rw [zpow_add₀ two_ne_zero, zpow_one]
        ring
      have hbelow := Span.low_le (show 0 < 2 ^ 52 by decide) (s + 1)
      push_cast at hbelow
      refine ⟨2 ^ 52, s + 1, ⟨by decide, by decide, by omega, by omega, fun _ => le_rfl⟩, ?_⟩
      rw [hscale, Span.mem_of_iff, if_pos (by decide)]
      push_cast
      constructor <;> linarith

/-- What lies between the least positive double and the greatest one lies in the interval of a double. -/
theorem exists_span {r : ℚ} (hlow : 2 ^ (-1074 : ℤ) ≤ r) (hhigh : r ≤ (2 ^ 53 - 1) * 2 ^ (971 : ℤ)) :
    ∃ m e, Canonical m e ∧ (Span.of m e).Mem r := by
  have hr : 0 < r := lt_of_lt_of_le (by positivity) hlow
  -- The scale is that of the leading bit, but not below the least one.
  have hlog : (2 : ℚ) ^ Int.log 2 r ≤ r := Int.zpow_log_le_self one_lt_two hr
  have hlog' : r < (2 : ℚ) ^ (Int.log 2 r + 1) := Int.lt_zpow_succ_log_self one_lt_two r
  generalize Int.log 2 r = place at hlog hlog'
  have hplace : place < 1024 := by
    rw [← zpow_lt_zpow_iff_right₀ (one_lt_two (α := ℚ))]
    calc (2 : ℚ) ^ place ≤ (2 ^ 53 - 1) * 2 ^ (971 : ℤ) := hlog.trans hhigh
      _ < 2 ^ (53 : ℤ) * 2 ^ (971 : ℤ) := mul_lt_mul_of_pos_right (by norm_num) (by positivity)
      _ = 2 ^ (1024 : ℤ) := by rw [← zpow_add₀ two_ne_zero]; norm_num
  obtain ⟨s, hs, hs', hnormal, hbits⟩ : ∃ s : ℤ, -1074 ≤ s ∧ s ≤ 971 ∧
      (-1074 < s → s + 52 = place) ∧ place < s + 53 := by
    by_cases hsmall : place - 52 ≤ -1074
    · exact ⟨-1074, le_rfl, by omega, by omega, by omega⟩
    · exact ⟨place - 52, by omega, by omega, by omega, by omega⟩
  have hpow : (0 : ℚ) < 2 ^ s := by positivity
  have hscaled : r / 2 ^ s * 2 ^ s = r := div_mul_cancel₀ _ hpow.ne'
  rw [← hscaled]
  refine exists_span_of_bits ?_ ?_ hs hs' (fun h => ?_) fun h => ?_
  · rw [le_div_iff₀ hpow, one_mul]
    obtain heq | hless := hs.eq_or_lt
    · rwa [← heq]
    · calc (2 : ℚ) ^ s ≤ 2 ^ place := zpow_le_zpow_right₀ one_le_two (by have := hnormal hless; omega)
        _ ≤ r := hlog
  · rw [div_lt_iff₀ hpow, ← zpow_natCast, ← zpow_add₀ two_ne_zero]
    exact hlog'.trans_le (zpow_le_zpow_right₀ one_le_two (by push_cast; omega))
  · rw [le_div_iff₀ hpow, ← zpow_natCast, ← zpow_add₀ two_ne_zero]
    exact (zpow_le_zpow_right₀ one_le_two (by have := hnormal h; push_cast; omega)).trans hlog
  · rw [div_le_iff₀ hpow, h]
    exact hhigh

end Range

section Decimals

/-- Zero is nearest to zero. -/
theorem isNearest_zero {x : Float} (hx : StandsFor x 0) : IsNearest x 0 := by
  refine ⟨hx.1, fun y _ => ?_⟩
  rw [hx.2]
  simp

/-- Without digits a decimal is zero, whatever its exponent. -/
theorem ofDecimal_zero (k : ℤ) : ofDecimal 0 k = 0 := by
  unfold ofDecimal Float.ofScientific
  split
  · rename_i hsmall
    have htable : ∀ i : Fin 23, (0 : ℕ).toUInt64.toFloat / Float.exactlyRepresentablePowersOfTen[i] = 0 ∧
        (0 : ℕ).toUInt64.toFloat * Float.exactlyRepresentablePowersOfTen[i] = 0 := by
      decide +kernel
    split
    · exact (htable ⟨k.natAbs, by omega⟩).1
    · exact (htable ⟨k.natAbs, by omega⟩).2
  · simp only [Float.Model.ofScientific]
    rfl

/-- A decimal in range is converted to the nearest double. -/
theorem isNearest_ofDecimal {n : ℕ} {k : ℤ} (h : InRange (n * 10 ^ k)) :
    IsNearest (ofDecimal n k) (n * 10 ^ k) := by
  have hpow : (0 : ℚ) < 10 ^ k := by positivity
  obtain hzero | ⟨hlow, hhigh⟩ := h
  · obtain rfl : n = 0 := by simpa [hpow.ne'] using hzero
    rw [ofDecimal_zero, hzero]
    exact isNearest_zero standsFor_zero
  · rw [abs_of_nonneg (by positivity)] at hlow hhigh
    obtain ⟨m, e, hm, hmem⟩ := exists_span hlow hhigh
    rw [ofDecimal_eq_of_mem hm hmem]
    exact isNearest_of_mem (unpack_pack hm .positive) hmem

/-- What has a bit before the point and at most 64 of them is in range. -/
theorem inRange_of_bits {r : ℚ} (hlow : 1 ≤ |r|) (hhigh : |r| ≤ 2 ^ 64) : InRange r := by
  refine .inr ⟨(zpow_le_one_of_nonpos₀ one_le_two (by norm_num)).trans hlow, ?_⟩
  calc |r| ≤ 1 * 2 ^ (64 : ℤ) := by rw [one_mul]; exact_mod_cast hhigh
    _ ≤ (2 ^ 53 - 1) * 2 ^ (971 : ℤ) :=
        mul_le_mul (by norm_num) (zpow_le_zpow_right₀ one_le_two (by norm_num)) (by positivity)
          (by norm_num)

/-- An integer of at most 64 bits is converted to the nearest double. -/
theorem isNearest_ofNat {n : ℕ} (hlt : n < 2 ^ 64) : IsNearest (Float.ofNat n) n := by
  have hscaled : (n : ℚ) = n * 10 ^ (0 : ℤ) := by rw [zpow_zero, mul_one]
  have hrange : InRange n := by
    obtain rfl | hn := Nat.eq_zero_or_pos n
    · exact .inl Nat.cast_zero
    · refine inRange_of_bits ?_ ?_
      · rw [Nat.abs_cast]
        exact_mod_cast hn
      · rw [Nat.abs_cast]
        exact_mod_cast hlt.le
  rw [hscaled] at hrange ⊢
  exact isNearest_ofDecimal hrange

/-- An integer of at most 64 bits and a sign is converted to the nearest double. -/
theorem isNearest_ofInt {n : ℤ} (hlow : -2 ^ 64 < n) (hhigh : n < 2 ^ 64) :
    IsNearest (Float.ofInt n) n := by
  cases n with
  | ofNat n => exact isNearest_ofNat (Int.ofNat_lt.mp hhigh)
  | negSucc n =>
      have hnat : n + 1 < 2 ^ 64 := by omega
      have hnearest := (isNearest_ofNat hnat).neg
      rw [Int.cast_negSucc]
      exact hnearest

end Decimals

end FieldLang.Number

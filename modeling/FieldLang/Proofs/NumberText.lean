import FieldLang.Proofs.JsonRoundTrip
import FieldLang.Proofs.NumeralForms
import FieldLang.Proofs.RoundTrip

/-!
# Number Text Reads Back

The text that a finite number without a sign is shown as is read, in a source, as that number.

A number is shown either by all the digits of an integer or by the fewest digits that single it out, with
zeros to fill up. Both are texts of a numeral in the sense of JSON, and its magnitude lies in the interval
of the double; for an integer it is the double itself. A source has more numerals than JSON, but reads
those of JSON as JSON does, so the nearest double of the numeral is the number that was shown.

With that, an expression with finite numbers is read back from its text without any condition on how
numbers are shown.

## Theorems

* `Token.numeral_of_numeralText`: A numeral of JSON without a sign is read in a source as its nearest double.
* `exists_numeralText_chars`: The text of a finite number is that of a numeral in its interval.
* `eq_zero_or_positive`: A finite number without a sign is the zero or a positive number.
* `readsBack_of_unsigned`: A finite number without a sign reads back.
* `Expr.parseWithin_render_of_finite`: A legible expression with finite numbers is read back.
-/

namespace FieldLang

open Float.Model
open Float.Model.UnpackedFloat (Sign)

namespace Token

/-- The fraction of a numeral of JSON is that of a numeral of a source. -/
theorem eq_pointed {fs fraction : List Char} (h : Json.FractionText fs fraction) :
    fs = pointed fraction ∧ ∀ c ∈ fraction, c.isDigit = true := by
  cases h with
  | none => exact ⟨rfl, by simp⟩
  | point hds =>
      rw [pointed, if_neg (by simpa using hds.1)]
      exact ⟨rfl, hds.2⟩

/-- A numeral of JSON without a sign is read as the double nearest to it, to its end. -/
theorem numeral_of_numeralText {cs : List Char} {n : Json.Numeral} (h : Json.NumeralText cs n)
    (hsign : n.negative = false) : numeral cs = .ok (n.nearest, cs.length) := by
  obtain @⟨negative, whole, fs, fraction, es, exponent, hwhole, hfraction, hexponent⟩ := h
  cases hsign
  obtain ⟨rfl, hds⟩ := eq_pointed hfraction
  have hhead : ∀ c ∈ es.head?, c.isDigit = false ∧ c ≠ '.' := by
    have hhead := hexponent.head Json.EndsNumber.nil
    rwa [List.append_nil] at hhead
  -- An exponent is no fraction, so the digits behind the point are all there are.
  have hpoint : fractionDigits es = [] := by
    unfold fractionDigits
    split
    · exact absurd rfl (hhead '.' rfl).2
    · rfl
  show numeral (whole ++ (pointed fraction ++ es)) = _
  rw [numeral_append hwhole.all_digits.1.2 hds (fun c hc => (hhead c hc).1) fun _ => hpoint]
  cases hexponent with
  | none =>
      rw [List.append_nil]
      rfl
  | @power letter sign ds negative hletter hform hdigits =>
      -- Both readers know the same exponents, so the scan ends where the exponent does.
      have hpower := Number.PowerForm.intro hletter hform hdigits
      have hscan := Number.scanExponent_append hpower Number.noDigit_nil
      rw [List.append_nil] at hscan
      have hstarts : startsExponent (letter :: (sign ++ ds)) = true := by
        obtain rfl | rfl := hletter <;> rfl
      rw [if_pos hstarts, hscan]
      rfl

end Token

namespace Number

/-- The integer that a number without a fraction is, with no sign. -/
theorem shifted_eq {x : Float} {sign : Sign} {m : ℕ} {e : ℤ} {hm : 0 < m}
    (hx : x.toModel.unpack = .finite sign m e hm) (hintegral : isIntegral x = true) :
    ((m <<< e.toNat >>> (-e).toNat : ℕ) : ℚ) = m * 2 ^ e := by
  have hdvd : 2 ^ (-e).toNat ∣ m := by
    unfold isIntegral at hintegral
    rw [hx] at hintegral
    exact Nat.dvd_of_mod_eq_zero (beq_iff_eq.mp hintegral)
  rw [Nat.shiftLeft_eq, Nat.shiftRight_eq_div_pow, zpow_eq_div two_ne_zero,
    Nat.cast_div (Dvd.dvd.mul_right hdvd _) (by positivity)]
  push_cast
  ring

/-- The text of a finite number that is not zero is that of a numeral in its interval. -/
theorem exists_numeralText_chars {x : Float} {sign : Sign} {m : ℕ} {e : ℤ} {hm : 0 < m}
    (hx : x.toModel.unpack = .finite sign m e hm) :
    ∃ n, Json.NumeralText (chars x) n ∧ n.negative = (sign == .negative) ∧
      (Span.of m e).Mem n.magnitude := by
  have hcanonical := canonical_of_unpack hx
  unfold chars
  rw [hx]
  simp only
  split
  · -- All digits of an integer write the double itself, and not only a number near it.
    rename_i hinteger
    rw [Bool.and_eq_true] at hinteger
    have hvalue := shifted_eq hx hinteger.1
    generalize m <<< e.toNat >>> (-e).toNat = n at hvalue
    have hn : 0 < n := by
      have hpos : (0 : ℚ) < n := by
        rw [hvalue]
        positivity
      exact_mod_cast hpos
    have hwrites := Json.writes_whole hn 0 (sign == .negative)
    rw [List.replicate_zero, List.append_nil, pow_zero, mul_one, hvalue] at hwrites
    exact ⟨_, hwrites.text, rfl, hwrites.magnitude_eq ▸ Span.mem_self hm e⟩
  · have hmem := mem_shortest hcanonical .up
    obtain ⟨n, hwrites⟩ :=
      Json.exists_writes_positional (pos_of_mem hcanonical hmem) (sign == .negative)
    exact ⟨n, hwrites.text, hwrites.negative_eq, hwrites.magnitude_eq ▸ hmem⟩

/-- A finite number is one of those that JSON has a place for. -/
theorem kept_of_isFinite {x : Float} (hfinite : x.isFinite = true) : (x.isNaN || x.isInf) = false := by
  have hfinite : x.toModel.unpack.isFinite = true := hfinite
  show (x.toModel.unpack.isNaN || x.toModel.unpack.isInf) = false
  cases hu : x.toModel.unpack with
  | notANumber | infinity sign =>
      rw [hu] at hfinite
      cases hfinite
  | zero sign => rfl
  | finite sign m e hm => rfl

/-- A finite number without a sign is the zero or a positive number. -/
theorem eq_zero_or_positive {x : Float} (hx : Unsigned x.toModel.unpack)
    (hfinite : x.isFinite = true) :
    x = 0 ∨ ∃ m e hm, x.toModel.unpack = .finite .positive m e hm := by
  have hfinite : x.toModel.unpack.isFinite = true := hfinite
  cases hu : x.toModel.unpack with
  | notANumber =>
      rw [hu] at hfinite
      cases hfinite
  | infinity sign =>
      rw [hu] at hfinite
      cases hfinite
  | zero sign =>
      rw [hu] at hx
      cases hx
      left
      rw [← ofModel_pack_of_unpack hu, ofModel_pack_of_unpack Value.unpack_zero]
  | finite sign m e hm =>
      rw [hu] at hx
      cases hx
      exact .inr ⟨m, e, hm, rfl⟩

/-- A finite number without a sign is read as that number from the text it is shown as. -/
theorem readsBack_of_unsigned {x : Float} (hx : Unsigned x.toModel.unpack)
    (hfinite : x.isFinite = true) : ReadsBack x := by
  obtain rfl | ⟨m, e, hm, hu⟩ := eq_zero_or_positive hx hfinite
  · rfl
  · obtain ⟨n, htext, hsign, hmem⟩ := exists_numeralText_chars hu
    rw [ReadsBack, Token.numeral_of_numeralText htext hsign, Json.nearest_eq hu hsign hmem]

end Number

namespace Expr

/-- The numbers of a legible expression have no sign. -/
theorem unsigned_of_mem_numbers {e : Expr} (h : e.Legible) :
    ∀ n ∈ e.numbers, Number.Unsigned n.toModel.unpack := by
  induction e using Expr.induction with
  | literal v =>
      cases v with
      | number x => exact List.forall_mem_singleton.mpr h
      | _ => simp [numbers]
  | identifier name => simp [numbers]
  | member object property ih => exact ih h.1
  | index object key iho ihk => exact List.forall_mem_append.mpr ⟨iho h.1, ihk h.2⟩
  | binary op lhs rhs ihl ihr => exact List.forall_mem_append.mpr ⟨ihl h.1, ihr h.2⟩
  | unary op operand ih => exact ih h
  | conditional c t e ihc iht ihe =>
      exact List.forall_mem_append.mpr
        ⟨ihc h.1, List.forall_mem_append.mpr ⟨iht h.2.1, ihe h.2.2⟩⟩
  | call name args ih =>
      have hargs := mem_of_legibleArgs h.2
      rw [numbers]
      clear h
      -- The arguments are a list, with a hypothesis for each of them.
      induction args with
      | nil => simp [numbersArgs]
      | cons e es ihes =>
          rw [List.forall_mem_cons] at ih hargs
          exact List.forall_mem_append.mpr ⟨ih.1 hargs.1, ihes ih.2 hargs.2⟩

/-- A legible expression with finite numbers is read back from its text within every bound its nesting
    allows. -/
theorem parseWithin_render_of_finite {e : Expr} (h : e.Legible)
    (hfinite : ∀ n ∈ e.numbers, n.isFinite = true) {limit : Nat} (hlimit : e.nesting ≤ limit) :
    Expr.parseWithin limit e.render = .ok e := by
  refine parseWithin_render h (fun n hn => ⟨hfinite n hn, ?_⟩) hlimit
  exact Number.readsBack_of_unsigned (unsigned_of_mem_numbers h n hn) (hfinite n hn)

end Expr

end FieldLang

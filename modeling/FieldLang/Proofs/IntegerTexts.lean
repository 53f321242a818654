import FieldLang.Builtin.Apply
import FieldLang.Proofs.NumberText
import FieldLang.Proofs.TextNumbers

/-!
# Integers in Texts

Which integer is read off the start of a text in a radix. The digits are accumulated in floating point,
one after the other, and the result is nevertheless the positional value of all of them, as long as that
is not above `2^53`. No prefix of the digits has a larger value than all of them have, so every sum and
every product on the way is a double itself, and nothing is ever rounded.

Without a radix the mark of a hexadecimal integer decides on it. It is looked for behind any number of
signs, although only one sign is taken off before the digits. That makes no difference. Behind two signs
there is no digit in any radix, and the result is not a number either way.

Together with how integers are shown this gives that every integer up to `2^53` is read back from its
text.

## Main definitions

* `MarkForm`: The mark of a hexadecimal integer.
* `IntegerForm`: The parts of a text that starts with an integer in a radix.
* `positional`: The positional value of digits.
* `accumulated`: The value of digits in floating point.

## Theorems

* `exists_integerForm`, `IntegerForm.ofDigits_eq`: Every text has these parts, and its digits are read.
* `standsFor_accumulated`: Accumulating digits is exact up to `2^53`.
* `chars_of_standsFor`: How integers are shown.
* `parseInt_of_marked`, `parseInt_of_not_marked`: The radix that a text chooses.
* `integers_of_texts`: The built-in function.
-/

namespace FieldLang

open Float.Model (UnpackedFloat)
open Float.Model.UnpackedFloat (Sign)

namespace Number

/-- The mark of a hexadecimal integer. -/
inductive MarkForm : List Char → Prop
  | lower : MarkForm ['0', 'x']
  | upper : MarkForm ['0', 'X']

/-- A text in a radix: an optional sign, for radix sixteen an optional mark, the digits and a rest. What
    could be a sign or a mark is one, and the digits go on as long as they can. -/
inductive IntegerForm (radix : Nat) : List Char → Bool → List Char → Prop
  | intro {sign mark ds rest : List Char} {negative : Bool} (hsign : SignForm sign negative)
      (hunsigned : sign = [] → ∀ c ∈ (mark ++ (ds ++ rest)).head?, c ≠ '+' ∧ c ≠ '-')
      (hmark : mark = [] ∨ radix = 16 ∧ MarkForm mark)
      (hunmarked : mark = [] → radix = 16 → hasHexMark (ds ++ rest) = false)
      (hds : ∀ c ∈ ds, (digitIn? radix c).isSome = true)
      (hrest : ∀ c ∈ rest.head?, (digitIn? radix c).isSome = false) :
      IntegerForm radix (sign ++ (mark ++ (ds ++ rest))) negative ds

/-- The positional value of digits in a radix. -/
def positional (radix : Nat) (ds : List Char) : Nat :=
  ∑ i : Fin ds.length, (digitValue? ds[i]).getD 0 * radix ^ (ds.length - 1 - i)

/-- The value of digits in a radix, accumulated in floating point. -/
def accumulated (radix : Nat) (ds : List Char) : Float :=
  ds.foldl (fun n c => n * Float.ofNat radix + Float.ofNat ((digitValue? c).getD 0)) 0

section Accumulation

theorem natOfDigits_append (radix : Nat) (ds : List Char) (c : Char) :
    natOfDigits radix (ds ++ [c]) = natOfDigits radix ds * radix + (digitValue? c).getD 0 := by
  rw [natOfDigits, List.foldl_append]
  rfl

theorem accumulated_append (radix : Nat) (ds : List Char) (c : Char) :
    accumulated radix (ds ++ [c]) =
      accumulated radix ds * Float.ofNat radix + Float.ofNat ((digitValue? c).getD 0) := by
  rw [accumulated, List.foldl_append]
  rfl

theorem positional_cons (radix : Nat) (c : Char) (ds : List Char) :
    positional radix (c :: ds) =
      (digitValue? c).getD 0 * radix ^ ds.length + positional radix ds := by
  refine (Fin.sum_univ_succ _).trans (congrArg _ (Finset.sum_congr rfl fun i _ => ?_))
  have hplace : (c :: ds).length - 1 - (i.succ : Nat) = ds.length - 1 - i := by
    rw [List.length_cons, Fin.val_succ]
    omega
  rw [hplace]
  rfl

/-- Taking on one digit after the other gives the positional value. -/
theorem natOfDigits_eq_positional (radix : Nat) (ds : List Char) :
    natOfDigits radix ds = positional radix ds := by
  -- What is there already moves up by one place with each digit.
  suffices hfrom : ∀ n, ds.foldl (fun n c => n * radix + (digitValue? c).getD 0) n =
      n * radix ^ ds.length + positional radix ds by
    rw [natOfDigits, hfrom, zero_mul, zero_add]
  induction ds with
  | nil => simp [positional]
  | cons c ds ih =>
      intro n
      rw [List.foldl_cons, ih, positional_cons, List.length_cons, pow_succ]
      ring

/-- A natural number that is not zero is converted to a positive double. -/
theorem isPositive_ofNat {n : Nat} (hn : 0 < n) (hle : n ≤ 2 ^ 53) :
    isPositive (Float.ofNat n).toModel.unpack = true := by
  have hunsigned : Unsigned (Float.ofNat n).toModel.unpack := unsigned_ofDecimal n 0
  obtain ⟨sign, hu⟩ | ⟨sign, m, e, hm, hu⟩ := unpack_of_isFinite (standsFor_ofNat hle).1
  · exact absurd hu (unpack_ofNat_ne_zero hn sign)
  · rw [hu] at hunsigned ⊢
    cases hunsigned
    rfl

/-- A number without a sign that stands for a natural number is the one that this is converted to. -/
theorem eq_ofNat {x : Float} {n : Nat} (hunsigned : Unsigned x.toModel.unpack) (hx : StandsFor x n) :
    x = Float.ofNat n := by
  obtain rfl | ⟨m, e, hm, hu⟩ := eq_zero_or_positive hunsigned hx.1
  · obtain rfl : n = 0 := by exact_mod_cast hx.eq_zero Value.unpack_zero
    rfl
  · have hvalue : (m * 2 ^ e : ℚ) = n := by
      have hvalue := hx.2
      rw [value, hu] at hvalue
      exact_mod_cast hvalue
    -- The number is in its own interval, and a conversion is a reading of that very number.
    have hmem : (Span.of m e).Mem (n * 10 ^ (0 : ℤ)) := by
      rw [zpow_zero, mul_one, ← hvalue]
      exact Span.mem_self hm e
    rw [← ofModel_pack_of_unpack hu]
    exact (ofDecimal_eq_of_mem (canonical_of_unpack hu) hmem).symm

variable {radix : Nat} (hpos : 0 < radix) (hle : radix ≤ 2 ^ 53)
include hpos hle

/-- Accumulated digits make a number without a sign, perhaps infinity. -/
theorem unsigned_accumulated (ds : List Char) : Unsigned (accumulated radix ds).toModel.unpack := by
  -- The induction is from the last digit, as that is the one taken on last.
  induction ds using List.reverseRecOn with
  | nil => exact unsigned_ofDecimal 0 0
  | append_singleton ds c ih =>
      rw [accumulated_append]
      have hproduct : Unsigned (accumulated radix ds * Float.ofNat radix).toModel.unpack :=
        unsigned_unpack_pack (unsigned_mul ih (isPositive_ofNat hpos hle))
      exact unsigned_unpack_pack (unsigned_add hproduct (unsigned_ofDecimal _ 0))

/-- Accumulating digits is exact as long as their value is not above `2^53`. -/
theorem standsFor_accumulated {ds : List Char} (hbound : natOfDigits radix ds ≤ 2 ^ 53) :
    StandsFor (accumulated radix ds) (natOfDigits radix ds) := by
  induction ds using List.reverseRecOn with
  | nil => exact standsFor_zero
  | append_singleton ds c ih =>
      rw [natOfDigits_append] at hbound ⊢
      rw [accumulated_append]
      -- The bound on the whole bounds the prefix and each step, so no step rounds.
      have hproduct : natOfDigits radix ds * radix ≤ 2 ^ 53 := (Nat.le_add_right ..).trans hbound
      have hprefix : natOfDigits radix ds ≤ 2 ^ 53 := (Nat.le_mul_of_pos_right _ hpos).trans hproduct
      have hscaled := (ih hprefix).mul (standsFor_ofNat hle) (by exact_mod_cast hproduct)
      have hdigit := standsFor_ofNat ((Nat.le_add_left ..).trans hbound)
      exact_mod_cast hscaled.add hdigit (by positivity) (by exact_mod_cast hbound)

end Accumulation

section Forms

/-- A text starts with a mark if it is one and a rest. -/
theorem hasHexMark_iff {cs : List Char} :
    hasHexMark cs = true ↔ ∃ mark rest, MarkForm mark ∧ cs = mark ++ rest := by
  constructor
  · intro h
    unfold hasHexMark at h
    split at h
    · exact ⟨_, _, .lower, rfl⟩
    · exact ⟨_, _, .upper, rfl⟩
    · cases h
  · rintro ⟨mark, rest, hmark, rfl⟩
    cases hmark <;> rfl

theorem MarkForm.dropHexMark_append {mark : List Char} (h : MarkForm mark) (rest : List Char) :
    dropHexMark (mark ++ rest) = rest := by
  cases h <;> rfl

theorem dropHexMark_of_unmarked {cs : List Char} (h : hasHexMark cs = false) : dropHexMark cs = cs := by
  unfold dropHexMark
  split
  · cases h
  · cases h
  · rfl

/-- What is left behind an optional mark. -/
theorem exists_mark (radix : Nat) (cs : List Char) :
    ∃ mark rest, cs = mark ++ rest ∧ (mark = [] ∨ radix = 16 ∧ MarkForm mark) ∧
      (mark = [] → radix = 16 → hasHexMark rest = false) := by
  -- A mark counts in radix sixteen only, so elsewhere the mark is empty and nothing is asked of it.
  by_cases hmark : radix = 16 ∧ hasHexMark cs = true
  · obtain ⟨mark, rest, hform, hcs⟩ := hasHexMark_iff.mp hmark.2
    exact ⟨mark, rest, hcs, .inr ⟨hmark.1, hform⟩, by rintro rfl; cases hform⟩
  · refine ⟨[], cs, rfl, .inl rfl, fun _ hradix => ?_⟩
    rw [← Bool.not_eq_true]
    exact fun h => hmark ⟨hradix, h⟩

/-- A text off which no sign is taken starts with none. -/
theorem head_of_scanSign {cs : List Char} (h : cs = (scanSign cs).2) :
    ∀ c ∈ cs.head?, c ≠ '+' ∧ c ≠ '-' := by
  intro c hc
  -- If there were a sign, what is behind it would be shorter.
  obtain ⟨tail, rfl⟩ := List.head?_eq_some_iff.mp hc
  constructor
  · rintro rfl
    exact List.cons_ne_self _ _ h
  · rintro rfl
    exact List.cons_ne_self _ _ h

/-- Every text has the parts of one that starts with an integer, perhaps without any digits. -/
theorem exists_integerForm (radix : Nat) (cs : List Char) :
    ∃ negative ds, IntegerForm radix cs negative ds := by
  obtain ⟨sign, hsign, hcs⟩ := exists_sign cs
  obtain ⟨mark, tail, htail, hmark, hunmarked⟩ := exists_mark radix (scanSign cs).2
  have hsplit := List.takeWhile_append_dropWhile (p := fun c => (digitIn? radix c).isSome) (l := tail)
  refine ⟨(scanSign cs).1, tail.takeWhile fun c => (digitIn? radix c).isSome, ?_⟩
  -- Without a sign nothing was taken off, so what comes next cannot be one.
  have hunsigned : sign = [] → ∀ c ∈ (mark ++ tail).head?, c ≠ '+' ∧ c ≠ '-' := by
    rintro rfl
    rw [List.nil_append] at hcs
    rw [← htail, ← hcs]
    exact head_of_scanSign hcs
  have hform := IntegerForm.intro hsign (by rwa [hsplit]) hmark (by rwa [hsplit])
    (List.all_eq_true.mp List.all_takeWhile) (head?_dropWhile _ tail)
  rwa [hsplit, ← htail, ← hcs] at hform

/-- The digits of a text are accumulated. Without digits the result is not a number. -/
theorem IntegerForm.ofDigits_eq {radix : Nat} {cs ds : List Char} {negative : Bool}
    (h : IntegerForm radix (Text.trimStart cs) negative ds) (hlow : 2 ≤ radix) (hhigh : radix ≤ 36) :
    ofDigits radix cs = if ds = [] then nan else withSign negative (accumulated radix ds) := by
  generalize htext : Text.trimStart cs = text at h
  cases h with
  | @intro sign mark ds rest negative hsign hunsigned hmark hunmarked hds hrest =>
      -- Each part of the form is what one step of the reader takes off: the sign, the mark, the
      -- digits.
      have hscan : scanSign (sign ++ (mark ++ (ds ++ rest))) = (negative, mark ++ (ds ++ rest)) := by
        cases hsign with
        | none => exact scanSign_append .none (hunsigned rfl)
        | plus => rfl
        | minus => rfl
      have hdrop : (if radix = 16 then dropHexMark (mark ++ (ds ++ rest)) else mark ++ (ds ++ rest)) =
          ds ++ rest := by
        obtain rfl | ⟨hradix, hform⟩ := hmark
        · rw [List.nil_append]
          split
          · rename_i hradix
            exact dropHexMark_of_unmarked (hunmarked rfl hradix)
          · rfl
        · rw [if_pos hradix, hform.dropHexMark_append]
      -- The radix passes the check, and the rest is the product with the sign.
      have hrange : (decide (radix < 2) || decide (36 < radix)) = false := by
        simp only [Bool.or_eq_false_iff, decide_eq_false_iff_not]
        omega
      have htake := takeWhile_append_of_head (p := fun c => (digitIn? radix c).isSome) hds hrest
      unfold ofDigits
      simp only [hrange, htext, hscan, hdrop, htake, List.isEmpty_iff, Bool.false_eq_true, if_false]
      split
      · rfl
      · rw [one_mul_eq, neg_one_mul_eq]
        rfl

/-- The number that the digits of a text make up. -/
theorem IntegerForm.number {radix : Nat} {cs ds : List Char} {negative : Bool}
    (h : IntegerForm radix (Text.trimStart cs) negative ds) (hlow : 2 ≤ radix) (hhigh : radix ≤ 36) :
    ((ofDigits radix cs).isNaN = true ↔ ds = []) ∧
      (ds ≠ [] → positional radix ds ≤ 2 ^ 53 →
        ofDigits radix cs = withSign negative (Float.ofNat (positional radix ds)) ∧
        StandsFor (ofDigits radix cs)
          (if negative then -(positional radix ds : Int) else positional radix ds)) := by
  rw [h.ofDigits_eq hlow hhigh]
  have hpos : 0 < radix := by omega
  have hle : radix ≤ 2 ^ 53 := by omega
  -- What is accumulated has no sign, so it is a number even when it overflows.
  have hunsigned := unsigned_accumulated hpos hle ds
  constructor
  · split
    · rename_i hempty
      exact iff_of_true rfl hempty
    · rename_i hne
      rw [isNaN_withSign, isNaN_of_unsigned hunsigned]
      exact iff_of_false nofun hne
  · intro hne hbound
    -- Exactness makes the accumulated number the one that the value is converted to.
    have hstands := standsFor_accumulated hpos hle ((natOfDigits_eq_positional radix ds).le.trans hbound)
    rw [natOfDigits_eq_positional] at hstands
    rw [if_neg hne, ← eq_ofNat hunsigned hstands]
    refine ⟨rfl, ?_⟩
    cases negative with
    | false => exact hstands
    | true => exact hstands.neg

end Forms

section Texts

/-- The bound below which integers are shown by all their digits. -/
theorem standsFor_bound : StandsFor 1e21 (10 ^ 21 : Nat) :=
  @standsFor_of_finite _ .positive 7629394531250000 17 (by decide) rfl _ (by norm_num)

/-- A double that stands for an integer has no fraction. -/
theorem isIntegral_of_standsFor {x : Float} {k : Int} (hx : StandsFor x k) : isIntegral x = true := by
  unfold isIntegral
  obtain ⟨sign, hu⟩ | ⟨sign, m, e, hm, hu⟩ := unpack_of_isFinite hx.1
  · rw [hu]
  · -- The integer times a power of two is the significand times another, without any fraction.
    obtain ⟨n, -, hn⟩ := hx.exists_natural hu
    have hnat : m * 2 ^ e.toNat = n * 2 ^ (-e).toNat := by
      rw [zpow_eq_div two_ne_zero, mul_div_assoc', div_eq_iff (by positivity)] at hn
      exact_mod_cast hn
    rw [hu]
    refine beq_iff_eq.mpr (Nat.mod_eq_zero_of_dvd ?_)
    -- The exponent has one sign, so one of the two powers is one.
    obtain he | he : e.toNat = 0 ∨ (-e).toNat = 0 := by omega
    · rw [he, pow_zero, mul_one] at hnat
      exact ⟨n, by rw [hnat, mul_comm]; rfl⟩
    · rw [he]
      exact one_dvd m

/-- An integer that a double stands for is shown by its digits, with a minus if it is negative. -/
theorem chars_of_standsFor {x : Float} {k : Int} (hx : StandsFor x k) (hk : k.natAbs < 10 ^ 21) :
    chars x = signed (decide (k < 0)) (Text.decimal k.natAbs) := by
  have hintegral := isIntegral_of_standsFor hx
  obtain ⟨sign, hu⟩ | ⟨sign, m, e, hm, hu⟩ := unpack_of_isFinite hx.1
  · obtain rfl := hx.eq_zero hu
    rw [chars, hu]
    rfl
  · obtain ⟨n, rfl, hn, hpos, -⟩ := hx.exists_full hu
    -- The number is small enough to be shown by its digits, and these are those of the integer.
    have hbound : x.abs < 1e21 := by
      rw [hx.abs.lt_iff standsFor_bound, Int.abs_eq_natAbs]
      exact Int.ofNat_lt.mpr hk
    have hdigits : m <<< e.toNat >>> (-e).toNat = n := by
      have hshifted := shifted_eq hu hintegral
      rw [hn] at hshifted
      exact_mod_cast hshifted
    rw [chars, hu]
    simp only [hintegral, hbound, decide_true, Bool.and_self, if_true, hdigits]
    cases sign with
    | positive =>
        rw [Sign.apply, decide_eq_false (by omega), Int.natAbs_natCast]
        rfl
    | negative =>
        rw [Sign.apply, decide_eq_true (by omega), Int.natAbs_neg, Int.natAbs_natCast]
        rfl

/-- Decimal digits are the digits in radix ten. -/
theorem isSome_digitIn?_of_isDigit {c : Char} (h : c.isDigit = true) : (digitIn? 10 c).isSome = true := by
  have hrange := Token.isDigit_bounds h
  have hlt : c.toNat - 48 < 10 := by omega
  simp [digitIn?, digitValue?, h, hlt]

/-- Nothing is blank at the start of an integer. -/
theorem trimStart_signed (negative : Bool) (n : Nat) :
    Text.trimStart (signed negative (Text.decimal n)) = signed negative (Text.decimal n) := by
  cases negative with
  | true => rfl
  | false =>
      show Text.trimStart (Text.decimal n) = Text.decimal n
      obtain ⟨d, ds, hd⟩ := List.exists_cons_of_ne_nil (@Nat.toDigits_ne_nil n 10)
      -- The first character is a digit, and no digit is blank.
      have hmem : d ∈ Text.decimal n := by
        rw [Text.decimal, hd]
        exact List.mem_cons_self
      have hblank := Token.isBlank_of_isDigit (isDigit_of_mem_decimal hmem)
      rw [Text.decimal, hd, Text.trimStart, List.dropWhile_cons_of_neg (by simp [hblank])]

/-- The text of an integer is its sign and its digits. -/
theorem integerForm_signed (negative : Bool) (n : Nat) :
    IntegerForm 10 (Text.trimStart (signed negative (Text.decimal n))) negative (Text.decimal n) := by
  have hdigits := digits_decimal n
  -- There is no mark and no rest, so only the sign depends on the number.
  have hform (sign : List Char) (hsign : SignForm sign negative) :
      IntegerForm 10 (sign ++ ([] ++ (Text.decimal n ++ []))) negative (Text.decimal n) :=
    .intro hsign (fun _ => hdigits.head_not_sign []) (.inl rfl) (fun _ h => nomatch h)
      (fun c hc => isSome_digitIn?_of_isDigit (hdigits.2 c hc)) nofun
  rw [List.nil_append, List.append_nil] at hform
  rw [trimStart_signed]
  cases negative with
  | true => exact hform ['-'] .minus
  | false => exact hform [] .none

end Texts

end Number

namespace Strings

open Builtin (apply)
open Number

/-- A mark of a hexadecimal integer follows the blanks and at most one sign. -/
def Marked (cs : List Char) : Prop :=
  ∃ sign negative mark rest, SignForm sign negative ∧ MarkForm mark ∧
    Text.trimStart cs = sign ++ (mark ++ rest)

theorem apply_parseInt (s radix : Value) : apply .parseInt [s, radix] = .ok (.number (parseInt s radix)) :=
  rfl

theorem apply_parseInt_alone (s : Value) : apply .parseInt [s] = .ok (.number (parseInt s .undefined)) :=
  rfl

/-- A radix that is given is used. -/
theorem parseInt_of_standsFor {radix : Nat} (hpos : 0 < radix) (hle : radix ≤ 36) (s : Value) {v : Value}
    (hv : StandsFor v.toNumber radix) : parseInt s v = ofDigits radix (chars s) := by
  have hradix : (Number.toInt 0 0xFFFFFFFF v.toNumber).toNat = radix := by
    rw [Number.toInt, hv.toInt_eq]
    omega
  unfold parseInt
  rw [hradix]
  obtain ⟨r, rfl⟩ := Nat.exists_eq_succ_of_ne_zero hpos.ne'
  rfl

/-- Without a radix the mark of a hexadecimal integer behind the signs decides on it. -/
theorem parseInt_undefined (s : Value) :
    parseInt s .undefined =
      ofDigits (if hasHexMark (dropSigns (Text.trimStart (chars s))) then 16 else 10) (chars s) :=
  rfl

/-- Signs are dropped from what starts with none. -/
theorem dropSigns_append {sign mark rest : List Char} {negative : Bool} (hsign : SignForm sign negative)
    (hmark : MarkForm mark) : dropSigns (sign ++ (mark ++ rest)) = mark ++ rest := by
  cases hsign <;> cases hmark <;> rfl

/-- Behind two signs nothing is read. -/
theorem ofDigits_of_two_signs {radix : Nat} (hlow : 2 ≤ radix) (hhigh : radix ≤ 36) {cs rest : List Char}
    {first second : Char} (hfirst : first = '+' ∨ first = '-') (hsecond : second = '+' ∨ second = '-')
    (hcs : Text.trimStart cs = first :: second :: rest) : ofDigits radix cs = nan := by
  obtain ⟨negative, hsign⟩ : ∃ negative, SignForm [first] negative := by
    obtain rfl | rfl := hfirst
    · exact ⟨false, .plus⟩
    · exact ⟨true, .minus⟩
  -- The second sign is no digit, so the digits behind the first one are none.
  have hform : IntegerForm radix ([first] ++ ([] ++ ([] ++ second :: rest))) negative [] := by
    refine .intro hsign nofun (.inl rfl) (fun _ _ => ?_) nofun ?_
    · obtain rfl | rfl := hsecond <;> rfl
    · obtain rfl | rfl := hsecond <;> simp [digitIn?, digitValue?]
  have hstart : IntegerForm radix (Text.trimStart cs) negative [] := by rwa [hcs]
  have hread := hstart.ofDigits_eq hlow hhigh
  rwa [if_pos rfl] at hread

theorem parseInt_of_marked {s : Value} (h : Marked (chars s)) :
    parseInt s .undefined = ofDigits 16 (chars s) := by
  obtain ⟨sign, negative, mark, rest, hsign, hmark, hcs⟩ := h
  rw [parseInt_undefined, hcs, dropSigns_append hsign hmark,
    if_pos (hasHexMark_iff.mpr ⟨mark, rest, hmark, rfl⟩)]

theorem parseInt_of_not_marked {s : Value} (h : ¬ Marked (chars s)) :
    parseInt s .undefined = ofDigits 10 (chars s) := by
  rw [parseInt_undefined]
  split
  · rename_i hmark
    -- A mark that is found nevertheless stands behind two signs, and then there is nothing to read.
    obtain ⟨mark, rest, hform, hdrop⟩ := hasHexMark_iff.mp hmark
    cases htext : Text.trimStart (chars s) with
    | nil =>
        rw [htext] at hmark
        cases hmark
    | cons first tail =>
        -- The first character is a sign, or else a mark found at the front contradicts the
        -- assumption.
        by_cases hfirst : first = '+' ∨ first = '-'
        · have hbehind : dropSigns (first :: tail) = dropSigns tail :=
            List.dropWhile_cons_of_pos (by simpa using hfirst)
          cases tail with
          | nil =>
              rw [htext, hbehind] at hmark
              cases hmark
          | cons second tail =>
              by_cases hsecond : second = '+' ∨ second = '-'
              · rw [ofDigits_of_two_signs (by decide) (by decide) hfirst hsecond htext,
                  ofDigits_of_two_signs (by decide) (by decide) hfirst hsecond htext]
              · have hstay : dropSigns (second :: tail) = second :: tail :=
                  List.dropWhile_cons_of_neg (by simpa using hsecond)
                rw [htext, hbehind, hstay] at hdrop
                refine absurd ?_ h
                obtain rfl | rfl := hfirst
                · exact ⟨_, _, mark, rest, .plus, hform, htext.trans (congrArg _ hdrop)⟩
                · exact ⟨_, _, mark, rest, .minus, hform, htext.trans (congrArg _ hdrop)⟩
        · have hstay : dropSigns (first :: tail) = first :: tail :=
            List.dropWhile_cons_of_neg (by simpa using hfirst)
          rw [htext, hstay] at hdrop
          exact absurd ⟨_, _, mark, rest, .none, hform, htext.trans hdrop⟩ h
  · rfl

/-- No mark is in the text of an integer. -/
theorem not_marked_signed (negative : Bool) (n : Nat) :
    ¬ Marked (signed negative (Text.decimal n)) := by
  rintro ⟨sign, negative', mark, rest, -, hmark, htext⟩
  -- A mark has the letter x, and all characters of such a text are digits or a minus.
  have hmem : ∀ c ∈ mark, c = '-' ∨ c.isDigit = true := by
    intro c hc
    have hsigned : c ∈ signed negative (Text.decimal n) := by
      rw [← trimStart_signed, htext]
      exact List.mem_append_right _ (List.mem_append_left _ hc)
    cases negative with
    | true => exact (List.mem_cons.mp hsigned).imp_right isDigit_of_mem_decimal
    | false => exact .inr (isDigit_of_mem_decimal hsigned)
  cases hmark with
  | lower => exact absurd (hmem 'x' (by simp)) (by decide)
  | upper => exact absurd (hmem 'X' (by simp)) (by decide)

/-- An integer is read back from its text, and a negative zero as zero. -/
theorem parseInt_text {x : Float} {k : Int} (hx : StandsFor x k) (hk : k.natAbs ≤ 2 ^ 53) :
    StandsFor (parseInt (.string (Number.text x)) .undefined) k := by
  have hchars : chars (.string (Number.text x)) = signed (decide (k < 0)) (Text.decimal k.natAbs) := by
    rw [← chars_of_standsFor hx (by omega)]
    exact String.toList_ofList
  -- The digits of a number have that number as their positional value.
  have hvalue : positional 10 (Text.decimal k.natAbs) = k.natAbs := by
    rw [← natOfDigits_eq_positional, natOfDigits_decimal]
  have hform := integerForm_signed (decide (k < 0)) k.natAbs
  obtain ⟨-, hnumber⟩ := hform.number (by decide) (by decide)
  obtain ⟨-, hstands⟩ := hnumber Nat.toDigits_ne_nil (by rwa [hvalue])
  have hsigned : (if decide (k < 0) = true then -(k.natAbs : Int) else k.natAbs) = k := by
    simp only [decide_eq_true_eq]
    split <;> omega
  rw [hvalue, hsigned] at hstands
  -- Nothing in the text asks for another radix than ten.
  have hunmarked := not_marked_signed (decide (k < 0)) k.natAbs
  rw [← hchars] at hunmarked
  rwa [parseInt_of_not_marked hunmarked, hchars]

/-- What `parseInt` reads. In a radix from 2 to 36 a text has an optional sign, in radix sixteen an
    optional mark, and the longest run of digits. Without digits the result is not a number, and
    otherwise it is exactly the positional value of the digits with the sign, if that is at most `2^53`.
    Without a radix a text with the mark of a hexadecimal integer behind at most one sign is read in
    radix sixteen and any other in radix ten. So every integer up to `2^53` is read back from its text. -/
theorem integers_of_texts (s : Value) :
    (∀ radix : Nat, 2 ≤ radix → radix ≤ 36 →
      (∀ v : Value, StandsFor v.toNumber radix →
        apply .parseInt [s, v] = .ok (.number (ofDigits radix (chars s)))) ∧
      (∃ negative ds, IntegerForm radix (Text.trimStart (chars s)) negative ds) ∧
      ∀ negative ds, IntegerForm radix (Text.trimStart (chars s)) negative ds →
        ((ofDigits radix (chars s)).isNaN = true ↔ ds = []) ∧
        (ds ≠ [] → positional radix ds ≤ 2 ^ 53 →
          ofDigits radix (chars s) = withSign negative (Float.ofNat (positional radix ds)) ∧
          StandsFor (ofDigits radix (chars s))
            (if negative then -(positional radix ds : Int) else positional radix ds))) ∧
    (Marked (chars s) → apply .parseInt [s] = .ok (.number (ofDigits 16 (chars s)))) ∧
    (¬ Marked (chars s) → apply .parseInt [s] = .ok (.number (ofDigits 10 (chars s)))) ∧
    ∀ (x : Float) (k : Int), StandsFor x k → k.natAbs ≤ 2 ^ 53 →
      ∃ t y, apply .toString [.number x] = .ok t ∧ apply .parseInt [t] = .ok (.number y) ∧
        StandsFor y k ∧ (y == x) = true := by
  refine ⟨fun radix hlow hhigh => ⟨fun v hv => ?_, exists_integerForm radix _,
    fun negative ds h => h.number hlow hhigh⟩, fun h => ?_, fun h => ?_, fun x k hx hk => ?_⟩
  · rw [apply_parseInt, parseInt_of_standsFor (by omega) hhigh s hv]
  · rw [apply_parseInt_alone, parseInt_of_marked h]
  · rw [apply_parseInt_alone, parseInt_of_not_marked h]
  · have hread := parseInt_text hx hk
    exact ⟨_, _, rfl, apply_parseInt_alone _, hread, hread.beq hx⟩

/-- A negative hexadecimal integer is read behind blanks and up to the first character that is none of
    its digits, with the radix and without it. -/
theorem negative_hexadecimal_read :
    IntegerForm 16 (Text.trimStart (chars (.string " -0x1fg"))) true ['1', 'f'] ∧
      Marked (chars (.string " -0x1fg")) ∧
      apply .parseInt [.string " -0x1fg"] = .ok (.number (-Float.ofNat 31)) := by
  have htext : Text.trimStart (chars (.string " -0x1fg")) =
      ['-'] ++ (['0', 'x'] ++ (['1', 'f'] ++ ['g'])) := by
    decide
  have hform : IntegerForm 16 (Text.trimStart (chars (.string " -0x1fg"))) true ['1', 'f'] := by
    have hds : ∀ c ∈ ['1', 'f'], (digitIn? 16 c).isSome = true := by simp [digitIn?, digitValue?]
    have hrest : ∀ c ∈ ['g'].head?, (digitIn? 16 c).isSome = false := by simp [digitIn?, digitValue?]
    rw [htext]
    exact .intro .minus (by simp) (.inr ⟨rfl, .lower⟩) (by simp) hds hrest
  have hmarked : Marked (chars (.string " -0x1fg")) :=
    ⟨['-'], true, ['0', 'x'], ['1', 'f', 'g'], .minus, .lower, htext⟩
  have hvalue : positional 16 ['1', 'f'] = 31 := by
    rw [← natOfDigits_eq_positional]
    rfl
  obtain ⟨hradix, hmark, -, -⟩ := integers_of_texts (.string " -0x1fg")
  obtain ⟨-, -, hnumber⟩ := hradix 16 (by decide) (by decide)
  obtain ⟨-, hexact⟩ := hnumber true ['1', 'f'] hform
  obtain ⟨hread, -⟩ := hexact (List.cons_ne_nil _ _) (hvalue.le.trans (by norm_num))
  rw [hvalue] at hread
  exact ⟨hform, hmarked, by rw [hmark hmarked, hread]; rfl⟩

end Strings

end FieldLang

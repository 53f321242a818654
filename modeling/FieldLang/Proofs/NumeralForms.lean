import FieldLang.Proofs.Numerals

/-!
# The Forms of Numerals

What a numeral looks like, apart from any reader. A sign is a character or none, a power of ten is a
letter with a sign and digits, and a numeral is digits with a point before, among or after them, and
perhaps such a power.

The readers take these forms off the start of a text and go on with what follows. Each of them stops
where its form ends, provided that what follows does not go on with it, and takes off nothing else. So
a reader and its form are the same thing, and which texts a reader accepts can be said by the forms.

## Main definitions

* `Digits`: Digits, at least one.
* `SignForm`, `PowerForm`, `MantissaForm`, `NumeralForm`: The texts of signs, of powers of ten, of
  digits with a point, and of numerals.

## Theorems

* `exists_sign`, `scanSign_append`: A sign is read off a text.
* `exists_power_of_scanExponent`, `scanExponent_append`: A power of ten is read off a text.
* `exists_form_of_scanNumeral`: What is read off a text is a numeral.
* `scanNumeral_eq_iff`: The texts that are read to their end as numerals.
-/

namespace FieldLang.Number

/-- Digits, at least one of them. -/
def Digits (ds : List Char) : Prop :=
  ds ≠ [] ∧ ∀ c ∈ ds, c.isDigit = true

theorem digits_decimal (n : Nat) : Digits (Text.decimal n) :=
  ⟨Nat.toDigits_ne_nil, fun _ => isDigit_of_mem_decimal⟩

theorem Digits.take {ds : List Char} (h : Digits ds) {k : Nat} (hk : 0 < k) :
    Digits (ds.take k) := by
  refine ⟨?_, fun c hc => h.2 c (List.mem_of_mem_take hc)⟩
  rw [ne_eq, List.take_eq_nil_iff, not_or]
  exact ⟨hk.ne', h.1⟩

theorem Digits.drop {ds : List Char} (h : Digits ds) {k : Nat} (hk : k < ds.length) :
    Digits (ds.drop k) := by
  refine ⟨?_, fun c hc => h.2 c (List.mem_of_mem_drop hc)⟩
  rw [ne_eq, List.drop_eq_nil_iff, not_le]
  exact hk

/-- An optional sign, and whether it is a minus. -/
inductive SignForm : List Char → Bool → Prop
  | none : SignForm [] false
  | plus : SignForm ['+'] false
  | minus : SignForm ['-'] true

/-- A power of ten: a letter, an optional sign and digits. -/
inductive PowerForm : List Char → Int → Prop
  | intro {letter : Char} {sign ds : List Char} {negative : Bool}
      (hletter : letter = 'e' ∨ letter = 'E') (hsign : SignForm sign negative) (hds : Digits ds) :
      PowerForm (letter :: (sign ++ ds))
        (if negative then -(natOfDigits 10 ds : Int) else natOfDigits 10 ds)

/-- Digits with at most one point, with the digits before the point and those after it. -/
inductive MantissaForm : List Char → List Char → List Char → Prop
  | whole {ds} (hds : Digits ds) : MantissaForm ds ds []
  | point {ds fs} (hds : Digits ds) (hfs : ∀ c ∈ fs, c.isDigit = true) :
      MantissaForm (ds ++ '.' :: fs) ds fs
  | fraction {fs} (hfs : Digits fs) : MantissaForm ('.' :: fs) [] fs

/-- A numeral without a sign: digits with at most one point, and perhaps a power of ten. -/
inductive NumeralForm : List Char → Numeral → Prop
  | mantissa {cs whole fraction} (h : MantissaForm cs whole fraction) :
      NumeralForm cs ⟨whole, fraction, 0⟩
  | power {cs ps whole fraction exponent} (h : MantissaForm cs whole fraction)
      (hps : PowerForm ps exponent) : NumeralForm (cs ++ ps) ⟨whole, fraction, exponent⟩

/-- The text does not go on with digits. -/
def NoDigit (cs : List Char) : Prop :=
  ∀ c ∈ cs.head?, c.isDigit = false

theorem noDigit_nil : NoDigit [] := by
  simp [NoDigit]

/-- What is not taken does not start what is left. -/
theorem head?_dropWhile (p : Char → Bool) (cs : List Char) :
    ∀ c ∈ (cs.dropWhile p).head?, p c = false := by
  intro c hc
  have hnot := List.head?_dropWhile_not p cs
  rwa [Option.mem_def.mp hc] at hnot

theorem noDigit_dropWhile (cs : List Char) : NoDigit (cs.dropWhile Char.isDigit) :=
  head?_dropWhile _ cs

theorem isDigit_of_mem_takeWhile {cs : List Char} {c : Char} (h : c ∈ cs.takeWhile Char.isDigit) :
    c.isDigit = true :=
  List.all_eq_true.mp List.all_takeWhile c h

/-- What is left of digits and a text that goes on with none is that text. -/
theorem dropWhile_append_of_head {ds rest : List Char} (hds : ∀ c ∈ ds, c.isDigit = true)
    (hrest : NoDigit rest) : (ds ++ rest).dropWhile Char.isDigit = rest := by
  have htake : (ds ++ rest).takeWhile Char.isDigit = ds := takeWhile_append_of_head hds hrest
  have hsplit := List.takeWhile_append_dropWhile (p := Char.isDigit) (l := ds ++ rest)
  rw [htake] at hsplit
  exact List.append_cancel_left hsplit

section Signs

/-- Every text is an optional sign and what follows it. -/
theorem exists_sign (cs : List Char) :
    ∃ sign, SignForm sign (scanSign cs).1 ∧ cs = sign ++ (scanSign cs).2 := by
  unfold scanSign
  split
  · exact ⟨['-'], .minus, rfl⟩
  · exact ⟨['+'], .plus, rfl⟩
  · exact ⟨[], .none, rfl⟩

/-- A sign is read off what starts with none. -/
theorem scanSign_append {sign rest : List Char} {negative : Bool} (h : SignForm sign negative)
    (hrest : ∀ c ∈ rest.head?, c ≠ '+' ∧ c ≠ '-') : scanSign (sign ++ rest) = (negative, rest) := by
  cases h with
  | plus => rfl
  | minus => rfl
  | none =>
      rw [List.nil_append]
      unfold scanSign
      split
      · exact absurd rfl (hrest '-' rfl).2
      · exact absurd rfl (hrest '+' rfl).1
      · rfl

/-- Digits start with no sign. -/
theorem Digits.head_not_sign {ds : List Char} (h : Digits ds) (rest : List Char) :
    ∀ c ∈ (ds ++ rest).head?, c ≠ '+' ∧ c ≠ '-' := by
  obtain ⟨d, ds', rfl⟩ := List.exists_cons_of_ne_nil h.1
  have hd : d.isDigit = true := h.2 d (by simp)
  intro c hc
  obtain rfl : d = c := by simpa using hc
  constructor
  · rintro rfl
    exact absurd hd (by decide)
  · rintro rfl
    exact absurd hd (by decide)

end Signs

section Powers

/-- A power of ten starts with a letter. -/
theorem PowerForm.head {cs : List Char} {exponent : Int} (h : PowerForm cs exponent)
    (rest : List Char) : ∃ letter, (cs ++ rest).head? = some letter ∧ (letter = 'e' ∨ letter = 'E') := by
  cases h with
  | @intro letter sign ds negative hletter hsign hds => exact ⟨letter, rfl, hletter⟩

theorem PowerForm.noDigit {cs : List Char} {exponent : Int} (h : PowerForm cs exponent)
    (rest : List Char) : NoDigit (cs ++ rest) := by
  obtain ⟨letter, hhead, hletter⟩ := h.head rest
  intro c hc
  rw [hhead] at hc
  obtain rfl : letter = c := by simpa using hc
  rcases hletter with rfl | rfl <;> decide

theorem PowerForm.head?_ne_point {cs : List Char} {exponent : Int} (h : PowerForm cs exponent)
    (rest : List Char) : (cs ++ rest).head? ≠ some '.' := by
  obtain ⟨letter, hhead, hletter⟩ := h.head rest
  rw [hhead]
  rcases hletter with rfl | rfl <;> decide

/-- A power of ten is read off what does not go on with digits. -/
theorem scanExponent_append {cs rest : List Char} {exponent : Int} (h : PowerForm cs exponent)
    (hrest : NoDigit rest) : scanExponent (cs ++ rest) = some (exponent, rest) := by
  cases h with
  | @intro letter sign ds negative hletter hsign hds =>
      have hscan : scanSign (sign ++ (ds ++ rest)) = (negative, ds ++ rest) :=
        scanSign_append hsign (hds.head_not_sign rest)
      have htake : (ds ++ rest).takeWhile Char.isDigit = ds := takeWhile_append_of_head hds.2 hrest
      have hempty : ds.isEmpty = false := by simpa using hds.1
      rw [List.cons_append, List.append_assoc]
      simp only [scanExponent, hletter, if_true, hscan, htake, hempty, Bool.false_eq_true, if_false,
        dropWhile_append_of_head hds.2 hrest]

/-- What is read off as an exponent is a power of ten, and no digit follows it. -/
theorem exists_power_of_scanExponent {cs rest : List Char} {exponent : Int}
    (h : scanExponent cs = some (exponent, rest)) :
    ∃ ps, cs = ps ++ rest ∧ PowerForm ps exponent ∧ NoDigit rest := by
  unfold scanExponent at h
  split at h
  · cases h
  · rename_i letter tail
    split at h
    · rename_i hletter
      -- Behind the letter may be a sign, and the digits after it must not be missing.
      obtain ⟨sign, hsign, htail⟩ := exists_sign tail
      simp only at h
      split at h
      · cases h
      · rename_i hempty
        cases h
        refine ⟨letter :: (sign ++ (scanSign tail).2.takeWhile Char.isDigit), ?_, ?_,
          noDigit_dropWhile _⟩
        · rw [List.cons_append, List.append_assoc, List.takeWhile_append_dropWhile, ← htail]
        · exact .intro hletter hsign ⟨by simpa using hempty, fun c hc => isDigit_of_mem_takeWhile hc⟩
    · cases h

end Powers

section Mantissas

theorem scanFraction_of_not_point {rest : List Char} (h : rest.head? ≠ some '.') :
    scanFraction rest = ([], rest) := by
  unfold scanFraction
  split
  · exact absurd rfl h
  · rfl

/-- Digits with a point start with no sign. -/
theorem MantissaForm.head_not_sign {cs whole fraction : List Char} (h : MantissaForm cs whole fraction)
    (rest : List Char) : ∀ c ∈ (cs ++ rest).head?, c ≠ '+' ∧ c ≠ '-' := by
  cases h with
  | whole hds => exact hds.head_not_sign rest
  | point hds hfs =>
      rw [List.append_assoc]
      exact hds.head_not_sign _
  | fraction hfs =>
      intro c hc
      obtain rfl : '.' = c := by simpa using hc
      decide

/-- Digits with a point are read off what goes on neither with a digit nor with a point. -/
theorem MantissaForm.scan_append {cs whole fraction rest : List Char}
    (h : MantissaForm cs whole fraction) (hrest : NoDigit rest) (hpoint : rest.head? ≠ some '.') :
    (cs ++ rest).takeWhile Char.isDigit = whole ∧
      scanFraction ((cs ++ rest).dropWhile Char.isDigit) = (fraction, rest) := by
  have hnoDigit : ∀ tail, NoDigit ('.' :: tail) := fun tail => by simp [NoDigit]
  cases h with
  | whole hds =>
      refine ⟨takeWhile_append_of_head hds.2 hrest, ?_⟩
      rw [dropWhile_append_of_head hds.2 hrest, scanFraction_of_not_point hpoint]
  | point hds hfs =>
      rw [List.append_assoc, List.cons_append]
      refine ⟨takeWhile_append_of_head hds.2 (hnoDigit _), ?_⟩
      rw [dropWhile_append_of_head hds.2 (hnoDigit _), scanFraction,
        takeWhile_append_of_head hfs hrest, dropWhile_append_of_head hfs hrest]
  | fraction hfs =>
      have hdrop : ('.' :: (fraction ++ rest)).dropWhile Char.isDigit = '.' :: (fraction ++ rest) := rfl
      refine ⟨rfl, ?_⟩
      rw [List.cons_append, hdrop, scanFraction, takeWhile_append_of_head hfs.2 hrest,
        dropWhile_append_of_head hfs.2 hrest]

/-- Digits before or after a point are digits with at most one point. -/
theorem exists_mantissa {cs fraction rest : List Char}
    (hscan : scanFraction (cs.dropWhile Char.isDigit) = (fraction, rest))
    (hsome : cs.takeWhile Char.isDigit ≠ [] ∨ fraction ≠ []) :
    ∃ body, cs = body ++ rest ∧ MantissaForm body (cs.takeWhile Char.isDigit) fraction := by
  have hsplit := List.takeWhile_append_dropWhile (p := Char.isDigit) (l := cs)
  have hdigits : ∀ c ∈ cs.takeWhile Char.isDigit, c.isDigit = true :=
    fun c hc => isDigit_of_mem_takeWhile hc
  generalize cs.takeWhile Char.isDigit = whole at hsplit hsome hdigits ⊢
  unfold scanFraction at hscan
  split at hscan
  · rename_i tail hdrop
    cases hscan
    have hfraction : ∀ c ∈ tail.takeWhile Char.isDigit, c.isDigit = true :=
      fun c hc => isDigit_of_mem_takeWhile hc
    refine ⟨whole ++ '.' :: tail.takeWhile Char.isDigit, ?_, ?_⟩
    · rw [List.append_assoc, List.cons_append, List.takeWhile_append_dropWhile, ← hdrop, hsplit]
    · -- Without a digit before the point there is one after it.
      by_cases hwhole : whole = []
      · rw [hwhole] at hsome ⊢
        exact .fraction ⟨by simpa using hsome, hfraction⟩
      · exact .point ⟨hwhole, hdigits⟩ hfraction
  · cases hscan
    exact ⟨whole, hsplit.symm, .whole ⟨by simpa using hsome, hdigits⟩⟩

end Mantissas

section Numerals

/-- What is read off a text as a numeral is one. -/
theorem exists_form_of_scanNumeral {cs rest : List Char} {n : Numeral}
    (h : scanNumeral cs = some (n, rest)) : ∃ body, cs = body ++ rest ∧ NumeralForm body n := by
  unfold scanNumeral at h
  generalize hscan : scanFraction (cs.dropWhile Char.isDigit) = pair at h
  obtain ⟨fraction, tail⟩ := pair
  simp only at h
  split at h
  · cases h
  · rename_i hsome
    -- A power may follow the digits, and then the numeral goes on to its end.
    obtain ⟨body, hcs, hform⟩ := exists_mantissa hscan (by simpa [or_iff_not_imp_left] using hsome)
    split at h
    · rename_i exponent after hexponent
      cases h
      obtain ⟨ps, htail, hpower, -⟩ := exists_power_of_scanExponent hexponent
      exact ⟨body ++ ps, by rw [hcs, htail, List.append_assoc], .power hform hpower⟩
    · cases h
      exact ⟨body, hcs, .mantissa hform⟩

/-- The text of a mantissa has a digit. -/
theorem MantissaForm.not_both_empty {cs whole fraction : List Char}
    (h : MantissaForm cs whole fraction) : (whole.isEmpty && fraction.isEmpty) = false := by
  cases h with
  | whole hds => simp [hds.1]
  | point hds hfs => simp [hds.1]
  | fraction hfs => simp [hfs.1]

/-- A numeral starts with no sign, whatever follows it. -/
theorem NumeralForm.append_head_not_sign {cs : List Char} {n : Numeral} (h : NumeralForm cs n)
    (rest : List Char) : ∀ c ∈ (cs ++ rest).head?, c ≠ '+' ∧ c ≠ '-' := by
  cases h with
  | mantissa h => exact h.head_not_sign rest
  | power h hps =>
      rw [List.append_assoc]
      exact h.head_not_sign _

theorem NumeralForm.head_not_sign {cs : List Char} {n : Numeral} (h : NumeralForm cs n) :
    ∀ c ∈ cs.head?, c ≠ '+' ∧ c ≠ '-' := by
  simpa using h.append_head_not_sign []

/-- A numeral is read off what goes on with none of its parts. -/
theorem NumeralForm.scanNumeral_append {cs rest : List Char} {n : Numeral} (h : NumeralForm cs n)
    (hrest : NoDigit rest) (hpoint : rest.head? ≠ some '.') (hpower : scanExponent rest = none) :
    scanNumeral (cs ++ rest) = some (n, rest) := by
  cases h with
  | mantissa h =>
      obtain ⟨hwhole, hfraction⟩ := h.scan_append hrest hpoint
      simp only [scanNumeral, hwhole, hfraction, h.not_both_empty, Bool.false_eq_true, if_false, hpower]
  | @power cs ps whole fraction exponent h hps =>
      -- The letter of the power ends the digits.
      obtain ⟨hwhole, hfraction⟩ := h.scan_append (hps.noDigit rest) (hps.head?_ne_point rest)
      rw [List.append_assoc]
      simp only [scanNumeral, hwhole, hfraction, h.not_both_empty, Bool.false_eq_true, if_false,
        scanExponent_append hps hrest]

/-- A numeral is read to its end. -/
theorem NumeralForm.scanNumeral_eq {cs : List Char} {n : Numeral} (h : NumeralForm cs n) :
    scanNumeral cs = some (n, []) := by
  have happend := h.scanNumeral_append noDigit_nil (by simp) rfl
  rwa [List.append_nil] at happend

/-- A text is read to its end as a numeral exactly if it has the form of that numeral. -/
theorem scanNumeral_eq_iff {cs : List Char} {n : Numeral} :
    scanNumeral cs = some (n, []) ↔ NumeralForm cs n := by
  constructor
  · intro h
    obtain ⟨body, hcs, hform⟩ := exists_form_of_scanNumeral h
    rwa [hcs, List.append_nil]
  · exact NumeralForm.scanNumeral_eq

end Numerals

end FieldLang.Number

import FieldLang.Proofs.Layout
import FieldLang.Proofs.TextNumbers

/-!
# Numbers at the Start of Texts

What is read at the start of a text, where anything may follow. If an infinity stands there, it is that
infinity. Otherwise it is the longest numeral that starts the text, with its sign, and no number if no
numeral does.

That the reader finds the longest one is not seen from its steps. It takes digits, a point, digits and
a power of ten, and gives back a letter that no power follows. The proof goes the other way: whatever
numeral starts a text, the reader gets at least as far, because each part of that numeral is still there
when the reader comes to it, only that digits may go on. So nothing longer was left out, and what the
reader takes is a numeral itself.

There are two more readers of numerals, for whole texts and for sources, and they accept less. Where one
of them accepts a text, the numeral in it goes to the end of the text, but for blanks. Nothing there goes
on with it, so the longest numeral is the same.

## Main definitions

* `SignedForm`: A numeral with an optional sign, and its number.
* `Numeral.written`, `SignedNumber`: The number that is written, before it is rounded to a double.
* `LongestNumeral`: The longest such numeral that starts a text.
* `StartsInfinite`: An infinity starts a text.

## Theorems

* `NumeralForm.exists_scanNumeral`: The reader goes at least as far as any numeral.
* `longestNumeral_of_scanNumeral`, `LongestNumeral.unique`: It finds the longest numeral, and there is
  only one number for it.
* `SignedForm.isNearest`: The number of a numeral is the double nearest to what is written.
* `SignedForm.ofText_blanks`, `SignedForm.ofPrefixText_blanks`: A numeral between blanks.
* `ofPrefixText_of_ofText`: Whole texts are read alike.
* `Token.IsLexeme.exists_numeralForm`: What the lexer reads as a number is a numeral.
* `leading_numbers`: What the three readers have to do with each other.
-/

namespace FieldLang

namespace Number

/-- A numeral with an optional sign, and the number that it writes. -/
inductive SignedForm : List Char → Float → Prop
  | intro {sign body : List Char} {negative : Bool} {n : Numeral} (hsign : SignForm sign negative)
      (hbody : NumeralForm body n) : SignedForm (sign ++ body) (withSign negative n.value)

/-- The number that a numeral writes, as it is written. -/
def Numeral.written (n : Numeral) : ℚ :=
  natOfDigits 10 (n.whole ++ n.fraction) * 10 ^ (n.exponent - n.fraction.length)

/-- The number that a numeral with an optional sign writes. -/
inductive SignedNumber : List Char → ℚ → Prop
  | intro {sign body : List Char} {negative : Bool} {n : Numeral} (hsign : SignForm sign negative)
      (hbody : NumeralForm body n) :
      SignedNumber (sign ++ body) (if negative then -n.written else n.written)

/-- The longest numeral with an optional sign that starts a text, and its number. -/
structure LongestNumeral (cs start : List Char) (x : Float) : Prop where
  starts : start <+: cs
  form : SignedForm start x
  longest : ∀ other y, other <+: cs → SignedForm other y → other.length ≤ start.length

/-- An infinity with an optional sign starts a text. -/
inductive StartsInfinite : List Char → Bool → Prop
  | intro {sign rest : List Char} {negative : Bool} (hsign : SignForm sign negative) :
      StartsInfinite (sign ++ ("Infinity".toList ++ rest)) negative

section Reach

/-- The reader of powers of ten takes one that is there, and digits that go on with it. -/
theorem PowerForm.exists_scanExponent {ps : List Char} {exponent : Int} (h : PowerForm ps exponent)
    (rest : List Char) :
    ∃ exponent', scanExponent (ps ++ rest) = some (exponent', rest.dropWhile Char.isDigit) := by
  cases h with
  | @intro letter sign ds negative hletter hsign hds =>
      have hscan : scanSign (sign ++ (ds ++ rest)) = (negative, ds ++ rest) :=
        scanSign_append hsign (hds.head_not_sign rest)
      -- It takes the digits of the power and perhaps more, so there is one at least.
      have hempty : ((ds ++ rest).takeWhile Char.isDigit).isEmpty = false := by
        rw [List.takeWhile_append_of_pos hds.2]
        simp [hds.1]
      rw [List.cons_append, List.append_assoc]
      simp only [scanExponent, hletter, if_true, hscan, hempty, Bool.false_eq_true, if_false,
        List.dropWhile_append_of_pos hds.2]
      exact ⟨_, rfl⟩

theorem scanFraction_suffix (cs : List Char) : (scanFraction cs).2 <:+ cs := by
  unfold scanFraction
  split
  · exact (List.dropWhile_suffix _).trans (List.suffix_cons _ _)
  · exact List.suffix_refl _

/-- The reader of digits takes those that are there with their point, and at most what goes on with
    them. -/
theorem MantissaForm.exists_scan {cs whole fraction : List Char} (h : MantissaForm cs whole fraction)
    (rest : List Char) :
    ∃ fraction' rest', scanFraction ((cs ++ rest).dropWhile Char.isDigit) = (fraction', rest') ∧
      rest' <:+ rest ∧ (((cs ++ rest).takeWhile Char.isDigit).isEmpty && fraction'.isEmpty) = false := by
  -- A point that comes after the digits may be taken with them, and after a point only more digits.
  cases h with
  | whole hds =>
      rw [List.dropWhile_append_of_pos hds.2, List.takeWhile_append_of_pos hds.2]
      exact ⟨_, _, rfl, (scanFraction_suffix _).trans (List.dropWhile_suffix _), by simp [hds.1]⟩
  | point hds hfs =>
      have hstop : ∀ c ∈ ('.' :: (fraction ++ rest)).head?, c.isDigit = false := by simp
      rw [List.append_assoc, List.cons_append, dropWhile_append_of_head hds.2 hstop,
        takeWhile_append_of_head hds.2 hstop]
      refine ⟨_, _, rfl, ?_, by simp [hds.1]⟩
      rw [List.dropWhile_append_of_pos hfs]
      exact List.dropWhile_suffix _
  | fraction hfs =>
      have hstop : ('.' :: (fraction ++ rest)).dropWhile Char.isDigit = '.' :: (fraction ++ rest) := rfl
      rw [List.cons_append, hstop, scanFraction]
      refine ⟨_, _, rfl, ?_, ?_⟩
      · rw [List.dropWhile_append_of_pos hfs.2]
        exact List.dropWhile_suffix _
      · rw [List.takeWhile_append_of_pos hfs.2]
        simp [hfs.1]

/-- The reader of numerals goes at least as far as any numeral that starts the text. -/
theorem NumeralForm.exists_scanNumeral {body : List Char} {n : Numeral} (h : NumeralForm body n)
    (rest : List Char) :
    ∃ n' rest', scanNumeral (body ++ rest) = some (n', rest') ∧ rest' <:+ rest := by
  cases h with
  | mantissa h =>
      obtain ⟨fraction, tail, hscan, hsuffix, hdigits⟩ := h.exists_scan rest
      unfold scanNumeral
      simp only [hscan, hdigits, Bool.false_eq_true, if_false]
      -- A power of ten may follow by chance, and then the reader gets further still.
      split
      · rename_i exponent rest' hexponent
        obtain ⟨ps, rfl, -⟩ := exists_power_of_scanExponent hexponent
        exact ⟨_, _, rfl, (List.suffix_append _ _).trans hsuffix⟩
      · exact ⟨_, _, rfl, hsuffix⟩
  | @power cs ps whole fraction exponent h hps =>
      -- The letter of the power ends the digits, so that the reader comes to it.
      obtain ⟨hwhole, hfraction⟩ := h.scan_append (hps.noDigit rest) (hps.head?_ne_point rest)
      obtain ⟨exponent', hexponent⟩ := hps.exists_scanExponent rest
      rw [List.append_assoc]
      simp only [scanNumeral, hwhole, hfraction, h.not_both_empty, Bool.false_eq_true, if_false, hexponent]
      exact ⟨_, _, rfl, List.dropWhile_suffix _⟩

end Reach

section Longest

variable {cs : List Char}

/-- A numeral with a sign that starts a text is its sign and a numeral in what is left behind it. -/
theorem SignedForm.exists_scan {start : List Char} {x : Float} (h : SignedForm start x)
    (hstart : start <+: cs) :
    ∃ body n rest, NumeralForm body n ∧ x = withSign (scanSign cs).1 n.value ∧
      (scanSign cs).2 = body ++ rest ∧ cs.length = start.length + rest.length := by
  obtain ⟨rest, rfl⟩ := hstart
  cases h with
  | @intro sign body negative n hsign hbody =>
      have hscan := scanSign_append hsign (hbody.append_head_not_sign rest)
      rw [List.append_assoc, hscan]
      exact ⟨body, n, rest, hbody, rfl, rfl, by simp only [List.length_append]; omega⟩

/-- Without anything for the reader of numerals no numeral starts the text. -/
theorem not_signedForm_of_scanNumeral (hscan : scanNumeral (scanSign cs).2 = none) {start : List Char}
    {x : Float} (hstart : start <+: cs) : ¬ SignedForm start x := by
  intro h
  obtain ⟨body, n, rest, hbody, -, hrest, -⟩ := h.exists_scan hstart
  obtain ⟨n', rest', hsome, -⟩ := hbody.exists_scanNumeral rest
  rw [hrest, hsome] at hscan
  cases hscan

/-- What the reader of numerals takes is the longest numeral. -/
theorem longestNumeral_of_scanNumeral {n : Numeral} {rest : List Char}
    (hscan : scanNumeral (scanSign cs).2 = some (n, rest)) :
    ∃ start, cs = start ++ rest ∧ LongestNumeral cs start (withSign (scanSign cs).1 n.value) := by
  obtain ⟨sign, hsign, hcs⟩ := exists_sign cs
  obtain ⟨body, hbody, hform⟩ := exists_form_of_scanNumeral hscan
  have hsplit : cs = (sign ++ body) ++ rest := by
    rw [List.append_assoc, ← hbody, ← hcs]
  refine ⟨sign ++ body, hsplit, ⟨rest, hsplit.symm⟩, .intro hsign hform, fun other y hother h => ?_⟩
  -- The reader got past the other numeral, so what it left is not longer than what follows that one.
  obtain ⟨body', n', tail, hbody', -, htail, hlength⟩ := h.exists_scan hother
  obtain ⟨n'', rest', hsome, hsuffix⟩ := hbody'.exists_scanNumeral tail
  rw [htail, hsome] at hscan
  cases hscan
  have hle := hsuffix.length_le
  have htotal := congrArg List.length hsplit
  rw [List.length_append] at htotal
  omega

/-- Two numerals that are both the longest write the same number. -/
theorem LongestNumeral.unique {start other : List Char} {x y : Float} (h : LongestNumeral cs start x)
    (h' : LongestNumeral cs other y) : x = y := by
  have hlength := Nat.le_antisymm (h'.longest _ _ h.starts h.form) (h.longest _ _ h'.starts h'.form)
  obtain rfl : start = other :=
    (List.prefix_of_prefix_length_le h.starts h'.starts hlength.le).eq_of_length hlength
  -- Their texts are the same by now, and so are their numerals, as a whole text is read in one way.
  obtain ⟨body, n, rest, hbody, rfl, hrest, hfull⟩ := h.form.exists_scan h.starts
  obtain ⟨body', n', rest', hbody', rfl, hrest', hfull'⟩ := h'.form.exists_scan h.starts
  obtain ⟨rfl, -⟩ := List.append_inj' (hrest.symm.trans hrest') (by omega)
  have hscan := hbody.scanNumeral_eq.symm.trans hbody'.scanNumeral_eq
  cases hscan
  rfl

end Longest

section Infinite

theorem isPrefixOf_infinity_iff {cs : List Char} {negative : Bool} :
    StartsInfinite cs negative ↔
      (scanSign cs).1 = negative ∧ "Infinity".toList.isPrefixOf (scanSign cs).2 = true := by
  constructor
  · intro h
    cases h with
    | @intro sign rest negative hsign =>
        have hhead : ∀ c ∈ ("Infinity".toList ++ rest).head?, c ≠ '+' ∧ c ≠ '-' := by simp
        rw [scanSign_append hsign hhead]
        exact ⟨rfl, List.isPrefixOf_iff_prefix.mpr (List.prefix_append _ _)⟩
  · rintro ⟨rfl, hinfinite⟩
    obtain ⟨sign, hsign, hcs⟩ := exists_sign cs
    obtain ⟨rest, hrest⟩ := List.isPrefixOf_iff_prefix.mp hinfinite
    have hstarts : StartsInfinite (sign ++ ("Infinity".toList ++ rest)) (scanSign cs).1 := .intro hsign
    rwa [hrest, ← hcs] at hstarts

end Infinite

section Reading

variable {cs : List Char}

theorem ofPrefixText_of_infinite {negative : Bool} (h : StartsInfinite (Text.trimStart cs) negative) :
    ofPrefixText cs = withSign negative infinity := by
  obtain ⟨rfl, hinfinite⟩ := isPrefixOf_infinity_iff.mp h
  unfold ofPrefixText
  simp only [hinfinite, if_true]

/-- The longest numeral at the start is read, and without one the result is not a number. -/
theorem ofPrefixText_cases (h : ∀ negative, ¬ StartsInfinite (Text.trimStart cs) negative) :
    (∃ start, LongestNumeral (Text.trimStart cs) start (ofPrefixText cs)) ∨
      ofPrefixText cs = nan ∧
        ∀ start x, start <+: Text.trimStart cs → ¬ SignedForm start x := by
  have hinfinite : ¬ "Infinity".toList.isPrefixOf (scanSign (Text.trimStart cs)).2 = true :=
    fun hinfinite => h _ (isPrefixOf_infinity_iff.mpr ⟨rfl, hinfinite⟩)
  unfold ofPrefixText
  simp only [if_neg hinfinite]
  cases hscan : scanNumeral (scanSign (Text.trimStart cs)).2 with
  | some scanned =>
      obtain ⟨start, -, hlongest⟩ := longestNumeral_of_scanNumeral hscan
      exact .inl ⟨start, hlongest⟩
  | none => exact .inr ⟨rfl, fun start x hstart => not_signedForm_of_scanNumeral hscan hstart⟩

theorem SignedForm.isNaN {x : Float} (h : SignedForm cs x) : x.isNaN = false := by
  cases h with
  | intro hsign hbody => exact (isNaN_withSign ..).trans (Numeral.isNaN_value _)

end Reading

section Blanks

open Token (Blanks Apart isBlank_of_isDigit)

theorem MantissaForm.not_blank {cs whole fraction : List Char} (h : MantissaForm cs whole fraction) :
    ∀ c ∈ cs, Text.isBlank c = false := by
  have hpoint : Text.isBlank '.' = false := by decide
  cases h with
  | whole hds => exact fun c hc => isBlank_of_isDigit (hds.2 c hc)
  | point hds hfs =>
      intro c hc
      rcases List.mem_append.mp hc with hc | hc
      · exact isBlank_of_isDigit (hds.2 c hc)
      · rcases List.mem_cons.mp hc with rfl | hc
        · exact hpoint
        · exact isBlank_of_isDigit (hfs c hc)
  | fraction hfs =>
      exact List.forall_mem_cons.mpr ⟨hpoint, fun c hc => isBlank_of_isDigit (hfs.2 c hc)⟩

theorem SignForm.not_blank {sign : List Char} {negative : Bool} (h : SignForm sign negative) :
    ∀ c ∈ sign, Text.isBlank c = false := by
  cases h <;> simp <;> decide

theorem PowerForm.not_blank {cs : List Char} {exponent : Int} (h : PowerForm cs exponent) :
    ∀ c ∈ cs, Text.isBlank c = false := by
  cases h with
  | @intro letter sign ds negative hletter hsign hds =>
      refine List.forall_mem_cons.mpr ⟨by rcases hletter with rfl | rfl <;> decide, fun c hc => ?_⟩
      rcases List.mem_append.mp hc with hc | hc
      · exact hsign.not_blank c hc
      · exact isBlank_of_isDigit (hds.2 c hc)

/-- No character of a numeral is blank, and there is one. -/
theorem SignedForm.not_blank {cs : List Char} {x : Float} (h : SignedForm cs x) :
    cs ≠ [] ∧ ∀ c ∈ cs, Text.isBlank c = false := by
  obtain @⟨sign, body, negative, n, hsign, hbody⟩ := h
  constructor
  · intro hnil
    obtain rfl := (List.append_eq_nil_iff.mp hnil).2
    cases hbody.scanNumeral_eq
  · intro c hc
    rcases List.mem_append.mp hc with hc | hc
    · exact hsign.not_blank c hc
    · cases hbody with
      | mantissa h => exact h.not_blank c hc
      | power h hps =>
          rcases List.mem_append.mp hc with hc | hc
          · exact h.not_blank c hc
          · exact hps.not_blank c hc

/-- Blanks are cut off up to the first character that is none. -/
theorem dropWhile_blanks {leading body rest : List Char} (hleading : Blanks leading) (hne : body ≠ [])
    (hbody : ∀ c ∈ body, Text.isBlank c = false) :
    (leading ++ (body ++ rest)).dropWhile Text.isBlank = body ++ rest := by
  obtain ⟨c, body, rfl⟩ := List.exists_cons_of_ne_nil hne
  have hc : ¬ Text.isBlank c = true := by simp [hbody c]
  rw [List.dropWhile_append_of_pos hleading, List.cons_append, List.dropWhile_cons_of_neg hc]

/-- Blanks around a text are cut off. -/
theorem trim_blanks {leading body gap : List Char} (hleading : Blanks leading) (hgap : Blanks gap)
    (hne : body ≠ []) (hbody : ∀ c ∈ body, Text.isBlank c = false) :
    Text.trimStart (leading ++ (body ++ gap)) = body ++ gap ∧
      Text.trim (leading ++ (body ++ gap)) = body := by
  have hstart : Text.trimStart (leading ++ (body ++ gap)) = body ++ gap :=
    dropWhile_blanks hleading hne hbody
  have hend : (gap.reverse ++ (body.reverse ++ [])).dropWhile Text.isBlank = body.reverse ++ [] :=
    dropWhile_blanks (fun c hc => hgap c (List.mem_reverse.mp hc)) (by simpa using hne)
      (fun c hc => hbody c (List.mem_reverse.mp hc))
  refine ⟨hstart, ?_⟩
  rw [Text.trim, hstart, Text.trimEnd, List.reverse_append]
  rw [List.append_nil] at hend
  rw [hend, List.reverse_reverse]

/-- A text is what is left of it without the blanks at its ends, between blanks. -/
theorem exists_blanks (cs : List Char) :
    ∃ leading gap, cs = leading ++ (Text.trim cs ++ gap) ∧ Text.trimStart cs = Text.trim cs ++ gap ∧
      Blanks leading ∧ Blanks gap := by
  have hsplit : Text.trimStart cs =
      Text.trim cs ++ ((Text.trimStart cs).reverse.takeWhile Text.isBlank).reverse := by
    rw [Text.trim, Text.trimEnd, ← List.reverse_append, List.takeWhile_append_dropWhile,
      List.reverse_reverse]
  refine ⟨cs.takeWhile Text.isBlank, _, ?_, hsplit, fun c hc => ?_, fun c hc => ?_⟩
  · rw [← hsplit]
    exact List.takeWhile_append_dropWhile.symm
  · exact List.all_eq_true.mp List.all_takeWhile c hc
  · exact List.all_eq_true.mp List.all_takeWhile c (List.mem_reverse.mp hc)

end Blanks

section Agreement

open Token (Blanks Apart)

variable {leading gap : List Char}

/-- No numeral starts like an infinity. -/
theorem scanNumeral_infinity (rest : List Char) : scanNumeral ("Infinity".toList ++ rest) = none :=
  rfl

/-- No power of ten starts with a blank. -/
theorem scanExponent_of_apart {cs : List Char} (h : Apart cs) : scanExponent cs = none := by
  cases cs with
  | nil => rfl
  | cons c cs =>
      have hletter : ¬ (c = 'e' ∨ c = 'E') := by
        rintro (rfl | rfl)
        · exact absurd (h 'e' rfl) (by decide)
        · exact absurd (h 'E' rfl) (by decide)
      rw [scanExponent, if_neg hletter]

/-- A numeral between blanks is read as a whole text. -/
theorem SignedForm.ofText_blanks {start : List Char} {x : Float} (h : SignedForm start x)
    (hleading : Blanks leading) (hgap : Blanks gap) : ofText (leading ++ (start ++ gap)) = x := by
  rw [ofText_eq, (trim_blanks hleading hgap h.not_blank.1 h.not_blank.2).2]
  cases h with
  | intro hsign hbody => exact (ofTrimmedText_eq_iff.mpr (.numeral hsign hbody)).1

/-- And it is read as what the text starts with. -/
theorem SignedForm.ofPrefixText_blanks {start : List Char} {x : Float} (h : SignedForm start x)
    (hleading : Blanks leading) (hgap : Blanks gap) :
    ofPrefixText (leading ++ (start ++ gap)) = x := by
  have hapart : Apart gap := by
    have happend : Apart (gap ++ []) := hgap.apart_append fun _ => Token.apart_nil
    rwa [List.append_nil] at happend
  unfold ofPrefixText
  rw [(trim_blanks hleading hgap h.not_blank.1 h.not_blank.2).1]
  cases h with
  | @intro sign body negative n hsign hbody =>
      have hscan : scanNumeral (body ++ gap) = some (n, gap) :=
        hbody.scanNumeral_append hapart.ends.isDigit (hapart.head?_ne (by decide))
          (scanExponent_of_apart hapart)
      -- A numeral starts with a digit or a point, so it is no infinity.
      have hinfinite : ¬ "Infinity".toList.isPrefixOf (body ++ gap) = true := by
        rw [List.isPrefixOf_iff_prefix]
        rintro ⟨rest, hrest⟩
        rw [← hrest, scanNumeral_infinity] at hscan
        cases hscan
      rw [List.append_assoc, scanSign_append hsign (hbody.append_head_not_sign gap)]
      simp only [if_neg hinfinite, hscan]

/-- What converts as a whole, and is neither blank nor marked as hexadecimal, is read the same as the
    start of a text. -/
theorem ofPrefixText_of_ofText {cs : List Char} (h : (ofText cs).isNaN = false) (hne : Text.trim cs ≠ [])
    (hmark : hasHexMark (Text.trim cs) = false) : ofPrefixText cs = ofText cs := by
  obtain ⟨leading, gap, hcs, hstart, hleading, hgap⟩ := exists_blanks cs
  have hform : TextForm WordForm (Text.trim cs) (ofText cs) := ofTrimmedText_eq_iff.mp ⟨rfl, h⟩
  generalize ofText cs = x at hform
  generalize Text.trim cs = body at hform hne hmark hcs hstart
  cases hform with
  | empty => exact absurd rfl hne
  | infinite hsign =>
      refine ofPrefixText_of_infinite ?_
      rw [hstart, List.append_assoc]
      exact .intro hsign
  | hexadecimal hletter hdigits => rcases hletter with rfl | rfl <;> cases hmark
  | numeral hsign hbody =>
      rw [hcs]
      exact SignedForm.ofPrefixText_blanks (.intro hsign hbody) hleading hgap

end Agreement

end Number

namespace Token

open Number

/-- Digits that a point with digits may follow are digits with at most one point. -/
theorem mantissaForm_pointed {whole fraction : List Char} (hwhole : Digits whole)
    (hfraction : ∀ c ∈ fraction, c.isDigit = true) :
    MantissaForm (whole ++ pointed fraction) whole fraction := by
  unfold pointed
  split
  · rename_i hempty
    obtain rfl := List.isEmpty_iff.mp hempty
    rw [List.append_nil]
    exact .whole hwhole
  · exact .point hwhole hfraction

/-- What the lexer reads to its end as a numeral is one. -/
theorem exists_form_of_numeral {c : Char} {body : List Char} {x : Float} {n : Nat}
    (hdigit : c.isDigit = true) (h : numeral (c :: body) = .ok (x, n)) (hend : body.length = n - 1) :
    ∃ parts, NumeralForm (c :: body) parts ∧ parts.value = x := by
  obtain ⟨whole, fraction, tail, hsplit, hwhole, hfraction, htail, hpoint⟩ := exists_mantissa (c :: body)
  -- A numeral of the lexer starts with a digit, never with a point.
  have hne : whole ≠ [] := by
    rintro rfl
    rw [List.nil_append] at hsplit
    unfold pointed at hsplit
    split at hsplit
    · rw [List.nil_append] at hsplit
      rw [htail c (by simp [← hsplit])] at hdigit
      cases hdigit
    · cases hsplit
      cases hdigit
  have hform := mantissaForm_pointed ⟨hne, hwhole⟩ hfraction
  -- It takes as many characters as there are, so nothing is left behind the digits or the power.
  have hlength := congrArg List.length hsplit
  have hpos := List.length_pos_iff.mpr hne
  simp only [List.length_cons, List.length_append] at hlength
  rw [hsplit, numeral_append hwhole hfraction htail hpoint] at h
  rw [hsplit]
  split at h
  · split at h
    · rename_i exponent after hexponent
      cases h
      obtain ⟨ps, rfl, hpower, -⟩ := exists_power_of_scanExponent hexponent
      simp only [List.length_append] at hend hlength
      -- The power is taken to its end, where the text ends too.
      obtain rfl : after = [] := List.eq_nil_of_length_eq_zero (by omega)
      rw [List.append_nil, ← List.append_assoc]
      exact ⟨_, .power hform hpower, rfl⟩
    · cases h
  · cases h
    rw [List.length_append] at hend
    obtain rfl : tail = [] := List.eq_nil_of_length_eq_zero (by omega)
    rw [List.append_nil]
    exact ⟨_, .mantissa hform, rfl⟩

/-- What is read as a number is a numeral. -/
theorem IsLexeme.exists_numeralForm {cs : List Char} {x : Float} (h : IsLexeme cs (.number x)) :
    ∃ n, NumeralForm cs n ∧ n.value = x := by
  obtain ⟨c, body, rfl, -, hall⟩ := h
  have hlexeme := hall 0 [] apart_nil
  rw [List.append_nil] at hlexeme
  rcases lexeme_cases hlexeme with
    ⟨s, hs⟩ | ⟨hdigit, y, m, hnumeral, hy, hm⟩ | ⟨spelling, hspelling⟩ | ⟨word, hword⟩
  · cases hs
  · cases hy
    exact exists_form_of_numeral hdigit hnumeral hm
  · simp [spellings] at hspelling
  · exact absurd hword.symm ((ofWord_ne word).1 x)

/-- A source with a number as its only token is that number between blanks. -/
theorem exists_signedForm_of_tokenize {source : String} {x : Float} {position ending : Nat}
    (h : tokenize source = .ok [⟨.number x, position⟩, ⟨.eof, ending⟩]) :
    ∃ leading body gap, source.toList = leading ++ (body ++ gap) ∧ Blanks leading ∧ Blanks gap ∧
      SignedForm body x := by
  unfold tokenize at h
  rw [bind_eq_ok_iff] at h
  obtain ⟨placed, hscan, h⟩ := h
  obtain ⟨leading, ws, hsource, hleading, hws, rfl⟩ := exists_written_of_scan hscan
  simp only [pure, Except.pure, Except.ok.injEq] at h
  -- The end is the last token, so that one lexeme is left for the number.
  change _ = ([⟨.number x, position⟩] : List Placed) ++ [⟨.eof, ending⟩] at h
  obtain ⟨hplaced, -⟩ := List.append_inj' h rfl
  have htokens := congrArg (List.map (·.token)) hplaced
  rw [map_token_placedFrom, List.map_singleton, List.map_eq_singleton_iff] at htokens
  obtain ⟨w, rfl, htoken⟩ := htokens
  obtain ⟨hlexeme, hgap⟩ := hws w (List.mem_singleton_self w)
  obtain ⟨n, hform, rfl⟩ := IsLexeme.exists_numeralForm (htoken ▸ hlexeme)
  have hsigned : SignedForm ([] ++ w.lexeme) (withSign false n.value) := .intro .none hform
  exact ⟨leading, w.lexeme, w.gap, by simpa [Written.chars] using hsource, hleading, hgap, hsigned⟩

end Token

namespace Number

/-- The number of a numeral is the double nearest to what is written, if that is in range. -/
theorem SignedForm.isNearest {cs : List Char} {x : Float} {r : ℚ} (h : SignedForm cs x)
    (hr : SignedNumber cs r) (hrange : InRange r) : IsNearest x r := by
  generalize hcs : cs = ds at hr
  obtain @⟨sign, body, negative, n, hsign, hbody⟩ := h
  obtain @⟨sign', body', negative', n', hsign', hbody'⟩ := hr
  -- A text is a sign and a numeral in one way only.
  have hsplit := scanSign_append hsign hbody.head_not_sign
  rw [hcs, scanSign_append hsign' hbody'.head_not_sign] at hsplit
  cases hsplit
  cases hbody.scanNumeral_eq.symm.trans hbody'.scanNumeral_eq
  cases negative with
  | false => exact isNearest_ofDecimal hrange
  | true =>
      -- The range is the same on both sides of zero.
      have habove : InRange n.written := by
        obtain hzero | hbounds := hrange
        · exact .inl (neg_eq_zero.mp hzero)
        · rw [if_pos rfl, abs_neg] at hbounds
          exact .inr hbounds
      exact (isNearest_ofDecimal habove).neg

/-- What is read at the start of a text. If an infinity with an optional sign stands there, after blanks, it
    is that infinity. Otherwise it is what the longest numeral there converts to: always a number, and the
    double nearest to what is written if that is in range. There is such a numeral as soon as any numeral
    starts the text, and without one the result is no number. What converts as a whole, and is neither blank
    nor marked as hexadecimal, is read the same, and so is a source with a number as its only token. -/
theorem leading_numbers (cs : List Char) :
    (∀ negative, StartsInfinite (Text.trimStart cs) negative →
      ofPrefixText cs = withSign negative infinity) ∧
    ((∀ negative, ¬ StartsInfinite (Text.trimStart cs) negative) →
      (∀ start x, LongestNumeral (Text.trimStart cs) start x →
        ofPrefixText cs = x ∧ ofText start = x ∧ x.isNaN = false ∧
          ∀ r, SignedNumber start r → InRange r → IsNearest x r) ∧
      ((∃ start x, start <+: Text.trimStart cs ∧ SignedForm start x) →
        ∃ start x, LongestNumeral (Text.trimStart cs) start x) ∧
      ((ofPrefixText cs).isNaN = true ↔ ¬ ∃ start x, start <+: Text.trimStart cs ∧ SignedForm start x)) ∧
    ((ofText cs).isNaN = false → Text.trim cs ≠ [] → hasHexMark (Text.trim cs) = false →
      ofPrefixText cs = ofText cs) ∧
    ∀ x position ending,
      Token.tokenize (.ofList cs) = .ok [⟨.number x, position⟩, ⟨.eof, ending⟩] →
      ofPrefixText cs = x ∧ ofText cs = x := by
  refine ⟨fun negative => ofPrefixText_of_infinite, fun hfinite => ?_, ofPrefixText_of_ofText, ?_⟩
  · rcases ofPrefixText_cases hfinite with ⟨start, hlongest⟩ | ⟨hnan, hnone⟩
    · refine ⟨fun other x hother => ?_, fun _ => ⟨start, _, hlongest⟩, ?_⟩
      · -- There is one longest numeral only, so any that is given is the one that was read.
        obtain rfl := hlongest.unique hother
        have hnil : Token.Blanks [] := by simp [Token.Blanks]
        have hconvert := hother.form.ofText_blanks hnil hnil
        rw [List.nil_append, List.append_nil] at hconvert
        exact ⟨rfl, hconvert, hother.form.isNaN, fun r => hother.form.isNearest⟩
      · rw [hlongest.form.isNaN]
        simpa using ⟨start, hlongest.starts, _, hlongest.form⟩
    · refine ⟨fun start x hstart => absurd hstart.form (hnone _ _ hstart.starts), ?_, ?_⟩
      · rintro ⟨start, x, hstart, hform⟩
        exact absurd hform (hnone _ _ hstart)
      · -- Without any numeral the result is no number, and a number would come from one.
        rw [hnan]
        refine ⟨fun _ => ?_, fun _ => rfl⟩
        rintro ⟨start, x, hstart, hform⟩
        exact hnone _ _ hstart hform
  · intro x position ending htokens
    obtain ⟨leading, body, gap, hsource, hleading, hgap, hform⟩ :=
      Token.exists_signedForm_of_tokenize htokens
    rw [String.toList_ofList] at hsource
    rw [hsource]
    exact ⟨hform.ofPrefixText_blanks hleading hgap, hform.ofText_blanks hleading hgap⟩

/-- Of `-1.5e+x` the longest numeral is read, without the letter of a power that has no digits. After
    `Infinity` a digit makes no difference, a lone sign with a point is no number, and the three readers
    agree on `2e3` between blanks. -/
theorem letter_without_power_left :
    (ofPrefixText " -1.5e+x".toList = -1.5 ∧ ofText "-1.5".toList = -1.5 ∧
        IsNearest (ofPrefixText " -1.5e+x".toList) (-(15 * 10 ^ (-1 : ℤ)))) ∧
      ofPrefixText "-Infinity5".toList = -infinity ∧
      (ofPrefixText "+.e5".toList).isNaN = true ∧
      ofPrefixText " 2e3\n".toList = 2000 ∧ ofText " 2e3\n".toList = 2000 := by
  have hfinite : ∀ cs, "Infinity".toList.isPrefixOf (scanSign cs).2 = false →
      ∀ negative, ¬ StartsInfinite cs negative := by
    intro cs hcs negative h
    rw [(isPrefixOf_infinity_iff.mp h).2] at hcs
    cases hcs
  refine ⟨?_, ?_, ?_, ?_⟩
  · have hscan : scanNumeral (scanSign "-1.5e+x".toList).2 = some (⟨['1'], ['5'], 0⟩, ['e', '+', 'x']) := rfl
    obtain ⟨start, hsplit, hlongest⟩ := longestNumeral_of_scanNumeral hscan
    obtain rfl : "-1.5".toList = start := List.append_cancel_right hsplit
    obtain ⟨hread, hconvert, -, hnearest⟩ :=
      ((leading_numbers " -1.5e+x".toList).2.1 (hfinite _ (by decide))).1 _ _ hlongest
    have hwritten : SignedNumber "-1.5".toList (-(15 * 10 ^ (-1 : ℤ))) :=
      .intro .minus (.mantissa (@MantissaForm.point ['1'] ['5'] ⟨by simp, by simp⟩ (by simp)))
    have hrange : InRange (-(15 * 10 ^ (-1 : ℤ))) :=
      inRange_of_bits (by norm_num [abs_of_pos]) (by norm_num [abs_of_pos])
    rw [hread, hconvert]
    exact ⟨rfl, rfl, hnearest _ hwritten hrange⟩
  · exact (leading_numbers "-Infinity5".toList).1 true (.intro .minus)
  · have hnone : scanNumeral (scanSign "+.e5".toList).2 = none := rfl
    refine ((leading_numbers "+.e5".toList).2.1 (hfinite _ (by decide))).2.2.mpr ?_
    rintro ⟨start, x, hstart, hform⟩
    exact not_signedForm_of_scanNumeral hnone hstart hform
  · have hthousands : Numeral.value ⟨['2'], [], 3⟩ = 2000 := by decide +kernel
    rw [← hthousands]
    refine (leading_numbers " 2e3\n".toList).2.2.2 _ 1 5 ?_
    rw [Token.tokenize, String.toList_ofList, String.length_ofList]
    rfl

end Number

end FieldLang

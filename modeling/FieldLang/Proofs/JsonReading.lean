import FieldLang.Proofs.JsonText

/-!
# Reading JSON Texts

The reader reads every text of JSON, as the document that the text writes. It goes through a text from the
front, while the grammar takes a text apart into pieces that know nothing of each other. So what is shown of
a piece is always what the reader does when something follows it.

A number has no mark at its end. So numbers are read only before what cannot go on with a number, which
commas, closing brackets and blanks cannot. Blanks behind a value are left to whoever called for it, and
blanks in front are skipped. That is why what is left after a text is known only up to blanks.

The reader counts its steps. Twice the length of a text suffices, with a step per value and one per element
or member, and it passes on to the parts because each is shorter than the whole by the commas and brackets
around it.

## Main definitions

* `EndsNumber`: What follows a number does not go on with it.
* `ReadWhole`: A document is read from all its texts.

## Theorems

* `PieceText.stringBody_append`, `NumeralText.numeral_append`: Strings and numbers are read.
* `Denotes.value_append`: A text is read with the blanks around it.
* `readWhole`: Every document is read from all its texts.
* `read?_of_denotes`: A whole text is read as the document it writes.
-/

namespace FieldLang.Json

open FieldLang.Number (Digits SignForm)

section Blanks

/-- Nothing is skipped in front of what is no blank. -/
theorem skip_cons {c : Char} (cs : List Char) (h : isSpace c = false) :
    skip (c :: cs) = c :: cs := by
  simp [skip, h]

theorem isSpace_of_blanks {gap : List Char} (h : Blanks gap) : ∀ c ∈ gap, isSpace c = true := by
  intro c hc
  obtain rfl | rfl | rfl | rfl := h c hc <;> decide

/-- Blanks are skipped. -/
theorem skip_append {gap : List Char} (h : Blanks gap) (cs : List Char) :
    skip (gap ++ cs) = skip cs :=
  List.dropWhile_append_of_pos (isSpace_of_blanks h)

/-- What is skipped once need not be skipped again. -/
theorem skip_skip (cs : List Char) : skip (skip cs) = skip cs := by
  unfold skip
  exact List.dropWhile_idempotent isSpace cs

end Blanks

section Strings

/-- A character that is not escaped is read as itself. -/
theorem stringBody_char {c : Char} (cs : List Char) (hquote : c ≠ '\x22') (hback : c ≠ '\\')
    (hcontrol : ¬ c.toNat < 0x20) :
    stringBody (c :: cs) = (do
      let (pieces, rest) ← stringBody cs
      return (.char c :: pieces, rest)) := by
  rw [stringBody.eq_def]
  simp only [hquote, hback, hcontrol, if_false]

/-- A character escaped by a letter is read as that character. -/
theorem stringBody_letter {e c : Char} (cs : List Char) (he : e ≠ 'u') (hc : escaped? e = some c) :
    stringBody ('\\' :: e :: cs) = (do
      let (pieces, rest) ← stringBody cs
      return (.char c :: pieces, rest)) := by
  rw [stringBody.eq_def]
  simp [he, hc]

/-- A character escaped by its code unit is read as that code unit. -/
theorem stringBody_code {hs : List Char} {n : ℕ} (cs : List Char) (hlength : hs.length = 4)
    (hn : codeUnit? hs = some n) :
    stringBody ('\\' :: 'u' :: (hs ++ cs)) = (do
      let (pieces, rest) ← stringBody cs
      return (.unit n :: pieces, rest)) := by
  rcases hs with _ | ⟨h₁, _ | ⟨h₂, _ | ⟨h₃, _ | ⟨h₄, _ | _⟩⟩⟩⟩ <;> cases hlength
  rw [List.cons_append, List.cons_append, List.cons_append, List.cons_append, List.nil_append,
    stringBody.eq_def]
  simp [hn]

/-- Hexadecimal digits are read as the code unit that they write. -/
theorem codeUnit?_of_digits {ds : List Char} (h : ∀ d ∈ ds, FieldLang.Number.IsHexDigit d) :
    codeUnit? ds = some (FieldLang.Number.natOfDigits 16 ds) := by
  rw [codeUnit?, if_pos]
  exact List.all_eq_true.mpr fun d hd => FieldLang.Number.isSome_digitIn?_iff.mpr (h d hd)

/-- The reader knows the letters of the grammar, and none of them is the mark of a code. -/
theorem escaped?_of_mem_letters {e c : Char} (h : (e, c) ∈ letters) :
    e ≠ 'u' ∧ escaped? e = some c := by
  simp only [letters, List.mem_cons, Prod.mk.injEq, List.not_mem_nil, or_false] at h
  rcases h with ⟨rfl, rfl⟩ | ⟨rfl, rfl⟩ | ⟨rfl, rfl⟩ | ⟨rfl, rfl⟩ | ⟨rfl, rfl⟩ | ⟨rfl, rfl⟩ |
    ⟨rfl, rfl⟩ | ⟨rfl, rfl⟩
  all_goals decide

/-- A piece is read off the front of a string. -/
theorem PieceText.stringBody_append {cs : List Char} {piece : Piece} (h : PieceText cs piece)
    (rest : List Char) :
    stringBody (cs ++ rest) = (do
      let (pieces, rest) ← stringBody rest
      return (piece :: pieces, rest)) := by
  cases h with
  | plain hcontrol hquote hback => exact stringBody_char rest hquote hback hcontrol
  | letter he =>
      obtain ⟨hne, hescaped⟩ := escaped?_of_mem_letters he
      exact stringBody_letter rest hne hescaped
  | code hlength hds => exact stringBody_code rest hlength (codeUnit?_of_digits hds)

/-- A string is read up to its closing quote. -/
theorem stringBody_flatten {texts : List (List Char)} {pieces : List Piece}
    (h : List.Forall₂ PieceText texts pieces) (rest : List Char) :
    stringBody (texts.flatten ++ '\x22' :: rest) = some (pieces, rest) := by
  induction h with
  | nil =>
      rw [List.flatten_nil, List.nil_append, stringBody.eq_def]
      rfl
  | cons hpiece _ ih =>
      rw [List.flatten_cons, List.append_assoc, hpiece.stringBody_append, ih]
      rfl

end Strings

section Numbers

/-- What follows a number does not go on with it. -/
def EndsNumber (rest : List Char) : Prop :=
  ∀ c ∈ rest.head?, c.isDigit = false ∧ c ≠ '.' ∧ c ≠ 'e' ∧ c ≠ 'E'

/-- The end of the text ends a number. -/
theorem EndsNumber.nil : EndsNumber [] := by
  simp [EndsNumber]

/-- A character that is no part of a number ends it. -/
theorem EndsNumber.cons {c : Char} (rest : List Char)
    (hc : c.isDigit = false ∧ c ≠ '.' ∧ c ≠ 'e' ∧ c ≠ 'E') : EndsNumber (c :: rest) := by
  rintro _ ⟨⟩
  exact hc

/-- Blanks end a number, if there are any. -/
theorem EndsNumber.append {gap rest : List Char} (hgap : Blanks gap) (hrest : EndsNumber rest) :
    EndsNumber (gap ++ rest) := by
  cases gap with
  | nil => exact hrest
  | cons c gap =>
      refine .cons _ ?_
      obtain rfl | rfl | rfl | rfl := hgap c (List.mem_cons_self ..) <;> decide

/-- Digits are read up to the first character that is none. -/
theorem someDigits_append {ds rest : List Char} (hds : Digits ds)
    (hrest : ∀ c ∈ rest.head?, c.isDigit = false) : someDigits (ds ++ rest) = some (ds, rest) := by
  unfold someDigits
  simp only [FieldLang.Number.takeWhile_append_of_head hds.2 hrest,
    FieldLang.Number.dropWhile_append_of_head hds.2 hrest, List.isEmpty_iff, if_neg hds.1]

variable {rest : List Char} (hrest : EndsNumber rest)
include hrest

/-- An exponent is read, or that there is none. -/
theorem ExponentText.exponentDigits_append {es : List Char} {exponent : Option (Bool × List Char)}
    (h : ExponentText es exponent) : exponentDigits (es ++ rest) = some (exponent, rest) := by
  cases h with
  | none =>
      cases rest with
      | nil => rfl
      | cons c rest =>
          obtain ⟨-, -, he, hE⟩ := hrest c rfl
          simp [exponentDigits, he, hE]
  | @power letter sign ds negative hletter hsign hds =>
      have hscan : FieldLang.Number.scanSign (sign ++ (ds ++ rest)) = (negative, ds ++ rest) :=
        FieldLang.Number.scanSign_append hsign (hds.head_not_sign rest)
      have hdigits := someDigits_append hds fun c hc => (hrest c hc).1
      rw [List.cons_append, List.append_assoc]
      simp [exponentDigits, hletter, hscan, hdigits]

/-- What follows the digits of a number goes on with none of them. -/
theorem ExponentText.head {es : List Char} {exponent : Option (Bool × List Char)}
    (h : ExponentText es exponent) : ∀ c ∈ (es ++ rest).head?, c.isDigit = false ∧ c ≠ '.' := by
  intro c hc
  cases h with
  | none => exact ⟨(hrest c hc).1, (hrest c hc).2.1⟩
  | power hletter _ _ =>
      cases hc
      obtain rfl | rfl := hletter <;> decide

/-- A fraction is read, or that there is none. -/
theorem FractionText.fractionDigits_append {fs fraction es : List Char}
    {exponent : Option (Bool × List Char)} (h : FractionText fs fraction)
    (hexponent : ExponentText es exponent) :
    fractionDigits (fs ++ (es ++ rest)) = some (fraction, es ++ rest) := by
  have hhead := hexponent.head hrest
  cases h with
  | none =>
      -- Without a point the reader must not take the exponent or what follows for a fraction.
      rw [List.nil_append]
      unfold fractionDigits
      split
      · rename_i hdot
        exact absurd rfl (hhead '.' (by rw [hdot]; rfl)).2
      · rfl
  | point hds => exact someDigits_append hds fun c hc => (hhead c hc).1

omit hrest in
/-- The digits of an integer are digits, and a zero is in front only if it is alone. -/
theorem WholeText.all_digits {whole : List Char} (h : WholeText whole) :
    Digits whole ∧ ¬ (whole.head? = some '0' ∧ 1 < whole.length) := by
  cases h with
  | zero => exact ⟨⟨by simp, by simp⟩, by simp⟩
  | digits hds hzero => exact ⟨hds, fun hboth => hzero hboth.1⟩

omit hrest in
/-- The digits of an integer start with a digit. -/
theorem WholeText.head {whole : List Char} (h : WholeText whole) :
    ∃ c cs, whole = c :: cs ∧ c.isDigit = true := by
  have hds := h.all_digits.1
  obtain ⟨c, cs, rfl⟩ := List.exists_cons_of_ne_nil hds.1
  exact ⟨c, cs, rfl, hds.2 c (List.mem_cons_self ..)⟩

/-- The digits of an integer are read. -/
theorem WholeText.wholeDigits_append {whole fs fraction es : List Char}
    {exponent : Option (Bool × List Char)} (h : WholeText whole) (hfraction : FractionText fs fraction)
    (hexponent : ExponentText es exponent) :
    wholeDigits (whole ++ (fs ++ (es ++ rest))) = some (whole, fs ++ (es ++ rest)) := by
  have hhead : ∀ c ∈ (fs ++ (es ++ rest)).head?, c.isDigit = false := by
    intro c hc
    cases hfraction with
    | none => exact (hexponent.head hrest c hc).1
    | point hds =>
        cases hc
        rfl
  obtain ⟨hds, hzero⟩ := h.all_digits
  unfold wholeDigits
  rw [someDigits_append hds hhead]
  simp only [Option.bind_eq_bind, Option.bind_some]
  rw [if_neg hzero]

/-- A number is read. -/
theorem NumeralText.numeral_append {cs : List Char} {n : Numeral} (h : NumeralText cs n) :
    numeral (cs ++ rest) = some (n, rest) := by
  obtain @⟨negative, whole, fs, fraction, es, exponent, hwhole, hfraction, hexponent⟩ := h
  have hminus : minus (FieldLang.Number.signed negative (whole ++ (fs ++ es)) ++ rest) =
      (negative, whole ++ (fs ++ (es ++ rest))) := by
    cases negative with
    | true => simp [FieldLang.Number.signed, minus]
    | false =>
        -- A number without a sign starts with a digit, which is no minus.
        obtain ⟨c, cs, rfl, hc⟩ := hwhole.head
        simp only [FieldLang.Number.signed, Bool.false_eq_true, if_false, List.cons_append,
          List.append_assoc]
        unfold minus
        split
        · rename_i heq
          cases heq
          cases hc
        · rfl
  unfold numeral
  simp only [hminus, hwhole.wholeDigits_append hrest hfraction hexponent,
    hfraction.fractionDigits_append hrest hexponent, hexponent.exponentDigits_append hrest,
    Option.bind_eq_bind, Option.bind_some]
  rfl

end Numbers

section Heads

/-- A digit or a sign is no blank and closes nothing. -/
theorem starts_number {c : Char} (hc : c.isDigit = true ∨ c = '-') :
    isSpace c = false ∧ c ≠ ']' := by
  refine ⟨?_, by rintro rfl; revert hc; decide⟩
  rw [Bool.eq_false_iff]
  intro hspace
  simp only [isSpace, Bool.or_eq_true, decide_eq_true_eq] at hspace
  rcases hspace with ((rfl | rfl) | rfl) | rfl <;> revert hc <;> decide

theorem NumeralText.head {cs : List Char} {n : Numeral} (h : NumeralText cs n) :
    ∃ c rest, cs = c :: rest ∧ (c.isDigit = true ∨ c = '-') := by
  obtain @⟨negative, whole, fs, fraction, es, exponent, hwhole, -, -⟩ := h
  cases negative with
  | true => exact ⟨'-', _, rfl, .inr rfl⟩
  | false =>
      obtain ⟨c, cs, rfl, hc⟩ := hwhole.head
      exact ⟨c, _, rfl, .inl hc⟩

/-- A value starts neither with a blank nor with the end of an array. -/
theorem ValueText.head {cs : List Char} {d : Document} (h : ValueText cs d) :
    ∃ c rest, cs = c :: rest ∧ isSpace c = false ∧ c ≠ ']' := by
  cases h with
  | bool b => cases b <;> exact ⟨_, _, rfl, by decide, by decide⟩
  | number h =>
      obtain ⟨c, rest, rfl, hc⟩ := h.head
      exact ⟨c, rest, rfl, starts_number hc⟩
  | string h =>
      obtain ⟨h⟩ := h
      exact ⟨_, _, rfl, by decide, by decide⟩
  | _ => exact ⟨_, _, rfl, by decide, by decide⟩

/-- Behind its blanks an array of texts does not end at once. -/
theorem skip_elements {cs : List Char} {ds : List Document} (h : Separated Denotes cs ds)
    (rest : List Char) : ∃ c more, skip (cs ++ rest) = c :: more ∧ c ≠ ']' := by
  -- Only the first text counts.
  have hfirst : ∀ {cs d} (_ : Denotes cs d) (rest : List Char),
      ∃ c more, skip (cs ++ rest) = c :: more ∧ c ≠ ']' := by
    intro cs d hd rest
    obtain ⟨hbefore, hvalue, -⟩ := hd
    obtain ⟨c, more, rfl, hspace, hbracket⟩ := hvalue.head
    rw [List.append_assoc, skip_append hbefore, List.append_assoc, List.cons_append,
      skip_cons _ hspace]
    exact ⟨c, _, rfl, hbracket⟩
  cases h with
  | one hd => exact hfirst hd rest
  | cons hd _ =>
      rw [List.append_assoc]
      exact hfirst hd _

/-- Behind its blanks an object of members starts with the quote of its first key. -/
theorem skip_members {cs : List Char} {ms : List (List Piece × Document)}
    (h : Separated MemberText cs ms) (rest : List Char) :
    ∃ more, skip (cs ++ rest) = '\x22' :: more := by
  have hfirst : ∀ {cs m} (_ : MemberText cs m) (rest : List Char),
      ∃ more, skip (cs ++ rest) = '\x22' :: more := by
    intro cs m hm rest
    obtain ⟨hbefore, ⟨hpieces⟩, -, -⟩ := hm
    rw [List.append_assoc, skip_append hbefore, List.append_assoc, List.cons_append,
      skip_cons _ (by decide)]
    exact ⟨_, rfl⟩
  cases h with
  | one hm => exact hfirst hm rest
  | cons hm _ =>
      rw [List.append_assoc]
      exact hfirst hm _

end Heads

section Values

/-- A document is read from all its texts, if there are steps enough and nothing goes on with a number at
    the end. -/
def ReadWhole (d : Document) : Prop :=
  ∀ cs, ValueText cs d → ∀ count rest, 2 * cs.length ≤ count → EndsNumber rest →
    value count (cs ++ rest) = some (d, rest)

/-- Blanks in front of a value are skipped. -/
theorem value_skip (count : ℕ) (cs : List Char) : value count (skip cs) = value count cs := by
  cases count with
  | zero => rfl
  | succ count =>
      unfold value
      rw [skip_skip]

theorem elements_skip (count : ℕ) (cs : List Char) :
    elements count (skip cs) = elements count cs := by
  cases count with
  | zero => rfl
  | succ count => rw [elements, elements, value_skip]

theorem members_skip (count : ℕ) (cs : List Char) : members count (skip cs) = members count cs := by
  cases count with
  | zero => rfl
  | succ count =>
      unfold members
      rw [skip_skip]

/-- A text is read with the blanks around it. What is left may still start with those behind it. -/
theorem Denotes.value_append {cs : List Char} {d : Document} (hd : ReadWhole d) (h : Denotes cs d)
    (count : ℕ) (rest : List Char) (hcount : 2 * cs.length ≤ count) (hrest : EndsNumber rest) :
    ∃ left, value count (cs ++ rest) = some (d, left) ∧ skip left = skip rest := by
  obtain @⟨before, cs, after, _, hbefore, hvalue, hafter⟩ := h
  simp only [List.length_append] at hcount
  have hread := hd cs hvalue count (after ++ rest) (by omega) (.append hafter hrest)
  refine ⟨after ++ rest, ?_, skip_append hafter rest⟩
  rw [← value_skip, List.append_assoc, skip_append hbefore, value_skip, List.append_assoc, hread]

/-- Where a digit or a sign stands, a number is read. -/
theorem value_number {c : Char} (hc : c.isDigit = true ∨ c = '-') (count : ℕ) (cs : List Char) :
    value (count + 1) (c :: cs) = (do
      let (n, cs) ← numeral (c :: cs)
      return (.number n, cs)) := by
  rw [value, skip_cons _ (starts_number hc).1]
  split
  case h_7 => rfl
  all_goals
    rename_i heq
    cases heq
    exact absurd hc (by decide)

/-- After an opening bracket that is not closed at once, elements are read. -/
theorem value_elements {c : Char} {cs more : List Char} (hskip : skip cs = c :: more)
    (hbracket : c ≠ ']') (count : ℕ) :
    value (count + 1) ('[' :: cs) = (do
      let (items, cs) ← elements count cs
      return (.array items, cs)) := by
  rw [value, skip_cons _ (by decide)]
  simp only
  rw [← elements_skip count cs, hskip]
  split
  · rename_i heq
    cases heq
    exact absurd rfl hbracket
  · rfl

/-- After an opening brace that is not closed at once, members are read. -/
theorem value_members {cs more : List Char} (hskip : skip cs = '\x22' :: more) (count : ℕ) :
    value (count + 1) ('\x7b' :: cs) = (do
      let (ms, cs) ← members count cs
      return (.object ms, cs)) := by
  rw [value, skip_cons _ (by decide)]
  simp only
  rw [← members_skip count cs, hskip]
  split
  · rename_i heq
    cases heq
  · rfl

/-- The text of a member is read, and what follows decides whether there are more. -/
theorem MemberText.members_succ {cs : List Char} {m : List Piece × Document} (hd : ReadWhole m.2)
    (h : MemberText cs m) {count : ℕ} {rest : List Char} (hcount : 2 * cs.length ≤ count)
    (hrest : EndsNumber rest) :
    members (count + 1) (cs ++ rest) =
      match skip rest with
      | ',' :: cs => do
        let (ms, cs) ← members count cs
        return (m :: ms, cs)
      | '\x7d' :: cs => some ([m], cs)
      | _ => none := by
  obtain @⟨before, key, after, pieces, content, d, hbefore, ⟨hpieces⟩, hafter, hcontent⟩ := h
  simp only [List.length_append, List.length_cons] at hcount
  -- What the content leaves is where the blanks behind it begin, and skipping leads to what follows.
  obtain ⟨left, hread, hleft⟩ := hcontent.value_append hd count rest (by omega) hrest
  rw [members, List.append_assoc, skip_append hbefore, List.append_assoc, List.cons_append,
    skip_cons _ (by decide)]
  simp only [List.append_assoc, List.cons_append, List.nil_append, stringBody_flatten hpieces,
    Option.bind_eq_bind, Option.bind_some, skip_append hafter,
    skip_cons _ (show isSpace ':' = false by decide), hread]
  exact hleft ▸ rfl

mutual

/-- Every document is read from all its texts. -/
theorem readWhole : (d : Document) → ReadWhole d
  -- Each level takes two steps, and a text has at least one character for it.
  | d, cs, h, 0, rest, hcount, _ => by
    obtain ⟨c, cs, rfl, -⟩ := h.head
    simp at hcount
  | .null, _, h, count + 1, rest, _, _ => by
    cases h
    rfl
  | .bool b, _, h, count + 1, rest, _, _ => by
    cases h
    cases b <;> rfl
  | .number n, cs, h, count + 1, rest, _, hrest => by
    cases h with
    | number h =>
        have hread := h.numeral_append hrest
        obtain ⟨c, cs, rfl, hc⟩ := h.head
        rw [List.cons_append] at hread ⊢
        rw [value_number hc, hread]
        rfl
  | .string pieces, cs, h, count + 1, rest, _, _ => by
    cases h with
    | string h =>
        obtain ⟨hpieces⟩ := h
        rw [List.cons_append, value, skip_cons _ (by decide), List.append_assoc, List.singleton_append]
        simp only [stringBody_flatten hpieces]
        rfl
  | .array ds, cs, h, count + 1, rest, hcount, _ => by
    cases h with
    | noElements hgap =>
        rw [List.cons_append, value, skip_cons _ (by decide), List.append_assoc]
        simp only [skip_append hgap, List.singleton_append, skip_cons _ (show isSpace ']' = false by decide)]
    -- The first element starts with no closing bracket, so the list is not taken as empty.
    | elements h =>
        simp only [List.length_cons, List.length_append, List.length_nil] at hcount
        obtain ⟨c, more, hskip, hbracket⟩ := skip_elements h (']' :: rest)
        rw [List.cons_append, List.append_assoc, List.singleton_append, value_elements hskip hbracket,
          elements_append ds _ h count rest (by omega)]
        rfl
  | .object ms, cs, h, count + 1, rest, hcount, _ => by
    cases h with
    | noMembers hgap =>
        rw [List.cons_append, value, skip_cons _ (by decide), List.append_assoc]
        simp only [skip_append hgap, List.singleton_append,
          skip_cons _ (show isSpace '\x7d' = false by decide)]
    | members h =>
        simp only [List.length_cons, List.length_append, List.length_nil] at hcount
        obtain ⟨more, hskip⟩ := skip_members h ('\x7d' :: rest)
        rw [List.cons_append, List.append_assoc, List.singleton_append, value_members hskip,
          members_append ms _ h count rest (by omega)]
        rfl

/-- Texts separated by commas are read as elements, up to the closing bracket. -/
theorem elements_append : (ds : List Document) → ∀ cs, Separated Denotes cs ds → ∀ count rest,
    2 * cs.length < count → elements count (cs ++ ']' :: rest) = some (ds, rest)
  | _, _, _, 0, _, hcount => absurd hcount (Nat.not_lt_zero _)
  | [], _, h, _ + 1, _, _ => nomatch h
  | d :: ds, cs, h, count + 1, rest, hcount => by
    -- One step is for the element, and what follows it decides between the end and another one.
    rw [elements]
    cases h with
    | one hd =>
        obtain ⟨left, hread, hleft⟩ := hd.value_append (readWhole d) count (']' :: rest)
          (Nat.le_of_lt_succ hcount) (.cons rest (by decide))
        rw [hread]
        simp only [Option.bind_eq_bind, Option.bind_some, hleft,
          skip_cons _ (show isSpace ']' = false by decide)]
    | @cons cs _ more _ hd hmore =>
        simp only [List.length_append, List.length_cons] at hcount
        obtain ⟨left, hread, hleft⟩ := hd.value_append (readWhole d) count
          (',' :: (more ++ ']' :: rest)) (by omega) (.cons (more ++ ']' :: rest) (by decide))
        rw [List.append_assoc, List.cons_append, hread]
        simp only [Option.bind_eq_bind, Option.bind_some, hleft,
          skip_cons _ (show isSpace ',' = false by decide)]
        rw [elements_append ds more hmore count rest (by omega)]
        rfl

/-- Texts separated by commas are read as members, up to the closing brace. -/
theorem members_append : (ms : List (List Piece × Document)) → ∀ cs, Separated MemberText cs ms →
    ∀ count rest, 2 * cs.length < count → members count (cs ++ '\x7d' :: rest) = some (ms, rest)
  | _, _, _, 0, _, hcount => absurd hcount (Nat.not_lt_zero _)
  | [], _, h, _ + 1, _, _ => nomatch h
  | (key, d) :: ms, cs, h, count + 1, rest, hcount => by
    cases h with
    | one hm =>
        rw [hm.members_succ (readWhole d) (by omega) (.cons rest (by decide))]
        rfl
    | @cons cs _ more _ hm hmore =>
        simp only [List.length_append, List.length_cons] at hcount
        rw [List.append_assoc, List.cons_append,
          hm.members_succ (readWhole d) (by omega) (.cons (more ++ '\x7d' :: rest) (by decide))]
        simp only [skip_cons _ (show isSpace ',' = false by decide)]
        rw [members_append ms more hmore count rest (by omega)]
        rfl

end

/-- A whole text is read as the document that it writes. -/
theorem read?_of_denotes {text : String} {d : Document} (h : Denotes text.toList d) :
    Document.read? text = some d := by
  obtain ⟨left, hread, hleft⟩ := h.value_append (readWhole d) (2 * text.toList.length + 2) []
    (by omega) .nil
  rw [List.append_nil] at hread
  unfold Document.read? Document.ofChars?
  rw [hread]
  simp only [Option.bind_eq_bind, Option.bind_some, hleft]
  rfl

end Values

end FieldLang.Json

import FieldLang.Proofs.Numerals
import FieldLang.Proofs.Reading

/-!
# The Spelling of Tokens

Which texts are read as which tokens when something follows them. A name or a numeral is read as far
as it goes, so what follows must not go on with it: `Ends` says so, and every blank, bracket and
comma does. Strings and marks end themselves.

`Spells` is about the tokens only. Where they stand in the source is left open, since a printed
expression is read from wherever its text happens to start. So the spelling of a longer text is put
together from the right: a lexeme in front of a text adds its token, a blank adds none.

The tokens of a source are well formed. A name is a word that is none of the four keywords, and a
number has no sign.

## Main definitions

* `Spells`: The tokens of a text.
* `Blanks`: Texts without a token.
* `Ends`: Texts that do not go on with a name or a numeral.
* `IsWord`, `IsName`: The texts of words, and of words that are no keywords.
* `WellFormed`: What a source's tokens are like.
* `Number.ReadsBack`: Numbers whose text is read as that number.

## Theorems

* `Spells.word`, `Spells.number`, `Spells.quoted`: Words, numbers and string literals are spelled by
  their texts.
* `wellFormed_of_ofSource`: The tokens of a source are well formed.
-/

namespace FieldLang

/-- The text of a number is read as that number. -/
def Number.ReadsBack (x : Float) : Prop :=
  Token.numeral (Number.chars x) = .ok (x, (Number.chars x).length)

namespace Token

/-- The text is read as the tokens, wherever it starts. -/
def Spells (cs : List Char) (ts : List Token) : Prop :=
  ∀ position, ∃ placed, scan 0 position cs = .ok placed ∧ placed.map (·.token) = ts

/-- The text consists of blanks. -/
def Blanks (cs : List Char) : Prop :=
  ∀ c ∈ cs, Text.isBlank c = true

/-- The text goes on neither with a name nor with a numeral. -/
structure Ends (cs : List Char) : Prop where
  head : ∀ c ∈ cs.head?, continuesName c = false
  fraction : fractionDigits cs = []

/-- A text that starts and goes on as names do. -/
def IsWord (word : String) : Prop :=
  ∃ c cs, word.toList = c :: cs ∧ startsName c = true ∧ ∀ d ∈ cs, continuesName d = true

theorem isWord_of_all {word : String} {c : Char} {cs : List Char} (hword : word.toList = c :: cs)
    (hall : (startsName c && cs.all continuesName) = true) : IsWord word := by
  rw [Bool.and_eq_true, List.all_eq_true] at hall
  exact ⟨c, cs, hword, hall⟩

/-- A word that is not a keyword. -/
def IsName (name : String) : Prop :=
  IsWord name ∧ ofWord name = .identifier name

/-- Whether a character starts neither a blank, a numeral nor a string. -/
def isOrdinary (c : Char) : Bool :=
  !Text.isBlank c && !c.isDigit && !decide (c = '\x22' ∨ c = '\x27')

/-- What the tokens of a source are like. -/
def WellFormed : Token → Prop
  | .number n => Number.Unsigned n.toModel.unpack
  | .identifier name => IsName name
  | _ => True

theorem Ends.nil : Ends [] :=
  ⟨by simp, rfl⟩

/-- A character that goes on no name and is not a point ends names and numerals. -/
theorem Ends.cons {c : Char} {cs : List Char} (hc : continuesName c = false) (hdot : c ≠ '.') :
    Ends (c :: cs) := by
  refine ⟨by simpa using hc, ?_⟩
  unfold fractionDigits
  split
  · rename_i hcs
    cases hcs
    exact absurd rfl hdot
  · rfl

/-- A point ends names and numerals if no digit follows it. -/
theorem Ends.dot {c : Char} {cs : List Char} (hc : c.isDigit = false) : Ends ('.' :: c :: cs) := by
  refine ⟨by simp; decide, ?_⟩
  show List.takeWhile Char.isDigit (c :: cs) = []
  rw [List.takeWhile_cons, hc]
  rfl

/-- Skipping a lexeme leads to what follows it. -/
theorem scan_skip (body rest : List Char) (position : Nat) :
    scan body.length position (body ++ rest) = scan 0 (position + body.length) rest := by
  induction body generalizing position with
  | nil => rfl
  | cons c body ih =>
      rw [List.length_cons, List.cons_append, scan, ih]
      congr 1
      omega

theorem Spells.nil : Spells [] [] :=
  fun _ => ⟨[], rfl, rfl⟩

/-- Blanks add no token. -/
theorem Spells.blanks {gap cs : List Char} {ts : List Token} (hgap : Blanks gap) (h : Spells cs ts) :
    Spells (gap ++ cs) ts := by
  induction gap with
  | nil => exact h
  | cons c gap ih =>
      intro position
      rcases ih (fun d hd => hgap d (by simp [hd])) (position + 1) with ⟨placed, hscan, hplaced⟩
      refine ⟨placed, ?_, hplaced⟩
      rw [List.cons_append, scan, if_pos (hgap c (by simp)), hscan]

theorem Spells.blank {cs : List Char} {ts : List Token} (h : Spells cs ts) :
    Spells (' ' :: cs) ts :=
  Spells.blanks (List.forall_mem_singleton.mpr (by decide)) h

/-- A lexeme adds its token. -/
theorem Spells.cons {c : Char} {body rest : List Char} {t : Token} {ts : List Token}
    (hblank : Text.isBlank c = false)
    (hlex : ∀ position, lexeme position c (body ++ rest) = .ok (t, body.length))
    (h : Spells rest ts) : Spells (c :: (body ++ rest)) (t :: ts) := by
  intro position
  rcases h (position + 1 + body.length) with ⟨placed, hscan, hplaced⟩
  refine ⟨⟨t, position⟩ :: placed, ?_, by rw [List.map_cons, hplaced]⟩
  -- The scan takes the lexeme off and skips its body, which brings it to the rest.
  rw [scan, if_neg (by simp [hblank]), hlex, ok_bind]
  simp only [scan_skip, hscan, ok_bind]
  rfl

/-- A mark or an operator adds its token. -/
theorem Spells.symbol {c : Char} {l rest : List Char} {t : Token} {ts : List Token}
    (hc : isOrdinary c = true) (hsymbol : symbol? c (l ++ rest) = some (t, l.length))
    (h : Spells rest ts) : Spells (c :: (l ++ rest)) (t :: ts) := by
  simp only [isOrdinary, Bool.and_eq_true, Bool.not_eq_true', decide_eq_false_iff_not] at hc
  rcases hc with ⟨⟨hblank, hdigit⟩, hquote⟩
  refine .cons hblank (fun position => ?_) h
  rw [lexeme, if_neg hquote, if_neg (by simp [hdigit]), hsymbol]

/-- A mark of one character adds its token. -/
theorem Spells.mark {c : Char} {rest : List Char} {t : Token} {ts : List Token}
    (hc : isOrdinary c = true) (hsymbol : symbol? c rest = some (t, 0)) (h : Spells rest ts) :
    Spells (c :: rest) (t :: ts) :=
  .symbol (l := []) hc hsymbol h

/-- A character in two ranges of two tables puts the ranges over each other. -/
theorem exists_overlap {as bs : List (Nat × Nat)} {c : Char} (ha : Text.inRanges as c = true)
    (hb : Text.inRanges bs c = true) : ∃ a ∈ as, ∃ b ∈ bs, a.1 ≤ b.2 ∧ b.1 ≤ a.2 := by
  simp only [Text.inRanges, List.any_eq_true, Bool.and_eq_true, decide_eq_true_eq] at ha hb
  rcases ha with ⟨a, hmema, halow, hahigh⟩
  rcases hb with ⟨b, hmemb, hblow, hbhigh⟩
  exact ⟨a, hmema, b, hmemb, by omega, by omega⟩

/-- No letter is blank. -/
theorem disjoint_letterRanges_blankRanges :
    ∀ a ∈ Text.letterRanges, ∀ b ∈ Text.blankRanges, ¬ (a.1 ≤ b.2 ∧ b.1 ≤ a.2) := by
  decide +kernel

/-- Of the ASCII characters, none that starts a name is blank or a digit. -/
theorem startsName_ascii :
    ∀ n < 0x80, startsName (Char.ofNat n) = true →
      Text.isBlank (Char.ofNat n) = false ∧ (Char.ofNat n).isDigit = false := by
  decide +kernel

/-- What starts a name is not blank. -/
theorem isBlank_of_startsName {c : Char} (h : startsName c = true) : Text.isBlank c = false := by
  -- ASCII is checked character by character.
  by_cases hascii : c.toNat < 0x80
  · have hc := startsName_ascii c.toNat hascii
    rw [Char.ofNat_toNat] at hc
    exact (hc h).1
  · -- Beyond ASCII only the tables count.
    have hletter : Text.inRanges Text.letterRanges c = true := by
      simp only [startsName, Text.isLetter, hascii, if_false, Bool.or_eq_true,
        decide_eq_true_eq] at h
      rcases h with (h | rfl) | rfl
      · exact h
      · exact absurd (by decide) hascii
      · exact absurd (by decide) hascii
    rw [Bool.eq_false_iff]
    intro hblank
    rcases exists_overlap hletter hblank with ⟨a, ha, b, hb, hover⟩
    exact disjoint_letterRanges_blankRanges a ha b hb hover

theorem isDigit_bounds {c : Char} (h : c.isDigit = true) : 48 ≤ c.toNat ∧ c.toNat ≤ 57 := by
  simpa [Char.isDigit, UInt32.le_iff_toNat_le] using h

/-- What starts a name is not a digit. -/
theorem isDigit_of_startsName {c : Char} (h : startsName c = true) : c.isDigit = false := by
  rw [Bool.eq_false_iff]
  intro hdigit
  have hbound := isDigit_bounds hdigit
  have hc := startsName_ascii c.toNat (by omega)
  rw [Char.ofNat_toNat, hdigit] at hc
  exact absurd (hc h).2 (by decide)

/-- What starts a name starts no string. -/
theorem not_quote_of_startsName {c : Char} (h : startsName c = true) :
    ¬ (c = '\x22' ∨ c = '\x27') := by
  rintro (rfl | rfl)
  · exact absurd h (by decide)
  · exact absurd h (by decide)

/-- What starts a name starts no mark. -/
theorem symbol?_of_startsName {c : Char} (cs : List Char) (h : startsName c = true) :
    symbol? c cs = none := by
  unfold symbol?
  simp only
  -- Every mark starts with a character that no name starts with.
  split
  all_goals first | exact absurd h (by decide) | rfl

/-- A word is spelled by its text. -/
theorem Spells.word {word : String} {rest : List Char} {ts : List Token} (hword : IsWord word)
    (hrest : Ends rest) (h : Spells rest ts) : Spells (word.toList ++ rest) (ofWord word :: ts) := by
  rcases hword with ⟨c, body, hchars, hstart, hbody⟩
  -- The name ends where the text ends it, so its tail is all of the word.
  have htail : (body ++ rest).takeWhile continuesName = body :=
    Number.takeWhile_append_of_head hbody hrest.head
  have hofList : String.ofList (c :: body) = word := by
    rw [← hchars, String.ofList_toList]
  rw [hchars, List.cons_append]
  refine .cons (isBlank_of_startsName hstart) (fun position => ?_) h
  rw [lexeme, if_neg (not_quote_of_startsName hstart),
    if_neg (by simp [isDigit_of_startsName hstart]), symbol?_of_startsName _ hstart]
  simp only [hstart, if_true, htail, hofList]

/-- Where names end, no exponent starts. -/
theorem Ends.startsExponent {cs : List Char} (h : Ends cs) : startsExponent cs = false := by
  cases cs with
  | nil => rfl
  | cons c cs =>
      have hc := h.head c rfl
      rw [Bool.eq_false_iff]
      intro he
      simp only [Token.startsExponent, Bool.or_eq_true, decide_eq_true_eq] at he
      rcases he with rfl | rfl
      · exact absurd hc (by decide)
      · exact absurd hc (by decide)

/-- Where names end, no digit stands. -/
theorem Ends.isDigit {cs : List Char} (h : Ends cs) : ∀ c ∈ cs.head?, c.isDigit = false := by
  intro c hc
  have hcontinues := h.head c hc
  rw [Bool.eq_false_iff]
  intro hdigit
  have hbound := isDigit_bounds hdigit
  -- A digit would go on a name.
  simp only [continuesName, Text.isLetterOrNumber, if_pos (by omega : c.toNat < 0x80),
    Char.isAlphanum, hdigit, Bool.or_true, Bool.true_or] at hcontinues
  exact absurd hcontinues (by decide)

/-- A digit is not blank. -/
theorem isBlank_of_isDigit {c : Char} (h : c.isDigit = true) : Text.isBlank c = false := by
  have hdigits : ∀ n < 0x80, (Char.ofNat n).isDigit = true →
      Text.isBlank (Char.ofNat n) = false := by
    decide
  have hbound := isDigit_bounds h
  have hc := hdigits c.toNat (by omega)
  rw [Char.ofNat_toNat] at hc
  exact hc h

theorem not_quote_of_isDigit {c : Char} (h : c.isDigit = true) :
    ¬ (c = '\x22' ∨ c = '\x27') := by
  rintro (rfl | rfl)
  · exact absurd h (by decide)
  · exact absurd h (by decide)

/-- The digits after the point of a numeral with the point, which stands only before digits. -/
def pointed (fraction : List Char) : List Char :=
  if fraction.isEmpty then [] else '.' :: fraction

/-- A numeral is its digits before and after the point and what is read as its exponent, provided that
    nothing else goes on with the digits. -/
theorem numeral_append {whole fraction tail : List Char} (hwhole : ∀ c ∈ whole, c.isDigit = true)
    (hfraction : ∀ c ∈ fraction, c.isDigit = true) (htail : ∀ c ∈ tail.head?, c.isDigit = false)
    (hpoint : fraction = [] → fractionDigits tail = []) :
    numeral (whole ++ (pointed fraction ++ tail)) =
      if startsExponent tail then
        match Number.scanExponent tail with
        | some (exponent, rest) =>
          .ok (Number.Numeral.value ⟨whole, fraction, exponent⟩,
            (whole ++ (pointed fraction ++ tail)).length - rest.length)
        | none =>
          .error (.invalidNumber (String.ofList (whole ++ (pointed fraction ++ exponentHead tail))))
      else .ok (Number.Numeral.value ⟨whole, fraction, 0⟩, (whole ++ pointed fraction).length) := by
  -- The point or the tail ends the digits before it, and the tail those behind.
  have hhead : ∀ c ∈ (pointed fraction ++ tail).head?, c.isDigit = false := by
    unfold pointed
    split
    · exact htail
    · simp
  have htake : (whole ++ (pointed fraction ++ tail)).takeWhile Char.isDigit = whole :=
    Number.takeWhile_append_of_head hwhole hhead
  have hdigits : fractionDigits (pointed fraction ++ tail) = fraction := by
    unfold pointed
    split
    · rename_i hempty
      rw [List.isEmpty_iff.mp hempty, List.nil_append, hpoint (List.isEmpty_iff.mp hempty)]
    · exact Number.takeWhile_append_of_head hfraction htail
  have hlength : whole.length + (if fraction.isEmpty then 0 else fraction.length + 1) =
      (whole ++ pointed fraction).length := by
    rw [List.length_append, pointed]
    split <;> rfl
  have hdrop : (whole ++ (pointed fraction ++ tail)).drop (whole ++ pointed fraction).length = tail := by
    rw [← List.append_assoc, List.drop_left]
  have htaken : (whole ++ (pointed fraction ++ tail)).take (whole ++ pointed fraction).length =
      whole ++ pointed fraction := by
    rw [← List.append_assoc, List.take_left]
  unfold numeral
  -- From here on only the exponent is left, which is a fault or a number with a rest.
  cases hscan : Number.scanExponent tail with
  | none => simp only [htake, List.drop_left, hdigits, hlength, hdrop, htaken, hscan, List.append_assoc]
  | some p => simp only [htake, List.drop_left, hdigits, hlength, hdrop, hscan]

/-- What a numeral writes does not depend on what follows it. -/
theorem numeral_of_plain {cs : List Char} (h : Number.Plain cs) :
    ∃ x, ∀ rest, Ends rest → numeral (cs ++ rest) = .ok (x, cs.length) := by
  cases h with
  | whole hne hds =>
      refine ⟨Number.Numeral.value ⟨cs, [], 0⟩, fun rest hrest => ?_⟩
      have hnone : ∀ c ∈ ([] : List Char), c.isDigit = true := by simp
      have happend := numeral_append hds hnone hrest.isDigit fun _ => hrest.fraction
      simpa [pointed, hrest.startsExponent] using happend
  | @point ds fs hds hfs hne hfne =>
      refine ⟨Number.Numeral.value ⟨ds, fs, 0⟩, fun rest hrest => ?_⟩
      have happend := numeral_append hds hfs hrest.isDigit fun hempty => absurd hempty hfne
      simpa [pointed, hfne, hrest.startsExponent] using happend

/-- A finite number without a sign is spelled by its text, if the text is read as that number. -/
theorem Spells.number {x : Float} {rest : List Char} {ts : List Token}
    (hx : Number.Unsigned x.toModel.unpack) (hfinite : x.isFinite = true)
    (hread : Number.ReadsBack x) (hrest : Ends rest) (h : Spells rest ts) :
    Spells (Number.chars x ++ rest) (.number x :: ts) := by
  have hplain := Number.plain_chars hx hfinite
  rcases numeral_of_plain hplain with ⟨y, hnumeral⟩
  -- That the number reads back is known of its text alone, but what follows makes no difference.
  have hxy : y = x := by
    have hy := hnumeral [] .nil
    rw [List.append_nil, hread] at hy
    cases hy
    rfl
  subst hxy
  rcases hplain.head with ⟨c, body, hchars, hdigit⟩
  rw [hchars] at hnumeral ⊢
  refine .cons (isBlank_of_isDigit hdigit) (fun position => ?_) h
  rw [lexeme, if_neg (not_quote_of_isDigit hdigit), if_pos hdigit, ← List.cons_append,
    hnumeral rest hrest]
  rfl

/-- A character that stands for itself in a string. -/
theorem stringBody_char {quote c : Char} (cs : List Char) (hquote : c ≠ quote) (hback : c ≠ '\\') :
    stringBody quote (c :: cs) = (do
      let (body, n) ← stringBody quote cs
      return (c :: body, n + 1)) := by
  rw [stringBody.eq_def]
  simp only [hquote, hback, if_false]

/-- A character escaped by a letter. -/
theorem stringBody_letter {quote e c : Char} (cs : List Char) (hquote : '\\' ≠ quote) (he : e ≠ 'u')
    (hc : escaped? e = some c) :
    stringBody quote ('\\' :: e :: cs) = (do
      let (body, n) ← stringBody quote cs
      return (c :: body, n + 2)) := by
  rw [stringBody.eq_def]
  simp [hquote, he, hc]

/-- A character escaped by its code point. -/
theorem stringBody_code {quote : Char} {hs : List Char} {c : Char} (cs : List Char)
    (hquote : '\\' ≠ quote) (hlen : hs.length = 4) (hhex : hs.all isHexDigit = true)
    (hc : ofCode? (Number.natOfDigits 16 hs) = some c) :
    stringBody quote ('\\' :: 'u' :: (hs ++ cs)) = (do
      let (body, n) ← stringBody quote cs
      return (c :: body, n + 6)) := by
  rcases hs with _ | ⟨h₁, _ | ⟨h₂, _ | ⟨h₃, _ | ⟨h₄, _ | _⟩⟩⟩⟩ <;> cases hlen
  rw [List.cons_append, List.cons_append, List.cons_append, List.cons_append, List.nil_append,
    stringBody.eq_def]
  simp only [hquote, hhex, hc, if_true, if_false]

/-- A control character is escaped by four digits that stand for it. -/
theorem escapeCode_control :
    ∀ n < 0x20, (Text.padLeft 4 (Text.hexadecimal n)).length = 4 ∧
      (Text.padLeft 4 (Text.hexadecimal n)).all isHexDigit = true ∧
      ofCode? (Number.natOfDigits 16 (Text.padLeft 4 (Text.hexadecimal n)))
        = some (Char.ofNat n) := by
  decide +kernel

/-- An escaped character is read as that character. -/
theorem stringBody_escapeChar (c : Char) (cs : List Char) :
    stringBody '\x22' (Text.escapeChar c ++ cs) = (do
      let (body, n) ← stringBody '\x22' cs
      return (c :: body, n + (Text.escapeChar c).length)) := by
  unfold Text.escapeChar
  -- Five characters have a letter of their own, the other control characters a code, the rest stand
  -- for themselves.
  by_cases hquote : c = '\x22'
  · subst hquote
    exact stringBody_letter cs (by decide) (by decide) (by decide)
  rw [if_neg hquote]
  by_cases hback : c = '\\'
  · subst hback
    exact stringBody_letter cs (by decide) (by decide) (by decide)
  rw [if_neg hback]
  by_cases hfeed : c = '\n'
  · subst hfeed
    exact stringBody_letter cs (by decide) (by decide) (by decide)
  rw [if_neg hfeed]
  by_cases hreturn : c = '\r'
  · subst hreturn
    exact stringBody_letter cs (by decide) (by decide) (by decide)
  rw [if_neg hreturn]
  by_cases htab : c = '\t'
  · subst htab
    exact stringBody_letter cs (by decide) (by decide) (by decide)
  rw [if_neg htab]
  by_cases hcontrol : c.toNat < 0x20
  · rcases escapeCode_control c.toNat hcontrol with ⟨hlen, hhex, hcode⟩
    rw [Char.ofNat_toNat] at hcode
    rw [if_pos hcontrol, Text.escapeCode]
    simpa [hlen] using stringBody_code cs (by decide) hlen hhex hcode
  · rw [if_neg hcontrol]
    exact stringBody_char cs hquote hback

/-- What a string literal holds is read as the text it was written for. -/
theorem stringBody_escaped (s rest : List Char) :
    stringBody '\x22' (s.flatMap Text.escapeChar ++ '\x22' :: rest) =
      .ok (s, (s.flatMap Text.escapeChar ++ ['\x22']).length) := by
  -- The closing quote is the first one that is not escaped.
  induction s with
  | nil =>
      rw [List.flatMap_nil, List.nil_append, stringBody.eq_def]
      rfl
  | cons c s ih =>
      rw [List.flatMap_cons, List.append_assoc, stringBody_escapeChar, ih, ok_bind]
      simp only [List.length_append, List.length_singleton]
      congr 2
      omega

/-- A string is spelled by its literal, whatever follows. -/
theorem Spells.quoted {s : String} {rest : List Char} {ts : List Token} (h : Spells rest ts) :
    Spells ((Text.quoted s).toList ++ rest) (.string s :: ts) := by
  have happend : (Text.quoted s).toList ++ rest
      = '\x22' :: ((s.toList.flatMap Text.escapeChar ++ ['\x22']) ++ rest) := by
    simp [Text.quoted]
  rw [happend]
  refine .cons (by decide) (fun position => ?_) h
  have hbody := stringBody_escaped s.toList rest
  rw [lexeme, if_pos (by decide), List.append_assoc, List.singleton_append, hbody, ok_bind]
  simp only [String.ofList_toList]
  rfl

/-- A word is one of the keywords or a name. -/
theorem wellFormed_ofWord {word : String} (h : IsWord word) : WellFormed (ofWord word) := by
  unfold ofWord
  -- The four keywords carry no name.
  split
  · trivial
  · split
    · trivial
    · split
      · trivial
      · split
        · trivial
        · refine ⟨h, ?_⟩
          simp only [ofWord, *, if_false]

/-- A numeral in a source writes a number without a sign. -/
theorem unsigned_of_numeral {cs : List Char} {x : Float} {n : Nat} (h : numeral cs = .ok (x, n)) :
    Number.Unsigned x.toModel.unpack := by
  simp only [numeral] at h
  generalize (cs.takeWhile Char.isDigit).length + _ = length at h
  split at h
  · split at h
    · cases h
      exact Number.Numeral.unsigned_value _
    · cases h
  · cases h
    exact Number.Numeral.unsigned_value _

/-- Marks and operators carry nothing that could be ill formed. -/
theorem wellFormed_of_symbol? {c : Char} {cs : List Char} {t : Token} {n : Nat}
    (h : symbol? c cs = some (t, n)) : WellFormed t := by
  unfold symbol? at h
  simp only at h
  repeat' split at h
  all_goals
    cases h
    try trivial

/-- The token at the start of a text is well formed. -/
theorem wellFormed_of_lexeme {position : Nat} {c : Char} {cs : List Char} {t : Token} {n : Nat}
    (h : lexeme position c cs = .ok (t, n)) : WellFormed t := by
  -- A string, a numeral, a mark or a word, in the order in which the lexer tries them.
  unfold lexeme at h
  split at h
  · rw [bind_eq_ok_iff] at h
    rcases h with ⟨⟨body, m⟩, _, h⟩
    cases h
    trivial
  · split at h
    · rw [bind_eq_ok_iff] at h
      rcases h with ⟨⟨x, m⟩, hnumeral, h⟩
      cases h
      exact unsigned_of_numeral hnumeral
    · split at h
      · rename_i hsymbol
        cases h
        exact wellFormed_of_symbol? hsymbol
      · split at h
        · rename_i hstart
          cases h
          exact wellFormed_ofWord ⟨c, _, String.toList_ofList, hstart,
            fun d hd => List.all_eq_true.mp List.all_takeWhile d hd⟩
        · cases h

/-- The tokens of a text are well formed. -/
theorem wellFormed_of_scan {skip position : Nat} {cs : List Char} {placed : List Placed}
    (h : scan skip position cs = .ok placed) : ∀ p ∈ placed, WellFormed p.token := by
  -- Characters of a lexeme that has been taken off, and blanks, add no token.
  induction cs generalizing skip position placed with
  | nil =>
      rw [scan] at h
      cases h
      simp
  | cons c cs ih =>
      cases skip with
      | succ skip =>
          rw [scan] at h
          exact ih h
      | zero =>
          rw [scan] at h
          split at h
          · exact ih h
          · rw [bind_eq_ok_iff] at h
            rcases h with ⟨⟨t, n⟩, hlex, h⟩
            rw [bind_eq_ok_iff] at h
            rcases h with ⟨later, hscan, h⟩
            cases h
            intro p hp
            rcases List.mem_cons.mp hp with rfl | hp
            · exact wellFormed_of_lexeme hlex
            · -- Later tokens are those of the rest, which begins with what the lexeme still covers.
              exact ih hscan p hp

/-- The tokens of a source are well formed. -/
theorem wellFormed_of_ofSource {source : String} {tokens : List Token}
    (h : ofSource source = .ok tokens) : ∀ t ∈ tokens, WellFormed t := by
  unfold ofSource at h
  rw [bind_eq_ok_iff] at h
  rcases h with ⟨placed, hscan, h⟩
  cases h
  intro t ht
  rcases List.mem_map.mp ht with ⟨p, hp, rfl⟩
  exact wellFormed_of_scan hscan p hp

/-- A text that spells tokens is a source with those tokens. -/
theorem Spells.ofSource {source : String} {tokens : List Token} (h : Spells source.toList tokens) :
    ofSource source = .ok tokens := by
  rcases h 0 with ⟨placed, hscan, rfl⟩
  rw [Token.ofSource, hscan, ok_bind]
  rfl

end Token

end FieldLang

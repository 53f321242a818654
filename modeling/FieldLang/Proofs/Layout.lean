import FieldLang.Proofs.NumeralForms
import FieldLang.Proofs.Spelling

/-!
# Lexemes and Layout

A source is made of the lexemes of its tokens and of blanks, and nothing else. The lexer reads each
token where its lexeme stands and leaves out no character but blanks, so the positions of the tokens
with the lexemes give the source back.

What a lexeme is read as depends on that lexeme alone, as long as a blank or the end follows it. In
the source something else may follow, and a rule may have looked at it: `1.x` is a numeral, a point
and a name because no digit follows the point. So the proof looks at each rule with what it takes off
the text and puts anything that starts with a blank in the place of what followed. From this, tokens
do not depend on how the lexemes are laid out, if only blanks keep them apart.

## Main definitions

* `Apart`: Texts that keep a lexeme before them apart.
* `spellings`: The marks and operators with their spellings.
* `Written`: A token with its lexeme and the blanks after it.
* `IsLexeme`: Texts that are read as a token wherever they stand apart.
* `placedFrom`: The tokens of written lexemes with their positions.
* `laidOut`: Lexemes with blanks after them.

## Theorems

* `exists_body_of_stringBody`, `exists_body_of_numeral`, `exists_spelling_of_symbol?`: What the rules
  take off a text.
* `exists_body_of_lexeme`: One step of the lexer, stated of the lexeme it takes off.
* `lexeme_cases`: What the lexer reads is of one of four kinds.
* `exists_written_of_scan`: The whole text, by induction over its characters.
* `IsLexeme.spells`, `spells_laidOut`: Lexemes that are kept apart.
* `source_splits_into_lexemes`: What the tokens of a source say about it.
-/

namespace FieldLang.Token

/-- The text is empty or starts with a blank. -/
def Apart (cs : List Char) : Prop :=
  ∀ c ∈ cs.head?, Text.isBlank c = true

theorem apart_nil : Apart [] := by
  simp [Apart]

/-- Blanks keep a lexeme before them apart, if there are any or what follows them does. -/
theorem Blanks.apart_append {gap rest : List Char} (h : Blanks gap) (hrest : gap = [] → Apart rest) :
    Apart (gap ++ rest) := by
  cases gap with
  | nil => exact hrest rfl
  | cons c gap =>
      intro d hd
      obtain rfl : c = d := by simpa using hd
      exact h c (by simp)

section Blank

/-- Of the ASCII characters, no blank goes on a name. -/
theorem continuesName_ascii :
    ∀ n < 0x80, Text.isBlank (Char.ofNat n) = true → continuesName (Char.ofNat n) = false := by
  decide +kernel

/-- No number sign is blank. -/
theorem disjoint_numberRanges_blankRanges :
    ∀ a ∈ Text.numberRanges, ∀ b ∈ Text.blankRanges, ¬ (a.1 ≤ b.2 ∧ b.1 ≤ a.2) := by
  decide +kernel

/-- A blank goes on no name. -/
theorem continuesName_of_isBlank {c : Char} (h : Text.isBlank c = true) : continuesName c = false := by
  by_cases hascii : c.toNat < 0x80
  · have hc := continuesName_ascii c.toNat hascii
    rw [Char.ofNat_toNat] at hc
    exact hc h
  · -- Beyond ASCII the tables decide, and that of the blanks lies apart from the others.
    have hletter : Text.inRanges Text.letterRanges c = false := by
      rw [Bool.eq_false_iff]
      intro hin
      obtain ⟨a, ha, b, hb, hover⟩ := exists_overlap hin h
      exact disjoint_letterRanges_blankRanges a ha b hb hover
    have hnumber : Text.inRanges Text.numberRanges c = false := by
      rw [Bool.eq_false_iff]
      intro hin
      obtain ⟨a, ha, b, hb, hover⟩ := exists_overlap hin h
      exact disjoint_numberRanges_blankRanges a ha b hb hover
    have hunderscore : c ≠ '_' := by
      rintro rfl
      exact absurd (by decide) hascii
    have hdollar : c ≠ '$' := by
      rintro rfl
      exact absurd (by decide) hascii
    simp [continuesName, Text.isLetterOrNumber, hascii, hletter, hnumber, hunderscore, hdollar]

/-- A text that keeps a lexeme apart ends names and numerals. -/
theorem Apart.ends {cs : List Char} (h : Apart cs) : Ends cs := by
  cases cs with
  | nil => exact .nil
  | cons c cs =>
      have hc : Text.isBlank c = true := h c rfl
      refine .cons (continuesName_of_isBlank hc) ?_
      rintro rfl
      exact absurd hc (by decide)

/-- A text that keeps a lexeme apart starts with no character that is not blank. -/
theorem Apart.head?_ne {cs : List Char} (h : Apart cs) {d : Char} (hd : Text.isBlank d = false) :
    cs.head? ≠ some d := by
  intro hhead
  rw [h d hhead] at hd
  cases hd

end Blank

section Rules

/-- A chunk of a string adds its character to what the rest of the string holds. -/
theorem exists_body_of_chunk {quote c : Char} (chunk : List Char) {tail s : List Char} {n : Nat}
    (hchunk : ∀ rest, stringBody quote (chunk ++ rest) = (do
      let (body, m) ← stringBody quote rest
      return (c :: body, m + chunk.length)))
    (htail : ∀ {s n}, stringBody quote tail = .ok (s, n) →
      ∃ body rest, tail = body ++ rest ∧ body.length = n ∧
        ∀ rest', stringBody quote (body ++ rest') = .ok (s, n))
    (h : (do
      let (body, m) ← stringBody quote tail
      return (c :: body, m + chunk.length)) = (.ok (s, n) : Except ParseError _)) :
    ∃ body rest, chunk ++ tail = body ++ rest ∧ body.length = n ∧
      ∀ rest', stringBody quote (body ++ rest') = .ok (s, n) := by
  rw [bind_eq_ok_iff] at h
  obtain ⟨⟨s', m⟩, hbody, h⟩ := h
  cases h
  -- What the rest reads does not depend on what follows it, and neither does the chunk.
  obtain ⟨body, rest, rfl, rfl, hall⟩ := htail hbody
  refine ⟨chunk ++ body, rest, by rw [List.append_assoc], by rw [List.length_append, Nat.add_comm],
    fun rest' => ?_⟩
  rw [List.append_assoc, hchunk, hall]
  rfl

/-- The content of a string and its closing quote are read alike, whatever follows them. -/
theorem exists_body_of_stringBody {quote : Char} {cs s : List Char} {n : Nat}
    (h : stringBody quote cs = .ok (s, n)) :
    ∃ body rest, cs = body ++ rest ∧ body.length = n ∧
      ∀ rest', stringBody quote (body ++ rest') = .ok (s, n) := by
  -- The string ends at its quote or starts with one of three chunks; in the other cases it is refused.
  fun_induction stringBody quote cs generalizing s n
  case case2 rest =>
    cases h
    refine ⟨[quote], rest, rfl, rfl, fun rest' => ?_⟩
    rw [List.singleton_append, stringBody.eq_def]
    simp
  case case5 h₁ h₂ h₃ h₄ tail hhex c hcode hquote ih =>
    exact exists_body_of_chunk ['\\', 'u', h₁, h₂, h₃, h₄] (stringBody_code · hquote rfl hhex hcode) ih h
  case case9 e tail hu c hletter hquote ih =>
    exact exists_body_of_chunk ['\\', e] (stringBody_letter · hquote hu hletter) ih h
  case case10 c tail hquote hback ih =>
    exact exists_body_of_chunk [c] (stringBody_char · hquote hback) ih h
  all_goals cases h

/-- Every text is digits, perhaps a point with digits, and what goes on with neither. -/
theorem exists_mantissa (cs : List Char) :
    ∃ whole fraction tail, cs = whole ++ (pointed fraction ++ tail) ∧
      (∀ c ∈ whole, c.isDigit = true) ∧ (∀ c ∈ fraction, c.isDigit = true) ∧
      Number.NoDigit tail ∧ (fraction = [] → fractionDigits tail = []) := by
  have hsplit := List.takeWhile_append_dropWhile (p := Char.isDigit) (l := cs)
  have hwhole : ∀ c ∈ cs.takeWhile Char.isDigit, c.isDigit = true :=
    fun c hc => Number.isDigit_of_mem_takeWhile hc
  have hnoDigit := Number.noDigit_dropWhile cs
  generalize cs.takeWhile Char.isDigit = whole at hsplit hwhole
  generalize cs.dropWhile Char.isDigit = tail at hsplit hnoDigit
  -- The point belongs to the numeral only if there are digits behind it.
  by_cases hnone : fractionDigits tail = []
  · exact ⟨whole, [], tail, hsplit.symm, hwhole, by simp, hnoDigit, fun _ => hnone⟩
  · unfold fractionDigits at hnone
    split at hnone
    · rename_i ds
      refine ⟨whole, ds.takeWhile Char.isDigit, ds.dropWhile Char.isDigit, ?_, hwhole,
        fun c hc => Number.isDigit_of_mem_takeWhile hc, Number.noDigit_dropWhile ds,
        fun hempty => absurd hempty hnone⟩
      rw [pointed, if_neg (by simpa using hnone), List.cons_append, List.takeWhile_append_dropWhile,
        hsplit]
    · exact absurd rfl hnone

/-- A power of ten starts an exponent and not a fraction. -/
theorem startsExponent_of_power {ps : List Char} {exponent : Int} (h : Number.PowerForm ps exponent)
    (rest : List Char) : startsExponent (ps ++ rest) = true ∧ fractionDigits (ps ++ rest) = [] := by
  cases h with
  | intro hletter hsign hds =>
      rcases hletter with rfl | rfl
      · exact ⟨rfl, rfl⟩
      · exact ⟨rfl, rfl⟩

/-- A numeral takes all digits at its end, and is read alike where neither a name nor a numeral goes
    on. -/
theorem exists_body_of_numeral {cs : List Char} {x : Float} {n : Nat}
    (h : numeral cs = .ok (x, n)) :
    ∃ body rest, cs = body ++ rest ∧ body.length = n ∧ Number.NoDigit rest ∧
      ∀ rest', Ends rest' → numeral (body ++ rest') = .ok (x, n) := by
  obtain ⟨whole, fraction, tail, rfl, hwhole, hfraction, htail, hpoint⟩ := exists_mantissa cs
  rw [numeral_append hwhole hfraction htail hpoint] at h
  split at h
  · split at h
    · rename_i exponent after hexponent
      cases h
      obtain ⟨ps, rfl, hpower, hafter⟩ := Number.exists_power_of_scanExponent hexponent
      refine ⟨whole ++ (pointed fraction ++ ps), after, by simp, by simp; omega, hafter,
        fun rest' hrest' => ?_⟩
      -- With a power the digits end at its letter, so the rest is free to be anything that ends a
      -- numeral.
      obtain ⟨hstarts, hnoPoint⟩ := startsExponent_of_power hpower rest'
      have happend := numeral_append hwhole hfraction (hpower.noDigit rest') fun _ => hnoPoint
      rw [if_pos hstarts, Number.scanExponent_append hpower hrest'.isDigit] at happend
      rw [List.append_assoc, List.append_assoc, happend]
      simp only [List.length_append]
      congr 2
      omega
    · cases h
  · cases h
    refine ⟨whole ++ pointed fraction, tail, by simp, rfl, htail, fun rest' hrest' => ?_⟩
    -- Without one the rest may not look like the start of a power.
    have happend := numeral_append hwhole hfraction hrest'.isDigit fun _ => hrest'.fraction
    simpa [hrest'.startsExponent] using happend

/-- The spellings of the marks and of the binary operators. -/
def spellings : List (List Char × Token) :=
  [(['=', '=', '='], .operator .equal), (['=', '='], .operator .equal), (['=', '>'], .mark .arrow),
    (['!', '=', '='], .operator .notEqual), (['!', '='], .operator .notEqual), (['!'], .mark .not),
    (['<', '='], .operator .lessOrEqual), (['<'], .operator .lessThan),
    (['>', '='], .operator .greaterOrEqual), (['>'], .operator .greaterThan),
    (['&', '&'], .operator .and), (['|', '|'], .operator .or), (['|'], .mark .pipe),
    (['?', '?'], .operator .coalesce), (['?'], .mark .question), (['+'], .operator .add),
    (['-'], .operator .subtract), (['*'], .operator .multiply), (['/'], .operator .divide),
    (['%'], .operator .modulo), ([':'], .mark .colon), (['.'], .mark .dot), (['('], .mark .leftParen),
    ([')'], .mark .rightParen), (['['], .mark .leftBracket), ([']'], .mark .rightBracket),
    ([','], .mark .comma)]

/-- After one equals sign a second one is taken as well. -/
theorem exists_equalsSigns {cs : List Char} (h : cs.head? = some '=') :
    ∃ body rest, cs = body ++ rest ∧ body.length = (if cs[1]? = some '=' then 2 else 1) ∧
      (body = ['='] ∨ body = ['=', '=']) := by
  obtain ⟨tail, rfl⟩ := List.head?_eq_some_iff.mp h
  by_cases hthird : tail.head? = some '='
  · obtain ⟨tail, rfl⟩ := List.head?_eq_some_iff.mp hthird
    exact ⟨['=', '='], tail, rfl, rfl, .inr rfl⟩
  · refine ⟨['='], tail, rfl, ?_, .inl rfl⟩
    rw [if_neg (by simpa [List.head?_eq_getElem?] using hthird)]
    rfl

/-- What is read as a mark or an operator is one of the spellings. -/
theorem exists_spelling_of_symbol? {c : Char} {cs : List Char} {t : Token} {n : Nat}
    (h : symbol? c cs = some (t, n)) :
    ∃ body rest, cs = body ++ rest ∧ body.length = n ∧ (c :: body, t) ∈ spellings := by
  unfold symbol? at h
  simp only at h
  -- By the first character: an equals sign, a negation, what another one may follow, and the rest.
  split at h
  case h_1 =>
    split at h
    · rename_i hequal
      cases h
      obtain ⟨body, rest, hcs, hlength, hbody⟩ := exists_equalsSigns hequal
      exact ⟨body, rest, hcs, hlength, by rcases hbody with rfl | rfl <;> simp [spellings]⟩
    · split at h
      · rename_i harrow
        cases h
        obtain ⟨tail, rfl⟩ := List.head?_eq_some_iff.mp harrow
        exact ⟨['>'], tail, rfl, rfl, by simp [spellings]⟩
      · cases h
  case h_2 =>
    split at h
    · rename_i hequal
      cases h
      obtain ⟨body, rest, hcs, hlength, hbody⟩ := exists_equalsSigns hequal
      exact ⟨body, rest, hcs, hlength, by rcases hbody with rfl | rfl <;> simp [spellings]⟩
    · cases h
      exact ⟨[], cs, rfl, rfl, by simp [spellings]⟩
  case h_3 | h_4 | h_5 | h_6 | h_7 =>
    split at h
    · rename_i hsecond
      cases h
      obtain ⟨tail, rfl⟩ := List.head?_eq_some_iff.mp hsecond
      exact ⟨[_], tail, rfl, rfl, by simp [spellings]⟩
    · cases h <;> exact ⟨[], cs, rfl, rfl, by simp [spellings]⟩
  all_goals
    cases h <;> exact ⟨[], cs, rfl, rfl, by simp [spellings]⟩

/-- Each spelling is read as a whole where a blank or the end follows. -/
theorem symbol?_of_mem_spellings {c : Char} {body rest : List Char} {t : Token}
    (h : (c :: body, t) ∈ spellings) (hrest : Apart rest) :
    symbol? c (body ++ rest) = some (t, body.length) := by
  have hequal : rest.head? ≠ some '=' := hrest.head?_ne (by decide)
  have hbar : rest.head? ≠ some '|' := hrest.head?_ne (by decide)
  have hquestion : rest.head? ≠ some '?' := hrest.head?_ne (by decide)
  rw [List.head?_eq_getElem?] at hequal hbar hquestion
  simp only [spellings, List.mem_cons, Prod.mk.injEq, List.cons.injEq, List.not_mem_nil, or_false] at h
  rcases h with h | h | h | h | h | h | h | h | h | h | h | h | h | h | h | h | h | h | h | h | h | h |
    h | h | h | h | h
  all_goals
    obtain ⟨⟨rfl, rfl⟩, rfl⟩ := h
    simp [symbol?, List.head?_eq_getElem?, hequal, hbar, hquestion]

/-- The token that starts with a character is read off a lexeme, and that lexeme is read alike where a
    blank or the end follows it. -/
theorem exists_body_of_lexeme {position : Nat} {c : Char} {cs : List Char} {t : Token} {n : Nat}
    (h : lexeme position c cs = .ok (t, n)) :
    ∃ body rest, cs = body ++ rest ∧ body.length = n ∧
      ∀ position' rest', Apart rest' → lexeme position' c (body ++ rest') = .ok (t, n) := by
  -- A string, a numeral, a mark or a word, in the order in which the lexer tries them.
  unfold lexeme at h ⊢
  split at h
  · rename_i hquote
    rw [bind_eq_ok_iff] at h
    obtain ⟨⟨s, m⟩, hbody, h⟩ := h
    cases h
    obtain ⟨body, rest, hcs, hlength, hall⟩ := exists_body_of_stringBody hbody
    refine ⟨body, rest, hcs, hlength, fun position' rest' _ => ?_⟩
    rw [if_pos hquote, hall]
    rfl
  · rename_i hquote
    split at h
    · rename_i hdigit
      rw [bind_eq_ok_iff] at h
      obtain ⟨⟨x, m⟩, hnumeral, h⟩ := h
      cases h
      obtain ⟨body, rest, hcs, rfl, hrest, hall⟩ := exists_body_of_numeral hnumeral
      cases body with
      | nil =>
          rw [List.nil_append] at hcs
          subst hcs
          exact absurd hdigit (by simp [hrest c rfl])
      | cons d body =>
          cases hcs
          refine ⟨body, rest, rfl, rfl, fun position' rest' hrest' => ?_⟩
          rw [if_neg hquote, if_pos hdigit, ← List.cons_append, hall rest' hrest'.ends]
          rfl
    · rename_i hdigit
      split at h
      · rename_i hsymbol
        cases h
        obtain ⟨body, rest, hcs, hlength, hspelling⟩ := exists_spelling_of_symbol? hsymbol
        refine ⟨body, rest, hcs, hlength, fun position' rest' hrest' => ?_⟩
        rw [if_neg hquote, if_neg hdigit, symbol?_of_mem_spellings hspelling hrest', hlength]
      · rename_i hsymbol
        split at h
        · rename_i hstart
          cases h
          refine ⟨cs.takeWhile continuesName, cs.dropWhile continuesName,
            List.takeWhile_append_dropWhile.symm, rfl, fun position' rest' hrest' => ?_⟩
          have hword : ∀ d ∈ cs.takeWhile continuesName, continuesName d = true :=
            fun d hd => List.all_eq_true.mp List.all_takeWhile d hd
          have htail := Number.takeWhile_append_of_head hword hrest'.ends.head
          rw [if_neg hquote, if_neg hdigit, symbol?_of_startsName _ hstart]
          simp only [hstart, if_true, htail]
        · cases h

end Rules

/-- A token with its lexeme in a source and the blanks after it. -/
structure Written where
  token : Token
  lexeme : List Char
  gap : List Char

/-- What is written for a token. -/
def Written.chars (w : Written) : List Char :=
  w.lexeme ++ w.gap

/-- The text is read as one token, wherever a blank or the end follows it. -/
def IsLexeme (cs : List Char) (t : Token) : Prop :=
  ∃ c body, cs = c :: body ∧ Text.isBlank c = false ∧
    ∀ position rest, Apart rest → lexeme position c (body ++ rest) = .ok (t, body.length)

/-- The tokens of a text that starts at a position, each where its lexeme starts. -/
def placedFrom : Nat → List Written → List Placed
  | _, [] => []
  | position, w :: ws => ⟨w.token, position⟩ :: placedFrom (position + w.chars.length) ws

section Scan

/-- A text is blanks, lexemes and blanks after each of them, and its tokens are those of the lexemes. -/
theorem exists_written_of_scan {position : Nat} {cs : List Char} {placed : List Placed}
    (h : scan 0 position cs = .ok placed) :
    ∃ leading ws, cs = leading ++ ws.flatMap Written.chars ∧ Blanks leading ∧
      (∀ w ∈ ws, IsLexeme w.lexeme w.token ∧ Blanks w.gap) ∧
      placed = placedFrom (position + leading.length) ws := by
  induction hlength : cs.length using Nat.strong_induction_on generalizing cs position placed with
  | _ length ih =>
    cases cs with
    | nil =>
        rw [scan] at h
        cases h
        exact ⟨[], [], rfl, by simp [Blanks], by simp, rfl⟩
    | cons c cs =>
        rw [scan] at h
        rw [List.length_cons] at hlength
        split at h
        · -- A blank stands before what the rest of the text starts with.
          rename_i hblank
          obtain ⟨leading, ws, rfl, hleading, hws, rfl⟩ := ih cs.length (by omega) h rfl
          refine ⟨c :: leading, ws, rfl, List.forall_mem_cons.mpr ⟨hblank, hleading⟩, hws, ?_⟩
          rw [List.length_cons]
          congr 1
          omega
        · rename_i hblank
          rw [bind_eq_ok_iff] at h
          obtain ⟨⟨t, n⟩, hlexeme, h⟩ := h
          rw [bind_eq_ok_iff] at h
          obtain ⟨later, hscan, h⟩ := h
          cases h
          obtain ⟨body, rest, rfl, rfl, hall⟩ := exists_body_of_lexeme hlexeme
          -- The blanks at the start of what follows the lexeme are those after it.
          rw [scan_skip] at hscan
          rw [List.length_append] at hlength
          obtain ⟨gap, ws, rfl, hgap, hws, rfl⟩ := ih rest.length (by omega) hscan rfl
          refine ⟨[], ⟨t, c :: body, gap⟩ :: ws, by simp [Written.chars], by simp [Blanks], ?_, ?_⟩
          · exact List.forall_mem_cons.mpr ⟨⟨⟨c, body, rfl, by simpa using hblank, hall⟩, hgap⟩, hws⟩
          · rw [placedFrom]
            simp only [List.length_nil, Nat.add_zero, Written.chars, List.length_append,
              List.length_cons]
            congr 2
            omega

/-- The tokens of written lexemes are those written. -/
theorem map_token_placedFrom (position : Nat) (ws : List Written) :
    (placedFrom position ws).map (·.token) = ws.map (·.token) := by
  induction ws generalizing position with
  | nil => rfl
  | cons w ws ih => rw [placedFrom, List.map_cons, List.map_cons, ih]

/-- No token starts before the text does or after it ends. -/
theorem mem_placedFrom {position : Nat} {ws : List Written} (hws : ∀ w ∈ ws, w.lexeme ≠ []) {p : Placed}
    (hp : p ∈ placedFrom position ws) :
    position ≤ p.position ∧ p.position < position + (ws.flatMap Written.chars).length := by
  induction ws generalizing position with
  | nil => cases hp
  | cons w ws ih =>
      rw [List.forall_mem_cons] at hws
      have hpos : 0 < w.chars.length := by
        have := List.length_pos_iff.mpr hws.1
        rw [Written.chars, List.length_append]
        omega
      rw [List.flatMap_cons, List.length_append]
      rcases List.mem_cons.mp hp with rfl | hp
      · simp only
        omega
      · have := ih hws.2 hp
        omega

/-- Each token starts after the one before it. -/
theorem pairwise_placedFrom {position : Nat} {ws : List Written} (hws : ∀ w ∈ ws, w.lexeme ≠ []) :
    (placedFrom position ws).Pairwise (·.position < ·.position) := by
  induction ws generalizing position with
  | nil => exact .nil
  | cons w ws ih =>
      rw [List.forall_mem_cons] at hws
      refine .cons (fun p hp => ?_) (ih hws.2)
      have hpos := List.length_pos_iff.mpr hws.1
      have hlater := (mem_placedFrom hws.2 hp).1
      rw [Written.chars, List.length_append] at hlater
      show position < p.position
      omega

end Scan

section Lexemes

/-- What the lexer reads is a string, or a numeral from a digit on, or one of the spellings, or a word. -/
theorem lexeme_cases {position : Nat} {c : Char} {cs : List Char} {t : Token} {n : Nat}
    (h : lexeme position c cs = .ok (t, n)) :
    (∃ s, t = .string s) ∨
      (c.isDigit = true ∧ ∃ x m, numeral (c :: cs) = .ok (x, m) ∧ t = .number x ∧ n = m - 1) ∨
      (∃ spelling, (spelling, t) ∈ spellings) ∨ ∃ word, t = ofWord word := by
  -- The cases are those of the lexer, in its order.
  unfold lexeme at h
  split at h
  · rw [bind_eq_ok_iff] at h
    obtain ⟨⟨s, m⟩, -, h⟩ := h
    cases h
    exact .inl ⟨_, rfl⟩
  · split at h
    · rename_i hdigit
      rw [bind_eq_ok_iff] at h
      obtain ⟨⟨x, m⟩, hnumeral, h⟩ := h
      cases h
      exact .inr (.inl ⟨hdigit, x, m, hnumeral, rfl, rfl⟩)
    · split at h
      · rename_i hsymbol
        cases h
        obtain ⟨body, rest, -, -, hspelling⟩ := exists_spelling_of_symbol? hsymbol
        exact .inr (.inr (.inl ⟨_, hspelling⟩))
      · split at h
        · cases h
          exact .inr (.inr (.inr ⟨_, rfl⟩))
        · cases h

/-- A word is neither a number nor the end. -/
theorem ofWord_ne (word : String) : (∀ x, ofWord word ≠ .number x) ∧ ofWord word ≠ .eof := by
  unfold ofWord
  split_ifs <;> simp

/-- No lexeme is read as the end. -/
theorem ne_eof_of_lexeme {position : Nat} {c : Char} {cs : List Char} {t : Token} {n : Nat}
    (h : lexeme position c cs = .ok (t, n)) : t ≠ .eof := by
  rcases lexeme_cases h with ⟨s, rfl⟩ | ⟨-, x, m, -, rfl, -⟩ | ⟨spelling, hspelling⟩ | ⟨word, rfl⟩
  · nofun
  · nofun
  · rintro rfl
    simp [spellings] at hspelling
  · exact (ofWord_ne word).2

variable {cs rest : List Char} {t : Token}

/-- A lexeme is not empty, and its token is not the end. -/
theorem IsLexeme.ne_nil (h : IsLexeme cs t) : cs ≠ [] ∧ t ≠ .eof := by
  obtain ⟨c, body, rfl, hblank, hall⟩ := h
  exact ⟨List.cons_ne_nil c body, ne_eof_of_lexeme (hall 0 [] apart_nil)⟩

/-- A lexeme that is kept apart from what follows spells its token. -/
theorem IsLexeme.spells (h : IsLexeme cs t) (hrest : Apart rest) {ts : List Token}
    (hspells : Spells rest ts) : Spells (cs ++ rest) (t :: ts) := by
  obtain ⟨c, body, rfl, hblank, hall⟩ := h
  exact .cons hblank (hall · rest hrest) hspells

/-- A lexeme alone is a source with that one token. -/
theorem IsLexeme.tokenize_eq (h : IsLexeme cs t) :
    tokenize (.ofList cs) = .ok [⟨t, 0⟩, ⟨.eof, cs.length⟩] := by
  obtain ⟨c, body, rfl, hblank, hall⟩ := h
  have hlexeme := hall 0 [] apart_nil
  have hscan := scan_skip body [] 1
  rw [List.append_nil] at hlexeme hscan
  rw [tokenize, String.toList_ofList, scan, if_neg (by simp [hblank]), hlexeme, ok_bind]
  simp only [hscan, scan, ok_bind, String.length_ofList]
  rfl

/-- Lexemes with blanks after each of them. -/
def laidOut (lexemes gaps : List (List Char)) : List Char :=
  (List.zipWith (· ++ ·) lexemes gaps).flatten

/-- Lexemes that blanks keep apart spell their tokens. -/
theorem spells_laidOut {ws : List Written} {gaps : List (List Char)}
    (hws : ∀ w ∈ ws, IsLexeme w.lexeme w.token) (hlength : gaps.length = ws.length)
    (hgaps : ∀ gap ∈ gaps, Blanks gap) (hapart : ∀ gap ∈ gaps.dropLast, gap ≠ []) :
    Spells (laidOut (ws.map (·.lexeme)) gaps) (ws.map (·.token)) := by
  induction ws generalizing gaps with
  | nil =>
      rw [List.length_eq_zero_iff.mp hlength]
      exact .nil
  | cons w ws ih =>
      cases gaps with
      | nil => cases hlength
      | cons gap gaps =>
          rw [List.forall_mem_cons] at hws hgaps
          have hlater : Spells (laidOut (ws.map (·.lexeme)) gaps) (ws.map (·.token)) := by
            refine ih hws.2 (by simpa using hlength) hgaps.2 fun g hg => hapart g ?_
            rw [List.dropLast_cons_of_ne_nil (by rintro rfl; cases hg)]
            exact List.mem_cons_of_mem _ hg
          -- Only after the last lexeme there need be no blank, and nothing follows it.
          have hnext : Apart (gap ++ laidOut (ws.map (·.lexeme)) gaps) := by
            refine hgaps.1.apart_append fun hgap => ?_
            have hlast : gaps = [] := by
              by_contra hne
              refine hapart gap ?_ hgap
              rw [List.dropLast_cons_of_ne_nil hne]
              exact List.mem_cons_self
            rw [hlast, laidOut, List.zipWith_nil_right]
            exact apart_nil
          have hspells := hws.1.spells hnext (.blanks hgaps.1 hlater)
          simpa [laidOut] using hspells

/-- A text that spells tokens is a source with those tokens and the end. -/
theorem Spells.exists_tokenize {ts : List Token} (h : Spells cs ts) :
    ∃ placed, tokenize (.ofList cs) = .ok placed ∧ placed.map (·.token) = ts ++ [.eof] := by
  obtain ⟨placed, hscan, rfl⟩ := h 0
  refine ⟨placed ++ [⟨.eof, (String.ofList cs).length⟩], ?_, by simp⟩
  rw [tokenize, String.toList_ofList, hscan, ok_bind]
  rfl

end Lexemes

/-- The tokens of a source divide it into lexemes and blanks. The source is the lexemes, in the order
    of the tokens and starting at their positions, with blanks before the first and after each of
    them, and the end is the last token only and stands where the source ends. A lexeme alone is a
    source with that one token. And the lexemes make up a source with the same tokens whatever blanks
    stand before, after and between them, as long as there are some between each two. -/
theorem source_splits_into_lexemes (source : String) (tokens : List Placed)
    (h : tokenize source = .ok tokens) :
    ∃ (leading : List Char) (ws : List Written),
      source.toList = leading ++ ws.flatMap Written.chars ∧ Blanks leading ∧
      tokens = placedFrom leading.length ws ++ [⟨.eof, source.length⟩] ∧
      tokens.Pairwise (·.position < ·.position) ∧
      (∀ w ∈ ws, w.token ≠ .eof ∧ w.lexeme ≠ [] ∧ Blanks w.gap ∧
        tokenize (.ofList w.lexeme) = .ok [⟨w.token, 0⟩, ⟨.eof, w.lexeme.length⟩]) ∧
      ∀ (before : List Char) (gaps : List (List Char)), Blanks before → gaps.length = ws.length →
        (∀ gap ∈ gaps, Blanks gap) → (∀ gap ∈ gaps.dropLast, gap ≠ []) →
        ∃ placed, tokenize (.ofList (before ++ laidOut (ws.map (·.lexeme)) gaps)) = .ok placed ∧
          placed.map (·.token) = tokens.map (·.token) := by
  unfold tokenize at h
  rw [bind_eq_ok_iff] at h
  obtain ⟨placed, hscan, h⟩ := h
  cases h
  obtain ⟨leading, ws, hsource, hleading, hws, rfl⟩ := exists_written_of_scan hscan
  rw [Nat.zero_add]
  -- No lexeme is empty, so the positions increase.
  have hnil : ∀ w ∈ ws, w.lexeme ≠ [] := fun w hw => (hws w hw).1.ne_nil.1
  have hlength : source.length = leading.length + (ws.flatMap Written.chars).length := by
    rw [← String.length_toList, hsource, List.length_append]
  refine ⟨leading, ws, hsource, hleading, rfl, ?_, fun w hw => ?_, ?_⟩
  · rw [List.pairwise_append]
    refine ⟨pairwise_placedFrom hnil, List.pairwise_singleton _ _, fun p hp q hq => ?_⟩
    rw [List.mem_singleton.mp hq, hlength]
    exact (mem_placedFrom hnil hp).2
  · obtain ⟨hlexeme, hgap⟩ := hws w hw
    exact ⟨hlexeme.ne_nil.2, hlexeme.ne_nil.1, hgap, hlexeme.tokenize_eq⟩
  · intro before gaps hbefore hgaps hblanks hapart
    -- The lexemes spell their tokens in any layout that keeps them apart.
    have hspells := spells_laidOut (fun w hw => (hws w hw).1) hgaps hblanks hapart
    obtain ⟨placed, hplaced, hmap⟩ := (hspells.blanks hbefore).exists_tokenize
    refine ⟨placed, hplaced, ?_⟩
    rw [hmap, List.map_append, map_token_placedFrom]
    rfl

/-- A source with a numeral that ends before a point, as no digit follows it, a numeral with an exponent and
    a string with escapes. -/
def quotedSource : String :=
  " x>=1.y ?? 2.5e-1+'a\\u0062\\''"

/-- The tokens of the source. A lexeme is as long as it is written: the string has three characters, and its
    lexeme eleven. -/
def quotedTokens : List Placed :=
  [⟨.identifier "x", 1⟩, ⟨.operator .greaterOrEqual, 2⟩, ⟨.number 1, 4⟩, ⟨.mark .dot, 5⟩,
    ⟨.identifier "y", 6⟩, ⟨.operator .coalesce, 8⟩, ⟨.number 0.25, 11⟩, ⟨.operator .add, 17⟩,
    ⟨.string "ab'", 18⟩]

/-- The source has nine lexemes after its blank, and they are the same tokens one to a line. -/
theorem numeral_ends_before_point :
    tokenize quotedSource = .ok (quotedTokens ++ [⟨.eof, 29⟩]) ∧
    ∃ (leading : List Char) (ws : List Written),
      quotedSource.toList = leading ++ ws.flatMap Written.chars ∧ Blanks leading ∧
      placedFrom leading.length ws = quotedTokens ∧
      ∃ placed, tokenize (.ofList (laidOut (ws.map (·.lexeme)) (List.replicate 9 ['\n']))) = .ok placed ∧
        placed.map (·.token) = quotedTokens.map (·.token) ++ [.eof] := by
  have hread : tokenize quotedSource = .ok (quotedTokens ++ [⟨.eof, 29⟩]) := by decide +kernel
  obtain ⟨leading, ws, hsource, hleading, htokens, -, -, hlaid⟩ :=
    source_splits_into_lexemes quotedSource _ hread
  have hplaced : placedFrom leading.length ws = quotedTokens := (List.append_inj_left' htokens rfl).symm
  have hlength : (List.replicate 9 ['\n']).length = ws.length := by
    have hmap := congrArg List.length (congrArg (List.map (·.token)) hplaced)
    rw [map_token_placedFrom, List.length_map] at hmap
    exact hmap.symm
  have hnewline : ∀ gap ∈ List.replicate 9 ['\n'], gap = ['\n'] := fun gap => List.eq_of_mem_replicate
  refine ⟨hread, leading, ws, hsource, hleading, hplaced, ?_⟩
  refine hlaid [] _ (by simp [Blanks]) hlength (fun gap hgap => ?_) fun gap hgap => ?_
  · rw [hnewline gap hgap, Blanks, List.forall_mem_singleton]
    decide
  · rw [hnewline gap (List.mem_of_mem_dropLast hgap)]
    simp

end FieldLang.Token

import FieldLang.Json.Writer
import FieldLang.Proofs.TextNumbers

/-!
# JSON Texts

What the texts of JSON are and which documents they write, by the grammar of the standard and without a
reader. A document is written in many ways: with blanks or without, with characters as they are or escaped.
So the grammar is a relation, `Denotes`. It follows the standard rule by rule, from the characters of a
string and the digits of a number up to arrays and objects.

Writers are on the other side. They differ in how they escape characters and in whether they leave blanks
after commas and colons. A `Style` is what may differ, with the reasons why it does no harm, and texts are
put together from their parts in a style. What is put together from texts of JSON is a text of JSON, and it
writes the document that is put together from theirs.

## Main definitions

* `PieceText`, `StringText`, `NumeralText`: The texts of strings and numbers.
* `Separated`: Texts separated by commas.
* `ValueText`, `Denotes`, `MemberText`: The document that a text writes.
* `IsText`: The texts of JSON.
* `Style`: How a writer escapes characters and separates the parts of arrays and objects.
* `compact`, `spaced`: Without blanks and with them.
* `Style.string`, `Style.array`, `Style.member`, `Style.object`: Texts in a style.

## Theorems

* `escapeChar_cases`: How a character is escaped.
* `writesChar_escape`, `writesChar_escapeChar`: An escaped character stands for that character.
* `exists_stringText`: A text in quotes is a string, which stands for that text.
* `Denotes.array`, `exists_memberText`, `Denotes.object`: Texts that are put together from others.
-/

namespace FieldLang.Json

open FieldLang.Number (Digits SignForm IsHexDigit natOfDigits signed)

section Grammar

/-- A text consists of blanks. -/
def Blanks (cs : List Char) : Prop :=
  ∀ c ∈ cs, c = ' ' ∨ c = '\n' ∨ c = '\t' ∨ c = '\r'

/-- The letters that stand for a character after a backslash, each with that character. -/
def letters : List (Char × Char) :=
  [('\x22', '\x22'), ('\\', '\\'), ('/', '/'), ('b', '\x08'), ('f', '\x0c'), ('n', '\n'), ('r', '\r'),
    ('t', '\t')]

/-- A piece of a string: a character that stands for itself, or a letter or code after a backslash. -/
inductive PieceText : List Char → Piece → Prop
  | plain {c : Char} (hcontrol : ¬ c.toNat < 0x20) (hquote : c ≠ '\x22') (hback : c ≠ '\\') :
      PieceText [c] (.char c)
  | letter {e c : Char} (h : (e, c) ∈ letters) : PieceText ['\\', e] (.char c)
  | code {ds : List Char} (hlength : ds.length = 4) (hds : ∀ d ∈ ds, IsHexDigit d) :
      PieceText ('\\' :: 'u' :: ds) (.unit (natOfDigits 16 ds))

/-- A string: a quote, its pieces, and a quote. -/
inductive StringText : List Char → List Piece → Prop
  | intro {texts : List (List Char)} {pieces : List Piece} (h : List.Forall₂ PieceText texts pieces) :
      StringText ('\x22' :: (texts.flatten ++ ['\x22'])) pieces

/-- The digits of an integer: a zero, or digits that do not start with a zero. -/
inductive WholeText : List Char → Prop
  | zero : WholeText ['0']
  | digits {ds} (hds : Digits ds) (hzero : ds.head? ≠ some '0') : WholeText ds

/-- The digits after a point, with the point, or nothing. -/
inductive FractionText : List Char → List Char → Prop
  | none : FractionText [] []
  | point {ds} (hds : Digits ds) : FractionText ('.' :: ds) ds

/-- An exponent, or nothing. -/
inductive ExponentText : List Char → Option (Bool × List Char) → Prop
  | none : ExponentText [] none
  | power {letter sign ds negative} (hletter : letter = 'e' ∨ letter = 'E')
      (hsign : SignForm sign negative) (hds : Digits ds) :
      ExponentText (letter :: (sign ++ ds)) (some (negative, ds))

/-- A number: perhaps a minus, the digits of an integer, perhaps a fraction and perhaps an exponent. -/
inductive NumeralText : List Char → Numeral → Prop
  | intro {negative whole fs fraction es exponent} (hwhole : WholeText whole)
      (hfraction : FractionText fs fraction) (hexponent : ExponentText es exponent) :
      NumeralText (signed negative (whole ++ (fs ++ es))) ⟨negative, whole, fraction, exponent⟩

/-- Texts separated by commas, at least one, each with what it writes. -/
inductive Separated {α : Type} (p : List Char → α → Prop) : List Char → List α → Prop
  | one {cs a} (h : p cs a) : Separated p cs [a]
  | cons {cs a more as} (h : p cs a) (hmore : Separated p more as) :
      Separated p (cs ++ ',' :: more) (a :: as)

mutual

/-- The document that a text without blanks at its ends writes. -/
inductive ValueText : List Char → Document → Prop
  | null : ValueText "null".toList .null
  | bool (b : Bool) : ValueText (if b then "true" else "false").toList (.bool b)
  | number {cs n} (h : NumeralText cs n) : ValueText cs (.number n)
  | string {cs pieces} (h : StringText cs pieces) : ValueText cs (.string pieces)
  | noElements {gap} (h : Blanks gap) : ValueText ('[' :: (gap ++ [']'])) (.array [])
  | elements {cs ds} (h : Separated Denotes cs ds) : ValueText ('[' :: (cs ++ [']'])) (.array ds)
  | noMembers {gap} (h : Blanks gap) : ValueText ('\x7b' :: (gap ++ ['\x7d'])) (.object [])
  | members {cs ms} (h : Separated MemberText cs ms) :
      ValueText ('\x7b' :: (cs ++ ['\x7d'])) (.object ms)

/-- The document that a text writes. -/
inductive Denotes : List Char → Document → Prop
  | intro {before cs after d} (hbefore : Blanks before) (h : ValueText cs d) (hafter : Blanks after) :
      Denotes (before ++ (cs ++ after)) d

/-- The member that a text writes: a string that may have blanks around it, a colon and a text. -/
inductive MemberText : List Char → List Piece × Document → Prop
  | intro {before key after pieces cs d} (hbefore : Blanks before) (hkey : StringText key pieces)
      (hafter : Blanks after) (h : Denotes cs d) :
      MemberText (before ++ (key ++ (after ++ ':' :: cs))) (pieces, d)

end

/-- The texts of JSON. -/
def IsText (cs : List Char) : Prop :=
  ∃ d, Denotes cs d

end Grammar

section Characters

/-- A text inside a string stands for a character. -/
def WritesChar (cs : List Char) (c : Char) : Prop :=
  ∃ piece, PieceText cs piece ∧ ∀ pieces, pieces? (piece :: pieces) = (pieces? pieces).map (c :: ·)

theorem pieces?_char (c : Char) (pieces : List Piece) :
    pieces? (.char c :: pieces) = (pieces? pieces).map (c :: ·) := by
  rw [pieces?]
  cases pieces? pieces <;> rfl

/-- A control character is escaped by the four digits of its code unit. -/
theorem codeUnit?_control :
    ∀ n < 0x20, (Text.padLeft 4 (Text.hexadecimal n)).length = 4 ∧
      codeUnit? (Text.padLeft 4 (Text.hexadecimal n)) = some n := by
  decide +kernel

/-- What is a code unit has hexadecimal digits. -/
theorem digits_of_codeUnit? {ds : List Char} {n : ℕ} (h : codeUnit? ds = some n) :
    (∀ d ∈ ds, IsHexDigit d) ∧ natOfDigits 16 ds = n := by
  unfold codeUnit? at h
  split at h
  · rename_i hall
    refine ⟨fun d hd => ?_, Option.some.inj h⟩
    exact FieldLang.Number.isSome_digitIn?_iff.mp (List.all_eq_true.mp hall d hd)
  · cases h

/-- A character as a string literal has it: escaped by a letter, or by its code if it is one of the other
    control characters, or as it is. -/
theorem escapeChar_cases (c : Char) :
    (∃ e, (e, c) ∈ letters ∧ Text.escapeChar c = ['\\', e]) ∨
      (c.toNat < 0x20 ∧ Text.escapeChar c = Text.escapeCode c) ∨
      (¬ c.toNat < 0x20 ∧ c ≠ '\x22' ∧ c ≠ '\\' ∧ Text.escapeChar c = [c]) := by
  by_cases hletter : c = '\x22' ∨ c = '\\' ∨ c = '\n' ∨ c = '\r' ∨ c = '\t'
  · left
    rcases hletter with rfl | rfl | rfl | rfl | rfl
    all_goals exact ⟨_, by simp [letters], rfl⟩
  · right
    have hescape : Text.escapeChar c = if c.toNat < 0x20 then Text.escapeCode c else [c] := by
      simp only [not_or] at hletter
      simp [Text.escapeChar, hletter]
    by_cases hcontrol : c.toNat < 0x20
    · rw [if_pos hcontrol] at hescape
      exact .inl ⟨hcontrol, hescape⟩
    · rw [if_neg hcontrol] at hescape
      exact .inr ⟨hcontrol, by tauto, by tauto, hescape⟩

/-- A character as a string literal has it stands for that character. -/
theorem writesChar_escapeChar (c : Char) : WritesChar (Text.escapeChar c) c := by
  obtain ⟨e, he, hescape⟩ | ⟨hcontrol, hescape⟩ | ⟨hcontrol, hquote, hback, hescape⟩ :=
    escapeChar_cases c
  · rw [hescape]
    exact ⟨.char c, .letter he, pieces?_char c⟩
  · -- The code is no half of a surrogate pair.
    obtain ⟨hlength, hunit⟩ := codeUnit?_control c.toNat hcontrol
    obtain ⟨hdigits, hcode⟩ := digits_of_codeUnit? hunit
    have hpiece := PieceText.code hlength hdigits
    rw [hcode] at hpiece
    rw [hescape]
    refine ⟨.unit c.toNat, hpiece, fun pieces => ?_⟩
    have hhigh : isHighSurrogate c.toNat = false := by simp [isHighSurrogate]; omega
    have hlow : isLowSurrogate c.toNat = false := by simp [isLowSurrogate]; omega
    rw [pieces?.eq_def]
    simp only [hhigh, hlow, Bool.false_eq_true, if_false, Char.ofNat_toNat]
    cases pieces? pieces <;> rfl
  · rw [hescape]
    exact ⟨.char c, .plain hcontrol hquote hback, pieces?_char c⟩

/-- An escaped character stands for that character. -/
theorem writesChar_escape (c : Char) : WritesChar (escape c) c := by
  by_cases hletter : c = '\x08' ∨ c = '\x0c'
  · rcases hletter with rfl | rfl
    · exact ⟨_, .letter (show ('b', '\x08') ∈ letters by simp [letters]), pieces?_char _⟩
    · exact ⟨_, .letter (show ('f', '\x0c') ∈ letters by simp [letters]), pieces?_char _⟩
  · rw [not_or] at hletter
    rw [escape, if_neg hletter.1, if_neg hletter.2]
    exact writesChar_escapeChar c

end Characters

section Styles

theorem blanks_nil : Blanks [] := by
  simp [Blanks]

/-- How a writer escapes the characters of a string, and what it leaves after commas and colons. -/
structure Style where
  escape : Char → List Char
  gap : List Char
  writesChar : ∀ c, WritesChar (escape c) c
  blanks : Blanks gap

/-- Without blanks, and with a letter for every control character that has one. -/
def compact : Style where
  escape := escape
  gap := []
  writesChar := writesChar_escape
  blanks := blanks_nil

/-- With a blank after every comma and colon, and characters as in string literals. -/
def spaced : Style where
  escape := Text.escapeChar
  gap := [' ']
  writesChar := writesChar_escapeChar
  blanks := by simp [Blanks]

namespace Style

variable (style : Style)

/-- The text of a string. -/
def string (s : String) : List Char :=
  '\x22' :: (s.toList.flatMap style.escape ++ ['\x22'])

/-- Texts separated by commas. -/
def separated (texts : List (List Char)) : List Char :=
  (',' :: style.gap).intercalate texts

/-- The text of an array with the texts of its elements. -/
def array (texts : List (List Char)) : List Char :=
  '[' :: (style.separated texts ++ [']'])

/-- The text of a member with the text of its content. -/
def member (key : String) (content : List Char) : List Char :=
  style.string key ++ ':' :: (style.gap ++ content)

/-- The text of an object with the texts of its members. -/
def object (texts : List (List Char)) : List Char :=
  '\x7b' :: (style.separated texts ++ ['\x7d'])

theorem separated_singleton (text : List Char) : style.separated [text] = text :=
  List.intercalate_singleton

theorem separated_cons_cons (text next : List Char) (texts : List (List Char)) :
    style.separated (text :: next :: texts) =
      text ++ ',' :: (style.gap ++ style.separated (next :: texts)) := by
  rw [separated, List.intercalate_cons_cons, List.append_assoc]
  rfl

end Style

variable (style : Style)

/-- The characters of a text are escaped as pieces that stand for that text. -/
theorem exists_pieces (s : List Char) :
    ∃ texts pieces, List.Forall₂ PieceText texts pieces ∧ texts.flatten = s.flatMap style.escape ∧
      pieces? pieces = some s := by
  induction s with
  | nil => exact ⟨[], [], .nil, rfl, rfl⟩
  | cons c s ih =>
      obtain ⟨texts, pieces, hpieces, hflatten, hstands⟩ := ih
      obtain ⟨piece, hpiece, hchar⟩ := style.writesChar c
      refine ⟨style.escape c :: texts, piece :: pieces, .cons hpiece hpieces, ?_, ?_⟩
      · rw [List.flatten_cons, hflatten, List.flatMap_cons]
      · rw [hchar, hstands]
        rfl

/-- A text in quotes is a string, which stands for that text. -/
theorem exists_stringText (s : String) :
    ∃ pieces, StringText (style.string s) pieces ∧ text? pieces = some s := by
  obtain ⟨texts, pieces, hpieces, hflatten, hstands⟩ := exists_pieces style s.toList
  refine ⟨pieces, ?_, ?_⟩
  · rw [Style.string, ← hflatten]
    exact .intro hpieces
  · rw [text?, hstands, Option.map_some, String.ofList_toList]

/-- A text may stand without blanks. -/
theorem Denotes.of_valueText {cs : List Char} {d : Document} (h : ValueText cs d) : Denotes cs d := by
  have hdenotes := Denotes.intro blanks_nil h blanks_nil
  rwa [List.nil_append, List.append_nil] at hdenotes

section Gaps

variable {gap cs : List Char} (hgap : Blanks gap)
include hgap

theorem Denotes.after_gap {d : Document} (h : Denotes cs d) : Denotes (gap ++ cs) d := by
  obtain ⟨hbefore, hvalue, hafter⟩ := h
  rw [← List.append_assoc]
  exact .intro (List.forall_mem_append.mpr ⟨hgap, hbefore⟩) hvalue hafter

theorem MemberText.after_gap {m : List Piece × Document} (h : MemberText cs m) :
    MemberText (gap ++ cs) m := by
  obtain ⟨hbefore, hkey, hafter, hcontent⟩ := h
  rw [← List.append_assoc]
  exact .intro (List.forall_mem_append.mpr ⟨hgap, hbefore⟩) hkey hafter hcontent

omit hgap in
/-- What may stand in front of the first text may stand in front of all of them. -/
theorem Separated.after_gap {α : Type} {p : List Char → α → Prop}
    (hp : ∀ cs a, p cs a → p (gap ++ cs) a) {as : List α} (h : Separated p cs as) :
    Separated p (gap ++ cs) as := by
  cases h with
  | one h => exact .one (hp _ _ h)
  | cons h hmore =>
      rw [← List.append_assoc]
      exact .cons (hp _ _ h) hmore

end Gaps

/-- Texts of a kind that may have blanks in front, separated as in a style, are separated by commas. -/
theorem separated_of_style {α : Type} {p : List Char → α → Prop}
    (hp : ∀ cs a, p cs a → p (style.gap ++ cs) a) {texts : List (List Char)} {as : List α}
    (h : List.Forall₂ p texts as) (hne : texts ≠ []) : Separated p (style.separated texts) as := by
  induction h with
  | nil => exact absurd rfl hne
  | @cons text a texts as ha has ih =>
      cases has with
      | nil =>
          rw [style.separated_singleton]
          exact .one ha
      | cons ha' has' =>
          -- The gap after the comma belongs to the text that follows it.
          rw [style.separated_cons_cons]
          exact .cons ha ((ih (List.cons_ne_nil _ _)).after_gap hp)

/-- Texts in brackets write the array of what they write. -/
theorem Denotes.array {texts : List (List Char)} {ds : List Document}
    (h : List.Forall₂ Denotes texts ds) : Denotes (style.array texts) (.array ds) := by
  cases h with
  | nil => exact Denotes.of_valueText (.noElements blanks_nil)
  | cons hd hds =>
      refine Denotes.of_valueText (.elements ?_)
      exact separated_of_style style (fun _ _ => .after_gap style.blanks) (.cons hd hds)
        (List.cons_ne_nil _ _)

/-- A key in quotes, a colon and a text write a member. -/
theorem exists_memberText (key : String) {content : List Char} {d : Document}
    (h : Denotes content d) :
    ∃ pieces, text? pieces = some key ∧ MemberText (style.member key content) (pieces, d) := by
  obtain ⟨pieces, hkey, htext⟩ := exists_stringText style key
  exact ⟨pieces, htext, .intro blanks_nil hkey blanks_nil (h.after_gap style.blanks)⟩

/-- Texts of members in braces write the object with those members. -/
theorem Denotes.object {texts : List (List Char)} {ms : List (List Piece × Document)}
    (h : List.Forall₂ MemberText texts ms) : Denotes (style.object texts) (.object ms) := by
  cases h with
  | nil => exact Denotes.of_valueText (.noMembers blanks_nil)
  | cons hm hms =>
      refine Denotes.of_valueText (.members ?_)
      exact separated_of_style style (fun _ _ => .after_gap style.blanks) (.cons hm hms)
        (List.cons_ne_nil _ _)

end Styles

section Compact

theorem toList_quote (s : String) : (quote s).toList = compact.string s := by
  simp [quote, Style.string, compact]

theorem exists_denotes_quote (s : String) :
    ∃ pieces, Denotes (quote s).toList (.string pieces) ∧ text? pieces = some s := by
  obtain ⟨pieces, hstring, htext⟩ := exists_stringText compact s
  rw [toList_quote]
  exact ⟨pieces, Denotes.of_valueText (.string hstring), htext⟩

theorem toList_member (key content : String) :
    (quote key ++ ":" ++ content).toList = compact.member key content.toList := by
  simp [toList_quote, Style.member, compact]

end Compact

end FieldLang.Json

import FieldLang.Builtin.Apply
import FieldLang.Proofs.Flattening

/-!
# Searching Texts

Six functions look for a text in another, and they are written separately: a search from the front, a
search from the back, two tests of the ends, a test for an occurrence anywhere, and the part between two
positions. Here all of them are explained by one notion, the positions at which a text occurs. The two
searches answer with the least and the greatest of these positions, the tests ask whether there is one,
or one at an end, and the part of a text that starts at such a position is the text that was looked for.

The empty text occurs at every position, also behind the last character, and a text that is longer than
the other occurs nowhere. Neither is a case of its own below.

A position is given as a number and returned as a number. What is said of the numbers that are returned
holds for texts of any length, also for those whose positions are not doubles any more.

## Main definitions

* `OccursAt`, `occurrences`: The positions at which a text occurs.
* `Answers`: A search finds the first or the last position that there is, or none.
* `Position.clamped`: The position that a number gives.
* `Position.number`: The number that an answer is returned as.

## Theorems

* `answers_firstFrom`, `answers_lastFrom`: What one search finds in the rest of a text.
* `occursIn_eq_isSome`: An occurrence anywhere is one that the search finds.
* `isPrefixOf_iff`, `isSuffixOf_iff`: Occurrences at the ends.
* `Position.absolute_eq`: How the position to start from is read.
* `Position.slice_of_occursAt`: The part of a text at an occurrence.
* `Strings.searches_agree`: The built-in functions.
-/

namespace FieldLang

namespace Text

variable {needle hay : List Char}

/-- A text occurs in another behind as many characters as the position says. -/
def OccursAt (needle hay : List Char) (position : Nat) : Prop :=
  ∃ before after, hay = before ++ (needle ++ after) ∧ before.length = position

/-- A search finds the extreme one of its positions, and nothing if it has none. -/
def Answers (extreme : Set Nat → Nat → Prop) (positions : Set Nat) : Option Nat → Prop
  | some position => extreme positions position
  | none => positions = ∅

/-- The positions from one on at which a text occurs. -/
def occurrences (needle hay : List Char) (start : Nat) : Set Nat :=
  {position | OccursAt needle hay position ∧ start ≤ position}

section Occurrences

/-- A text occurs where the rest of the other starts with it. -/
theorem occursAt_append_iff {before cs : List Char} :
    OccursAt needle (before ++ cs) before.length ↔ needle.isPrefixOf cs = true := by
  rw [List.isPrefixOf_iff_prefix]
  constructor
  · rintro ⟨before', after, heq, hlength⟩
    exact ⟨after, (List.append_inj heq hlength.symm).2.symm⟩
  · rintro ⟨after, rfl⟩
    exact ⟨before, after, rfl, rfl⟩

theorem OccursAt.length_le {position : Nat} (h : OccursAt needle hay position) :
    position + needle.length ≤ hay.length := by
  obtain ⟨before, after, rfl, rfl⟩ := h
  simp only [List.length_append]
  omega

/-- Behind the last character only the empty text occurs. -/
theorem occursAt_length_iff {before : List Char} :
    OccursAt needle (before ++ []) before.length ↔ needle.isEmpty = true := by
  rw [occursAt_append_iff, List.isPrefixOf_iff_prefix, List.prefix_nil, List.isEmpty_iff]

/-- From a position on a text occurs there or behind. -/
theorem mem_occurrences_iff {start position : Nat} :
    position ∈ occurrences needle hay start ↔
      position = start ∧ OccursAt needle hay start ∨ position ∈ occurrences needle hay (start + 1) := by
  constructor
  · rintro ⟨hposition, hle⟩
    obtain rfl | hlt := hle.eq_or_lt
    · exact .inl ⟨rfl, hposition⟩
    · exact .inr ⟨hposition, hlt⟩
  · rintro (⟨rfl, hposition⟩ | ⟨hposition, hlt⟩)
    · exact ⟨hposition, le_rfl⟩
    · exact ⟨hposition, (Nat.le_succ start).trans hlt⟩

/-- Where a text does not occur, a search goes on behind. -/
theorem occurrences_of_not_occursAt {start : Nat} (h : ¬ OccursAt needle hay start) :
    occurrences needle hay start = occurrences needle hay (start + 1) := by
  ext position
  rw [mem_occurrences_iff]
  exact or_iff_right fun hstart => h hstart.2

theorem isLeast_of_occursAt {start : Nat} (h : OccursAt needle hay start) :
    IsLeast (occurrences needle hay start) start :=
  ⟨⟨h, le_rfl⟩, fun _ hposition => hposition.2⟩

/-- If a text occurs nowhere behind a position, its last occurrence can be at that position only. -/
theorem isGreatest_of_occursAt {start : Nat} (h : OccursAt needle hay start)
    (hrest : occurrences needle hay (start + 1) = ∅) :
    IsGreatest (occurrences needle hay start) start := by
  refine ⟨⟨h, le_rfl⟩, fun position hposition => ?_⟩
  obtain ⟨rfl, -⟩ | hmem := mem_occurrences_iff.mp hposition
  · exact le_rfl
  · rw [hrest] at hmem
    exact hmem.elim

/-- Nothing occurs behind the end of a text. -/
theorem occurrences_behind (needle hay : List Char) : occurrences needle hay (hay.length + 1) = ∅ := by
  rw [Set.eq_empty_iff_forall_notMem]
  rintro position ⟨hposition, hle⟩
  have := hposition.length_le
  omega

end Occurrences

section Searches

/-- The search from the front finds the first occurrence in the rest of a text. -/
theorem answers_firstFrom (before cs : List Char) :
    Answers IsLeast (occurrences needle (before ++ cs) before.length)
      (firstFrom needle before.length cs) := by
  -- What has been passed is general in the induction, as it grows by one character at a time.
  induction cs generalizing before with
  | nil =>
      have hend := @occursAt_length_iff needle before
      rw [firstFrom]
      split
      · rename_i hempty
        exact isLeast_of_occursAt (hend.mpr hempty)
      · rename_i hne
        have hbehind := occurrences_behind needle (before ++ [])
        rw [List.length_append, List.length_nil, Nat.add_zero] at hbehind
        exact (occurrences_of_not_occursAt (mt hend.mp hne)).trans hbehind
  | cons c cs ih =>
      have hhere := @occursAt_append_iff needle before (c :: cs)
      rw [firstFrom]
      split
      · rename_i hprefix
        exact isLeast_of_occursAt (hhere.mpr hprefix)
      · rename_i hprefix
        rw [occurrences_of_not_occursAt (mt hhere.mp hprefix)]
        simpa using ih (before ++ [c])

/-- The search from the back finds the last occurrence in the rest of a text. -/
theorem answers_lastFrom (before cs : List Char) :
    Answers IsGreatest (occurrences needle (before ++ cs) before.length)
      (lastFrom needle before.length cs) := by
  -- The search goes to the end first, so the rest answers before this position does.
  induction cs generalizing before with
  | nil =>
      have hend := @occursAt_length_iff needle before
      have hbehind := occurrences_behind needle (before ++ [])
      rw [List.length_append, List.length_nil, Nat.add_zero] at hbehind
      rw [lastFrom]
      split
      · rename_i hempty
        exact isGreatest_of_occursAt (hend.mpr hempty) hbehind
      · rename_i hne
        exact (occurrences_of_not_occursAt (mt hend.mp hne)).trans hbehind
  | cons c cs ih =>
      have hhere := @occursAt_append_iff needle before (c :: cs)
      have hrest : Answers IsGreatest (occurrences needle (before ++ c :: cs) (before.length + 1))
          (lastFrom needle (before.length + 1) cs) := by
        simpa using ih (before ++ [c])
      rw [lastFrom]
      cases hfound : lastFrom needle (before.length + 1) cs with
      | some position =>
          -- What occurs behind is behind what occurs here.
          rw [hfound] at hrest
          refine ⟨mem_occurrences_iff.mpr (.inr hrest.1), fun other hother => ?_⟩
          obtain ⟨rfl, -⟩ | hmem := mem_occurrences_iff.mp hother
          · exact (Nat.le_succ _).trans hrest.1.2
          · exact hrest.2 hmem
      | none =>
          rw [hfound] at hrest
          rw [Option.none_or]
          split
          · rename_i hprefix
            exact isGreatest_of_occursAt (hhere.mpr hprefix) hrest
          · rename_i hprefix
            exact (occurrences_of_not_occursAt (mt hhere.mp hprefix)).trans hrest

theorem answers_first? {start : Nat} (h : start ≤ hay.length) :
    Answers IsLeast (occurrences needle hay start) (first? needle hay start) := by
  have hfrom := @answers_firstFrom needle (hay.take start) (hay.drop start)
  rwa [List.take_append_drop, List.length_take, Nat.min_eq_left h] at hfrom

theorem answers_last? : Answers IsGreatest (occurrences needle hay 0) (last? needle hay) :=
  @answers_lastFrom needle [] hay

/-- A text occurs in another if the search from the front finds it. -/
theorem occursIn_eq_isSome (position : Nat) :
    occursIn needle hay = (firstFrom needle position hay).isSome := by
  induction hay generalizing position with
  | nil => cases hempty : needle.isEmpty <;> simp [occursIn, firstFrom, hempty]
  | cons c cs ih =>
      rw [occursIn, firstFrom, ih (position + 1)]
      cases hprefix : needle.isPrefixOf (c :: cs) <;> simp

end Searches

section Answers

variable {positions : Set Nat} {answer : Option Nat} {position : Nat}

/-- A search from the front answers with the least position, and with no other. -/
theorem Answers.eq_some_iff_isLeast (h : Answers IsLeast positions answer) :
    answer = some position ↔ IsLeast positions position := by
  cases answer with
  | some found =>
      rw [Option.some.injEq]
      exact ⟨fun heq => heq ▸ h, fun hleast => IsLeast.unique h hleast⟩
  | none => exact iff_of_false nofun fun hleast => (h ▸ hleast.1 : position ∈ (∅ : Set Nat))

/-- A search from the back answers with the greatest position, and with no other. -/
theorem Answers.eq_some_iff_isGreatest (h : Answers IsGreatest positions answer) :
    answer = some position ↔ IsGreatest positions position := by
  cases answer with
  | some found =>
      rw [Option.some.injEq]
      exact ⟨fun heq => heq ▸ h, fun hgreatest => IsGreatest.unique h hgreatest⟩
  | none => exact iff_of_false nofun fun hgreatest => (h ▸ hgreatest.1 : position ∈ (∅ : Set Nat))

/-- A search finds a position if there is one. -/
theorem Answers.isSome_iff {extreme : Set Nat → Nat → Prop}
    (hextreme : ∀ p, extreme positions p → p ∈ positions) (h : Answers extreme positions answer) :
    answer.isSome = true ↔ positions.Nonempty := by
  cases answer with
  | some found => exact iff_of_true rfl ⟨found, hextreme found h⟩
  | none => exact iff_of_false nofun (Set.not_nonempty_iff_eq_empty.mpr h)

end Answers

section Ends

/-- A text starts another if it first occurs at the start. -/
theorem isPrefixOf_iff : needle.isPrefixOf hay = true ↔ first? needle hay 0 = some 0 := by
  rw [(answers_first? (Nat.zero_le _)).eq_some_iff_isLeast, ← @occursAt_append_iff needle [] hay]
  exact ⟨fun h => isLeast_of_occursAt h, fun h => h.1.1⟩

/-- A text ends another if it is not longer and last occurs where just its length is left. -/
theorem isSuffixOf_iff :
    needle.isSuffixOf hay = true ↔
      needle.length ≤ hay.length ∧ last? needle hay = some (hay.length - needle.length) := by
  rw [answers_last?.eq_some_iff_isGreatest, List.isSuffixOf_iff_suffix]
  constructor
  · rintro ⟨before, rfl⟩
    have hlength : (before ++ needle).length - needle.length = before.length := by
      rw [List.length_append, Nat.add_sub_cancel]
    refine ⟨by simp, ?_⟩
    rw [hlength]
    -- No occurrence is further to the right, as there would not be enough characters left.
    refine ⟨⟨⟨before, [], by rw [List.append_nil], rfl⟩, Nat.zero_le _⟩, fun position hposition => ?_⟩
    have := hposition.1.length_le
    rw [List.length_append] at this
    omega
  · rintro ⟨hle, hgreatest⟩
    obtain ⟨before, after, hhay, hlength⟩ := hgreatest.1.1
    -- Nothing is left behind the occurrence.
    obtain rfl : after = [] := by
      rw [← List.length_eq_zero_iff]
      rw [hhay] at hlength hle
      simp only [List.length_append] at hlength hle
      omega
    rw [List.append_nil] at hhay
    exact ⟨before, hhay.symm⟩

end Ends

end Text

namespace Position

open Float.Model (UnpackedFloat)
open Number (StandsFor)
open Text (OccursAt)

/-- The position that a number gives in a list: its whole part, between zero and the length. What is not
    a number gives zero. -/
def clamped (length : Nat) (x : Float) : Nat :=
  if x == Number.infinity then length else min length ⌊Number.value x⌋₊

/-- The number of a position that may not exist. -/
def number : Option Nat → Float
  | some position => Float.ofNat position
  | none => -1

/-- A position counted from the front is read as the number that it is given by, clamped to the list. -/
theorem absolute_eq (length : Nat) (v : Value) : absolute length v = clamped length v.toNumber := by
  unfold absolute clamped Number.toInt
  generalize v.toNumber = x
  by_cases hfinite : x.isFinite = true
  · rw [if_neg (Number.beq_infinity_of_isFinite hfinite), Number.toInt_of_isFinite hfinite,
      Number.truncated_eq hfinite, ← Int.floor_toNat]
    split
    · omega
    · rename_i hneg
      -- A negative number has a negative whole part, which counts as zero in both readings.
      have hfloor : ⌊Number.value x⌋ < 0 := Int.floor_lt_zero.mpr (not_le.mp hneg)
      have hceil : ⌈Number.value x⌉ ≤ 0 := Int.ceil_nonpos.mpr (not_le.mp hneg).le
      omega
  · have hinfinity := @Number.beq_infinity x
    have hlimit := Number.limit_pos
    rw [Bool.not_eq_true] at hfinite
    unfold Number.value
    obtain hu | ⟨sign, hu⟩ := Number.unpack_of_not_isFinite hfinite
    · rw [if_neg (by simp [hinfinity, hu]), hu]
      simp [UnpackedFloat.toInt, Number.exactValue]
    · cases sign with
      | positive =>
          rw [if_pos (hinfinity.mpr hu), hu]
          simp [UnpackedFloat.toInt]
      | negative =>
          have hvalue : Number.exactValue (.infinity .negative) ≤ 0 := by
            simp [Number.exactValue, UnpackedFloat.Sign.apply, hlimit.le]
          rw [if_neg (by simp [hinfinity, hu]), hu, Nat.floor_of_nonpos hvalue]
          simp [UnpackedFloat.toInt]

/-- Without a position a search starts at the front. -/
theorem absolute_undefined (length : Nat) : absolute length .undefined = 0 := by
  have hzero : Number.nan.toModel.unpack.toInt 0 length = 0 := rfl
  rw [absolute, Value.toNumber, Number.toInt, hzero]
  omega

/-- A position that exists in a list is what it is given as. -/
theorem relative_of_standsFor {length position : Nat} {v : Value} (hle : position ≤ length)
    (hv : StandsFor v.toNumber position) : relative length v = position := by
  unfold relative Number.toInt
  rw [hv.toInt_eq]
  simp only
  split <;> omega

/-- The part of a text at an occurrence of another is that other text. -/
theorem slice_of_occursAt {needle hay : List Char} {position : Nat} (h : OccursAt needle hay position)
    {start stop : Value} (hstart : StandsFor start.toNumber position)
    (hstop : StandsFor stop.toNumber (position + needle.length : Nat)) :
    slice hay start stop = needle := by
  have hlength := h.length_le
  have hdefined : stop.isUndefined = false := by
    cases stop with
    | undefined => exact nomatch hstop.isNaN
    | _ => rfl
  rw [slice, hdefined, if_neg nofun, relative_of_standsFor (by omega) hstart,
    relative_of_standsFor hlength hstop]
  obtain ⟨before, after, rfl, rfl⟩ := h
  rw [between, ← List.append_assoc, ← List.length_append, List.take_left, List.drop_left]

/-- The answer of a search as a value. -/
theorem found_eq (answer : Option Nat) : found answer = .number (number answer) := by
  cases answer <;> rfl

/-- The number of an answer is not negative if there is one. -/
theorem zero_le_number_iff {answer : Option Nat} : 0 ≤ number answer ↔ answer.isSome = true := by
  cases answer with
  | some position => exact iff_of_true (Number.zero_le_ofNat position) rfl
  | none => exact iff_of_false (by decide +kernel) nofun

/-- The number of an answer is zero if the answer is the first position. -/
theorem number_beq_zero_iff {answer : Option Nat} : (number answer == 0) = true ↔ answer = some 0 := by
  cases answer with
  | some position => rw [number, Number.ofNat_beq_zero_iff, Option.some.injEq]
  | none => exact iff_of_false (by decide +kernel) nofun

end Position

namespace Strings

open Builtin (apply)
open Number (StandsFor)
open Position (clamped number)
open Text (Answers OccursAt occurrences)

section Apply

variable {v : Value} (hv : v.tag ≠ .array) (needle start stop : Value)
include hv

theorem apply_indexOf : apply .indexOf [v, needle, start] = .ok (indexOf v needle start) := by
  cases v with
  | array items => exact absurd rfl hv
  | _ => rfl

theorem apply_lastIndexOf : apply .lastIndexOf [v, needle] = .ok (lastIndexOf v needle) := by
  cases v with
  | array items => exact absurd rfl hv
  | _ => rfl

theorem apply_includes :
    apply .includes [v, needle] = .ok (.bool (Text.occursIn (chars needle) (chars v))) := by
  cases v with
  | array items => exact absurd rfl hv
  | _ => rfl

theorem apply_slice :
    apply .slice [v, start, stop] = .ok (.ofChars (Position.slice (chars v) start stop)) := by
  cases v with
  | array items => exact absurd rfl hv
  | _ => rfl

end Apply

/-- A search from a given position on answers with the first occurrence not before it. -/
theorem exists_indexOf (v needle start : Value) :
    ∃ answer, indexOf v needle start = .number (number answer) ∧
      Answers IsLeast
        (occurrences (chars needle) (chars v) (clamped (chars v).length start.toNumber)) answer := by
  have hle : clamped (chars v).length start.toNumber ≤ (chars v).length := by
    unfold clamped
    split
    · exact le_rfl
    · exact Nat.min_le_left ..
  refine ⟨_, ?_, Text.answers_first? hle⟩
  rw [indexOf, Position.absolute_eq, Position.found_eq]

/-- The searches in the text of a value that is not an array agree. One from the front answers with the
    least position, not before the one that it is given, at which the text occurs that it looks for, and
    one from the back with the greatest position. There is an occurrence just if the answers are not
    negative, one at the start if the answer is zero, and one at the end if no more than the text is left
    behind the last one. And the part of the text at each occurrence is what was looked for. -/
theorem searches_agree (v needle start : Value) (hv : v.tag ≠ .array) :
    ∃ later first last : Option Nat,
      apply .indexOf [v, needle, start] = .ok (.number (number later)) ∧
        Answers IsLeast
          (occurrences (chars needle) (chars v) (clamped (chars v).length start.toNumber)) later ∧
      apply .indexOf [v, needle] = .ok (.number (number first)) ∧
        Answers IsLeast (occurrences (chars needle) (chars v) 0) first ∧
      apply .lastIndexOf [v, needle] = .ok (.number (number last)) ∧
        Answers IsGreatest (occurrences (chars needle) (chars v) 0) last ∧
      (∃ occurs, apply .includes [v, needle] = .ok (.bool occurs) ∧
        (occurs = true ↔ 0 ≤ number first) ∧ (occurs = true ↔ 0 ≤ number last)) ∧
      (∃ starts, apply .startsWith [v, needle] = .ok (.bool starts) ∧
        (starts = true ↔ (number first == 0) = true)) ∧
      (∃ ends, apply .endsWith [v, needle] = .ok (.bool ends) ∧
        (ends = true ↔ (chars needle).length ≤ (chars v).length ∧
          last = some ((chars v).length - (chars needle).length))) ∧
      ∀ position, OccursAt (chars needle) (chars v) position → ∀ begin stop : Value,
        StandsFor begin.toNumber position →
        StandsFor stop.toNumber (position + (chars needle).length : Nat) →
        apply .slice [v, begin, stop] = .ok (.string needle.text) := by
  obtain ⟨later, hlater, hleast⟩ := exists_indexOf v needle start
  have hfirst : indexOf v needle .undefined =
      .number (number (Text.first? (chars needle) (chars v) 0)) := by
    rw [indexOf, Position.absolute_undefined, Position.found_eq]
  have hanswersFirst := @Text.answers_first? (chars needle) (chars v) 0 (Nat.zero_le _)
  have hanswersLast := @Text.answers_last? (chars needle) (chars v)
  refine ⟨later, Text.first? (chars needle) (chars v) 0, Text.last? (chars needle) (chars v),
    ?_, hleast, ?_, hanswersFirst, ?_, hanswersLast, ⟨_, apply_includes hv needle, ?_, ?_⟩,
    ⟨_, rfl, ?_⟩, ⟨_, rfl, Text.isSuffixOf_iff⟩, ?_⟩
  · rw [apply_indexOf hv, hlater]
  · exact (apply_indexOf hv needle .undefined).trans (congrArg _ hfirst)
  · rw [apply_lastIndexOf hv, lastIndexOf, Position.found_eq]
  · rw [Position.zero_le_number_iff, Text.occursIn_eq_isSome 0]
    rfl
  · -- Both searches find something just if there is an occurrence.
    rw [Position.zero_le_number_iff, hanswersLast.isSome_iff fun p h => h.1,
      ← hanswersFirst.isSome_iff fun p h => h.1, Text.occursIn_eq_isSome 0]
    rfl
  · rw [Position.number_beq_zero_iff]
    exact Text.isPrefixOf_iff
  · intro position hoccurs begin stop hbegin hstop
    rw [apply_slice hv, Position.slice_of_occursAt hoccurs hbegin hstop]
    exact congrArg (fun s => Except.ok (Value.string s)) (String.ofList_toList)

/-- In a text in which a word occurs twice and overlaps itself all functions know of both places. -/
theorem overlapping_word_searched :
    (Value.string "banana").tag ≠ .array ∧
      apply .indexOf [.string "banana", .string "ana", .number 2] = .ok (.number 3) ∧
      apply .indexOf [.string "banana", .string "ana"] = .ok (.number 1) ∧
      apply .lastIndexOf [.string "banana", .string "ana"] = .ok (.number 3) ∧
      apply .includes [.string "banana", .string "ana"] = .ok (.bool true) ∧
      apply .startsWith [.string "banana", .string "ana"] = .ok (.bool false) ∧
      apply .endsWith [.string "banana", .string "ana"] = .ok (.bool true) ∧
      apply .slice [.string "banana", .number 3, .number 6] = .ok (.string "ana") := by
  have htag : (Value.string "banana").tag ≠ .array := by decide
  have hstart : clamped (chars (.string "banana")).length (Value.number 2).toNumber = 2 := by
    rw [← Position.absolute_eq]
    decide +kernel
  obtain ⟨later, first, last, hindex, hlater, hfront, hfirst, hback, hlast, ⟨occurs, hincludes, hoccurs, -⟩,
    ⟨starts, hstarts, hzero⟩, ⟨ends, hends, hend⟩, hslice⟩ :=
      searches_agree (.string "banana") (.string "ana") (.number 2) htag
  rw [hstart] at hlater
  -- The places of the word are known, and a search has no other answer than the extreme one.
  have hbehind : IsLeast (occurrences (chars (.string "ana")) (chars (.string "banana")) 2) 3 :=
    @Text.answers_first? (chars (.string "ana")) (chars (.string "banana")) 2 (by decide)
  have hleast : IsLeast (occurrences (chars (.string "ana")) (chars (.string "banana")) 0) 1 :=
    @Text.answers_first? (chars (.string "ana")) (chars (.string "banana")) 0 (Nat.zero_le _)
  have hgreatest : IsGreatest (occurrences (chars (.string "ana")) (chars (.string "banana")) 0) 3 :=
    @Text.answers_last? (chars (.string "ana")) (chars (.string "banana"))
  obtain rfl := hlater.eq_some_iff_isLeast.mpr hbehind
  obtain rfl := hfirst.eq_some_iff_isLeast.mpr hleast
  obtain rfl := hlast.eq_some_iff_isGreatest.mpr hgreatest
  obtain rfl : occurs = true := hoccurs.mpr (Number.zero_le_ofNat 1)
  obtain rfl : starts = false := Bool.eq_false_iff.mpr fun h => absurd (hzero.mp h) (by decide +kernel)
  obtain rfl : ends = true := hend.mpr ⟨by decide, rfl⟩
  refine ⟨htag, hindex, hfront, hback, hincludes, hstarts, hends, ?_⟩
  refine hslice 3 ⟨['b', 'a', 'n'], [], rfl, rfl⟩ (.number 3) (.number 6) ?_ ?_
  · exact Number.standsFor_ofNat (n := 3) (by decide)
  · exact Number.standsFor_ofNat (n := 6) (by decide)

end Strings

end FieldLang

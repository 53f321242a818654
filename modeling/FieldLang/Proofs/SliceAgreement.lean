import FieldLang.Builtin.Apply
import FieldLang.Pipeline.Run
import FieldLang.Proofs.NumberValues
import FieldLang.Proofs.Slicing

/-!
# Slices of Arrays, of Texts and in Pipelines

A part of a list can be taken by a built-in function and by a stage of a pipeline. The two agree, and the
part of a text is that of the list of its characters.

They come to their bounds in different ways. The function computes with doubles: it truncates a bound,
adds the length if the result is negative, moves it to the ends of the list and converts what it has to
a position. The stage computes with words of 64 bits: it truncates a bound to a word, an infinite one to
the end of the range and what is not a number to its lower end, and goes on in integers from there.

As long as the length is an integer of at most 53 bits, both are what truncating to an integer and
clamping gives. The sum of the length and a negative bound is exact if it is positive, and otherwise
the position is zero, however the sum was rounded. Words end further out than any list, so that a bound
which does not fit into one has been moved to the end of the list anyway.

## Main definitions

* `Position.boundary`: A bound that is a number or missing, as a value.
* `Position.onDoubles`, `Position.sliceOnDoubles`: A position, and a part of a list, computed with doubles.
* `Bounds.word`: A bound of a stage computed with words.

## Theorems

* `onDoubles_eq`: Computed with doubles, a position is the same.
* `toInt_word`: Computed with words, a bound is the same.
* `take_eq_slice`: A stage takes what the function takes.
* `slices_agree`: All ways to a part of a list agree.
-/

namespace FieldLang.Position

open Float.Model
open Number (StandsFor standsFor_zero)

/-- A bound that is a number or missing, as a value. -/
def boundary (bound : Option Float) : Value :=
  bound.elim .undefined .number

/-- A position in a list, computed with doubles from a number without a fraction. -/
def onDoubles (length : Nat) (n : Float) : Nat :=
  let size := Float.ofNat length
  if n < 0 then
    let sum := size + n
    (if 0 < sum then sum else 0).toUInt64.toNat
  else (if n < size then n else size).toUInt64.toNat

/-- The part of a list between two bounds, computed with doubles. -/
def sliceOnDoubles {α : Type} (items : List α) (start stop : Option Float) : List α :=
  let first := onDoubles items.length (boundary start).toInteger
  let last := stop.elim items.length fun n => onDoubles items.length (Value.number n).toInteger
  if last ≤ first then [] else between first last items

section Doubles

variable {length : Nat} (hlength : length < 2 ^ 53)

/-- An integer that fits into a word is converted to it. -/
theorem toUInt64_eq {x : Float} {n : Nat} (hx : StandsFor x n) (hn : n < 2 ^ 64) :
    x.toUInt64.toNat = n := by
  show (UInt64.ofNatClamp (x.toModel.unpack.toInt 0 _).toNat).toNat = n
  rw [hx.toInt_eq, Int.toNat_natCast, UInt64.ofNatClamp_eq_ofNat n hn]
  exact UInt64.toNat_ofNat_of_lt hn

theorem toUInt64_zero : (0 : Float).toUInt64.toNat = 0 :=
  toUInt64_eq (n := 0) standsFor_zero (by decide)

include hlength

/-- An integer is moved to the ends of the list, from its end if it is negative. -/
theorem onDoubles_of_standsFor {x : Float} {k : Int} (hx : StandsFor x k) :
    (onDoubles length x : Int) = if k < 0 then max (length + k) 0 else min k length := by
  have hsize := Number.standsFor_ofNat hlength.le
  unfold onDoubles
  simp only [hx.lt_iff standsFor_zero]
  by_cases hneg : k < 0
  · rw [if_pos hneg, if_pos hneg]
    by_cases hpos : 0 < length + k
    · -- The sum is exact, because it is less than the length.
      have hsum := hsize.add hx hpos.le (by omega)
      obtain ⟨n, hn⟩ := Int.eq_ofNat_of_zero_le hpos.le
      rw [hn] at hsum
      rw [if_pos ((standsFor_zero.lt_iff hsum).mpr (by omega)), toUInt64_eq hsum (by omega)]
      omega
    · rw [if_neg (hsize.not_pos_add hx (by omega)), toUInt64_zero]
      omega
  · rw [if_neg hneg, if_neg hneg]
    obtain ⟨n, rfl⟩ := Int.eq_ofNat_of_zero_le (not_lt.mp hneg)
    -- A position behind the end of the list is moved to the end.
    by_cases hlt : (n : Int) < length
    · rw [if_pos ((hx.lt_iff hsize).mpr hlt), toUInt64_eq hx (by omega)]
      omega
    · rw [if_neg (mt (hx.lt_iff hsize).mp hlt), toUInt64_eq hsize (by omega)]
      omega

/-- An infinity is moved to the end of the list that lies on its side. -/
theorem onDoubles_of_infinity {x : Float} {sign : UnpackedFloat.Sign}
    (hx : x.toModel.unpack = .infinity sign) :
    onDoubles length x = match sign with
      | .negative => 0
      | .positive => length := by
  have hsize := Number.standsFor_ofNat hlength.le
  have hbelow := standsFor_zero.infinity_lt_iff hx
  have habove := hsize.infinity_lt_iff hx
  unfold onDoubles
  cases sign with
  | negative =>
      -- The sum is the same infinity, and that is not positive.
      have hsum : ¬ 0 < Float.ofNat length + x := by
        rw [hsize.add_infinity hx]
        exact Number.not_pos_of_hasSign (Number.hasSign_unpack_pack rfl)
      simp only [hbelow, if_true, if_neg hsum, toUInt64_zero]
  | positive =>
      rw [if_neg (by rw [hbelow]; exact nofun), if_neg (by rw [habove]; exact nofun),
        toUInt64_eq hsize (by omega)]

omit hlength in
/-- A position is its integer moved to the ends of the list, from its end if it is negative. -/
theorem relative_eq {v : Value} {k : Int}
    (hk : v.toNumber.toModel.unpack.toInt (-length) length = k) :
    (relative length v : Int) = if k < 0 then max (length + k) 0 else min k length := by
  unfold relative Number.toInt
  dsimp only
  rw [hk]
  by_cases hneg : k < 0
  · rw [if_pos hneg]
    split <;> omega
  · rw [if_neg hneg]
    split <;> omega

/-- Computed with doubles, a position is the same. -/
theorem onDoubles_eq (v : Value) : onDoubles length v.toInteger = relative length v := by
  unfold Value.toInteger
  dsimp only
  -- What is not a number is truncated to zero, and only infinities have to be looked at apart.
  obtain ⟨-, hinteger, hx⟩ | ⟨sign, hu, hx⟩ := Number.truncate_cases v.toNumber
  · have hposition := onDoubles_of_standsFor hlength hx
    have hrelative := relative_eq (hinteger (-length) length)
    omega
  · rw [hx, onDoubles_of_infinity hlength hu]
    cases sign with
    | negative =>
        have hrelative := @relative_eq length v (-length) (by rw [hu]; rfl)
        show 0 = relative length v
        omega
    | positive =>
        have hrelative := @relative_eq length v length (by rw [hu]; rfl)
        show length = relative length v
        omega

end Doubles

end FieldLang.Position

namespace FieldLang.Bounds

open Number (standsFor_zero)
open Position (boundary relative relative_eq between sliceOnDoubles)

/-- A bound of a stage, computed with words. -/
def word (n : Float) : Int64 :=
  if n.isFinite then (Number.toIntegral .truncate n).toModel.toInt64
  else if 0 < n then Int64.maxValue
  else Int64.minValue

/-- The integer that a number which is a bound stands for. -/
theorem ofNumber_cases (n : Float) :
    (n.isFinite = true ∧
        ofNumber n = max Number.leastInt64 (min Number.greatestInt64 (Number.truncated n))) ∨
      (n.toModel.unpack = .notANumber ∧ ofNumber n = Number.leastInt64) ∨
      (n.toModel.unpack = .infinity .negative ∧ ofNumber n = Number.leastInt64) ∨
      (n.toModel.unpack = .infinity .positive ∧ ofNumber n = Number.greatestInt64) := by
  have hnan : n.isNaN = n.toModel.unpack.isNaN := rfl
  unfold ofNumber Number.toInt
  -- Clamping leaves a finite number alone but for its fraction, and sends all others to an end.
  by_cases hfinite : n.isFinite = true
  · left
    rw [Number.isNaN_of_isFinite hfinite, Number.toInt_of_isFinite hfinite]
    exact ⟨hfinite, rfl⟩
  · right
    rw [Bool.not_eq_true] at hfinite
    obtain hu | ⟨sign, hu⟩ := Number.unpack_of_not_isFinite hfinite
    · rw [hnan, hu]
      exact .inl ⟨rfl, rfl⟩
    · rw [hnan, hu]
      cases sign with
      | negative => exact .inr (.inl ⟨rfl, rfl⟩)
      | positive => exact .inr (.inr ⟨rfl, rfl⟩)

/-- Computed with words, a bound is the same. -/
theorem toInt_word (n : Float) : (word n).toInt = ofNumber n := by
  unfold word
  obtain ⟨hfinite, hn⟩ | ⟨hu, hn⟩ | ⟨hu, hn⟩ | ⟨hu, hn⟩ := ofNumber_cases n
  · rw [if_pos hfinite, hn]
    show (Int64.ofIntClamp ((Number.toIntegral .truncate n).toModel.unpack.toInt _ _)).toInt = _
    rw [(Number.standsFor_truncate hfinite).toInt_eq, toInt_clamp]
    rfl
  all_goals
    -- The other three are told apart by their sign, and what is not a number has none.
    have hfinite : ¬ n.isFinite = true := by
      show ¬ n.toModel.unpack.isFinite = true
      rw [hu]
      exact nofun
    rw [if_neg hfinite, hn]
  · have hpos : ¬ 0 < n := by
      rw [Number.lt_iff_compare, hu]
      exact nofun
    rw [if_neg hpos]
    rfl
  · rw [if_neg (by rw [standsFor_zero.lt_infinity_iff hu]; exact nofun)]
    rfl
  · rw [if_pos ((standsFor_zero.lt_infinity_iff hu).mpr rfl)]
    rfl

/-- A bound of a stage is moved to the position that it is for the function. -/
theorem forward_ofNumber {length : Nat} (hlength : length < 2 ^ 63) (n : Float) :
    forward length (ofNumber n) = relative length (.number n) := by
  have hleast : Number.leastInt64 = -2 ^ 63 := rfl
  have hgreatest : Number.greatestInt64 = 2 ^ 63 - 1 := rfl
  unfold forward
  -- The length is less than the bounds of words, so clamping to these first changes no position.
  obtain ⟨hfinite, hn⟩ | ⟨hu, hn⟩ | ⟨hu, hn⟩ | ⟨hu, hn⟩ := ofNumber_cases n
  · have hrelative := @relative_eq length (.number n) _
      (Number.toInt_of_isFinite hfinite (-length) length)
    rw [hn]
    omega
  · have hrelative := @relative_eq length (.number n) 0 (by rw [Value.toNumber, hu]; rfl)
    rw [hn]
    omega
  · have hrelative := @relative_eq length (.number n) (-length) (by rw [Value.toNumber, hu]; rfl)
    rw [hn]
    omega
  · have hrelative := @relative_eq length (.number n) length (by rw [Value.toNumber, hu]; rfl)
    rw [hn]
    omega

/-- One step after the other, a walk takes all that lies between its ends. -/
theorem elements_one {α : Type} (items : List α) {first : Int} (hfirst : 0 ≤ first) (limit : Int) :
    elements items first limit 1 = between first.toNat limit.toNat items := by
  have hwalk (count : Nat) : ((List.range count).filterMap fun (k : Nat) =>
      items[(first + k * 1).toNat]?) = (items.drop first.toNat).take count := by
    induction count with
    | zero => rfl
    | succ count ih =>
        have hposition : (first + count * 1).toNat = first.toNat + count := by omega
        rw [List.range_succ, List.filterMap_append, ih, List.take_add_one, List.getElem?_drop]
        simp only [List.filterMap_cons, List.filterMap_nil, hposition]
        cases items[first.toNat + count]? <;> rfl
  have hcount : count first limit 1 = limit.toNat - first.toNat := by
    simp only [count, Int.one_pos, if_true]
    omega
  rw [elements, hcount, hwalk, between, List.drop_take]

/-- The first position of a stage is that of the function. -/
theorem first_boundary {length : Nat} (hlength : length < 2 ^ 63) (start : Option Float)
    (stop : Option Int) :
    (Bounds.mk (start.map ofNumber) stop none).first length 1 = relative length (boundary start) := by
  cases start with
  | none =>
      have hrelative := @relative_eq length .undefined 0 rfl
      simp only [first, Option.map_none, Int.one_pos, if_true, boundary, Option.elim_none]
      omega
  | some n => exact forward_ofNumber hlength n

theorem limit_boundary {length : Nat} (hlength : length < 2 ^ 63) (start : Option Int)
    (stop : Option Float) :
    (Bounds.mk start (stop.map ofNumber) none).limit length 1 =
      (if (boundary stop).isUndefined then length else relative length (boundary stop) : Nat) := by
  cases stop with
  | none => rfl
  | some n => exact forward_ofNumber hlength n

/-- A stage takes what the function takes. -/
theorem take_eq_slice {α : Type} (items : List α) (hlength : items.length < 2 ^ 63)
    (start stop : Option Float) :
    take ⟨start.map ofNumber, stop.map ofNumber, none⟩ items =
      .ok (Position.slice items (boundary start) (boundary stop)) := by
  have hfirst := first_boundary hlength start (stop.map ofNumber)
  have hlimit := limit_boundary hlength (start.map ofNumber) stop
  show Except.ok (elements items
    ((Bounds.mk (start.map ofNumber) (stop.map ofNumber) none).first items.length 1)
    ((Bounds.mk (start.map ofNumber) (stop.map ofNumber) none).limit items.length 1) 1) = _
  rw [hfirst, hlimit, elements_one items (by omega)]
  rfl

/-- Computed with doubles, the part of a list is the same. -/
theorem sliceOnDoubles_eq {α : Type} (items : List α) (hlength : items.length < 2 ^ 53)
    (start stop : Option Float) :
    sliceOnDoubles items start stop = Position.slice items (boundary start) (boundary stop) := by
  unfold sliceOnDoubles Position.slice
  simp only [Position.onDoubles_eq hlength]
  have hlast : (stop.elim items.length fun n => relative items.length (.number n)) =
      if (boundary stop).isUndefined then items.length else relative items.length (boundary stop) := by
    cases stop <;> rfl
  rw [hlast]
  -- Bounds that have crossed leave nothing between them.
  generalize relative items.length (boundary start) = first
  generalize (if (boundary stop).isUndefined then items.length
    else relative items.length (boundary stop)) = last
  by_cases hcrossed : last ≤ first
  · rw [if_pos hcrossed, between, List.drop_eq_nil_of_le]
    rw [List.length_take]
    omega
  · rw [if_neg hcrossed]

/-- The number of a value is read by a stage as its bound. -/
theorem ofValue_boundary (name : String) (bound : Option Float) :
    ofValue name (boundary bound) = .ok (bound.map ofNumber) := by
  cases bound <;> rfl

/-- The bound that an expression gives to a stage, where its value is a number or missing. -/
theorem outcome_bound {context : Context} {scope : Scope} {e : Expr} {bound : Option Float}
    (h : (context.evaluate scope e).outcome = .ok (boundary bound)) (name : String) :
    (context.bound scope name (some e)).outcome = .ok (bound.map ofNumber) := by
  unfold Context.bound Traced.ofEval
  rw [Traced.outcome_bind, Traced.outcome_mapError, h]
  exact ofValue_boundary name bound

/-- Bounds computed with words are the bounds of the numbers. -/
theorem ofWords_word (start stop : Option Float) :
    ofWords (start.map word) (stop.map word) none =
      ⟨start.map ofNumber, stop.map ofNumber, none⟩ := by
  have hword : Int64.toInt ∘ word = ofNumber := funext toInt_word
  rw [ofWords, Option.map_map, Option.map_map, hword]
  rfl

/-- A stage with a start and an end takes the part of the list between them. -/
theorem outcome_runStage_slice {context : Context} {scope : Scope} {first last : Expr}
    {start stop : Option Float}
    (hfirst : (context.evaluate scope first).outcome = .ok (boundary start))
    (hlast : (context.evaluate scope last).outcome = .ok (boundary stop)) {items : List Value}
    (hlength : items.length < 2 ^ 63) :
    (context.runStage scope (.slice (some first) (some last) none) items).outcome =
      .ok (.array (Position.slice items (boundary start) (boundary stop))) := by
  have hstep : (context.bound scope "step" none).outcome = .ok none := rfl
  have htake := take_eq_slice items hlength start stop
  unfold Context.runStage
  simp only [Context.required, pure_bind, Traced.outcome_bind, outcome_bound hfirst,
    outcome_bound hlast, hstep, Traced.outcome_ofExcept]
  show (take ⟨start.map ofNumber, stop.map ofNumber, none⟩ items >>= fun part =>
    Except.ok (Value.array part)) = _
  rw [htake]
  rfl

/-- All ways to a part of a list agree, for bounds that are numbers or missing. The built-in function does
    the same on an array as on the characters of a text. If the length is an integer of at most 53 bits,
    computing with doubles comes to that part, and so do the stage of a pipeline whose bounds have these
    values and the loop over words. -/
theorem slices_agree (start stop : Option Float) :
    (∀ items, Builtin.slice.apply [.array items, boundary start, boundary stop] =
      .ok (.array (Position.slice items (boundary start) (boundary stop)))) ∧
    (∀ text, Builtin.slice.apply [.string text, boundary start, boundary stop] =
      .ok (.ofChars (Position.slice text.toList (boundary start) (boundary stop)))) ∧
    (∀ {α : Type} (items : List α), items.length < 2 ^ 53 →
      sliceOnDoubles items start stop = Position.slice items (boundary start) (boundary stop)) ∧
    ∀ items : List Value, items.length < 2 ^ 53 →
      (∀ (context : Context) (scope : Scope) (first last : Expr),
        (context.evaluate scope first).outcome = .ok (boundary start) →
        (context.evaluate scope last).outcome = .ok (boundary stop) →
        (context.runStage scope (.slice (some first) (some last) none) items).outcome =
          .ok (.array (Position.slice items (boundary start) (boundary stop)))) ∧
      walk? items (start.map word) (stop.map word) none =
        some (.ok (Position.slice items (boundary start) (boundary stop))) := by
  refine ⟨fun items => rfl, fun text => rfl,
    fun items hlength => sliceOnDoubles_eq items hlength start stop, fun items hlength => ⟨?_, ?_⟩⟩
  · intro context scope first last hfirst hlast
    exact outcome_runStage_slice hfirst hlast (by omega)
  · rw [walk?_eq items (by omega), ofWords_word, take_eq_slice items (by omega)]

/-- Four values, of which the last two follow the position -2.5. -/
def fourLetters : List Value :=
  [.string "a", .string "b", .string "c", .string "d"]

/-- From -2.5 to infinity all ways take the last two of four elements. -/
theorem last_two_of_four :
    fourLetters.length < 2 ^ 53 ∧
    sliceOnDoubles fourLetters (some (-2.5)) (some Number.infinity) = [.string "c", .string "d"] ∧
    ((Engine.ofGlobals []).context.runStage []
      (.slice (some (.literal (.number (-2.5)))) (some (.literal (.number Number.infinity))) none)
      fourLetters).outcome = .ok (.array [.string "c", .string "d"]) ∧
    walk? fourLetters (some (word (-2.5))) (some (word Number.infinity)) none =
      some (.ok [.string "c", .string "d"]) := by
  have hlength : fourLetters.length < 2 ^ 53 := by decide
  have hslice : Position.slice fourLetters (boundary (some (-2.5))) (boundary (some Number.infinity)) =
      [.string "c", .string "d"] := by
    have hfirst : relative 4 (.number (-2.5)) = 2 := by decide +kernel
    have hlast : relative 4 (.number Number.infinity) = 4 := by decide +kernel
    show between (relative 4 (.number (-2.5))) (relative 4 (.number Number.infinity)) fourLetters = _
    rw [hfirst, hlast]
    rfl
  obtain ⟨-, -, hdoubles, hrest⟩ := slices_agree (some (-2.5)) (some Number.infinity)
  obtain ⟨hstage, hwalk⟩ := hrest fourLetters hlength
  rw [hslice] at hstage hwalk
  exact ⟨hlength, (hdoubles fourLetters hlength).trans hslice, hstage _ _ _ _ rfl rfl, hwalk⟩

end FieldLang.Bounds

import FieldLang.Pipeline.Slice
import Mathlib

/-!
# Slices in 64-bit Words

The elements that a slice takes, and how a machine with words of 64 bits comes to them.

A slice stands for positions: a first one, then every `step`-th, as long as they lie before a limit, or
after it if the step is negative. The first position and the limit are the bounds that were given, where
a negative one counts from the end of the list and one outside the list is moved to the end of the
range that a walk in its direction can need. That range goes from 0 to the length forwards, and from -1
to the last position backwards, so that the walk can always end outside the list but reads only inside.

The count of positions is a quotient, and `lt_count_iff` is all that is needed of it: it counts those
positions that lie on the right side of the limit.

`walk?` computes the same with words. It has no result if a sum or a difference leaves the range of
words, if a position outside the list is read, or if the loop has not ended after one round for each
element and a last one that finds the limit. The one sum that may leave the range is the step to the
next position, which stops at the end of the range instead. There the limit has been reached as well,
so stopping there goes unnoticed.

## Main definitions

* `within`: A position lies on the right side of a limit.
* `lowest`, `highest`: The range of a bound.
* `resolved`, `bounded`: A bound brought into the range, and the same if it may be missing.
* `firstPosition`, `lastPosition`: Where the positions of a slice start and end.
* `Marches`: The positions of a slice, one after the other.
* `elements`: The elements at the positions counted.
* `fit?`, `forward?`, `backward?`: Words, and bounds resolved with them.
* `visit?`, `walk?`: The loop over positions, and slices computed with words.

## Theorems

* `lt_count_iff`: The positions counted are those on the right side of the limit.
* `position_mem`: All of them lie in the list.
* `visit?_eq`: The loop reads the elements at the positions counted.
* `walk?_eq`: Computed with words, a slice is the same.
* `slices_stay_inside`: The elements that a slice takes.
-/

namespace FieldLang.Bounds

/-- Whether a position lies before a limit, or after it if the step is negative. -/
def within (limit step position : Int) : Bool :=
  if 0 < step then position < limit else limit < position

/-- The least position that a walk in steps can need. -/
def lowest (step : Int) : Int :=
  if 0 < step then 0 else -1

/-- The greatest position that a walk in steps can need. -/
def highest (length step : Int) : Int :=
  if 0 < step then length else length - 1

/-- A bound, counted from the end if it is negative, in the range of a walk in steps. -/
def resolved (length step bound : Int) : Int :=
  max (lowest step) (min (highest length step) (if bound < 0 then bound + length else bound))

/-- A bound resolved, or what is meant if it is missing. -/
def bounded (length step missing : Int) (bound : Option Int) : Int :=
  bound.elim missing (resolved length step)

/-- Where a slice starts; without a bound, where the walk comes from. -/
def firstPosition (length step : Int) : Option Int → Int :=
  bounded length step (if 0 < step then lowest step else highest length step)

/-- Where a slice ends; without a bound, where the walk goes to. -/
def lastPosition (length step : Int) : Option Int → Int :=
  bounded length step (if 0 < step then highest length step else lowest step)

/-- Positions start at a first one and go on in steps, as long as they lie on the right side of a
    limit. -/
def Marches (first limit step : Int) (positions : List Int) : Prop :=
  ∀ k : Nat, positions[k]? =
    if within limit step (first + k * step) then some (first + k * step) else none

section Positions

variable {first limit step length : Int}

/-- The position after some steps and one more is the one reached from one step on. -/
theorem position_succ (first step : Int) (k : Nat) :
    first + ((k + 1 : Nat) : Int) * step = first + step + k * step := by
  push_cast
  ring

/-- The positions counted are those on the right side of the limit. -/
theorem lt_count_iff (hstep : step ≠ 0) (k : Nat) :
    k < count first limit step ↔ within limit step (first + k * step) = true := by
  unfold count within
  by_cases hpos : 0 < step
  · rw [if_pos hpos, if_pos hpos, decide_eq_true_iff, Int.lt_toNat, ← Int.add_one_le_iff,
      Int.le_ediv_iff_mul_le hpos, add_mul]
    omega
  · have hneg : 0 < -step := by omega
    rw [if_neg hpos, if_neg hpos, decide_eq_true_iff, Int.lt_toNat, ← Int.add_one_le_iff,
      Int.le_ediv_iff_mul_le hneg, add_mul, mul_neg]
    omega

/-- A bound that was given is brought into the range of the walk. -/
theorem resolved_eq (hlength : 0 ≤ length) (bound : Int) :
    (if 0 < step then forward length bound else backward length bound) =
      resolved length step bound := by
  unfold resolved lowest highest forward backward
  split <;> split <;> omega

theorem first_eq (b : Bounds) (hlength : 0 ≤ length) :
    b.first length step = firstPosition length step b.start := by
  rcases b with ⟨_ | bound, stop, _⟩
  · simp only [first, firstPosition, bounded, Option.elim_none, lowest, highest]
    split <;> rfl
  · exact resolved_eq hlength bound

theorem limit_eq (b : Bounds) (hlength : 0 ≤ length) :
    b.limit length step = lastPosition length step b.stop := by
  rcases b with ⟨start, _ | bound, _⟩
  · simp only [limit, lastPosition, bounded, Option.elim_none, lowest, highest]
    split <;> rfl
  · exact resolved_eq hlength bound

theorem lowest_le_highest (step : Int) (hlength : 0 ≤ length) :
    lowest step ≤ highest length step := by
  unfold lowest highest
  split <;> omega

/-- The ends of a slice lie in the range of the walk. -/
theorem bounded_mem (hlength : 0 ≤ length) {missing : Int}
    (hmissing : lowest step ≤ missing ∧ missing ≤ highest length step) (bound : Option Int) :
    lowest step ≤ bounded length step missing bound ∧
      bounded length step missing bound ≤ highest length step := by
  cases bound with
  | none => exact hmissing
  | some bound =>
      have hrange := lowest_le_highest step hlength
      simp only [bounded, Option.elim_some, resolved]
      omega

theorem firstPosition_mem (hlength : 0 ≤ length) (start : Option Int) :
    lowest step ≤ firstPosition length step start ∧
      firstPosition length step start ≤ highest length step := by
  have hrange := lowest_le_highest step hlength
  exact bounded_mem hlength (by split <;> omega) start

theorem lastPosition_mem (hlength : 0 ≤ length) (stop : Option Int) :
    lowest step ≤ lastPosition length step stop ∧
      lastPosition length step stop ≤ highest length step := by
  have hrange := lowest_le_highest step hlength
  exact bounded_mem hlength (by split <;> omega) stop

/-- A position on the right side of the limit, reached from the first one, lies in the list. -/
theorem position_mem (hfirst : lowest step ≤ first ∧ first ≤ highest length step)
    (hlimit : lowest step ≤ limit ∧ limit ≤ highest length step) {k : Nat}
    (hwithin : within limit step (first + k * step) = true) :
    0 ≤ first + k * step ∧ first + k * step < length := by
  unfold lowest highest at hfirst hlimit
  unfold within at hwithin
  by_cases hpos : 0 < step
  · rw [if_pos hpos, decide_eq_true_iff] at hwithin
    rw [if_pos hpos, if_pos hpos] at hfirst hlimit
    have : 0 ≤ (k : Int) * step := by positivity
    omega
  · rw [if_neg hpos, decide_eq_true_iff] at hwithin
    rw [if_neg hpos, if_neg hpos] at hfirst hlimit
    have : (k : Int) * step ≤ 0 := mul_nonpos_of_nonneg_of_nonpos (by positivity) (by omega)
    omega

end Positions

section Elements

variable {α : Type} {items : List α} {position limit step : Int}

/-- The elements that a walk takes from a position on. -/
def elements (items : List α) (position limit step : Int) : List α :=
  (List.range (count position limit step)).filterMap fun (k : Nat) =>
    items[(position + k * step).toNat]?

theorem count_eq_zero (hstep : step ≠ 0) (hwithin : within limit step position = false) :
    count position limit step = 0 := by
  have hnone := @lt_count_iff position limit step hstep 0
  simp only [Nat.cast_zero, zero_mul, add_zero, hwithin, Bool.false_eq_true, iff_false] at hnone
  omega

/-- One step on, one position less is counted. -/
theorem count_succ (hstep : step ≠ 0) (hwithin : within limit step position = true) :
    count position limit step = count (position + step) limit step + 1 := by
  have hshift : ∀ k : Nat, k < count (position + step) limit step ↔
      k + 1 < count position limit step := by
    intro k
    rw [lt_count_iff hstep, lt_count_iff hstep, position_succ]
  have hpos : 0 < count position limit step := by
    rw [lt_count_iff hstep]
    simpa using hwithin
  have hbelow := hshift (count position limit step - 1)
  have habove := hshift (count (position + step) limit step)
  omega

theorem elements_of_not_within (hstep : step ≠ 0) (hwithin : within limit step position = false) :
    elements items position limit step = [] := by
  rw [elements, count_eq_zero hstep hwithin]
  rfl

/-- The element at a position comes before those that the walk takes one step on. -/
theorem elements_of_within (hstep : step ≠ 0) (hwithin : within limit step position = true) {v : α}
    (hread : items[position.toNat]? = some v) :
    elements items position limit step = v :: elements items (position + step) limit step := by
  have hzero : position + ((0 : Nat) : Int) * step = position := by simp
  unfold elements
  rw [count_succ hstep hwithin, List.range_succ_eq_map, List.filterMap_cons_some (b := v),
    List.filterMap_map]
  · congr 1
    refine List.filterMap_congr fun k _ => ?_
    simp only [Function.comp_apply, Nat.succ_eq_add_one, position_succ]
  · rw [hzero, hread]

end Elements

section Words

/-- An integer as a word, if it is in the range of words. -/
def fit? (n : Int) : Option Int64 :=
  if -2 ^ 63 ≤ n ∧ n < 2 ^ 63 then some (.ofInt n) else none

/-- A bound of a slice that goes forwards. -/
def forward? (length bound : Int64) : Option Int64 :=
  if bound < 0 then do return max (← fit? (bound.toInt + length.toInt)) 0
  else return min bound length

/-- A bound of a slice that goes backwards. -/
def backward? (length bound : Int64) : Option Int64 :=
  if bound < 0 then do return max (← fit? (bound.toInt + length.toInt)) (-1)
  else do return min bound (← fit? (length.toInt - 1))

/-- The elements read at a position and every `step`-th after it, as long as the loop goes on. -/
def visit? {α : Type} (items : List α) (goesOn : Int64 → Bool) (step : Int64) :
    (rounds : Nat) → (position : Int64) → Option (List α)
  | 0, _ => none
  | rounds + 1, position =>
    if goesOn position then do
      let v ← if position < 0 then none else items[position.toInt.toNat]?
      let rest ← visit? items goesOn step rounds (.ofIntClamp (position.toInt + step.toInt))
      return v :: rest
    else some []

/-- Bounds given as words. -/
def ofWords (start stop step : Option Int64) : Bounds :=
  ⟨start.map Int64.toInt, stop.map Int64.toInt, step.map Int64.toInt⟩

/-- The elements that a slice takes, computed with words. -/
def walk? {α : Type} (items : List α) (start stop step : Option Int64) :
    Option (Except PipelineError (List α)) := do
  let length := Int64.ofNat items.length
  let step := step.getD 1
  if step = 0 then return .error (.invalidArgument "Slice step cannot be zero")
  if 0 < step then
    let first ← start.elim (some 0) (forward? length)
    let limit ← stop.elim (some length) (forward? length)
    return .ok (← visit? items (fun position => position < limit) step (items.length + 1) first)
  else
    let first ← start.elim (fit? (length.toInt - 1)) (backward? length)
    let limit ← stop.elim (some (-1)) (backward? length)
    return .ok (← visit? items (fun position => limit < position) step (items.length + 1) first)

theorem exists_fit? {n : Int} (hlow : -2 ^ 63 ≤ n) (hhigh : n < 2 ^ 63) :
    ∃ word, fit? n = some word ∧ word.toInt = n :=
  ⟨.ofInt n, if_pos ⟨hlow, hhigh⟩, Int64.toInt_ofInt_of_le hlow hhigh⟩

theorem toInt_max (a b : Int64) : (max a b).toInt = max a.toInt b.toInt := by
  show (if a ≤ b then b else a).toInt = _
  split
  · rename_i h
    rw [Int64.le_iff_toInt_le] at h
    omega
  · rename_i h
    rw [Int64.le_iff_toInt_le] at h
    omega

theorem toInt_min (a b : Int64) : (min a b).toInt = min a.toInt b.toInt := by
  show (if a ≤ b then a else b).toInt = _
  split
  · rename_i h
    rw [Int64.le_iff_toInt_le] at h
    omega
  · rename_i h
    rw [Int64.le_iff_toInt_le] at h
    omega

theorem toInt_clamp (n : Int) :
    (Int64.ofIntClamp n).toInt = max (-2 ^ 63) (min (2 ^ 63 - 1) n) := by
  have hmin := Int64.toInt_minValue
  have hmax := Int64.toInt_maxValue
  unfold Int64.ofIntClamp
  split
  · split
    · rw [Int64.toInt_ofIntLE]
      omega
    · omega
  · omega

theorem neg_iff {a : Int64} : a < 0 ↔ a.toInt < 0 :=
  Int64.lt_iff_toInt_lt

theorem pos_iff {a : Int64} : 0 < a ↔ 0 < a.toInt :=
  Int64.lt_iff_toInt_lt

section Resolving

variable {length : Int64} (hlength : 0 ≤ length.toInt) (bound : Int64)

include hlength

/-- A negative bound is counted from the end without leaving the range of words. -/
theorem exists_fromEnd (hneg : bound.toInt < 0) :
    ∃ sum, fit? (bound.toInt + length.toInt) = some sum ∧
      sum.toInt = bound.toInt + length.toInt := by
  have hlow := bound.le_toInt
  have hhigh := length.toInt_lt
  exact exists_fit? (by omega) (by omega)

theorem exists_forward? :
    ∃ word, forward? length bound = some word ∧
      word.toInt = forward length.toInt bound.toInt := by
  unfold forward? forward
  by_cases hneg : bound < 0
  · obtain ⟨sum, hfit, hsum⟩ := exists_fromEnd hlength bound (neg_iff.mp hneg)
    rw [if_pos hneg, if_pos (neg_iff.mp hneg), hfit]
    refine ⟨_, rfl, ?_⟩
    rw [toInt_max, hsum]
    rfl
  · rw [if_neg hneg, if_neg (mt neg_iff.mpr hneg)]
    exact ⟨_, rfl, toInt_min bound length⟩

theorem exists_backward? :
    ∃ word, backward? length bound = some word ∧
      word.toInt = backward length.toInt bound.toInt := by
  have hhigh := length.toInt_lt
  obtain ⟨last, hlastFit, hlast⟩ := exists_fit? (show -2 ^ 63 ≤ length.toInt - 1 by omega) (by omega)
  unfold backward? backward
  by_cases hneg : bound < 0
  · obtain ⟨sum, hfit, hsum⟩ := exists_fromEnd hlength bound (neg_iff.mp hneg)
    rw [if_pos hneg, if_pos (neg_iff.mp hneg), hfit]
    refine ⟨_, rfl, ?_⟩
    rw [toInt_max, hsum]
    rfl
  · rw [if_neg hneg, if_neg (mt neg_iff.mpr hneg), hlastFit]
    refine ⟨_, rfl, ?_⟩
    rw [toInt_min, hlast]

end Resolving

/-- A step from a word that stops at the end of the range of words has passed a limit inside the
    range, as the whole step has. -/
theorem clamp_step (position step : Int64) {limit : Int} (hlimit : -2 ^ 63 ≤ limit ∧ limit < 2 ^ 63) :
    (Int64.ofIntClamp (position.toInt + step.toInt)).toInt = position.toInt + step.toInt ∨
      within limit step.toInt (Int64.ofIntClamp (position.toInt + step.toInt)).toInt = false ∧
        within limit step.toInt (position.toInt + step.toInt) = false := by
  have hposition := position.le_toInt
  have hposition' := position.toInt_lt
  rw [toInt_clamp]
  unfold within
  split <;> rw [decide_eq_false_iff_not, decide_eq_false_iff_not] <;> omega

section Visiting

variable {α : Type} {items : List α} {goesOn : Int64 → Bool} {step : Int64} {limit : Int}
  (hgoesOn : ∀ position, goesOn position = within limit step.toInt position.toInt)
  (hstep : step.toInt ≠ 0) (hlimit : -2 ^ 63 ≤ limit ∧ limit < 2 ^ 63)

include hgoesOn hstep hlimit

/-- The loop ends with the elements at the positions counted, if these lie in the list and there are
    more rounds than positions. -/
theorem visit?_eq {rounds : Nat} {position : Int64}
    (hinside : ∀ k : Nat, within limit step.toInt (position.toInt + k * step.toInt) = true →
      0 ≤ position.toInt + k * step.toInt ∧ position.toInt + k * step.toInt < items.length)
    (hrounds : count position.toInt limit step.toInt < rounds) :
    visit? items goesOn step rounds position =
      some (elements items position.toInt limit step.toInt) := by
  induction rounds generalizing position with
  | zero => exact absurd hrounds (Nat.not_lt_zero _)
  | succ rounds ih =>
      rw [visit?, hgoesOn]
      -- A position past the limit ends the walk, and one before it is a position of the list.
      cases hwithin : within limit step.toInt position.toInt with
      | false => rw [elements_of_not_within hstep hwithin]; rfl
      | true =>
          have hhere := hinside 0 (by simpa using hwithin)
          simp only [Nat.cast_zero, zero_mul, add_zero] at hhere
          obtain ⟨v, hread⟩ : ∃ v, items[position.toInt.toNat]? = some v :=
            ⟨_, List.getElem?_eq_getElem (by omega)⟩
          rw [count_succ hstep hwithin] at hrounds
          have hrest : visit? items goesOn step rounds
              (.ofIntClamp (position.toInt + step.toInt)) =
                some (elements items (position.toInt + step.toInt) limit step.toInt) := by
            -- The sum of two words is the next position, or it is clamped, which is past the limit
            -- too.
            obtain hnext | ⟨hnext, hpassed⟩ := clamp_step position step hlimit
            · rw [ih, hnext]
              · intro k hk
                rw [hnext, ← position_succ] at hk ⊢
                exact hinside (k + 1) hk
              · rw [hnext]
                omega
            · -- Past the limit nothing is counted, so the walk is over on both sides.
              rw [ih, elements_of_not_within hstep hnext, elements_of_not_within hstep hpassed]
              · intro k hk
                rw [← lt_count_iff hstep, count_eq_zero hstep hnext] at hk
                exact absurd hk (Nat.not_lt_zero _)
              · rw [count_eq_zero hstep hnext]
                omega
          have hnonneg : ¬ position < 0 := mt neg_iff.mp (by omega)
          rw [elements_of_within hstep hwithin hread, hrest, if_pos rfl, if_neg hnonneg, hread]
          rfl

end Visiting

/-- No more positions are counted than there are elements, if all lie in the list. -/
theorem count_le {first limit step : Int} (hstep : step ≠ 0) {length : Nat}
    (hinside : ∀ k : Nat, within limit step (first + k * step) = true →
      0 ≤ first + k * step ∧ first + k * step < length) :
    count first limit step ≤ length := by
  by_contra hmore
  -- Otherwise two of the positions are as far apart as the list is long.
  have hstart := hinside 0 ((lt_count_iff hstep 0).mp (by omega))
  have hend := hinside length ((lt_count_iff hstep length).mp (by omega))
  simp only [Nat.cast_zero, zero_mul, add_zero] at hstart
  obtain hpos | hneg := lt_or_gt_of_ne hstep
  · have : (length : Int) * step ≤ length * (-1) := by gcongr; omega
    omega
  · have : (length : Int) * 1 ≤ length * step := by gcongr; omega
    omega

/-- The positions of a slice lie in the list. -/
theorem position_inside {length : Int} (b : Bounds) (hlength : 0 ≤ length) {step : Int} {k : Nat}
    (hwithin : within (b.limit length step) step (b.first length step + k * step) = true) :
    0 ≤ b.first length step + k * step ∧ b.first length step + k * step < length := by
  rw [first_eq b hlength, limit_eq b hlength] at hwithin
  rw [first_eq b hlength]
  exact position_mem (firstPosition_mem hlength b.start) (lastPosition_mem hlength b.stop) hwithin

section Walking

variable {length : Int64} (hlength : 0 ≤ length.toInt) (bound : Option Int64)

include hlength

/-- The bounds of a slice that goes forwards fit, also where they are missing. -/
theorem exists_forwardBound (missing : Int64) :
    ∃ word, bound.elim (some missing) (forward? length) = some word ∧
      word.toInt = (bound.map Int64.toInt).elim missing.toInt (forward length.toInt) := by
  cases bound with
  | none => exact ⟨missing, rfl, rfl⟩
  | some bound => exact exists_forward? hlength bound

theorem exists_backwardBound {missing : Option Int64} {n : Int}
    (hmissing : ∃ word, missing = some word ∧ word.toInt = n) :
    ∃ word, bound.elim missing (backward? length) = some word ∧
      word.toInt = (bound.map Int64.toInt).elim n (backward length.toInt) := by
  cases bound with
  | none => exact hmissing
  | some bound => exact exists_backward? hlength bound

end Walking

/-- From the first position of a slice the loop ends with its elements, one round after the last. -/
theorem visit?_slice {α : Type} {items : List α} (b : Bounds) {goesOn : Int64 → Bool}
    {first limit step : Int64} (hstep : step.toInt ≠ 0)
    (hfirst : first.toInt = b.first items.length step.toInt)
    (hlimit : limit.toInt = b.limit items.length step.toInt)
    (hgoesOn : ∀ position, goesOn position = within limit.toInt step.toInt position.toInt) :
    visit? items goesOn step (items.length + 1) first =
      some (elements items (b.first items.length step.toInt) (b.limit items.length step.toInt)
        step.toInt) := by
  have hinside : ∀ k : Nat, within limit.toInt step.toInt (first.toInt + k * step.toInt) = true →
      0 ≤ first.toInt + k * step.toInt ∧ first.toInt + k * step.toInt < items.length := by
    rw [hfirst, hlimit]
    exact fun k => position_inside b (by positivity)
  rw [← hfirst, ← hlimit]
  exact visit?_eq hgoesOn hstep ⟨limit.le_toInt, limit.toInt_lt⟩ hinside
    (Nat.lt_succ_of_le (count_le hstep hinside))

theorem getD_step (start stop step : Option Int64) :
    (ofWords start stop step).step.getD 1 = (step.getD 1).toInt := by
  cases step <;> rfl

/-- Computed with words, a slice is the same. -/
theorem walk?_eq {α : Type} (items : List α) (hlength : items.length < 2 ^ 63)
    (start stop step : Option Int64) :
    walk? items start stop step =
      some ((ofWords start stop step).take items) := by
  have hlength' : (Int64.ofNat items.length).toInt = items.length :=
    Int64.toInt_ofNat_of_lt hlength
  have hnonneg : 0 ≤ (Int64.ofNat items.length).toInt := by omega
  have hstepInt := getD_step start stop step
  unfold walk? take
  simp only [hstepInt]
  by_cases hzero : step.getD 1 = 0
  · rw [if_pos hzero, if_pos (by rw [hzero]; rfl)]
    rfl
  · have hstep : (step.getD 1).toInt ≠ 0 := fun h => hzero (Int64.toInt_inj.mp h)
    rw [if_neg hzero, if_neg hstep]
    -- Both directions read the bounds in their own way, and none of the sums leaves the range of
    -- words.
    by_cases hpos : 0 < step.getD 1
    · obtain ⟨first, hfirstOk, hfirst⟩ := exists_forwardBound hnonneg start 0
      obtain ⟨limit, hlimitOk, hlimit⟩ := exists_forwardBound hnonneg stop (.ofNat items.length)
      rw [if_pos hpos, hfirstOk, hlimitOk]
      rw [pos_iff] at hpos
      show (visit? _ _ _ _ _ >>= _) = _
      rw [visit?_slice (ofWords start stop step) hstep]
      · rfl
      · rw [hfirst, hlength']
        cases start <;> simp [Bounds.first, ofWords, hpos]
      · rw [hlimit, hlength']
        cases stop <;> simp [Bounds.limit, ofWords, hpos]
      · intro position
        simp [within, hpos, Int64.lt_iff_toInt_lt]
    · -- Backwards a slice starts at the last position, unless told otherwise, and ends before the
      -- first.
      have hlast : ∃ word, fit? ((Int64.ofNat items.length).toInt - 1) = some word ∧
          word.toInt = (Int64.ofNat items.length).toInt - 1 := exists_fit? (by omega) (by omega)
      obtain ⟨first, hfirstOk, hfirst⟩ := exists_backwardBound hnonneg start hlast
      obtain ⟨limit, hlimitOk, hlimit⟩ := exists_backwardBound hnonneg stop ⟨-1, rfl, rfl⟩
      rw [if_neg hpos, hfirstOk, hlimitOk]
      rw [pos_iff] at hpos
      show (visit? _ _ _ _ _ >>= _) = _
      rw [visit?_slice (ofWords start stop step) hstep]
      · rfl
      · rw [hfirst, hlength']
        cases start <;> simp [Bounds.first, ofWords, hpos]
      · rw [hlimit, hlength']
        cases stop <;> simp [Bounds.limit, ofWords, hpos]
      · intro position
        simp [within, hpos, Int64.lt_iff_toInt_lt]

end Words

/-- A step other than zero takes the elements at positions in the list, which march from the first
    position to the limit. -/
theorem exists_positions {α : Type} (b : Bounds) (items : List α) (hstep : b.step.getD 1 ≠ 0) :
    ∃ positions : List (Fin items.length), b.take items = .ok (positions.map items.get) ∧
      Marches (firstPosition items.length (b.step.getD 1) b.start)
        (lastPosition items.length (b.step.getD 1) b.stop) (b.step.getD 1)
        (positions.map fun p : Fin items.length => (p.val : Int)) := by
  have hlength : (0 : Int) ≤ items.length := by positivity
  rw [← first_eq b hlength, ← limit_eq b hlength]
  unfold take
  simp only [if_neg hstep]
  generalize hfirst : b.first items.length (b.step.getD 1) = first
  generalize hlimit : b.limit items.length (b.step.getD 1) = limit
  generalize b.step.getD 1 = step at *
  -- What is counted lies in the list, so every position is read.
  have hinside : ∀ k : Nat, k < count first limit step →
      0 ≤ first + k * step ∧ first + k * step < items.length := by
    intro k hk
    rw [lt_count_iff hstep, ← hfirst, ← hlimit] at hk
    rw [← hfirst]
    exact position_inside b hlength hk
  have hlt : ∀ k : Fin (count first limit step), (first + (k : Nat) * step).toNat < items.length := by
    intro k
    have := hinside k k.isLt
    omega
  refine ⟨(List.finRange (count first limit step)).map fun k => ⟨_, hlt k⟩, ?_, fun k => ?_⟩
  · rw [← List.map_coe_finRange_eq_range, List.filterMap_map, List.map_map,
      ← List.filterMap_eq_map]
    congr 1
    refine List.filterMap_congr fun k _ => ?_
    exact List.getElem?_eq_getElem _
  · rw [List.map_map, List.getElem?_map]
    -- Within the count the positions are those of the march, and behind it there are none.
    by_cases hk : k < count first limit step
    · rw [if_pos ((lt_count_iff hstep k).mp hk), List.getElem?_eq_getElem (by simpa using hk),
        List.getElem_finRange]
      have := hinside k hk
      simp only [Option.map_some, Function.comp_apply, Fin.val_cast]
      rw [Int.toNat_of_nonneg this.1]
    · rw [if_neg (mt (lt_count_iff hstep k).mpr hk), List.getElem?_eq_none (by simpa using hk)]
      rfl

/-- A slice with a step of zero is refused. Any other takes the elements at positions that march from
    where it starts to where it ends and that all lie in the list. Computed with words of 64 bits it
    comes to the same: no sum leaves the range of words, and the loop ends. -/
theorem slices_stay_inside {α : Type} (items : List α) (hlength : items.length < 2 ^ 63)
    (start stop step : Option Int64) :
    walk? items start stop step = some ((ofWords start stop step).take items) ∧
      (step = some 0 → (ofWords start stop step).take items =
        .error (.invalidArgument "Slice step cannot be zero")) ∧
      (step ≠ some 0 → ∃ positions : List (Fin items.length),
        (ofWords start stop step).take items = .ok (positions.map items.get) ∧
          Marches (firstPosition items.length (step.getD 1).toInt (start.map Int64.toInt))
            (lastPosition items.length (step.getD 1).toInt (stop.map Int64.toInt))
            (step.getD 1).toInt (positions.map fun p : Fin items.length => (p.val : Int))) := by
  refine ⟨walk?_eq items hlength start stop step, ?_, fun hzero => ?_⟩
  · rintro rfl
    rfl
  · rw [← getD_step start stop step]
    refine exists_positions (ofWords start stop step) items ?_
    rw [getD_step]
    rcases step with _ | step
    · decide
    · exact fun h => hzero (congrArg some (Int64.toInt_inj.mp h))

/-- From the greatest word on in steps of the least, a walk backwards takes the last element only. -/
theorem last_of_four :
    ["a", "b", "c", "d"].length < 2 ^ 63 ∧
      walk? ["a", "b", "c", "d"] (some Int64.maxValue) none (some Int64.minValue) =
        some (.ok ["d"]) := by
  have hlength : ["a", "b", "c", "d"].length < 2 ^ 63 := by decide
  refine ⟨hlength, ?_⟩
  rw [(slices_stay_inside _ hlength (some Int64.maxValue) none (some Int64.minValue)).1]
  rfl

end FieldLang.Bounds

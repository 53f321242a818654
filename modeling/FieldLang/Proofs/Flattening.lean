import FieldLang.Builtin.Apply
import FieldLang.Proofs.NumberValues

/-!
# Flattening Arrays

Flattening an array twice is flattening it once, by as many levels as the two times together. With as
many levels as arrays are nested nothing but leaves is left, and every leaf of the array is there once,
from left to right.

A leaf is named by the path that leads to it: the positions at which one descends from array to array.
No leaf lies below another, so that the leaves come from left to right just if their paths are in
lexicographic order. That gives the result of flattening all levels without flattening anything.

How many levels are left can be counted on doubles as well. Counting down by one is exact for integers
of at most 53 bits, and larger ones never come down to where arrays end.

## Main definitions

* `Value.at?`: The value at a path.
* `Arrays.height`: How deeply arrays are nested in the elements of an array.
* `Arrays.LeavesInOrder`: The leaves of a value, from left to right.
* `Arrays.Reaches`: A depth is at least a number of levels.
* `Arrays.flattenOnDoubles`: Flattening that counts its levels on doubles.
* `Arrays.Counts`: A double stands for the levels that are left.

## Theorems

* `flatten_flatten`: Flattening twice.
* `leavesInOrder_flatten`: Flattening all levels gives the leaves.
* `Counts.step`, `flattenOnDoubles_of_counts`: One step down, and a whole array.
* `flattening_composes`: What flattening does.
-/

namespace FieldLang

/-- The value at a path of positions, each in the array at the path before it. -/
def Value.at? : Value → List Nat → Option Value
  | v, [] => some v
  | v, position :: path => (v.element? position).bind fun w => w.at? path

namespace Arrays

section Twice

theorem flatten_append (levels : Option Nat) (vs ws : List Value) :
    flatten levels (vs ++ ws) = flatten levels vs ++ flatten levels ws := by
  induction vs with
  | nil => rfl
  | cons v vs ih => rw [List.cons_append, flatten, ih, flatten, List.append_assoc]

theorem flatten_singleton (levels : Option Nat) (v : Value) :
    flatten levels [v] = flattenItem levels v := by
  rw [flatten, flatten, List.append_nil]

theorem flattenItem_zero (v : Value) : flattenItem (some 0) v = [v] := by
  cases v <;> rfl

-- The induction is on the value. The levels of the first time go down with it, those of the second wait
-- until the first are used up.
mutual

theorem flatten_flattenItem (m n : Nat) (v : Value) :
    flatten (some n) (flattenItem (some m) v) = flattenItem (some (m + n)) v := by
  cases v with
  | array items =>
      cases m with
      | zero => rw [flattenItem_zero, flatten_singleton, Nat.zero_add]
      | succ m =>
          rw [Nat.succ_add]
          exact flatten_flatten m n items
  | _ => rfl

/-- Flattening twice is flattening once, by all the levels together. -/
theorem flatten_flatten (m n : Nat) (vs : List Value) :
    flatten (some n) (flatten (some m) vs) = flatten (some (m + n)) vs := by
  cases vs with
  | nil => rfl
  | cons v vs =>
      rw [flatten, flatten_append, flatten_flattenItem m n v, flatten_flatten m n vs, flatten]

end

end Twice

section Height

mutual

/-- How many levels of arrays an element consists of. -/
def heightItem : Value → Nat
  | .array items => height items + 1
  | _ => 0

/-- How deeply arrays are nested in the elements of an array. -/
def height : List Value → Nat
  | [] => 0
  | v :: vs => max (heightItem v) (height vs)

end

mutual

theorem flattenItem_of_height {n : Nat} (v : Value) (h : heightItem v ≤ n) :
    flattenItem (some n) v = flattenItem none v := by
  cases v with
  | array items =>
      rw [heightItem] at h
      obtain ⟨m, rfl⟩ : ∃ m, n = m + 1 := ⟨n - 1, by omega⟩
      exact flatten_of_height items (by omega)
  | _ => rfl

/-- As many levels as arrays are nested are all levels. -/
theorem flatten_of_height {n : Nat} (vs : List Value) (h : height vs ≤ n) :
    flatten (some n) vs = flatten none vs := by
  cases vs with
  | nil => rfl
  | cons v vs =>
      rw [height, max_le_iff] at h
      rw [flatten, flattenItem_of_height v h.1, flatten_of_height vs h.2, flatten]

end

end Height

section Leaves

/-- The values are the leaves of `v`, in the order of their paths and each as often as it occurs. -/
def LeavesInOrder (v : Value) (leaves : List Value) : Prop :=
  ∃ paths : List (List Nat),
    paths.Pairwise (· < ·) ∧
    (∀ path, path ∈ paths ↔ ∃ leaf, v.at? path = some leaf ∧ leaf.tag ≠ .array) ∧
    leaves.map some = paths.map v.at?

mutual

/-- The leaves of a value with the paths to them, from left to right. -/
def placedLeaves : Value → List (List Nat × Value)
  | .array items => placedLeavesFrom 0 items
  | v => [([], v)]

/-- The leaves of elements that start at a position. -/
def placedLeavesFrom (position : Nat) : List Value → List (List Nat × Value)
  | [] => []
  | v :: vs =>
    (placedLeaves v).map (fun p => (position :: p.1, p.2)) ++ placedLeavesFrom (position + 1) vs

end

mutual

theorem map_snd_placedLeaves (v : Value) : (placedLeaves v).map Prod.snd = flattenItem none v := by
  cases v with
  | array items => exact map_snd_placedLeavesFrom 0 items
  | _ => rfl

/-- Without their paths the leaves are what flattening all levels gives. -/
theorem map_snd_placedLeavesFrom (position : Nat) (vs : List Value) :
    (placedLeavesFrom position vs).map Prod.snd = flatten none vs := by
  cases vs with
  | nil => rfl
  | cons v vs =>
      rw [placedLeavesFrom, List.map_append, List.map_map, flatten, ← map_snd_placedLeaves v,
        map_snd_placedLeavesFrom (position + 1) vs]
      rfl

end

/-- A path into elements begins with the position of one, and leads on in that. -/
theorem mem_placedLeavesFrom {position : Nat} {vs : List Value} {path : List Nat} {leaf : Value} :
    (path, leaf) ∈ placedLeavesFrom position vs ↔
      ∃ i v rest, vs[i]? = some v ∧ (rest, leaf) ∈ placedLeaves v ∧ path = (position + i) :: rest := by
  -- The first element is at the position itself, and the others follow it.
  induction vs generalizing position with
  | nil => simp [placedLeavesFrom]
  | cons v vs ih =>
      rw [placedLeavesFrom, List.mem_append, ih]
      constructor
      · rintro (h | ⟨i, w, rest, hw, hleaf, rfl⟩)
        · obtain ⟨⟨rest, leaf⟩, hleaf, heq⟩ := List.mem_map.mp h
          cases heq
          exact ⟨0, v, rest, rfl, hleaf, rfl⟩
        · exact ⟨i + 1, w, rest, hw, hleaf, by rw [Nat.add_right_comm, Nat.add_assoc]⟩
      · rintro ⟨i, w, rest, hw, hleaf, rfl⟩
        cases i with
        | zero =>
            cases hw
            exact .inl (List.mem_map.mpr ⟨(rest, leaf), hleaf, rfl⟩)
        | succ i => exact .inr ⟨i, w, rest, hw, hleaf, by rw [Nat.add_right_comm, Nat.add_assoc]⟩

/-- The paths are all those that lead to a leaf. -/
theorem mem_placedLeaves {v : Value} {path : List Nat} {leaf : Value} :
    (path, leaf) ∈ placedLeaves v ↔ v.at? path = some leaf ∧ leaf.tag ≠ .array := by
  induction path generalizing v with
  | nil =>
      cases v with
      | array items =>
          -- An array is no leaf itself, and all paths into it have a position.
          rw [placedLeaves, mem_placedLeavesFrom]
          refine iff_of_false ?_ ?_
          · rintro ⟨i, w, rest, -, -, ⟨⟩⟩
          · rintro ⟨⟨⟩, hleaf⟩
            exact hleaf rfl
      | _ =>
          rw [placedLeaves.eq_def]
          constructor
          · rintro (_ | ⟨_, ⟨⟩⟩)
            exact ⟨rfl, nofun⟩
          · rintro ⟨⟨⟩, -⟩
            exact List.mem_singleton_self _
  | cons position path ih =>
      cases v with
      | array items =>
          rw [placedLeaves, mem_placedLeavesFrom]
          show _ ↔ items[position]?.bind _ = some leaf ∧ _
          constructor
          · rintro ⟨i, w, rest, hw, hleaf, heq⟩
            rw [Nat.zero_add] at heq
            cases heq
            rw [hw]
            exact ih.mp hleaf
          · rintro ⟨hat, htag⟩
            obtain ⟨w, hw, hleaf⟩ := Option.bind_eq_some_iff.mp hat
            exact ⟨position, w, path, hw, ih.mpr ⟨hleaf, htag⟩, by rw [Nat.zero_add]⟩
      | _ => simp [placedLeaves, Value.at?, Value.element?]

mutual

theorem pairwise_placedLeaves (v : Value) : (placedLeaves v).Pairwise (·.1 < ·.1) := by
  cases v with
  | array items => exact pairwise_placedLeavesFrom 0 items
  | _ => exact List.pairwise_singleton ..

/-- From left to right the paths ascend. -/
theorem pairwise_placedLeavesFrom (position : Nat) (vs : List Value) :
    (placedLeavesFrom position vs).Pairwise (·.1 < ·.1) := by
  cases vs with
  | nil => exact .nil
  | cons v vs =>
      rw [placedLeavesFrom, List.pairwise_append, List.pairwise_map]
      refine ⟨?_, pairwise_placedLeavesFrom (position + 1) vs, ?_⟩
      · exact (pairwise_placedLeaves v).imp fun h => List.Lex.cons h
      · -- What comes later in the list begins with a later position.
        rintro p hp ⟨path, leaf⟩ hq
        obtain ⟨⟨rest, leaf'⟩, -, rfl⟩ := List.mem_map.mp hp
        obtain ⟨i, w, rest', -, -, rfl⟩ := mem_placedLeavesFrom.mp hq
        exact List.Lex.rel (by omega)

end

/-- Flattening all levels gives the leaves of an array. -/
theorem leavesInOrder_flatten (items : List Value) :
    LeavesInOrder (.array items) (flatten none items) := by
  refine ⟨(placedLeaves (.array items)).map Prod.fst, ?_, fun path => ?_, ?_⟩
  · rw [List.pairwise_map]
    exact pairwise_placedLeaves (.array items)
  · constructor
    · intro h
      obtain ⟨⟨path, leaf⟩, hleaf, rfl⟩ := List.mem_map.mp h
      exact ⟨leaf, mem_placedLeaves.mp hleaf⟩
    · rintro ⟨leaf, hleaf⟩
      exact List.mem_map.mpr ⟨(path, leaf), mem_placedLeaves.mpr hleaf, rfl⟩
  · rw [← map_snd_placedLeavesFrom 0, List.map_map, List.map_map]
    refine List.map_congr_left fun p hp => ?_
    exact (mem_placedLeaves.mp hp).1.symm

/-- Nothing that is left after flattening all levels is an array. -/
theorem tag_of_mem_flatten {items : List Value} {leaf : Value} (h : leaf ∈ flatten none items) :
    leaf.tag ≠ .array := by
  rw [← map_snd_placedLeavesFrom 0] at h
  obtain ⟨⟨path, leaf⟩, hleaf, rfl⟩ := List.mem_map.mp h
  exact (@mem_placedLeaves (.array items) path leaf).mp hleaf |>.2

end Leaves

section Depth

open Float.Model
open Number (StandsFor)

/-- The number that a depth is given by; an undefined one asks for one level. -/
def asked (depth : Value) : Float :=
  if depth.isUndefined then 1 else depth.toNumber

/-- A number is at least a number of levels, as infinity is. -/
def Reaches (x : Float) (levels : Nat) : Prop :=
  x = Number.infinity ∨ x.isFinite = true ∧ levels ≤ Number.value x

theorem levels_eq (depth : Value) :
    levels depth = if asked depth == Number.infinity then none
      else some (Number.truncated (asked depth)).toNat := by
  unfold levels asked
  split
  · rfl
  · rfl

/-- A natural number of at most 53 bits asks for as many levels. -/
theorem levels_ofNat {n : Nat} (hn : n < 2 ^ 53) : levels (.ofNat n) = some n := by
  have hx : StandsFor (asked (.ofNat n)) n := Number.standsFor_ofNat hn.le
  rw [levels_eq, if_neg (Number.beq_infinity_of_isFinite hx.1), Number.truncated, hx.toInt_eq]
  rfl

/-- A natural number that a double is not less than is not cut off from it. -/
theorem le_truncated {x : Float} (hx : x.isFinite = true) {n : Nat} (hn : n ≤ Number.value x) :
    (n : Int) ≤ Number.truncated x := by
  have hnonneg : 0 ≤ Number.value x := le_trans (by positivity) hn
  rw [Number.truncated_eq hx, if_pos hnonneg]
  exact Int.le_floor.mpr (by exact_mod_cast hn)

/-- A depth that reaches as far down as arrays are nested asks for all levels. -/
theorem flatten_levels_of_reaches {depth : Value} {items : List Value}
    (h : Reaches (asked depth) (height items)) : flatten (levels depth) items = flatten none items := by
  rw [levels_eq]
  obtain hinf | ⟨hfinite, hle⟩ := h
  · rw [hinf, if_pos (Number.beq_infinity.mpr rfl)]
  · have htruncated := le_truncated hfinite hle
    rw [if_neg (Number.beq_infinity_of_isFinite hfinite)]
    exact flatten_of_height items (by omega)

end Depth

section Doubles

open Float.Model
open Number (StandsFor)

mutual

/-- What an element contributes, where the levels left are counted on doubles. -/
def flattenItemOnDoubles (depth : Float) : Value → List Value
  | .array items => if depth ≥ 1 then flattenOnDoubles (depth - 1) items else [.array items]
  | v => [v]

/-- An array with the arrays in it spliced in, where the levels left are counted on doubles. -/
def flattenOnDoubles (depth : Float) : List Value → List Value
  | [] => []
  | v :: vs => flattenItemOnDoubles depth v ++ flattenOnDoubles depth vs

end

/-- The double from which the levels of a depth are counted down. -/
def countOf (depth : Value) : Float :=
  if depth.isUndefined then 1 else depth.toInteger

/-- A double counts the levels that are left, at least for arrays that are nested no deeper than `h`. -/
inductive Counts (h : Nat) (x : Float) : Option Nat → Prop where
  | endless (hx : x.toModel.unpack = .infinity .positive) : Counts h x none
  | spent (hx : ¬ x ≥ 1) : Counts h x (some 0)
  | exact {n : Nat} (hx : StandsFor x n) (hn : n ≤ 2 ^ 53) : Counts h x (some n)
  | beyond {k : Int} {n : Nat} (hx : StandsFor x k) (hk : h ≤ k) (hn : h ≤ n) (hh : h ≤ 2 ^ 53) :
      Counts h x (some n)

theorem one_le_of_infinity {x : Float} (hx : x.toModel.unpack = .infinity .positive) : x ≥ 1 := by
  show decide (UnpackedFloat.le (1 : Float).toModel.unpack x.toModel.unpack = true) = true
  rw [hx, Number.unpack_one]
  rfl

theorem not_one_le_of_infinity {x : Float} (hx : x.toModel.unpack = .infinity .negative) : ¬ x ≥ 1 := by
  show ¬ decide (UnpackedFloat.le (1 : Float).toModel.unpack x.toModel.unpack = true) = true
  rw [hx, Number.unpack_one]
  exact nofun

theorem unpack_sub_one_of_infinity {x : Float} {sign : UnpackedFloat.Sign}
    (hx : x.toModel.unpack = .infinity sign) : (x - 1).toModel.unpack = .infinity sign := by
  have hsub : x - 1 =
      .ofModel (.pack (.sub .binary64 x.toModel.unpack (1 : Float).toModel.unpack)) := rfl
  rw [hsub, hx, Number.unpack_one]
  cases sign <;> rfl

/-- There are levels left just if the count is at least one, and then it counts down with them. -/
theorem Counts.step {h : Nat} {x : Float} {levels : Option Nat} (hc : Counts (h + 1) x levels) :
    levels = some 0 ∧ ¬ x ≥ 1 ∨ levels ≠ some 0 ∧ x ≥ 1 ∧ Counts h (x - 1) (levels.map (· - 1)) := by
  -- The four ways of counting: without end, spent, exactly, and beyond what doubles can tell apart.
  cases hc with
  | endless hx =>
      exact .inr ⟨nofun, one_le_of_infinity hx, .endless (unpack_sub_one_of_infinity hx)⟩
  | spent hx => exact .inl ⟨rfl, hx⟩
  | @exact n hx hn =>
      have hone := Number.standsFor_one.le_iff hx
      cases n with
      | zero => exact .inl ⟨rfl, fun hle => absurd (hone.mp hle) (by decide)⟩
      | succ n =>
          obtain ⟨j, hj, hexact, -⟩ := hx.exists_sub_one (by omega)
          obtain rfl : j = n := by
            rw [hexact (by omega)]
            omega
          exact .inr ⟨nofun, hone.mpr (by omega), .exact hj (show n ≤ 2 ^ 53 by omega)⟩
  | @beyond k n hx hk hn hh =>
      obtain ⟨n, rfl⟩ : ∃ i, n = i + 1 := ⟨n - 1, by omega⟩
      obtain ⟨j, hj, hexact, hlarge⟩ := hx.exists_sub_one (by omega)
      exact .inr ⟨nofun, (Number.standsFor_one.le_iff hx).mpr (by omega),
        .beyond hj (by omega) (show h ≤ n by omega) (by omega)⟩

theorem flattenItem_array {levels : Option Nat} (hlevels : levels ≠ some 0) (items : List Value) :
    flattenItem levels (.array items) = flatten (levels.map (· - 1)) items := by
  match levels, hlevels with
  | none, _ => rfl
  | some (n + 1), _ => rfl

mutual

theorem flattenItemOnDoubles_of_counts {h : Nat} {x : Float} {levels : Option Nat} (v : Value)
    (hc : Counts h x levels) (hv : heightItem v ≤ h) :
    flattenItemOnDoubles x v = flattenItem levels v := by
  cases v with
  | array items =>
      rw [heightItem] at hv
      obtain ⟨h, rfl⟩ : ∃ i, h = i + 1 := ⟨h - 1, by omega⟩
      rw [flattenItemOnDoubles]
      obtain ⟨rfl, hone⟩ | ⟨hlevels, hone, hin⟩ := hc.step
      · rw [if_neg hone, flattenItem_zero]
      · rw [if_pos hone, flattenItem_array hlevels]
        exact flattenOnDoubles_of_counts items hin (by omega)
  | _ => rfl

/-- As long as the count goes, flattening takes as many levels. -/
theorem flattenOnDoubles_of_counts {h : Nat} {x : Float} {levels : Option Nat} (vs : List Value)
    (hc : Counts h x levels) (hvs : height vs ≤ h) :
    flattenOnDoubles x vs = flatten levels vs := by
  cases vs with
  | nil => rfl
  | cons v vs =>
      rw [height, max_le_iff] at hvs
      rw [flattenOnDoubles, flattenItemOnDoubles_of_counts v hc hvs.1,
        flattenOnDoubles_of_counts vs hc hvs.2, flatten]

end

/-- An integer counts as many levels, none if it is negative. -/
theorem counts_of_standsFor {h : Nat} {x : Float} {k : Int} (hx : StandsFor x k) (hh : h ≤ 2 ^ 53) :
    Counts h x (some k.toNat) := by
  by_cases hneg : k < 0
  · rw [Int.toNat_of_nonpos hneg.le]
    exact .spent fun hle => by
      have := (Number.standsFor_one.le_iff hx).mp hle
      omega
  · obtain ⟨n, rfl⟩ := Int.eq_ofNat_of_zero_le (not_lt.mp hneg)
    by_cases hlarge : n ≤ 2 ^ 53
    · exact .exact hx hlarge
    · exact .beyond hx (by omega) (by omega) hh

/-- The double from which a depth is counted down counts its levels, if arrays are nested no deeper than
    there are integers of 53 bits. -/
theorem counts_countOf (depth : Value) {h : Nat} (hh : h ≤ 2 ^ 53) :
    Counts h (countOf depth) (levels depth) := by
  unfold countOf levels Value.toInteger
  by_cases hundefined : depth.isUndefined = true
  · rw [if_pos hundefined, if_pos hundefined]
    exact .exact Number.standsFor_one (by decide)
  · rw [if_neg hundefined, if_neg hundefined]
    generalize depth.toNumber = x
    dsimp only
    obtain ⟨hne, -, hx⟩ | ⟨sign, hu, hx⟩ := Number.truncate_cases x
    · -- Only a positive infinity asks for all levels.
      rw [if_neg (mt Number.beq_infinity.mp (hne _))]
      exact counts_of_standsFor hx hh
    · rw [hx]
      cases sign with
      | positive =>
          rw [if_pos (Number.beq_infinity.mpr hu)]
          exact .endless hu
      | negative =>
          rw [if_neg (by rw [Number.beq_infinity, hu]; exact nofun), Number.truncated, hu]
          exact .spent (not_one_le_of_infinity hu)

end Doubles

/-- What flattening does. Flattening any value twice is flattening it once by the sum of the levels; what
    is not an array is refused either way. If the depth asked for is at least as deep as arrays are nested,
    or infinite, the result contains no array, and the leaves of the array come in it from left to right,
    each as often as it occurs. Counting the levels on doubles comes to the same. -/
theorem flattening_composes :
    (∀ (v : Value) (m n : Nat), m < 2 ^ 52 → n < 2 ^ 52 →
      (Builtin.flat.apply [v, .ofNat m] >>= fun w => Builtin.flat.apply [w, .ofNat n]) =
        Builtin.flat.apply [v, .ofNat (m + n)]) ∧
    (∀ (items : List Value) (depth : Value), Reaches (asked depth) (height items) →
      ∃ leaves, Builtin.flat.apply [.array items, depth] = .ok (.array leaves) ∧
        (∀ leaf ∈ leaves, leaf.tag ≠ .array) ∧ LeavesInOrder (.array items) leaves) ∧
    ∀ (items : List Value) (depth : Value), height items ≤ 2 ^ 53 →
      Builtin.flat.apply [.array items, depth] =
        .ok (.array (flattenOnDoubles (countOf depth) items)) := by
  refine ⟨fun v m n hm hn => ?_, fun items depth hdepth => ?_, fun items depth hheight => ?_⟩
  · cases v with
    | array items =>
        show Except.ok (Value.array (flatten (levels (.ofNat n)) (flatten (levels (.ofNat m)) items))) =
          .ok (.array (flatten (levels (.ofNat (m + n))) items))
        -- The sum of the levels is an integer of 53 bits as well, so it is asked for exactly.
        rw [levels_ofNat (by omega), levels_ofNat (by omega), levels_ofNat (by omega), flatten_flatten]
    | _ => rfl
  · refine ⟨flatten none items, ?_, fun leaf => tag_of_mem_flatten, leavesInOrder_flatten items⟩
    rw [← flatten_levels_of_reaches hdepth]
    rfl
  · rw [flattenOnDoubles_of_counts items (counts_countOf depth hheight) le_rfl]
    rfl

/-- An array with three levels of arrays in it, one of them empty. -/
def nested : List Value :=
  [.string "a", .array [.string "b", .array [.array [], .string "c"]], .null]

/-- Two levels taken one after the other leave the empty array, and three leave the texts. -/
theorem nested_flattens :
    (Builtin.flat.apply [.array nested, .ofNat 1] >>= fun w => Builtin.flat.apply [w, .ofNat 1]) =
        .ok (.array [.string "a", .string "b", .array [], .string "c", .null]) ∧
      Reaches (asked (.ofNat 3)) (height nested) ∧
      Builtin.flat.apply [.array nested, .ofNat 3] =
        .ok (.array [.string "a", .string "b", .string "c", .null]) ∧
      LeavesInOrder (.array nested) [.string "a", .string "b", .string "c", .null] ∧
      Builtin.flat.apply [.array nested, .ofNat 3] =
        .ok (.array (flattenOnDoubles (countOf (.ofNat 3)) nested)) := by
  obtain ⟨htwice, hleaves, hdoubles⟩ := flattening_composes
  have hreaches : Reaches (asked (.ofNat 3)) (height nested) :=
    have hthree := Number.standsFor_ofNat (show 3 ≤ 2 ^ 53 by decide)
    .inr ⟨hthree.1, hthree.2.ge⟩
  have hresult : Builtin.flat.apply [.array nested, .ofNat 3] =
      .ok (.array [.string "a", .string "b", .string "c", .null]) := rfl
  obtain ⟨leaves, happly, -, horder⟩ := hleaves nested (.ofNat 3) hreaches
  rw [hresult] at happly
  cases happly
  exact ⟨(htwice (.array nested) 1 1 (by decide) (by decide)).trans rfl, hreaches, hresult, horder,
    hdoubles nested (.ofNat 3) (by decide)⟩

end Arrays

end FieldLang

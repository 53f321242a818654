import FieldLang.Proofs.NumberValues
import FieldLang.Proofs.Sorting

/-!
# The Default Order

When the default order puts the elements of an array in order. It compares two numbers as numbers and
any other two values by their texts. So there are two orders at work, and they need not agree: 10 comes
before 9 as a text and after it as a number. As long as an array has only numbers, or none, one of the
two decides alone. With numbers and other values side by side, two numbers may be in one order as
numbers and in the other because the text of a third value lies between theirs. What is not a number
counts as equal to every number, so that all numbers beside it would have to be equal.

`Consistent` says that neither happens, and the default order is one on the elements of an array exactly
if they are consistent. What the order lacks in general is transitivity alone. That swapping two
values swaps their order holds for all of them.

Each half of the equivalence is a chain of comparisons. If the elements are in order, comparing two
numbers by way of a value between their texts gives the order of the texts. If they are consistent, a
chain of three is followed through one of the two orders, and where it changes from one to the other the
two numbers in it are ordered as their texts are.

## Main definitions

* `inOrder`: A value may stand before another.
* `Consistent`: Numbers and texts do not contradict each other.

## Theorems

* `compare_swap`: Swapping two values swaps their order.
* `consistent_of_orders`: Elements in order are consistent.
* `orders_of_consistent`: Consistent elements are in order.
* `default_order`: When the default order is one.
-/

namespace FieldLang.Arrays

open Elements (Orders StablySorted stablySorted_mergeSort)

/-- Whether a value may stand before another in the default order. -/
def inOrder (a b : Value) : Bool :=
  compare a b != .gt

/-- The two orders of numbers do not contradict each other on the elements of a list. -/
structure Consistent (items : List Value) : Prop where
  /-- Beside one that is not a number all numbers are tied. -/
  tied : ∀ x y z, .number x ∈ items → .number y ∈ items → .number z ∈ items → z.isNaN = true →
    compareNumbers x y = .eq
  /-- Numbers between whose texts that of another value lies are ordered as their texts are. -/
  aligned : ∀ x y v, .number x ∈ items → .number y ∈ items → v ∈ items → v.tag ≠ .number →
    Number.text x ≤ v.text → v.text ≤ Number.text y →
    compareNumbers x y = Ord.compare (Number.text x) (Number.text y)

theorem not_lt_of_lt {x y : Float} (h : x < y) : ¬ y < x := by
  rw [Number.lt_iff_value] at h ⊢
  exact fun hback => absurd hback.2.2 h.2.2.not_gt

theorem compareNumbers_swap (x y : Float) : compareNumbers y x = (compareNumbers x y).swap := by
  unfold compareNumbers
  by_cases hxy : x < y
  · rw [if_neg (not_lt_of_lt hxy), if_pos hxy, if_pos hxy]
    rfl
  · rw [if_neg hxy, if_neg hxy]
    split <;> rfl

theorem eq_number_or (v : Value) : (∃ x, v = .number x) ∨ v.tag ≠ .number := by
  cases v with
  | number x => exact .inl ⟨x, rfl⟩
  | _ => exact .inr nofun

/-- Two values of which one is not a number are compared by their texts. -/
theorem compare_eq_text {a b : Value} (h : a.tag ≠ .number ∨ b.tag ≠ .number) :
    compare a b = Ord.compare a.text b.text := by
  unfold compare
  split
  · simp [Value.tag] at h
  · rfl

/-- Swapping two values swaps their order. -/
theorem compare_swap (a b : Value) : compare b a = (compare a b).swap := by
  have htexts (h : a.tag ≠ .number ∨ b.tag ≠ .number) : compare b a = (compare a b).swap := by
    rw [compare_eq_text h, compare_eq_text h.symm]
    exact Std.OrientedOrd.eq_swap
  obtain ⟨x, rfl⟩ | ha := eq_number_or a
  · obtain ⟨y, rfl⟩ | hb := eq_number_or b
    · exact compareNumbers_swap x y
    · exact htexts (.inr hb)
  · exact htexts (.inl ha)

theorem inOrder_iff_text {a b : Value} (h : a.tag ≠ .number ∨ b.tag ≠ .number) :
    inOrder a b = true ↔ a.text ≤ b.text := by
  rw [inOrder, compare_eq_text h, bne_iff_ne]
  exact compare_le_iff_le

theorem inOrder_iff_compareNumbers {x y : Float} :
    inOrder (.number x) (.number y) = true ↔ compareNumbers x y ≠ .gt := by
  rw [inOrder, bne_iff_ne]
  rfl

theorem compareNumbers_ne_gt_iff {x y : Float} : compareNumbers x y ≠ .gt ↔ ¬ y < x := by
  unfold compareNumbers
  by_cases hxy : x < y
  · simp [hxy, not_lt_of_lt hxy]
  · by_cases hyx : y < x <;> simp [hxy, hyx]

theorem compareNumbers_eq_of_ne_gt {x y : Float} (hxy : compareNumbers x y ≠ .gt)
    (hyx : compareNumbers y x ≠ .gt) : compareNumbers x y = .eq := by
  rw [compareNumbers_swap x y] at hyx
  revert hxy hyx
  cases compareNumbers x y <;> decide

section Halves

variable {items : List Value}

/-- What is not a number may stand before every number, and every number before it. -/
theorem inOrder_of_isNaN {x z : Float} (hz : z.isNaN = true) :
    inOrder (.number x) (.number z) = true ∧ inOrder (.number z) (.number x) = true := by
  simp only [inOrder_iff_compareNumbers, compareNumbers_ne_gt_iff, Number.lt_iff_value, hz]
  simp

/-- If the elements are in order, numbers are ordered as their texts where another value lies between
    these. -/
theorem aligned_of_orders (h : Orders inOrder items) {x y : Float} {v : Value}
    (hx : .number x ∈ items) (hy : .number y ∈ items) (hv : v ∈ items) (htag : v.tag ≠ .number)
    (hxv : Number.text x ≤ v.text) (hvy : v.text ≤ Number.text y) :
    compareNumbers x y = Ord.compare (Number.text x) (Number.text y) := by
  have hbefore {z : Float} : inOrder (.number z) v = true ↔ Number.text z ≤ v.text :=
    inOrder_iff_text (.inr htag)
  have hafter {z : Float} : inOrder v (.number z) = true ↔ v.text ≤ Number.text z :=
    inOrder_iff_text (.inl htag)
  have hle := inOrder_iff_compareNumbers.mp
    (h.trans _ hx v hv _ hy (hbefore.mpr hxv) (hafter.mpr hvy))
  obtain heq | hlt := (hxv.trans hvy).eq_or_lt
  · -- Equal texts leave no room for another, so the chain runs backwards too.
    have hback := inOrder_iff_compareNumbers.mp
      (h.trans _ hy v hv _ hx (hbefore.mpr (heq ▸ hxv)) (hafter.mpr (heq ▸ hvy)))
    rw [compareNumbers_eq_of_ne_gt hle hback, heq, compare_eq_iff_eq.mpr rfl]
  · rw [compare_lt_iff_lt.mpr hlt]
    by_contra hne
    -- Tied numbers would carry the value from one end of its range to the other.
    have hback : inOrder (.number y) (.number x) = true := by
      rw [inOrder_iff_compareNumbers, compareNumbers_swap x y]
      revert hle hne
      cases compareNumbers x y <;> decide
    obtain hxv' | hvx := lt_or_ge (Number.text x) v.text
    · have := hafter.mp (h.trans v hv _ hy _ hx (hafter.mpr hvy) hback)
      exact absurd this hxv'.not_ge
    · have := hbefore.mp (h.trans _ hy _ hx v hv hback (hbefore.mpr hxv))
      exact absurd (hvx.trans_lt hlt) this.not_gt

/-- Elements in order are consistent. -/
theorem consistent_of_orders (h : Orders inOrder items) : Consistent items where
  tied x y z hx hy hz hnan := by
    obtain ⟨hxz, hzx⟩ := inOrder_of_isNaN (x := x) hnan
    obtain ⟨hyz, hzy⟩ := inOrder_of_isNaN (x := y) hnan
    exact compareNumbers_eq_of_ne_gt
      (inOrder_iff_compareNumbers.mp (h.trans _ hx _ hz _ hy hxz hzy))
      (inOrder_iff_compareNumbers.mp (h.trans _ hy _ hz _ hx hyz hzx))
  aligned x y v hx hy hv htag := aligned_of_orders h hx hy hv htag

/-- Numbers that are consistent are in order. -/
theorem inOrder_numbers (h : Consistent items) {x y z : Float} (hx : .number x ∈ items)
    (hy : .number y ∈ items) (hz : .number z ∈ items)
    (hxy : inOrder (.number x) (.number y) = true) (hyz : inOrder (.number y) (.number z) = true) :
    inOrder (.number x) (.number z) = true := by
  have htied {n : Float} (hn : .number n ∈ items) (hnan : n.isNaN = true) :
      inOrder (.number x) (.number z) = true := by
    rw [inOrder_iff_compareNumbers, h.tied x z n hx hz hn hnan]
    decide
  -- Beside one that is not a number nothing is left to compare.
  by_cases hnanx : x.isNaN = true
  · exact htied hx hnanx
  by_cases hnany : y.isNaN = true
  · exact htied hy hnany
  by_cases hnanz : z.isNaN = true
  · exact htied hz hnanz
  rw [Bool.not_eq_true] at hnanx hnany hnanz
  rw [inOrder_iff_compareNumbers, compareNumbers_ne_gt_iff, Number.lt_iff_value] at hxy hyz ⊢
  simp only [hnanx, hnany, hnanz, true_and, not_lt] at hxy hyz ⊢
  exact hxy.trans hyz

/-- Numbers in order that have the text of another value between theirs are in order as texts. -/
theorem text_le_of_between (h : Consistent items) {x y : Float} {v : Value}
    (hx : .number x ∈ items) (hy : .number y ∈ items) (hv : v ∈ items) (htag : v.tag ≠ .number)
    (hxy : inOrder (.number x) (.number y) = true) (hyv : Number.text y ≤ v.text)
    (hvx : v.text ≤ Number.text x) : Number.text x ≤ Number.text y := by
  by_contra hlt
  have haligned := h.aligned y x v hy hx hv htag hyv hvx
  rw [compare_lt_iff_lt.mpr (not_le.mp hlt)] at haligned
  rw [inOrder_iff_compareNumbers, compareNumbers_swap y x, haligned] at hxy
  exact hxy rfl

theorem inOrder_trans_of_text {a b c : Value} (hab : a.tag ≠ .number ∨ b.tag ≠ .number)
    (hbc : b.tag ≠ .number ∨ c.tag ≠ .number) (hac : a.tag ≠ .number ∨ c.tag ≠ .number)
    (hfirst : inOrder a b = true) (hsecond : inOrder b c = true) : inOrder a c = true := by
  rw [inOrder_iff_text hab] at hfirst
  rw [inOrder_iff_text hbc] at hsecond
  rw [inOrder_iff_text hac]
  exact hfirst.trans hsecond

theorem inOrder_trans (h : Consistent items) {a b c : Value} (ha : a ∈ items) (hb : b ∈ items)
    (hc : c ∈ items) (hab : inOrder a b = true) (hbc : inOrder b c = true) : inOrder a c = true := by
  -- By which of the three are numbers. Only two numbers next to one that is none mix the two orders.
  obtain ⟨x, rfl⟩ | hta := eq_number_or a <;> obtain ⟨y, rfl⟩ | htb := eq_number_or b <;>
    obtain ⟨z, rfl⟩ | htc := eq_number_or c
  · exact inOrder_numbers h ha hb hc hab hbc
  · rw [inOrder_iff_text (.inr htc)] at hbc ⊢
    obtain hle | hge := le_total (Number.text x) c.text
    · exact hle
    · exact (text_le_of_between h ha hb hc htc hab hbc hge).trans hbc
  · rw [inOrder_iff_text (.inr htb)] at hab
    rw [inOrder_iff_text (.inl htb)] at hbc
    rw [inOrder_iff_compareNumbers, h.aligned x z b ha hc hb htb hab hbc]
    exact compare_le_iff_le.mpr (hab.trans hbc)
  · exact inOrder_trans_of_text (.inr htb) (.inl htb) (.inr htc) hab hbc
  · rw [inOrder_iff_text (.inl hta)] at hab ⊢
    obtain hle | hge := le_total a.text (Number.text z)
    · exact hle
    · exact hab.trans (text_le_of_between h hb hc ha hta hbc hge hab)
  · exact inOrder_trans_of_text (.inl hta) (.inr htc) (.inl hta) hab hbc
  · exact inOrder_trans_of_text (.inl hta) (.inl htb) (.inl hta) hab hbc
  · exact inOrder_trans_of_text (.inl hta) (.inl htb) (.inl hta) hab hbc

/-- Consistent elements are in order. -/
theorem orders_of_consistent (h : Consistent items) : Orders inOrder items where
  total a _ b _ := by
    unfold inOrder
    rw [compare_swap a b]
    cases compare a b <;> decide
  trans a ha b hb c hc := inOrder_trans h ha hb hc

end Halves

/-- Numbers alone are consistent if all of them are numbers, and so are values without numbers. -/
theorem consistent_of_uniform {items : List Value}
    (h : (∀ v ∈ items, v.tag ≠ .number) ∨ ∀ v ∈ items, ∃ x, v = .number x ∧ x.isNaN = false) :
    Consistent items := by
  obtain h | h := h
  · exact ⟨fun x _ _ hx => absurd rfl (h _ hx), fun x _ _ hx => absurd rfl (h _ hx)⟩
  · refine ⟨fun x y z hx hy hz hnan => ?_, fun x y v hx hy hv htag => ?_⟩
    · obtain ⟨n, hn, hnumber⟩ := h _ hz
      cases hn
      exact absurd hnan (hnumber ▸ Bool.false_ne_true)
    · obtain ⟨n, rfl, -⟩ := h v hv
      exact absurd rfl htag

/-- Swapping two values swaps their order. On the elements of an array the default order is total and
    transitive exactly if they are consistent, as numbers alone are, none of them not a number, and
    values without numbers. Then sorting gives their one stable sort. -/
theorem default_order (items : List Value) :
    (∀ a b, compare b a = (compare a b).swap) ∧
      (Orders inOrder items ↔ Consistent items) ∧
      (((∀ v ∈ items, v.tag ≠ .number) ∨ ∀ v ∈ items, ∃ x, v = .number x ∧ x.isNaN = false) →
        Consistent items) ∧
      (Consistent items → ∀ result, StablySorted inOrder items result ↔ result = sorted items) := by
  refine ⟨compare_swap, ⟨consistent_of_orders, orders_of_consistent⟩, consistent_of_uniform,
    fun h result => ?_⟩
  have horders := orders_of_consistent h
  have hsorted : StablySorted inOrder items (sorted items) := stablySorted_mergeSort horders
  exact ⟨fun hresult => hresult.unique horders hsorted, fun heq => heq ▸ hsorted⟩

/-- Two numbers and a text that comes after both. -/
def ages : List Value :=
  [.number 10, .string "9", .number 1]

/-- As numbers and as texts they are in the same order. -/
theorem ages_in_default_order :
    Orders inOrder ages ∧ Consistent ages ∧ StablySorted inOrder ages (sorted ages) := by
  have horders : Orders inOrder ages := ⟨by decide +kernel, by decide +kernel⟩
  have hconsistent := (default_order ages).2.1.mp horders
  exact ⟨horders, hconsistent, ((default_order ages).2.2.2 hconsistent _).mpr rfl⟩

/-- Ten comes before the text 5 and that before nine, but ten does not come before nine. -/
theorem default_order_not_transitive :
    compare (.number 10) (.string "5") = .lt ∧ compare (.string "5") (.number 9) = .lt ∧
      compare (.number 10) (.number 9) = .gt := by
  decide +kernel

end FieldLang.Arrays

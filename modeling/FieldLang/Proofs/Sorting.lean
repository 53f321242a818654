import FieldLang.Builtin.Arrays
import FieldLang.Engine.Traced
import Mathlib.Data.List.Sort

/-!
# Sorting by a Comparator

What sorting by a comparator does to an array. The comparator is a function of the user's and may do
anything: it may fail, and what it answers need not be an order. Two things hold all the same. The
result is made of the elements, each as often as before, and if there is no result then the error is
one that the comparator gave for two of the elements.

If it never fails and its answers do put the elements in order, the result is sorted and stable. Order
means here that of any two elements one may stand before the other and that this is transitive. Nothing
more is asked of the answers: that they change sign with their arguments is not needed, because merging
only ever asks whether the left element must go after the right one.

Stable means that the elements tied with any one of them stand in the result as they stood in the
array. Elements can be equal without being the same, so this is not said of positions, but of the
elements that are left when all others are taken out. A list that is sorted and stable is the only one,
and so it does not matter where the array is cut in two, which is all that tells the sort here from
that of the library.

## Main definitions

* `Orders`: A relation puts the elements of a list in order.
* `tied`: Two elements may stand in either order.
* `StablySorted`: A list is the stable sort of another.
* `Rearranges`: An outcome is made of the elements, or an error of comparing two of them.

## Theorems

* `rearranges_sort`: Sorting by any comparison rearranges the elements.
* `filter_merge`, `pairwise_merge`: Merging keeps tied elements as they were, and the order.
* `StablySorted.merge`: The two parts of a list are merged into the stable sort of the whole.
* `stablySorted_sort`, `stablySorted_mergeSort`: Sorting by an order is a stable sort.
* `StablySorted.unique`: There is only one stable sort.
* `comparator_sorts`: What sorting by a comparator gives.
-/

namespace FieldLang.Elements

section Stability

variable {α : Type} {before : α → α → Bool} {items : List α}

/-- Of any two elements of a list one may stand before the other, and what may stand before an element
    may stand before all that may stand after it. -/
structure Orders (before : α → α → Bool) (items : List α) : Prop where
  total : ∀ a ∈ items, ∀ b ∈ items, before a b = true ∨ before b a = true
  trans : ∀ a ∈ items, ∀ b ∈ items, ∀ c ∈ items,
    before a b = true → before b c = true → before a c = true

/-- Whether two elements may stand in either order. -/
def tied (before : α → α → Bool) (a b : α) : Bool :=
  before a b && before b a

/-- A list has the elements of another in order, and those that are tied with any one of them as they
    were. -/
structure StablySorted (before : α → α → Bool) (items result : List α) : Prop where
  perm : result.Perm items
  sorted : result.Pairwise fun a b => before a b = true
  stable : ∀ a ∈ items, result.filter (tied before a) = items.filter (tied before a)

theorem tied_iff {a b : α} : tied before a b = true ↔ before a b = true ∧ before b a = true :=
  Bool.and_eq_true_iff

namespace Orders

theorem part (h : Orders before items) {part : List α} (hpart : ∀ a ∈ part, a ∈ items) :
    Orders before part where
  total a ha b hb := h.total a (hpart a ha) b (hpart b hb)
  trans a ha b hb c hc := h.trans a (hpart a ha) b (hpart b hb) c (hpart c hc)

theorem refl (h : Orders before items) {a : α} (ha : a ∈ items) : before a a = true :=
  (h.total a ha a ha).elim id id

/-- Elements that are tied are tied with the same elements. -/
theorem tied_congr (h : Orders before items) {a b c : α} (ha : a ∈ items) (hb : b ∈ items)
    (hc : c ∈ items) (hab : tied before a b = true) : tied before a c = tied before b c := by
  rw [tied_iff] at hab
  rw [Bool.eq_iff_iff, tied_iff, tied_iff]
  constructor
  · rintro ⟨hac, hca⟩
    exact ⟨h.trans b hb a ha c hc hab.2 hac, h.trans c hc a ha b hb hca hab.1⟩
  · rintro ⟨hbc, hcb⟩
    exact ⟨h.trans a ha b hb c hc hab.1 hbc, h.trans c hc b hb a ha hcb hab.2⟩

end Orders

section Merging

variable {as bs : List α} (h : Orders before items) (has : ∀ a ∈ as, a ∈ items)
  (hbs : ∀ b ∈ bs, b ∈ items) (hsorted : as.Pairwise fun a b => before a b = true)
  (hsorted' : bs.Pairwise fun a b => before a b = true)

include h has hbs hsorted

/-- Merging keeps the elements that are tied with one as they were, those of the left list first. -/
theorem filter_merge {x : α} (hx : x ∈ items) :
    (as.merge bs before).filter (tied before x) =
      as.filter (tied before x) ++ bs.filter (tied before x) := by
  -- Each comparison takes the head off one of the two lists, so one of the inductions goes on.
  induction as generalizing bs with
  | nil => rw [List.nil_merge, List.filter_nil, List.nil_append]
  | cons a as ih =>
      induction bs with
      | nil => rw [List.merge_right, List.filter_nil, List.append_nil]
      | cons b bs ih' =>
          rw [List.forall_mem_cons] at hbs
          rw [List.cons_merge_cons]
          by_cases hab : before a b = true
          · have hrest := ih (fun a ha => has a (by simp [ha])) (List.forall_mem_cons.mpr hbs)
              hsorted.of_cons
            rw [if_pos hab]
            by_cases hxa : tied before x a = true
            · rw [List.filter_cons_of_pos hxa, List.filter_cons_of_pos hxa, hrest, List.cons_append]
            · rw [List.filter_cons_of_neg hxa, List.filter_cons_of_neg hxa, hrest]
          · rw [if_neg hab]
            by_cases hxb : tied before x b = true
            · -- An element tied with the right head is before the left one, and so before all of them.
              have hnone : (a :: as).filter (tied before x) = [] := by
                rw [List.filter_eq_nil_iff]
                intro c hc hxc
                have hac : before a c = true := by
                  obtain rfl | hc' := List.mem_cons.mp hc
                  · exact h.refl (has c (by simp))
                  · exact List.rel_of_pairwise_cons hsorted hc'
                have haItem := has a (by simp)
                have hax := h.trans a haItem c (has c hc) x hx hac (tied_iff.mp hxc).2
                exact hab (h.trans a haItem x hx b hbs.1 hax (tied_iff.mp hxb).1)
              rw [List.filter_cons_of_pos hxb, List.filter_cons_of_pos hxb, ih' hbs.2, hnone,
                List.nil_append, List.nil_append]
            · rw [List.filter_cons_of_neg hxb, List.filter_cons_of_neg hxb, ih' hbs.2]

include hsorted'

/-- Merging keeps the order. -/
theorem pairwise_merge : (as.merge bs before).Pairwise fun a b => before a b = true := by
  -- The head of the merged list stands before the heads of both lists, and so before all others.
  induction as generalizing bs with
  | nil => rwa [List.nil_merge]
  | cons a as ih =>
      induction bs with
      | nil => rwa [List.merge_right]
      | cons b bs ih' =>
          rw [List.cons_merge_cons]
          by_cases hab : before a b = true
          · rw [if_pos hab, List.pairwise_cons]
            refine ⟨fun c hc => ?_,
              ih (fun a ha => has a (by simp [ha])) hbs hsorted.of_cons hsorted'⟩
            obtain hc | hc := List.mem_merge.mp hc
            · exact List.rel_of_pairwise_cons hsorted hc
            · obtain rfl | hc' := List.mem_cons.mp hc
              · exact hab
              · exact h.trans a (has a (by simp)) b (hbs b (by simp)) c (hbs c hc) hab
                  (List.rel_of_pairwise_cons hsorted' hc')
          · have hba : before b a = true :=
              (h.total a (has a (by simp)) b (hbs b (by simp))).resolve_left hab
            rw [if_neg hab, List.pairwise_cons]
            refine ⟨fun c hc => ?_, ih' (fun b hb => hbs b (by simp [hb])) hsorted'.of_cons⟩
            obtain hc | hc := List.mem_merge.mp hc
            · obtain rfl | hc' := List.mem_cons.mp hc
              · exact hba
              · exact h.trans b (hbs b (by simp)) a (has a (by simp)) c (has c hc) hba
                  (List.rel_of_pairwise_cons hsorted hc')
            · exact List.rel_of_pairwise_cons hsorted' hc

end Merging

namespace StablySorted

/-- A list with at most one element is its own stable sort. -/
theorem of_short (h : items.length ≤ 1) : StablySorted before items items where
  perm := .refl _
  sorted := by
    rcases items with _ | ⟨a, _ | ⟨b, rest⟩⟩
    · exact .nil
    · exact List.pairwise_singleton _ a
    · simp at h
  stable _ _ := rfl

/-- In the stable sort of a part, the elements tied with one of the whole are as they were. -/
theorem filter_tied {part result : List α} (hsort : StablySorted before part result)
    (h : Orders before items) (hpart : ∀ a ∈ part, a ∈ items) {x : α} (hx : x ∈ items) :
    result.filter (tied before x) = part.filter (tied before x) := by
  by_cases hexists : ∃ a ∈ part, tied before x a = true
  · obtain ⟨a, ha, hxa⟩ := hexists
    have hcongr : ∀ b ∈ part, tied before x b = tied before a b := fun b hb =>
      h.tied_congr hx (hpart a ha) (hpart b hb) hxa
    rw [List.filter_congr hcongr, List.filter_congr fun b hb => hcongr b (hsort.perm.subset hb)]
    exact hsort.stable a ha
  · have hnone : ∀ a ∈ part, ¬ tied before x a = true := fun a ha hxa => hexists ⟨a, ha, hxa⟩
    rw [List.filter_eq_nil_iff.mpr hnone,
      List.filter_eq_nil_iff.mpr fun a ha => hnone a (hsort.perm.subset ha)]

/-- The stable sorts of the two parts of a list are merged into that of the whole. -/
theorem merge (h : Orders before items) {n : Nat} {left right : List α}
    (hleft : StablySorted before (items.take n) left)
    (hright : StablySorted before (items.drop n) right) :
    StablySorted before items (left.merge right before) := by
  have hleftItems : ∀ a ∈ left, a ∈ items := fun a ha =>
    List.mem_of_mem_take (hleft.perm.subset ha)
  have hrightItems : ∀ b ∈ right, b ∈ items := fun b hb =>
    List.mem_of_mem_drop (hright.perm.subset hb)
  refine ⟨?_, pairwise_merge h hleftItems hrightItems hleft.sorted hright.sorted, fun x hx => ?_⟩
  · have hparts := (List.merge_perm_append before).trans (hleft.perm.append hright.perm)
    rwa [List.take_append_drop] at hparts
  · rw [filter_merge h hleftItems hrightItems hleft.sorted hx,
      hleft.filter_tied h (fun a => List.mem_of_mem_take) hx,
      hright.filter_tied h (fun a => List.mem_of_mem_drop) hx, ← List.filter_append,
      List.take_append_drop]

/-- Two lists that are sorted, with the same elements and those that are tied in the same order, are
    the same. -/
theorem eq_of_filter_tied (h : Orders before items) {as bs : List α} (hperm : as.Perm bs)
    (has : ∀ a ∈ as, a ∈ items) (hsorted : as.Pairwise fun a b => before a b = true)
    (hsorted' : bs.Pairwise fun a b => before a b = true)
    (htied : ∀ x ∈ items, as.filter (tied before x) = bs.filter (tied before x)) : as = bs := by
  induction as generalizing bs with
  | nil => exact hperm.nil_eq
  | cons a as ih =>
      obtain ⟨b, bs, rfl⟩ := List.exists_cons_of_ne_nil
        (List.ne_nil_of_mem (hperm.subset (List.mem_cons_self ..)))
      have hb : b ∈ a :: as := hperm.symm.subset (by simp)
      have ha : a ∈ b :: bs := hperm.subset (by simp)
      have haItem := has a (by simp)
      -- Both heads stand before all elements, so they are tied, and then they are the same.
      have hle : ∀ {c d : α} {ds : List α}, d ∈ items →
          (d :: ds).Pairwise (fun a b => before a b = true) → c ∈ d :: ds → before d c = true := by
        intro c d ds hd hds hc
        obtain rfl | hc := List.mem_cons.mp hc
        · exact h.refl hd
        · exact List.rel_of_pairwise_cons hds hc
      have hhead := htied a haItem
      rw [List.filter_cons, List.filter_cons,
        if_pos (tied_iff.mpr ⟨h.refl haItem, h.refl haItem⟩),
        if_pos (tied_iff.mpr ⟨hle haItem hsorted hb, hle (has b hb) hsorted' ha⟩)] at hhead
      obtain rfl : a = b := (List.cons.inj hhead).1
      rw [ih (hperm.cons_inv) (fun c hc => has c (by simp [hc])) hsorted.of_cons hsorted'.of_cons]
      -- The heads are the same, so taking them off keeps the agreement about ties.
      intro x hx
      have hrest := htied x hx
      rw [List.filter_cons, List.filter_cons] at hrest
      split at hrest
      · exact (List.cons.inj hrest).2
      · exact hrest

/-- There is only one stable sort. -/
theorem unique (h : Orders before items) {as bs : List α} (has : StablySorted before items as)
    (hbs : StablySorted before items bs) : as = bs :=
  eq_of_filter_tied h (has.perm.trans hbs.perm.symm) (fun _ ha => has.perm.subset ha) has.sorted
    hbs.sorted fun x hx => (has.stable x hx).trans (hbs.stable x hx).symm

end StablySorted

/-- Induction over the lists that come from cutting one in two again and again. -/
theorem cutInduction {motive : List α → Prop} (short : ∀ items, items.length ≤ 1 → motive items)
    (cut : ∀ items, 1 < items.length →
      (∀ n, 0 < n → n < items.length → motive (items.take n) ∧ motive (items.drop n)) →
        motive items)
    (items : List α) : motive items := by
  induction hn : items.length using Nat.strong_induction_on generalizing items with
  | _ length ih =>
      subst hn
      obtain hlt | hle := Nat.lt_or_ge 1 items.length
      · refine cut items hlt fun n hpos hn => ⟨ih _ ?_ _ rfl, ih _ ?_ _ rfl⟩
        · rw [List.length_take]
          omega
        · rw [List.length_drop]
          omega
      · exact short items hle

/-- The sort of the library cuts a list of two or more elements in two and merges the sorted parts. -/
theorem mergeSort_eq (h : 1 < items.length) :
    items.mergeSort before =
      ((items.take ((items.length + 1) / 2)).mergeSort before).merge
        ((items.drop ((items.length + 1) / 2)).mergeSort before) before := by
  rcases items with _ | ⟨a, _ | ⟨b, rest⟩⟩
  · simp at h
  · simp at h
  · rw [List.mergeSort, List.MergeSort.Internal.splitInTwo_fst,
      List.MergeSort.Internal.splitInTwo_snd]

/-- The sort of the library is a stable sort, also where only the elements sorted are in order. -/
theorem stablySorted_mergeSort (h : Orders before items) :
    StablySorted before items (items.mergeSort before) := by
  -- A list is cut in two until it is short, and merging puts the sorted halves together.
  induction items using cutInduction with
  | short items hshort =>
      have hself : items.mergeSort before = items := by
        rcases items with _ | ⟨a, _ | ⟨b, rest⟩⟩
        · exact List.mergeSort_nil
        · exact List.mergeSort_singleton a
        · simp at hshort
      rw [hself]
      exact .of_short hshort
  | cut items hlong ih =>
      obtain ⟨hleft, hright⟩ := ih ((items.length + 1) / 2) (by omega) (by omega)
      rw [mergeSort_eq hlong]
      exact .merge h (hleft (h.part fun a => List.mem_of_mem_take))
        (hright (h.part fun a => List.mem_of_mem_drop))

end Stability

section Comparing

variable {ε : Type} {compare : Value → Value → Traced ε Ordering}

/-- Sorting cuts a list of two or more elements in two and merges the sorted parts. -/
theorem outcome_sort {items : List Value} (h : 1 < items.length) :
    (sort compare items).outcome = (do
      let left ← (sort compare (items.take (items.length / 2))).outcome
      let right ← (sort compare (items.drop (items.length / 2))).outcome
      (merge compare left right).outcome) := by
  rw [sort, dif_neg (by omega)]
  simp only [Traced.outcome_bind]

/-- Merging compares the heads and takes the right one only if the left one must go after it. -/
theorem outcome_merge_cons (a b : Value) (as bs : List Value) :
    (merge compare (a :: as) (b :: bs)).outcome = (do
      let order ← (compare a b).outcome
      if order = .gt then
        let rest ← (merge compare (a :: as) bs).outcome
        return b :: rest
      else
        let rest ← (merge compare as (b :: bs)).outcome
        return a :: rest) := by
  rw [merge, Traced.outcome_bind]
  congr 1
  funext order
  split <;> rw [Traced.outcome_bind] <;> rfl

/-- An outcome has the elements of a list, each as often as the list, or it is an error of comparing
    two of them. -/
def Rearranges (compare : Value → Value → Traced ε Ordering) (items : List Value) :
    Except ε (List Value) → Prop
  | .ok result => result.Perm items
  | .error e => ∃ a ∈ items, ∃ b ∈ items, (compare a b).outcome = .error e

/-- If one step rearranges some of the elements and the next one all of them, so do both together. -/
theorem Rearranges.bind {part items : List Value} {x : Except ε (List Value)}
    {f : List Value → Except ε (List Value)} (hx : Rearranges compare part x)
    (hpart : ∀ a ∈ part, a ∈ items) (hf : ∀ ys, ys.Perm part → Rearranges compare items (f ys)) :
    Rearranges compare items (x >>= f) := by
  cases x with
  | ok ys => exact hf ys hx
  | error e =>
      obtain ⟨a, ha, b, hb, he⟩ := hx
      exact ⟨a, hpart a ha, b, hpart b hb, he⟩

theorem Rearranges.of_perm {items items' : List Value} {x : Except ε (List Value)}
    (hx : Rearranges compare items x) (hperm : items.Perm items') : Rearranges compare items' x := by
  cases x with
  | ok ys => exact List.Perm.trans hx hperm
  | error e =>
      obtain ⟨a, ha, b, hb, he⟩ := hx
      exact ⟨a, hperm.subset ha, b, hperm.subset hb, he⟩

theorem rearranges_merge (as bs : List Value) :
    Rearranges compare (as ++ bs) (merge compare as bs).outcome := by
  induction as generalizing bs with
  | nil =>
      rw [merge]
      exact .refl bs
  | cons a as ih =>
      induction bs with
      | nil =>
          rw [merge, List.append_nil]
          · exact .refl _
          · simp
      | cons b bs ih' =>
          rw [outcome_merge_cons]
          -- A comparison that fails ends the merge with its error.
          cases horder : (compare a b).outcome with
          | error e => exact ⟨a, by simp, b, by simp, horder⟩
          | ok order =>
              show Rearranges compare _ (if order = .gt then _ else _)
              split
              · refine ih'.bind (fun c hc => ?_) fun ys hys => ?_
                · exact List.perm_middle.symm.subset (List.mem_cons_of_mem b hc)
                · exact (hys.cons b).trans List.perm_middle.symm
              · refine (ih (b :: bs)).bind (fun c => List.mem_cons_of_mem a) fun ys hys => ?_
                exact hys.cons a

/-- Whatever the comparison answers, sorting rearranges the elements. -/
theorem rearranges_sort (compare : Value → Value → Traced ε Ordering) (items : List Value) :
    Rearranges compare items (sort compare items).outcome := by
  induction items using cutInduction with
  | short items hshort =>
      rw [sort, dif_pos hshort]
      exact .refl items
  | cut items hlong ih =>
      obtain ⟨hleft, hright⟩ := ih (items.length / 2) (by omega) (by omega)
      rw [outcome_sort hlong]
      refine hleft.bind (fun a => List.mem_of_mem_take) fun as has => ?_
      refine hright.bind (fun a => List.mem_of_mem_drop) fun bs hbs => ?_
      have hparts : (as ++ bs).Perm items := by
        have happend := has.append hbs
        rwa [List.take_append_drop] at happend
      exact (rearranges_merge as bs).of_perm hparts

variable {order : Value → Value → Ordering}

/-- A comparison that never fails merges as the library does. -/
theorem outcome_merge_of_ok {as bs : List Value}
    (h : ∀ a ∈ as, ∀ b ∈ bs, (compare a b).outcome = .ok (order a b)) :
    (merge compare as bs).outcome = .ok (as.merge bs fun a b => order a b != .gt) := by
  induction as generalizing bs with
  | nil =>
      rw [merge, List.nil_merge]
      rfl
  | cons a as ih =>
      induction bs with
      | nil =>
          rw [merge, List.merge_right]
          · rfl
          · simp
      | cons b bs ih' =>
          rw [outcome_merge_cons, h a (by simp) b (by simp), List.cons_merge_cons,
            ih' fun a ha b hb => h a ha b (by simp [hb]),
            ih fun a ha b hb => h a (by simp [ha]) b hb]
          show (if order a b = .gt then _ else _) = _
          by_cases hgt : order a b = .gt
          · rw [if_pos hgt, if_neg (by simp [hgt])]
            rfl
          · rw [if_neg hgt, if_pos (by simp [hgt])]
            rfl

/-- Sorting by a comparison that never fails and puts the elements in order is a stable sort. -/
theorem stablySorted_sort {items : List Value}
    (h : ∀ a ∈ items, ∀ b ∈ items, (compare a b).outcome = .ok (order a b))
    (horders : Orders (fun a b => order a b != .gt) items) :
    ∃ result, (sort compare items).outcome = .ok result ∧
      StablySorted (fun a b => order a b != .gt) items result := by
  induction items using cutInduction with
  | short items hshort =>
      rw [sort, dif_pos hshort]
      exact ⟨items, rfl, .of_short hshort⟩
  | cut items hlong ih =>
      obtain ⟨ihleft, ihright⟩ := ih (items.length / 2) (by omega) (by omega)
      have htake : ∀ a ∈ items.take (items.length / 2), a ∈ items := fun a => List.mem_of_mem_take
      have hdrop : ∀ a ∈ items.drop (items.length / 2), a ∈ items := fun a => List.mem_of_mem_drop
      obtain ⟨as, hasOk, has⟩ :=
        ihleft (fun a ha b hb => h a (htake a ha) b (htake b hb)) (horders.part htake)
      obtain ⟨bs, hbsOk, hbs⟩ :=
        ihright (fun a ha b hb => h a (hdrop a ha) b (hdrop b hb)) (horders.part hdrop)
      have hmerge := outcome_merge_of_ok fun a ha b hb =>
        h a (htake a (has.perm.subset ha)) b (hdrop b (hbs.perm.subset hb))
      -- The halves hold elements of the list only, so the comparisons between them succeed.
      refine ⟨_, ?_, .merge horders has hbs⟩
      rw [outcome_sort hlong, hasOk, hbsOk]
      exact hmerge

end Comparing

end FieldLang.Elements

namespace FieldLang.Arrays

open Elements (Orders StablySorted)

section Comparator

variable {ε : Type} {call : List Value → Traced ε Value} {refuse : FunctionError → Traced ε Value}
  {items : List Value} {initial : Option Value}

/-- The comparison that a comparator makes of two elements. -/
theorem outcome_comparison (a b : Value) :
    ((do return orderOf (← call [a, b])) : Traced ε Ordering).outcome =
      (call [a, b]).outcome.map orderOf := by
  rw [Traced.outcome_bind]
  cases (call [a, b]).outcome <;> rfl

/-- A comparison fails only as the comparator does. -/
theorem outcome_of_comparison_error {a b : Value} {e : ε}
    (h : ((do return orderOf (← call [a, b])) : Traced ε Ordering).outcome = .error e) :
    (call [a, b]).outcome = .error e := by
  rw [outcome_comparison] at h
  cases hcall : (call [a, b]).outcome with
  | ok v =>
      rw [hcall] at h
      cases h
  | error e' =>
      rw [hcall] at h
      cases h
      rfl

theorem outcome_withCallback_sort :
    (withCallback .sort call refuse items initial).outcome =
      (Elements.sort (fun a b => do return orderOf (← call [a, b])) items).outcome.map .array := by
  show Traced.outcome (_ >>= _) = _
  rw [Traced.outcome_bind]
  cases (Elements.sort (fun a b => do return orderOf (← call [a, b])) items).outcome <;> rfl

end Comparator

/-- Whether an element may stand before another, by the sign of what a comparator answers. -/
def mayPrecede (answer : Value → Value → Value) (a b : Value) : Bool :=
  orderOf (answer a b) != .gt

/-- Sorting by an order that is the default one on the elements is sorting without a comparator. -/
theorem mergeSort_mayPrecede {answer : Value → Value → Value} {items : List Value}
    (h : ∀ a ∈ items, ∀ b ∈ items, mayPrecede answer a b = true ↔ compare a b ≠ .gt) :
    items.mergeSort (mayPrecede answer) = sorted items := by
  have hmap := List.map_mergeSort (f := id) (l := items) (r := mayPrecede answer)
    (s := fun a b => compare a b != .gt) fun a ha b hb => by
      rw [Bool.eq_iff_iff, bne_iff_ne]
      exact h a ha b hb
  rwa [List.map_id, List.map_id] at hmap

/-- Sorting by a comparator, which may be any function, gives the elements again, each as often as
    before, or an error that the comparator gave for two of them. If it never fails on them and the
    signs of its answers put them in order, the result is their one stable sort; so it is what sorting
    without a comparator gives, if that order is the default one. -/
theorem comparator_sorts {ε : Type} (call : List Value → Traced ε Value)
    (refuse : FunctionError → Traced ε Value) (items : List Value) (initial : Option Value) :
    ((∃ result, (withCallback .sort call refuse items initial).outcome = .ok (.array result) ∧
          result.Perm items) ∨
        ∃ e, (withCallback .sort call refuse items initial).outcome = .error e ∧
          ∃ a ∈ items, ∃ b ∈ items, (call [a, b]).outcome = .error e) ∧
      ∀ answer : Value → Value → Value,
        (∀ a ∈ items, ∀ b ∈ items, (call [a, b]).outcome = .ok (answer a b)) →
        Orders (mayPrecede answer) items →
        ∃ result,
          (withCallback .sort call refuse items initial).outcome = .ok (.array result) ∧
            StablySorted (mayPrecede answer) items result ∧
            (∀ other, StablySorted (mayPrecede answer) items other → other = result) ∧
            ((∀ a ∈ items, ∀ b ∈ items, mayPrecede answer a b = true ↔ compare a b ≠ .gt) →
              result = sorted items) := by
  rw [outcome_withCallback_sort]
  refine ⟨?_, fun answer hcall horders => ?_⟩
  · -- Nothing is known of the comparator here, so the sort can only rearrange or fail.
    have hsort := Elements.rearranges_sort (fun a b => do return orderOf (← call [a, b])) items
    revert hsort
    cases (Elements.sort (fun a b => do return orderOf (← call [a, b])) items).outcome with
    | ok result => exact fun hperm => .inl ⟨result, rfl, hperm⟩
    | error e =>
        rintro ⟨a, ha, b, hb, he⟩
        exact .inr ⟨e, rfl, a, ha, b, hb, outcome_of_comparison_error he⟩
  · -- The comparator never fails, and the order it stands for is that of its answers.
    have hcompare : ∀ a ∈ items, ∀ b ∈ items,
        ((do return orderOf (← call [a, b])) : Traced ε Ordering).outcome =
          .ok (orderOf (answer a b)) := by
      intro a ha b hb
      rw [outcome_comparison, hcall a ha b hb]
      rfl
    obtain ⟨result, hok, hsorted⟩ := Elements.stablySorted_sort hcompare horders
    refine ⟨result, by rw [hok]; rfl, hsorted, fun other hother => hother.unique horders hsorted,
      fun hdefault => ?_⟩
    -- The sort of the library is stable as well, and there is only one stable sort.
    rw [← mergeSort_mayPrecede hdefault]
    exact hsorted.unique horders (Elements.stablySorted_mergeSort horders)

/-- The number of characters of a text. -/
def size : Value → Nat
  | .string s => s.length
  | _ => 0

/-- By how much the first of two texts is longer. -/
def excess (a b : Value) : Value :=
  .number (Float.ofNat (size a) - Float.ofNat (size b))

/-- A comparator that puts shorter texts first. -/
def bySize : List Value → Traced FunctionError Value
  | [a, b] => pure (excess a b)
  | _ => .fail (.argument "two texts are compared")

/-- Four texts, three of which have the same size. -/
def fruits : List Value :=
  [.string "pear", .string "fig", .string "kiwi", .string "plum"]

/-- The shortest text comes first, and the others stay in their order. -/
theorem fruits_by_size :
    (∀ a ∈ fruits, ∀ b ∈ fruits, (bySize [a, b]).outcome = .ok (excess a b)) ∧
      Orders (mayPrecede excess) fruits ∧
      (withCallback .sort bySize (fun e => .fail e) fruits none).outcome =
        .ok (.array [.string "fig", .string "pear", .string "kiwi", .string "plum"]) := by
  have hcall : ∀ a ∈ fruits, ∀ b ∈ fruits, (bySize [a, b]).outcome = .ok (excess a b) :=
    fun _ _ _ _ => rfl
  have horders : Orders (mayPrecede excess) fruits :=
    ⟨by decide +kernel, by decide +kernel⟩
  have hstable : StablySorted (mayPrecede excess) fruits
      [.string "fig", .string "pear", .string "kiwi", .string "plum"] := by
    refine ⟨.swap _ _ _, by decide +kernel, fun a ha => ?_⟩
    simp only [fruits, List.mem_cons, List.not_mem_nil, or_false] at ha
    rcases ha with rfl | rfl | rfl | rfl <;> rfl
  obtain ⟨result, hok, -, honly, -⟩ :=
    (comparator_sorts bySize (fun e => .fail e) fruits none).2 excess hcall horders
  exact ⟨hcall, horders, honly _ hstable ▸ hok⟩

end FieldLang.Arrays

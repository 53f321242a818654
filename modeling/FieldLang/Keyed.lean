/-!
# Keyed Lists

Pairs of a key and a content, in the order in which the keys first came in. Objects, variable tables
and function tables are all of this form. Inserting under a key that is present replaces the content
and leaves the key where it is; a new key goes to the end. Built only by insertion, a keyed list has
each key once.

## Main definitions

* `Keyed`: Lists of pairs with string keys.
* `get?`, `contains`: The content under a key.
* `insert`: The list with a content put under a key.
* `ofPairs`: The list that results from inserting pairs one after the other.
* `override`: The list with all pairs of another inserted.

## Theorems

* `get?_insert_self`: Looking up the key that was inserted.
* `get?_insert_of_ne`: Looking up any other key.
* `contains_eq_true_iff`: A key is present when it is among the keys.
* `keys_insert`: Where the keys stand after an insertion.
* `insert_of_not_mem_keys`: Inserting under a new key.
* `get?_of_mem`: Looking up the key of a pair in a list that has each key once.
* `get?_of_perm`: Looking up a key in the pairs in another order.
* `get?_replace`: Looking up a key when one content is replaced.
* `ofPairs_of_nodup`: What has each key once is built by inserting its pairs.
* `get?_override`: Overriding looks at the new pairs first.
-/

namespace FieldLang

/-- Pairs of a key and a content. -/
abbrev Keyed (α : Type) := List (String × α)

namespace Keyed

variable {α : Type}

/-- The content under a key. -/
def get? (key : String) : Keyed α → Option α
  | [] => none
  | (k, a) :: rest => if k = key then some a else get? key rest

/-- Whether a key is present. -/
def contains (key : String) (table : Keyed α) : Bool :=
  (get? key table).isSome

/-- The list with a content put under a key. -/
def insert (key : String) (a : α) : Keyed α → Keyed α
  | [] => [(key, a)]
  | (k, b) :: rest => if k = key then (k, a) :: rest else (k, b) :: insert key a rest

/-- The list with all pairs of another inserted, from the first to the last. -/
def override (table pairs : Keyed α) : Keyed α :=
  pairs.foldl (fun table pair => insert pair.1 pair.2 table) table

/-- The list that results from inserting pairs one after the other. -/
def ofPairs (pairs : Keyed α) : Keyed α :=
  override [] pairs

/-- The keys, in order. -/
def keys (table : Keyed α) : List String :=
  table.map Prod.fst

/-- Looking up the key that was inserted gives the inserted content. -/
@[simp] theorem get?_insert_self (key : String) (a : α) (table : Keyed α) :
    get? key (insert key a table) = some a := by
  induction table with
  | nil => simp [insert, get?]
  | cons pair rest ih =>
    by_cases h : pair.1 = key
    · simp [insert, get?, h]
    · simp [insert, get?, h, ih]

/-- Looking up any other key gives what was there before. -/
theorem get?_insert_of_ne {key other : String} (h : other ≠ key) (a : α) (table : Keyed α) :
    get? other (insert key a table) = get? other table := by
  induction table with
  | nil => simp [insert, get?, Ne.symm h]
  | cons pair rest ih =>
    by_cases hk : pair.1 = key
    · simp [insert, get?, hk, Ne.symm h]
    · by_cases ho : pair.1 = other
      · simp [insert, get?, ho, h]
      · simp [insert, get?, hk, ho, ih]

/-- A key is present when it is among the keys. -/
theorem contains_eq_true_iff (key : String) (table : Keyed α) :
    contains key table = true ↔ key ∈ keys table := by
  induction table with
  | nil => simp [contains, get?, keys]
  | cons pair rest ih =>
    simp only [contains, keys] at ih
    by_cases h : pair.1 = key
    · simp [contains, get?, keys, h]
    · simp [contains, get?, keys, h, ih, Ne.symm h]

/-- An insertion leaves the keys alone if the key is present, and puts it last otherwise. -/
theorem keys_insert (key : String) (a : α) (table : Keyed α) :
    keys (insert key a table) = if key ∈ keys table then keys table else keys table ++ [key] := by
  induction table with
  | nil => simp [insert, keys]
  | cons pair rest ih =>
    by_cases hk : pair.1 = key
    · simp [insert, keys, hk]
    · have hk' : key ≠ pair.1 := fun e => hk e.symm
      simp only [keys] at ih
      by_cases hm : key ∈ List.map Prod.fst rest
      · simp only [hm, if_true] at ih
        simp [insert, keys, hk, hk', hm, ih]
      · simp only [hm, if_false] at ih
        simp only [insert, keys, hk, if_false, List.map_cons, List.mem_cons, hk', hm, or_self, ih]
        simp

/-- A new key goes to the end with its content. -/
theorem insert_of_not_mem_keys {key : String} {table : Keyed α} (h : key ∉ keys table) (a : α) :
    insert key a table = table ++ [(key, a)] := by
  induction table with
  | nil => rfl
  | cons pair rest ih =>
    simp only [keys, List.map_cons, List.mem_cons, not_or] at h
    rw [insert, if_neg (Ne.symm h.1), ih h.2]
    rfl

/-- What is in a list after an insertion was inserted or there before. -/
theorem eq_or_mem_of_mem_insert {key : String} {a : α} {table : Keyed α} {pair : String × α}
    (h : pair ∈ insert key a table) : pair = (key, a) ∨ pair ∈ table := by
  induction table with
  | nil => exact .inl (List.mem_singleton.mp h)
  | cons first rest ih =>
    rw [insert] at h
    split at h
    · rename_i hkey
      rcases List.mem_cons.mp h with heq | hmem
      · exact .inl (by rw [heq, hkey])
      · exact .inr (List.mem_cons_of_mem _ hmem)
    · rcases List.mem_cons.mp h with heq | hmem
      · exact .inr (heq ▸ List.mem_cons_self)
      · exact (ih hmem).imp id (List.mem_cons_of_mem _)

/-- An insertion keeps the keys different. -/
theorem nodup_keys_insert {table : Keyed α} (h : (keys table).Nodup) (key : String) (a : α) :
    (keys (insert key a table)).Nodup := by
  rw [keys_insert]
  by_cases hm : key ∈ keys table
  · simpa [hm] using h
  · simp only [hm, if_false, List.nodup_append]
    refine ⟨h, by simp, ?_⟩
    intro k hk other ho
    simp only [List.mem_singleton] at ho
    rintro rfl
    exact hm (ho ▸ hk)

/-- Inserting pairs with new and different keys appends them. -/
theorem override_of_nodup {table pairs : Keyed α} (h : (keys table ++ keys pairs).Nodup) :
    override table pairs = table ++ pairs := by
  induction pairs generalizing table with
  | nil => exact (List.append_nil table).symm
  | cons pair rest ih =>
    have hnew : pair.1 ∉ keys table := fun hmem =>
      (List.nodup_append.mp h).2.2 pair.1 hmem pair.1 (by simp [keys]) rfl
    have hrest : (keys (table ++ [pair]) ++ keys rest).Nodup := by simpa [keys] using h
    show override (insert pair.1 pair.2 table) rest = _
    rw [insert_of_not_mem_keys hnew, ih hrest, List.append_assoc]
    rfl

/-- Inserting the pairs of a list that has each key once gives that list. -/
theorem ofPairs_of_nodup {pairs : Keyed α} (h : (keys pairs).Nodup) : ofPairs pairs = pairs :=
  override_of_nodup (by simpa [keys] using h)

/-- Nothing is under a key that is not there. -/
theorem get?_of_not_mem_keys {key : String} {table : Keyed α} (h : key ∉ keys table) :
    get? key table = none := by
  rw [← contains_eq_true_iff, contains, Bool.not_eq_true, Option.isSome_eq_false_iff,
    Option.isNone_iff_eq_none] at h
  exact h

/-- Where each key occurs once, the content of a pair is found under its key. -/
theorem get?_of_mem {table : Keyed α} (h : (keys table).Nodup) {pair : String × α}
    (hmem : pair ∈ table) : get? pair.1 table = some pair.2 := by
  induction table with
  | nil => cases hmem
  | cons first rest ih =>
    simp only [keys, List.map_cons, List.nodup_cons] at h
    rcases List.mem_cons.mp hmem with rfl | hmem
    · rw [get?, if_pos rfl]
    · have hne : first.1 ≠ pair.1 := fun heq => h.1 (heq ▸ List.mem_map_of_mem hmem)
      rw [get?, if_neg hne, ih h.2 hmem]

/-- What is found under a key is in the list. -/
theorem mem_of_get? {key : String} {a : α} {table : Keyed α} (h : get? key table = some a) :
    (key, a) ∈ table := by
  induction table with
  | nil => cases h
  | cons pair rest ih =>
    rw [get?] at h
    split at h
    · rename_i hkey
      cases h
      exact hkey ▸ List.mem_cons_self
    · exact List.mem_cons_of_mem _ (ih h)

/-- A key is among the keys just if something is found under it. -/
theorem mem_keys_iff {key : String} {table : Keyed α} :
    key ∈ keys table ↔ ∃ a, get? key table = some a := by
  rw [← contains_eq_true_iff, contains, Option.isSome_iff_exists]

/-- Where each key occurs once, what is found does not depend on the order. -/
theorem get?_of_perm {table other : Keyed α} (h : (keys table).Nodup) (hperm : table.Perm other)
    (key : String) : get? key other = get? key table := by
  have hother : (keys other).Nodup := (hperm.map Prod.fst).nodup_iff.mp h
  cases hfound : get? key table with
  | some a => exact get?_of_mem hother (hperm.subset (mem_of_get? hfound))
  | none =>
    refine get?_of_not_mem_keys fun hmem => ?_
    obtain ⟨a, ha⟩ := mem_keys_iff.mp ((hperm.map Prod.fst).symm.subset hmem)
    rw [hfound] at ha
    cases ha

/-- Replacing one content changes at most what is found under its key. -/
theorem get?_replace (before after : Keyed α) (key k : String) (a b : α) :
    get? k (before ++ (key, a) :: after) = get? k (before ++ (key, b) :: after) ∨
      get? k (before ++ (key, a) :: after) = some a ∧
        get? k (before ++ (key, b) :: after) = some b := by
  induction before with
  | nil =>
    by_cases hk : key = k
    · exact .inr ⟨if_pos hk, if_pos hk⟩
    · left
      simp only [List.nil_append, get?, if_neg hk]
  | cons first before ih =>
    by_cases hk : first.1 = k
    · left
      simp only [List.cons_append, get?, if_pos hk]
    · simpa only [List.cons_append, get?, if_neg hk] using ih

/-- A key that is overridden has the new content, any other the old one. -/
theorem get?_override {pairs : Keyed α} (h : (keys pairs).Nodup) (table : Keyed α) (key : String) :
    get? key (override table pairs) = (get? key pairs).or (get? key table) := by
  induction pairs generalizing table with
  | nil => rfl
  | cons pair rest ih =>
    simp only [keys, List.map_cons, List.nodup_cons] at h
    show get? key (override (insert pair.1 pair.2 table) rest) = _
    rw [ih h.2]
    by_cases hk : pair.1 = key
    · -- The key occurs once, so no later pair replaces its content.
      have hrest : get? key rest = none := get?_of_not_mem_keys (hk ▸ h.1)
      simp [get?, hrest, hk]
    · simp [get?, hk, get?_insert_of_ne (Ne.symm hk)]

end Keyed

end FieldLang

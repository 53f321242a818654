import FieldLang.Proofs.Grammar

/-!
# Reading by the Grammar

The reader climbs through the binding powers of tokens with a loop, and the grammar has one layer for
each level. Here they are shown to be the same: a list of tokens is read as an expression within a
bound on nesting exactly if the grammar derives that expression within that bound.

Powers and levels are two tables, one of the reader and one of the printer, and they have to order the
tokens alike. `Matches` says of a power that the reader demands and of a level that they refuse the same
tokens. It is all that is used of the numbers: the reader is followed at a power, the grammar at a level
that matches it, and the powers in the reader's table match the levels next to them.

What joins reader and grammar is the token after an expression. Extending stops where the next token binds
less tightly than demanded, which `Stops` says. After an expression of a level, `follow` tells which
tokens may come that are not part of it: one may bind exactly as tightly, since binary operators
group to the left, but none after a conditional, which groups to the right.

In one direction, `extension_sound` follows one round of the loop. It keeps that what has been read is
derived at some level and that the next token may follow that level, so the token itself picks the
rule of the grammar that applies. In the other direction, `ReadsAs` says how the tokens of a part
are read when something follows them. It describes the reader in the middle of its loop, because the
left operand of an operator is not read by a call of its own.

## Main definitions

* `tightness?`: The level of a token that extends an expression.
* `Matches`: A power and a level refuse the same tokens.
* `Stops`, `follow`: Which tokens end an expression.
* `Sound`: Readers that take off the front what the grammar derives.
* `ReadsAs`: How the tokens of a part are read.

## Theorems

* `matches_of_power?`: Powers and levels order the tokens alike.
* `extension_sound`, `extend_sound`: A round of the loop, and the whole loop.
* `expression_sound`: What is read is derived.
* `readsAs_of_derivesWithin`: What is derived is read.
* `ofTokens_eq_ok_iff`: Reading within a bound is deriving within it.
* `Derives.unique`: The grammar is unambiguous.
* `parse_follows_grammar`: Source texts are read as the grammar says.
-/

namespace FieldLang

/-- A sequence starts with a value if its first step has one. -/
@[simp] theorem ok_bind {ε α β : Type} (a : α) (f : α → Except ε β) :
    (Except.ok a >>= f) = f a :=
  rfl

/-- A sequence has a value when both its steps have one. -/
theorem bind_eq_ok_iff {ε α β : Type} {x : Except ε α} {f : α → Except ε β} {b : β} :
    x >>= f = .ok b ↔ ∃ a, x = .ok a ∧ f a = .ok b := by
  cases x with
  | error e =>
      constructor
      · intro h
        cases h
      · rintro ⟨_, h, _⟩
        cases h
  | ok a =>
      constructor
      · intro h
        exact ⟨a, rfl, h⟩
      · rintro ⟨_, h, hf⟩
        cases h
        exact hf

namespace Grammar

/-- The level of a token that can extend an expression to the right. -/
def tightness? : Token → Option Nat
  | .mark .dot => some Level.access
  | .mark .leftBracket => some Level.access
  | .mark .leftParen => some Level.access
  | .mark .question => some Level.conditional
  | .operator op => some op.level
  | _ => none

/-- No token at the front binds as tightly as demanded. -/
def Stops (demanded : Nat) (tokens : List Token) : Prop :=
  ∀ l, tightness? (Read.front tokens) = some l → l < demanded

/-- The level below which a token must bind to stand after an expression of a level. Binary
    operators group to the left, so one of the same level may follow; conditionals group to the
    right, so none may. -/
def follow (level : Nat) : Nat :=
  if level ≤ Level.conditional then Level.conditional else level + 1

theorem follow_mono {l m : Nat} (h : l ≤ m) : follow l ≤ follow m := by
  unfold follow
  by_cases hl : l ≤ Level.conditional
  · rw [if_pos hl]
    by_cases hm : m ≤ Level.conditional
    · exact Nat.le_of_eq (if_pos hm).symm
    · rw [if_neg hm]
      omega
  · rw [if_neg hl, if_neg (by omega)]
    omega

theorem le_of_lt_follow {l m : Nat} (h : l < follow m) : l ≤ m := by
  unfold follow at h
  by_cases hm : m ≤ Level.conditional
  · rw [if_pos hm, Level.conditional] at h
    omega
  · rw [if_neg hm] at h
    omega

/-- A conditional follows nothing as loose as itself. -/
theorem lt_of_conditional_lt_follow {m : Nat} (h : Level.conditional < follow m) :
    Level.conditional < m := by
  unfold follow at h
  by_cases hm : m ≤ Level.conditional
  · rw [if_pos hm] at h
    omega
  · omega

theorem follow_of_lt {l : Nat} (h : Level.conditional < l) : follow l = l + 1 :=
  if_neg (by omega)

theorem Stops.mono {l m : Nat} {tokens : List Token} (h : Stops l tokens) (hm : l ≤ m) :
    Stops m tokens :=
  fun k hk => Nat.lt_of_lt_of_le (h k hk) hm

/-- Every token that extends an expression binds at a level from that of conditionals to that of
    accesses, and none at that of unary operators. -/
theorem tightness?_range {t : Token} {l : Nat} (h : tightness? t = some l) :
    Level.conditional ≤ l ∧ l ≤ Level.access ∧ l ≠ Level.unary := by
  cases t with
  | mark m => cases m <;> simp only [tightness?, reduceCtorEq, Option.some.injEq] at h <;>
      (subst h; decide)
  | operator op =>
      simp only [tightness?, Option.some.injEq] at h
      subst h
      cases op <;> decide
  | _ => simp [tightness?] at h

/-- The powers and the level of every token that extends an expression, side by side. -/
def rows : List (Nat × Nat × Nat) :=
  [(4, 4, 1), (10, 11, 2), (20, 21, 3), (30, 31, 4), (40, 41, 5), (50, 51, 6), (60, 61, 7),
    (70, 71, 8), (90, 91, 10)]

/-- A token has powers just if it has a level, and they stand side by side. -/
theorem power?_cases (t : Token) :
    t.power? = none ∧ tightness? t = none ∨
      ∃ left right l, t.power? = some (left, right) ∧ tightness? t = some l ∧ (left, right, l) ∈ rows := by
  cases t with
  | mark m => cases m <;> first | exact .inl ⟨rfl, rfl⟩ | exact .inr ⟨_, _, _, rfl, rfl, by decide⟩
  | operator op => cases op <;> exact .inr ⟨_, _, _, rfl, rfl, by decide⟩
  | _ => exact .inl ⟨rfl, rfl⟩

/-- A power that is demanded refuses the same tokens as a level. -/
def Matches (power level : Nat) : Prop :=
  ∀ t left right l, Token.power? t = some (left, right) → tightness? t = some l →
    (left < power ↔ l < level)

/-- Only the tokens in the table count for whether a power matches a level. -/
theorem matches_of_rows {power level : Nat}
    (h : ∀ row ∈ rows, (row.1 < power ↔ row.2.2 < level)) : Matches power level := by
  intro t left right l hpower hlevel
  obtain ⟨hnone, -⟩ | ⟨left', right', l', hpower', hlevel', hrow⟩ := power?_cases t
  · rw [hnone] at hpower
    cases hpower
  · rw [hpower] at hpower'
    rw [hlevel] at hlevel'
    cases hpower'
    cases hlevel'
    exact h _ hrow

/-- Powers and levels order the tokens alike. The power of a token at its left matches its level, and the
    power that it demands at its right matches the level below which a token may follow. -/
theorem matches_of_power? {t : Token} {left right l : Nat} (hpower : t.power? = some (left, right))
    (hlevel : tightness? t = some l) : Matches left l ∧ Matches right (follow l) := by
  have hrows : ∀ row ∈ rows, ∀ row' ∈ rows,
      (row'.1 < row.1 ↔ row'.2.2 < row.2.2) ∧ (row'.1 < row.2.1 ↔ row'.2.2 < follow row.2.2) := by
    decide
  obtain ⟨hnone, -⟩ | ⟨left', right', l', hpower', hlevel', hrow⟩ := power?_cases t
  · rw [hnone] at hpower
    cases hpower
  · rw [hpower] at hpower'
    rw [hlevel] at hlevel'
    cases hpower'
    cases hlevel'
    exact ⟨matches_of_rows fun row hrow' => (hrows _ hrow row hrow').1,
      matches_of_rows fun row hrow' => (hrows _ hrow row hrow').2⟩

/-- Where nothing is demanded, a whole expression is read. -/
theorem matches_zero : Matches 0 Level.conditional :=
  matches_of_rows (by decide)

theorem matches_unary : Matches Power.unary Level.unary :=
  matches_of_rows (by decide)

/-- A token that extends nothing stops every reader. -/
theorem stops_of_none {tokens : List Token} (h : tightness? (Read.front tokens) = none) (d : Nat) :
    Stops d tokens := by
  intro l hl
  rw [h] at hl
  cases hl

/-- Nothing binds tighter than an access. -/
theorem stops_access (tokens : List Token) : Stops (follow Level.access) tokens := by
  intro l hl
  have hr := (tightness?_range hl).2.1
  rw [follow_of_lt (by decide)]
  omega

/-- No token binds at the level of unary operators, so after one it makes no difference. -/
theorem Stops.unary {tokens : List Token} (h : Stops (follow Level.unary) tokens) :
    Stops Level.unary tokens := by
  intro l hl
  have hr := (tightness?_range hl).2.2
  have hlt := h l hl
  rw [follow_of_lt (by decide)] at hlt
  omega

/-- Nothing that extends an expression follows where one of the loosest level ends. -/
theorem tightness?_eq_none_of_stops {tokens : List Token} (h : Stops Level.conditional tokens) :
    tightness? (Read.front tokens) = none := by
  refine Option.eq_none_iff_forall_ne_some.mpr fun l hl => ?_
  exact absurd (tightness?_range hl).1 (Nat.not_le.mpr (h l hl))

/-- Where nothing is absorbed, extending leaves an expression as it is. -/
theorem extend_of_stops {nested : Nat → Reader Expr} {p d : Nat} (hp : Matches p d)
    {tokens : List Token} (h : Stops d tokens) (count : Nat) (e : Expr) :
    Read.extend nested p count e tokens = .ok (e, tokens) := by
  cases count with
  | zero => rfl
  | succ count =>
      cases tokens with
      | nil => rfl
      | cons t rest =>
          rw [Read.extend]
          obtain ⟨hnone, -⟩ | ⟨left, right, l, hpower, hlevel, -⟩ := power?_cases t
          · rw [hnone]
          · have hweak : left < p := (hp t left right l hpower hlevel).mpr (h l hlevel)
            rw [hpower]
            exact if_pos hweak

/-- Where something is absorbed, a token is at the front that binds as tightly as demanded. -/
theorem exists_of_not_stops {d : Nat} {tokens : List Token} (h : ¬ Stops d tokens) :
    ∃ t rest left right l, tokens = t :: rest ∧ t.power? = some (left, right) ∧
      tightness? t = some l ∧ d ≤ l := by
  cases tokens with
  | nil => exact absurd (stops_of_none rfl d) h
  | cons t rest =>
      obtain ⟨-, hnone⟩ | ⟨left, right, l, hpower, hlevel, -⟩ := power?_cases t
      · exact absurd (stops_of_none (show tightness? (Read.front (t :: rest)) = none from hnone) d) h
      · refine ⟨t, rest, left, right, l, rfl, hpower, hlevel, Nat.le_of_not_lt fun hlt => h ?_⟩
        intro k hk
        have hkl := hlevel.symm.trans hk
        cases hkl
        exact hlt

/-- A token that binds as tightly as demanded extends an expression once. -/
theorem extend_of_le {nested : Nat → Reader Expr} {p d : Nat} (hp : Matches p d) {t : Token}
    {left right l : Nat} (hpower : t.power? = some (left, right)) (hlevel : tightness? t = some l)
    (hd : d ≤ l) (count : Nat) (e : Expr) (rest : List Token) :
    Read.extend nested p (count + 1) e (t :: rest) =
      Read.extension nested right e t rest >>= fun x => Read.extend nested p count x.1 x.2 := by
  have hstrong : ¬ left < p := fun hlt =>
    absurd ((hp t left right l hpower hlevel).mp hlt) (Nat.not_lt.mpr hd)
  rw [Read.extend, hpower]
  exact if_neg hstrong

/-- What a mark is expected to be taken from. -/
theorem expect_eq_ok_iff {m : Mark} {tokens rest : List Token} :
    Read.expect m tokens = .ok rest ↔ tokens = .mark m :: rest := by
  cases tokens with
  | nil => simp [Read.expect]
  | cons t ts =>
      cases t with
      | mark k =>
          by_cases hk : k = m
          · simp [Read.expect, hk]
          · simp [Read.expect, hk]
      | _ => simp [Read.expect]

theorem propertyName_cons {t : Token} {name : String} (h : t.property? = some name)
    (rest : List Token) : Read.propertyName (t :: rest) = .ok (name, rest) := by
  cases t <;> simp only [Token.property?, reduceCtorEq, Option.some.injEq] at h <;> (subst h; rfl)

theorem propertyName_sound {tokens rest : List Token} {name : String}
    (h : Read.propertyName tokens = .ok (name, rest)) :
    ∃ t, tokens = t :: rest ∧ t.property? = some name := by
  cases tokens with
  | nil => cases h
  | cons t ts => cases t <;> cases h <;> exact ⟨_, rfl, rfl⟩

/-- A reader takes off the front what the grammar derives within a bound, and all of it. -/
def Sound (n : Nat) (nested : Nat → Reader Expr) : Prop :=
  ∀ p d tokens e rest, Matches p d → Level.conditional ≤ d → d ≤ Level.unary →
    nested p tokens = .ok (e, rest) →
    ∃ ts, tokens = ts ++ rest ∧ DerivesWithin n ts (.expr d e) ∧ Stops d rest

section

variable {n : Nat} {nested : Nat → Reader Expr} (hn : Sound n nested)

include hn

/-- What is nested without a demand is a whole expression. -/
theorem Sound.whole {tokens rest : List Token} {e : Expr} (h : nested 0 tokens = .ok (e, rest)) :
    ∃ ts, tokens = ts ++ rest ∧ DerivesWithin n ts (.expr Level.conditional e) := by
  obtain ⟨ts, htokens, hts, -⟩ := hn 0 _ tokens e rest matches_zero (Nat.le_refl _) (by decide) h
  exact ⟨ts, htokens, hts⟩

theorem argumentList_sound {count : Nat} {tokens rest : List Token} {args : List Expr}
    (h : Read.argumentList nested count tokens = .ok (args, rest)) :
    ∃ as, tokens = as ++ .mark .rightParen :: rest ∧ DerivesWithin n as (.arguments args) ∧
      args ≠ [] := by
  induction count generalizing tokens rest args with
  | zero => cases h
  | succ count ih =>
      rw [Read.argumentList, bind_eq_ok_iff] at h
      rcases h with ⟨⟨arg, rest₁⟩, harg, h⟩
      rcases hn.whole harg with ⟨ts, rfl, hts⟩
      dsimp only at h
      -- After an argument stands a comma, with more arguments to come, or the closing parenthesis.
      split at h
      · rw [bind_eq_ok_iff] at h
        rcases h with ⟨⟨args', rest₂⟩, hargs, h⟩
        cases h
        rcases ih hargs with ⟨as, rfl, has, hne⟩
        rcases List.exists_cons_of_ne_nil hne with ⟨a, more, rfl⟩
        exact ⟨ts ++ .mark .comma :: as, by simp, .nextArgument hts has, by simp⟩
      · rw [bind_eq_ok_iff] at h
        rcases h with ⟨rest₂, hexp, h⟩
        cases h
        rw [expect_eq_ok_iff] at hexp
        subst hexp
        exact ⟨ts, rfl, .lastArgument hts, by simp⟩

theorem arguments_sound {tokens rest : List Token} {args : List Expr}
    (h : Read.arguments nested tokens = .ok (args, rest)) :
    ∃ as, tokens = as ++ .mark .rightParen :: rest ∧ DerivesWithin n as (.arguments args) := by
  unfold Read.arguments at h
  split at h
  · cases h
    exact ⟨[], rfl, .noArgument⟩
  · rcases argumentList_sound hn h with ⟨as, htokens, has, _⟩
    exact ⟨as, htokens, has⟩

/-- An operand is a unary operator with its own operand, or something that an access can follow. -/
theorem operand_sound {tokens rest : List Token} {e : Expr}
    (h : Read.operand nested tokens = .ok (e, rest)) :
    ∃ ts m, tokens = ts ++ rest ∧ Level.unary ≤ m ∧ DerivesWithin (n + 1) ts (.expr m e) ∧
      Stops (follow m) rest := by
  -- Atoms are read at once; what is in parentheses or after a unary operator is nested.
  have hatom : ∀ {t : Token} {e : Expr}, t.atom? = some e → ∃ ts m, t :: rest = ts ++ rest ∧
      Level.unary ≤ m ∧ DerivesWithin (n + 1) ts (.expr m e) ∧ Stops (follow m) rest :=
    fun {t e} ht => ⟨[t], Level.access, rfl, by decide, .atom ht, stops_access rest⟩
  have hunary : ∀ {op : UnaryOp} {inner : Expr} {tokens : List Token},
      nested Power.unary tokens = .ok (inner, rest) →
      ∃ ts m, op.token :: tokens = ts ++ rest ∧ Level.unary ≤ m ∧
        DerivesWithin (n + 1) ts (.expr m (.unary op inner)) ∧ Stops (follow m) rest := by
    intro op inner tokens hin
    rcases hn _ _ _ _ _ matches_unary (by decide) (Nat.le_refl _) hin with ⟨ts, rfl, hts, hstop⟩
    exact ⟨op.token :: ts, Level.unary, rfl, Nat.le_refl _, .unary hts, hstop.mono (by decide)⟩
  unfold Read.operand at h
  split at h
  -- The case of parentheses: they are read to their end, and an access may follow.
  case h_7 tokens =>
    rw [bind_eq_ok_iff] at h
    rcases h with ⟨⟨inner, rest₁⟩, hin, h⟩
    rcases hn.whole hin with ⟨ts, rfl, hts⟩
    dsimp only at h
    rw [bind_eq_ok_iff] at h
    rcases h with ⟨rest₂, hexp, h⟩
    cases h
    rw [expect_eq_ok_iff] at hexp
    subst hexp
    exact ⟨.mark .leftParen :: (ts ++ [.mark .rightParen]), Level.access, by simp, by decide,
      .group hts, stops_access rest⟩
  case h_8 tokens =>
    rw [bind_eq_ok_iff] at h
    rcases h with ⟨⟨inner, rest₁⟩, hin, h⟩
    cases h
    exact @hunary .negate _ _ hin
  case h_9 tokens =>
    rw [bind_eq_ok_iff] at h
    rcases h with ⟨⟨inner, rest₁⟩, hin, h⟩
    cases h
    exact @hunary .not _ _ hin
  all_goals first | (cases h; exact hatom rfl) | cases h

/-- One round of the loop that extends an operand. What has been read so far binds at a level `m`,
    and the next token may follow something of that level, so it decides which rule of the grammar
    applies to the whole. The same holds after the round, at the level of the token. -/
theorem extension_sound {m left right l : Nat} {lhs e : Expr} {t : Token} {ts tokens rest : List Token}
    (hpower : t.power? = some (left, right)) (hlevel : tightness? t = some l)
    (hlhs : DerivesWithin (n + 1) ts (.expr m lhs)) (hfollow : l < follow m)
    (h : Read.extension nested right lhs t tokens = .ok (e, rest)) :
    ∃ vs, tokens = vs ++ rest ∧ DerivesWithin (n + 1) (ts ++ t :: vs) (.expr l e) ∧
      Stops (follow l) rest := by
  have hright := (matches_of_power? hpower hlevel).2
  have hlow := (tightness?_range hlevel).1
  -- What is extended binds as tightly as the token, so an access follows accesses only.
  have hsame : DerivesWithin (n + 1) ts (.expr l lhs) := hlhs.lower hlow (le_of_lt_follow hfollow)
  cases t with
  | mark k =>
      cases k with
      | dot =>
          cases hlevel
          rw [Read.extension, bind_eq_ok_iff] at h
          rcases h with ⟨⟨name, rest₁⟩, hname, h⟩
          rcases propertyName_sound hname with ⟨t, rfl, ht⟩
          cases h
          exact ⟨[t], rfl, .member hsame ht, stops_access _⟩
      | leftBracket =>
          cases hlevel
          rw [Read.extension, bind_eq_ok_iff] at h
          rcases h with ⟨⟨key, rest₁⟩, hkey, h⟩
          rcases hn.whole hkey with ⟨ks, rfl, hks⟩
          dsimp only at h
          rw [bind_eq_ok_iff] at h
          rcases h with ⟨rest₂, hexp, h⟩
          cases h
          rw [expect_eq_ok_iff] at hexp
          subst hexp
          exact ⟨ks ++ [.mark .rightBracket], by simp, .index hsame hks, stops_access _⟩
      | leftParen =>
          cases hlevel
          -- A call needs a plain name in front of it; anything else is refused.
          cases lhs with
          | identifier name =>
              rw [Read.extension, bind_eq_ok_iff] at h
              rcases h with ⟨⟨args, rest₁⟩, hargs, h⟩
              rcases arguments_sound hn hargs with ⟨as, rfl, has⟩
              cases h
              exact ⟨as ++ [.mark .rightParen], by simp, .call hsame has, stops_access _⟩
          | _ => cases h
      | question =>
          cases hlevel
          rw [Read.extension, bind_eq_ok_iff] at h
          rcases h with ⟨⟨thenBranch, rest₁⟩, hthen, h⟩
          rcases hn.whole hthen with ⟨us, rfl, hus⟩
          dsimp only at h
          rw [bind_eq_ok_iff] at h
          rcases h with ⟨rest₂, hexp, h⟩
          rw [expect_eq_ok_iff] at hexp
          subst hexp
          rw [bind_eq_ok_iff] at h
          rcases h with ⟨⟨elseBranch, rest₃⟩, helse, h⟩
          cases h
          rcases hn _ _ _ _ _ hright (by decide) (by decide) helse with ⟨ws, rfl, hws, hnext⟩
          -- The condition must bind tighter than a conditional, or the question mark were part
          -- of it.
          have hcond : DerivesWithin (n + 1) ts (.expr (Level.conditional + 1) lhs) :=
            hlhs.lower (by decide) (lt_of_conditional_lt_follow hfollow)
          exact ⟨us ++ .mark .colon :: ws, by simp, .conditional hcond hus hws, hnext⟩
      | _ => cases hlevel
  | operator op =>
      cases hlevel
      have hb := level_bounds op
      rw [Read.extension, bind_eq_ok_iff] at h
      rcases h with ⟨⟨rhs, rest₁⟩, hrhs, h⟩
      cases h
      rw [follow_of_lt hb.1] at hright ⊢
      rcases hn _ _ _ _ _ hright (by omega) (by omega) hrhs with ⟨us, rfl, hus, hnext⟩
      exact ⟨us, rfl, .binary hsame hus, hnext⟩
  | _ => cases hlevel

/-- The loop that extends an operand, by induction on its rounds. -/
theorem extend_sound {p d count m : Nat} (hp : Matches p d) (hd : Level.conditional ≤ d) {lhs e : Expr}
    {ts tokens rest : List Token} (hcount : tokens.length ≤ count) (hm : d ≤ m)
    (hlhs : DerivesWithin (n + 1) ts (.expr m lhs)) (hfollow : Stops (follow m) tokens)
    (h : Read.extend nested p count lhs tokens = .ok (e, rest)) :
    ∃ us, tokens = us ++ rest ∧ DerivesWithin (n + 1) (ts ++ us) (.expr d e) ∧ Stops d rest := by
  -- The count starts at the number of tokens left, and every round takes at least one of them.
  induction count generalizing lhs tokens ts m with
  | zero =>
      rw [List.length_eq_zero_iff.mp (Nat.le_zero.mp hcount)] at h ⊢
      cases h
      exact ⟨[], rfl, by simpa using hlhs.lower hd hm, stops_of_none rfl d⟩
  | succ count ih =>
      by_cases hstop : Stops d tokens
      · rw [extend_of_stops hp hstop] at h
        cases h
        exact ⟨[], rfl, by simpa using hlhs.lower hd hm, hstop⟩
      · rcases exists_of_not_stops hstop with ⟨t, tokens, left, right, l, rfl, hpower, hlevel, hdl⟩
        rw [extend_of_le hp hpower hlevel hdl, bind_eq_ok_iff] at h
        rcases h with ⟨⟨lhs', tokens'⟩, hext, h⟩
        rcases extension_sound hn hpower hlevel hlhs (hfollow l hlevel) hext with
          ⟨vs, rfl, hlhs', hfollow'⟩
        rw [List.length_cons, List.length_append] at hcount
        rcases ih (by omega) hdl hlhs' hfollow' h with ⟨us, rfl, hus, hend⟩
        refine ⟨t :: (vs ++ us), by simp, ?_, hend⟩
        rwa [List.append_assoc, List.cons_append] at hus

end

/-- Reading an expression takes off the front what the grammar derives within the budget. -/
theorem expression_sound (limit budget : Nat) : Sound budget (Read.expression limit budget) := by
  -- The budget of nested readers is one less, so the induction is on it.
  induction budget with
  | zero =>
      intro p d tokens e rest _ _ _ h
      cases h
  | succ budget ih =>
      intro p d tokens e rest hp hlow hd h
      rw [Read.expression, bind_eq_ok_iff] at h
      rcases h with ⟨⟨lhs, rest₁⟩, hlhs, h⟩
      rcases operand_sound ih hlhs with ⟨ts, m, rfl, hm, hts, hfollow⟩
      rcases extend_sound ih hp hlow (Nat.le_refl _) (Nat.le_trans hd hm) hts hfollow h with
        ⟨us, rfl, hus, hstop⟩
      exact ⟨ts ++ us, by rw [List.append_assoc], hus, hstop⟩

/-- How the tokens of a part are read. An expression is read up to the point where the reader looks
    for an extension, in whatever place at most as demanding as its level; of what follows it is
    asked only that it does not belong to a part at the end of the expression. Arguments are read to
    their closing parenthesis. -/
def ReadsAs (limit n : Nat) (ts : List Token) : Part → Prop
  | .expr l e => ∀ budget p d rest, n ≤ budget + 1 → Matches p d → d ≤ l → Stops (follow l) rest →
      ∃ count, rest.length ≤ count ∧ Read.expression limit (budget + 1) p (ts ++ rest) =
        Read.extend (Read.expression limit budget) p count e rest
  | .arguments args => ∀ budget rest, n ≤ budget → args ≠ [] → ∀ count, args.length ≤ count →
      Read.argumentList (Read.expression limit budget) count (ts ++ .mark .rightParen :: rest) =
        .ok (args, rest)

/-- A nested expression is read whole if nothing after it is absorbed. -/
theorem ReadsAs.whole {limit n l : Nat} {ts : List Token} {e : Expr}
    (h : ReadsAs limit n ts (.expr l e)) (hpos : 0 < n) {budget p d : Nat} (hn : n ≤ budget)
    (hp : Matches p d) (hd : d ≤ l) {rest : List Token} (hfollow : Stops (follow l) rest)
    (hstop : Stops d rest) : Read.expression limit budget p (ts ++ rest) = .ok (e, rest) := by
  rcases Nat.exists_eq_succ_of_ne_zero (by omega : budget ≠ 0) with ⟨b, rfl⟩
  rcases h b p d rest hn hp hd hfollow with ⟨count, _, hread⟩
  rw [hread, extend_of_stops hp hstop]

/-- A nested expression is read whole before a token that extends nothing. -/
theorem ReadsAs.closed {limit n : Nat} {ts : List Token} {e : Expr}
    (h : ReadsAs limit n ts (.expr Level.conditional e)) (hpos : 0 < n) {budget : Nat}
    (hn : n ≤ budget) {rest : List Token} (hrest : tightness? (Read.front rest) = none) :
    Read.expression limit budget 0 (ts ++ rest) = .ok (e, rest) :=
  h.whole hpos hn matches_zero (Nat.le_refl _) (stops_of_none hrest _) (stops_of_none hrest _)

/-- The arguments of a call have at least as many tokens as there are arguments. -/
theorem DerivesWithin.length_le {n : Nat} {as : List Token} {args : List Expr}
    (h : DerivesWithin n as (.arguments args)) : args.length ≤ as.length := by
  generalize hp : Part.arguments args = p at h
  induction h generalizing args with
  | noArgument =>
      cases hp
      exact Nat.le_refl _
  | lastArgument h _ =>
      cases hp
      rcases h.head with ⟨t, rest, rfl, _⟩
      simp
  | nextArgument _ _ _ iha =>
      cases hp
      have hle := iha rfl
      simp only [List.length_cons, List.length_append] at hle ⊢
      omega
  | _ => cases hp

/-- The arguments of a call are read to the closing parenthesis. -/
theorem ReadsAs.arguments {limit n : Nat} {as : List Token} {args : List Expr}
    (h : ReadsAs limit n as (.arguments args)) (hd : DerivesWithin n as (.arguments args))
    {budget : Nat} (hn : n ≤ budget) (rest : List Token) :
    Read.arguments (Read.expression limit budget) (as ++ .mark .rightParen :: rest) =
      .ok (args, rest) := by
  -- Only an empty list starts with the closing parenthesis, so all others are read one by one.
  have hmore : args ≠ [] → ∀ t more, as = t :: more → t ≠ .mark .rightParen →
      Read.arguments (Read.expression limit budget) (as ++ .mark .rightParen :: rest) =
        .ok (args, rest) := by
    intro hargs t more has ht
    have hlen := hd.length_le
    have hread := h budget rest hn hargs ((as ++ .mark .rightParen :: rest).length + 1) (by
      rw [List.length_append]
      omega)
    rw [← hread, has, List.cons_append]
    unfold Read.arguments
    split
    · rename_i heq
      cases heq
      exact absurd rfl ht
    · rfl
  cases hd with
  | noArgument => rfl
  | lastArgument hone =>
      rcases hone.head with ⟨t, more, rfl, ht⟩
      exact hmore (by simp) t more rfl ht
  | nextArgument hfirst _ =>
      rcases hfirst.head with ⟨t, more, rfl, ht⟩
      exact hmore (by simp) t _ rfl ht

/-- After an expression is read, one more round of the loop extends it. -/
theorem ReadsAs.round {limit n l budget p d : Nat} {ts : List Token} {e : Expr}
    (h : ReadsAs limit n ts (.expr l e)) (hlow : Level.conditional < l) (hb : n ≤ budget + 1)
    (hp : Matches p d) {t : Token} {left right k : Nat} (hpower : t.power? = some (left, right))
    (hlevel : tightness? t = some k) (hdk : d ≤ k) (hkl : k ≤ l) {vs rest : List Token} {e' : Expr}
    (hext : Read.extension (Read.expression limit budget) right e t (vs ++ rest) = .ok (e', rest)) :
    ∃ count, rest.length ≤ count ∧
      Read.expression limit (budget + 1) p (ts ++ t :: vs ++ rest) =
        Read.extend (Read.expression limit budget) p count e' rest := by
  have hfollow : Stops (follow l) (t :: (vs ++ rest)) := by
    intro k' hk'
    have hkk := hlevel.symm.trans hk'
    cases hkk
    rw [follow_of_lt hlow]
    omega
  rcases h budget p d _ hb hp (Nat.le_trans hdk hkl) hfollow with ⟨count, hcount, hread⟩
  rw [List.length_cons, List.length_append] at hcount
  rcases Nat.exists_eq_succ_of_ne_zero (by omega : count ≠ 0) with ⟨count, rfl⟩
  refine ⟨count, by omega, ?_⟩
  rw [List.append_assoc, List.cons_append, hread, extend_of_le hp hpower hlevel hdk, hext, ok_bind]

/-- Whatever the grammar derives is read, by induction on the derivation. The bound of a nested part
    is one less than that of the whole, as is the budget that is left to read it. -/
theorem readsAs_of_derivesWithin (limit : Nat) {n : Nat} {ts : List Token} {p : Part}
    (h : DerivesWithin n ts p) : ReadsAs limit n ts p := by
  induction h with
  | tighter hl _ ih =>
      intro budget p d rest hb hp hd hfollow
      exact ih budget p d rest hb hp (Nat.le_succ_of_le hd)
        (hfollow.mono (follow_mono (Nat.le_succ _)))
  | @conditional n cs ts es c t e _ ht he ihc iht ihe =>
      intro budget p d rest hb hp hd hfollow
      have hn : n ≤ budget := Nat.le_of_succ_le_succ hb
      have hthen : Read.expression limit budget 0 (ts ++ .mark .colon :: (es ++ rest)) =
          .ok (t, .mark .colon :: (es ++ rest)) := iht.closed ht.pos hn rfl
      -- The branch at the end is read in a place as demanding as the whole, so both stop at the same
      -- token.
      have hright : Matches Power.conditional Level.conditional :=
        (matches_of_power? (t := .mark .question) rfl rfl).2
      have helse := ihe.whole he.pos hn hright (Nat.le_refl _) hfollow hfollow
      refine ihc.round (by decide) hb hp (t := .mark .question) rfl rfl hd (by decide) ?_
      simp only [List.append_assoc, List.cons_append, Read.extension, hthen, ok_bind, Read.expect,
        if_true, helse]
      rfl
  | @binary n ls rs op l r _ hr ihl ihr =>
      intro budget p d rest hb hp hd hfollow
      obtain ⟨-, hnone⟩ | ⟨left, right, k, hpower, hlevel, -⟩ := power?_cases (.operator op)
      · cases hnone
      · cases hlevel
        have hlow := (level_bounds op).1
        have hright := (matches_of_power? hpower rfl).2
        rw [follow_of_lt hlow] at hfollow hright
        -- The right operand stands in a tighter place, so an operator of the same level ends it.
        have hrhs := ihr.whole hr.pos (Nat.le_of_succ_le_succ hb) hright (Nat.le_refl _)
          (hfollow.mono (by rw [follow_of_lt (by omega)]; omega)) hfollow
        refine ihl.round hlow hb hp hpower rfl hd (Nat.le_refl _) ?_
        rw [Read.extension, hrhs]
        rfl
  | @unary n ts op e h ih =>
      intro budget p d rest hb hp hd hfollow
      have hin := ih.whole h.pos (Nat.le_of_succ_le_succ hb) matches_unary (Nat.le_refl _) hfollow
        hfollow.unary
      refine ⟨rest.length, Nat.le_refl _, ?_⟩
      cases op <;> simp only [UnaryOp.token, List.cons_append, Read.expression, Read.operand, hin,
        ok_bind] <;> rfl
  | @member n os t o name _ ht ih =>
      intro budget p d rest hb hp hd hfollow
      refine ih.round (by decide) hb hp (t := .mark .dot) rfl rfl hd (Nat.le_refl _) ?_
      rw [List.singleton_append, Read.extension, propertyName_cons ht]
      rfl
  | @index n os ks o k _ hk iho ihk =>
      intro budget p d rest hb hp hd hfollow
      have hkey : Read.expression limit budget 0 (ks ++ .mark .rightBracket :: rest) =
          .ok (k, .mark .rightBracket :: rest) :=
        ihk.closed hk.pos (Nat.le_of_succ_le_succ hb) rfl
      refine iho.round (by decide) hb hp (t := .mark .leftBracket) rfl rfl hd (Nat.le_refl _) ?_
      simp only [List.append_assoc, List.cons_append, List.nil_append, Read.extension, hkey, ok_bind,
        Read.expect, if_true]
      rfl
  | @call n os as name args _ ha iho iha =>
      intro budget p d rest hb hp hd hfollow
      have hargs := iha.arguments ha (Nat.le_of_succ_le_succ hb) rest
      refine iho.round (by decide) hb hp (t := .mark .leftParen) rfl rfl hd (Nat.le_refl _) ?_
      simp only [List.append_assoc, List.cons_append, List.nil_append, Read.extension, hargs, ok_bind]
      rfl
  | @atom n t e h =>
      intro budget p d rest hb hp hd hfollow
      refine ⟨rest.length, Nat.le_refl _, ?_⟩
      cases t <;> cases h <;> rfl
  | @group n ts e h ih =>
      intro budget p d rest hb hp hd hfollow
      have hin : Read.expression limit budget 0 (ts ++ .mark .rightParen :: rest) =
          .ok (e, .mark .rightParen :: rest) :=
        ih.closed h.pos (Nat.le_of_succ_le_succ hb) rfl
      refine ⟨rest.length, Nat.le_refl _, ?_⟩
      simp only [List.append_assoc, List.cons_append, List.nil_append, Read.expression, Read.operand,
        hin, ok_bind, Read.expect, if_true]
      rfl
  | noArgument =>
      intro budget rest _ hne
      exact absurd rfl hne
  | @lastArgument n ts e h ih =>
      intro budget rest hb _ count hcount
      have hin : Read.expression limit budget 0 (ts ++ .mark .rightParen :: rest) =
          .ok (e, .mark .rightParen :: rest) := ih.closed h.pos hb rfl
      rcases Nat.exists_eq_succ_of_ne_zero (by simp at hcount; omega : count ≠ 0) with ⟨count, rfl⟩
      simp only [Read.argumentList, hin, ok_bind, Read.expect, if_true]
      rfl
  | @nextArgument n ts as e a args h _ ih iha =>
      intro budget rest hb _ count hcount
      have hin : Read.expression limit budget 0
          (ts ++ .mark .comma :: (as ++ .mark .rightParen :: rest)) =
          .ok (e, .mark .comma :: (as ++ .mark .rightParen :: rest)) := ih.closed h.pos hb rfl
      rcases Nat.exists_eq_succ_of_ne_zero (by simp at hcount; omega : count ≠ 0) with ⟨count, rfl⟩
      have hmore := iha budget rest hb (by simp) count (Nat.le_of_succ_le_succ hcount)
      simp only [List.append_assoc, List.cons_append, Read.argumentList, hin, ok_bind, hmore]
      rfl

/-- A whole list of tokens is read as an expression within a bound exactly if the grammar derives it
    within that bound. -/
theorem ofTokens_eq_ok_iff {limit : Nat} {tokens : List Token} {e : Expr} :
    Expr.ofTokens limit tokens = .ok e ↔ DerivesWithin limit tokens (.expr Level.conditional e) := by
  constructor
  · intro h
    unfold Expr.ofTokens at h
    split at h
    · cases h
    · rw [bind_eq_ok_iff] at h
      rcases h with ⟨⟨e', rest⟩, hread, h⟩
      rcases (expression_sound limit limit).whole hread with ⟨ts, rfl, hts⟩
      -- Tokens that are left over are refused.
      cases rest with
      | nil =>
          cases h
          simpa using hts
      | cons t rest => cases h
  · intro h
    have hread := (readsAs_of_derivesWithin limit h).closed h.pos (Nat.le_refl limit)
      (show tightness? (Read.front []) = none from rfl)
    rcases h.head with ⟨t, rest, rfl, _⟩
    rw [List.append_nil] at hread
    simp only [Expr.ofTokens, Read.fullExpression, hread, ok_bind]
    rfl

/-- The tokens of a source are read as the grammar says, whatever the bound on nesting. -/
theorem parseWithin_eq {limit : Nat} {source : String} {tokens : List Token}
    (h : Token.ofSource source = .ok tokens) :
    Expr.parseWithin limit source = Expr.ofTokens limit tokens := by
  rw [Expr.parseWithin, h, ok_bind]

/-- A list of tokens derives at most one expression: both are what is read from it. -/
theorem Derives.unique {tokens : List Token} {e e' : Expr} (h : Derives tokens (.conditional e))
    (h' : Derives tokens (.conditional e')) : e = e' := by
  -- With as many levels as tokens nothing is refused, so the reader finds either tree.
  have hread := ofTokens_eq_ok_iff.mpr h.withinLength
  rw [ofTokens_eq_ok_iff.mpr h'.withinLength] at hread
  cases hread
  rfl

/-- The reader accepts exactly what the grammar derives, and builds the tree of the derivation. A
    bound on nesting can only refuse, and from the number of tokens on it does not even do that. So
    the grammar is unambiguous. -/
theorem parse_follows_grammar (source : String) (tokens : List Token)
    (h : Token.ofSource source = .ok tokens) :
    (∀ limit e, Expr.parseWithin limit source = .ok e → Derives tokens (.conditional e)) ∧
    (∀ e, Derives tokens (.conditional e) →
      ∀ limit, tokens.length ≤ limit → Expr.parseWithin limit source = .ok e) ∧
    (∀ ts e e', Derives ts (.conditional e) → Derives ts (.conditional e') → e = e') := by
  refine ⟨?_, ?_, fun ts e e' hts hts' => hts.unique hts'⟩
  · intro limit e hparse
    rw [parseWithin_eq h, ofTokens_eq_ok_iff] at hparse
    exact hparse.derives
  · intro e hder limit hlimit
    rw [parseWithin_eq h, ofTokens_eq_ok_iff]
    exact hder.withinLength.mono hlimit

/-- A conditional in another, the call of a name in parentheses and a keyword as a property are
    derived as they are read. -/
theorem derives_nested_conditionals :
    Token.ofSource "(f)(1) ?? a ? b : -c.null ? d : e" = .ok
      [.mark .leftParen, .identifier "f", .mark .rightParen, .mark .leftParen, .number 1,
        .mark .rightParen, .operator .coalesce, .identifier "a", .mark .question, .identifier "b",
        .mark .colon, .operator .subtract, .identifier "c", .mark .dot, .null, .mark .question,
        .identifier "d", .mark .colon, .identifier "e"] ∧
    Derives
      [.mark .leftParen, .identifier "f", .mark .rightParen, .mark .leftParen, .number 1,
        .mark .rightParen, .operator .coalesce, .identifier "a", .mark .question, .identifier "b",
        .mark .colon, .operator .subtract, .identifier "c", .mark .dot, .null, .mark .question,
        .identifier "d", .mark .colon, .identifier "e"]
      (.conditional
        (.conditional (.binary .coalesce (.call "f" [.literal (.number 1)]) (.identifier "a"))
          (.identifier "b")
          (.conditional (.unary .negate (.member (.identifier "c") "null")) (.identifier "d")
            (.identifier "e")))) :=
  ⟨rfl, (parse_follows_grammar "(f)(1) ?? a ? b : -c.null ? d : e" _ rfl).1 100 _ rfl⟩

end Grammar

end FieldLang

import FieldLang.Expr.Printer
import FieldLang.Proofs.Spelling

/-!
# Printing and Reading Back

An expression that was read from a source and is printed is read again as the same expression,
within the same bound on nesting. The one exception are numerals too large for a number: they are
read as infinity, infinity is printed as a name, and so a name is read.

The proof goes over the tokens of the printed form, `Expr.tokens`. Two facts about them meet. They
derive the expression, with no deeper nesting than any other way of writing it, because the printer
adds parentheses only where the grammar leaves no choice: `Expr.nesting` is both what the printed
tokens need and what every derivation needs at least. And they are spelled by the printed text,
because every name, number and string is followed by something that ends it.

## Main definitions

* `Expr.nameInfinite`: An expression with names for its infinite numbers.
* `Expr.numbers`: The numbers among the literals of an expression.
* `Expr.Legible`: Expressions whose names, properties and literals can be written.
* `Expr.nesting`, `Expr.tokens`: The nesting and the tokens of the printed form.
* `Expr.Printed`: Expressions whose text spells their tokens.

## Theorems

* `nesting_le_of_derivesWithin`: No derivation is nested less deeply than the printed form.
* `derivesWithin_tokens`: The printed tokens derive the expression.
* `printed_of_legible`: The printed text spells the printed tokens.
* `legible_of_derivesWithin`: What is read from a source can be written.
* `parse_render`: What was read is read back from its text.
-/

namespace FieldLang

/-- Values that literals can be written for. -/
def Value.Legible : Value → Prop
  | .number n => Number.Unsigned n.toModel.unpack
  | .array _ => False
  | .object _ => False
  | .function _ => False
  | _ => True

/-- The token that a literal is written with. -/
def Value.token : Value → Token
  | .null => .null
  | .undefined => .undefined
  | .bool b => .boolean b
  | .number n => .number n
  | .string s => .string s
  | _ => .eof

namespace Expr

/-- Induction over the forms of an expression, with one hypothesis for all arguments of a call. -/
@[elab_as_elim]
theorem induction {motive : Expr → Prop} (literal : ∀ v, motive (.literal v))
    (identifier : ∀ name, motive (.identifier name))
    (member : ∀ object property, motive object → motive (.member object property))
    (index : ∀ object key, motive object → motive key → motive (.index object key))
    (binary : ∀ op lhs rhs, motive lhs → motive rhs → motive (.binary op lhs rhs))
    (unary : ∀ op operand, motive operand → motive (.unary op operand))
    (conditional : ∀ c t e, motive c → motive t → motive e → motive (.conditional c t e))
    (call : ∀ name args, (∀ a ∈ args, motive a) → motive (.call name args)) (e : Expr) :
    motive e :=
  @Expr.rec motive (fun args => ∀ a ∈ args, motive a) literal identifier member index binary unary
    conditional call (by simp) (fun _ _ he hes => List.forall_mem_cons.mpr ⟨he, hes⟩) e

mutual

/-- An expression with the name of infinity in place of its infinite numbers. -/
def nameInfinite : Expr → Expr
  | .literal (.number n) => if n.isInf then .identifier "Infinity" else .literal (.number n)
  | .literal v => .literal v
  | .identifier name => .identifier name
  | .member object property => .member object.nameInfinite property
  | .index object key => .index object.nameInfinite key.nameInfinite
  | .binary op lhs rhs => .binary op lhs.nameInfinite rhs.nameInfinite
  | .unary op operand => .unary op operand.nameInfinite
  | .conditional condition thenBranch elseBranch =>
    .conditional condition.nameInfinite thenBranch.nameInfinite elseBranch.nameInfinite
  | .call name args => .call name (nameInfiniteArgs args)

/-- The arguments of a call with the name of infinity in place of their infinite numbers. -/
def nameInfiniteArgs : List Expr → List Expr
  | [] => []
  | e :: es => e.nameInfinite :: nameInfiniteArgs es

end

mutual

/-- The numbers that the literals of an expression hold. -/
def numbers : Expr → List Float
  | .literal (.number n) => [n]
  | .literal _ => []
  | .identifier _ => []
  | .member object _ => object.numbers
  | .index object key => object.numbers ++ key.numbers
  | .binary _ lhs rhs => lhs.numbers ++ rhs.numbers
  | .unary _ operand => operand.numbers
  | .conditional condition thenBranch elseBranch =>
    condition.numbers ++ (thenBranch.numbers ++ elseBranch.numbers)
  | .call _ args => numbersArgs args

/-- The numbers in the literals of the arguments of a call. -/
def numbersArgs : List Expr → List Float
  | [] => []
  | e :: es => e.numbers ++ numbersArgs es

end

mutual

/-- Every name is a name in a source, every property a word, and every literal can be written. -/
def Legible : Expr → Prop
  | .literal v => v.Legible
  | .identifier name => Token.IsName name
  | .member object property => object.Legible ∧ Token.IsWord property
  | .index object key => object.Legible ∧ key.Legible
  | .binary _ lhs rhs => lhs.Legible ∧ rhs.Legible
  | .unary _ operand => operand.Legible
  | .conditional condition thenBranch elseBranch =>
    condition.Legible ∧ thenBranch.Legible ∧ elseBranch.Legible
  | .call name args => Token.IsName name ∧ LegibleArgs args

/-- All arguments of a call are legible. -/
def LegibleArgs : List Expr → Prop
  | [] => True
  | e :: es => e.Legible ∧ LegibleArgs es

end

/-- The nesting of an expression in a place that demands a level. -/
def deepen (demanded : Nat) (e : Expr) (n : Nat) : Nat :=
  if e.level < demanded then n + 1 else n

/-- The tokens of an expression in a place that demands a level. -/
def group (demanded : Nat) (e : Expr) (ts : List Token) : List Token :=
  if e.level < demanded then .mark .leftParen :: (ts ++ [.mark .rightParen]) else ts

mutual

/-- How deeply expressions are nested in the printed form of an expression. -/
def nesting : Expr → Nat
  | .literal _ => 1
  | .identifier _ => 1
  | .member object _ => deepen Level.access object object.nesting
  | .index object key => max (deepen Level.access object object.nesting) (key.nesting + 1)
  | .binary op lhs rhs =>
    max (deepen op.level lhs lhs.nesting) (deepen (op.level + 1) rhs rhs.nesting + 1)
  | .unary _ operand => deepen Level.unary operand operand.nesting + 1
  | .conditional condition thenBranch elseBranch =>
    max (deepen (Level.conditional + 1) condition condition.nesting)
      (max thenBranch.nesting elseBranch.nesting + 1)
  | .call _ args => nestingArgs args + 1

/-- How deeply expressions are nested in the arguments of a call. -/
def nestingArgs : List Expr → Nat
  | [] => 0
  | e :: es => max e.nesting (nestingArgs es)

end

mutual

/-- The tokens of the printed form of an expression. -/
def tokens : Expr → List Token
  | .literal v => [v.token]
  | .identifier name => [.identifier name]
  | .member object property =>
    group Level.access object object.tokens ++ [.mark .dot, Token.ofWord property]
  | .index object key =>
    group Level.access object object.tokens ++
      .mark .leftBracket :: (key.tokens ++ [.mark .rightBracket])
  | .binary op lhs rhs =>
    group op.level lhs lhs.tokens ++ .operator op :: group (op.level + 1) rhs rhs.tokens
  | .unary op operand => op.token :: group Level.unary operand operand.tokens
  | .conditional condition thenBranch elseBranch =>
    group (Level.conditional + 1) condition condition.tokens ++
      .mark .question :: (thenBranch.tokens ++ .mark .colon :: elseBranch.tokens)
  | .call name args =>
    .identifier name :: .mark .leftParen :: (tokensArgs args ++ [.mark .rightParen])

/-- The tokens of the arguments of a call. -/
def tokensArgs : List Expr → List Token
  | [] => []
  | [e] => e.tokens
  | e :: a :: args => e.tokens ++ .mark .comma :: tokensArgs (a :: args)

end

theorem conditional_le_level (e : Expr) : Level.conditional ≤ e.level := by
  cases e with
  | binary op _ _ => exact Nat.le_of_lt (Grammar.level_bounds op).1
  | _ => simp only [level]; decide

theorem le_deepen (l : Nat) (e : Expr) (n : Nat) : n ≤ deepen l e n := by
  unfold deepen
  split
  · omega
  · omega

theorem deepen_le (l : Nat) (e : Expr) (n : Nat) : deepen l e n ≤ n + 1 := by
  unfold deepen
  split
  · omega
  · omega

theorem deepen_of_le {l : Nat} {e : Expr} (h : l ≤ e.level) (n : Nat) : deepen l e n = n :=
  if_neg (by omega)

/-- A tighter place demands no fewer parentheses. -/
theorem deepen_mono {l m : Nat} (h : l ≤ m) (e : Expr) (n : Nat) : deepen l e n ≤ deepen m e n := by
  by_cases hl : l ≤ e.level
  · rw [deepen_of_le hl]
    exact le_deepen m e n
  · have hm : deepen m e n = n + 1 := if_pos (by omega)
    rw [hm]
    exact deepen_le l e n

end Expr

namespace Grammar

open FieldLang.Expr

/-- How deeply a part is nested at least, however it is written. -/
def Part.nesting : Part → Nat
  | .expr level e => deepen level e e.nesting
  | .arguments args => nestingArgs args

/-- At the level of its own form an expression needs no parentheses. -/
theorem nesting_level (e : Expr) : (Part.expr e.level e).nesting = e.nesting :=
  deepen_of_le (Nat.le_refl _) _

theorem nesting_of_atom {t : Token} {e : Expr} (h : t.atom? = some e) :
    (Part.expr Level.access e).nesting = 1 := by
  cases t <;> cases h <;> rfl

/-- No derivation is nested less deeply than the printed form: where it has fewer parentheses, the
    printed form has them because the place demands a tighter level. -/
theorem nesting_le_of_derivesWithin {n : Nat} {ts : List Token} {p : Part}
    (h : DerivesWithin n ts p) : p.nesting ≤ n := by
  -- A form is nested as its parts are in the places it puts them; that is what the hypotheses bound.
  induction h with
  | @tighter _ _ l e _ _ ih => exact Nat.le_trans (deepen_mono (Nat.le_succ l) e _) ih
  | @conditional n _ _ _ c t e _ _ _ ihc iht ihe =>
      have ht : t.nesting ≤ n := Nat.le_trans (le_deepen _ t _) iht
      have he : e.nesting ≤ n := Nat.le_trans (le_deepen _ e _) ihe
      have hc : deepen (Level.conditional + 1) c c.nesting ≤ n + 1 := ihc
      have hself := nesting_level (.conditional c t e)
      rw [nesting] at hself
      rw [show Level.conditional = (Expr.conditional c t e).level from rfl, hself]
      omega
  | @binary n _ _ op l r _ _ ihl ihr =>
      have hl : deepen op.level l l.nesting ≤ n + 1 := ihl
      have hr : deepen (op.level + 1) r r.nesting ≤ n := ihr
      have hself := nesting_level (.binary op l r)
      rw [nesting] at hself
      rw [show op.level = (Expr.binary op l r).level from rfl, hself]
      omega
  | @unary n _ op e _ ih =>
      have he : deepen Level.unary e e.nesting ≤ n := ih
      have hself := nesting_level (.unary op e)
      rw [nesting] at hself
      rw [show Level.unary = (Expr.unary op e).level from rfl, hself]
      omega
  | member _ _ ih => exact ih
  | @index n _ _ o k _ _ iho ihk =>
      have ho : deepen Level.access o o.nesting ≤ n + 1 := iho
      have hk : k.nesting ≤ n := Nat.le_trans (le_deepen _ k _) ihk
      have hself := nesting_level (.index o k)
      rw [nesting] at hself
      rw [show Level.access = (Expr.index o k).level from rfl, hself]
      omega
  | call _ _ _ iha => exact Nat.succ_le_succ iha
  | atom h =>
      rw [nesting_of_atom h]
      exact Nat.succ_le_succ (Nat.zero_le _)
  | @group n _ e _ ih =>
      have he : e.nesting ≤ n := Nat.le_trans (le_deepen _ e _) ih
      exact Nat.le_trans (deepen_le _ e _) (Nat.succ_le_succ he)
  | noArgument => exact Nat.zero_le _
  | @lastArgument n _ e _ ih =>
      have he : e.nesting ≤ n := Nat.le_trans (le_deepen _ e _) ih
      exact Nat.max_le.mpr ⟨he, Nat.zero_le _⟩
  | @nextArgument n _ _ e a args _ _ ih iha =>
      have he : e.nesting ≤ n := Nat.le_trans (le_deepen _ e _) ih
      exact Nat.max_le.mpr ⟨he, iha⟩

/-- Parentheses make an expression fit into any place, for one more level of nesting. -/
theorem DerivesWithin.inPlace {n l : Nat} {ts : List Token} {e : Expr}
    (h : DerivesWithin n ts (.expr e.level e)) (hlow : Level.conditional ≤ l)
    (hhigh : l ≤ Level.access) :
    DerivesWithin (deepen l e n) (Expr.group l e ts) (.expr l e) := by
  -- Parentheses are there exactly if the form of the expression is too loose for the place.
  by_cases hl : e.level < l
  · rw [deepen, if_pos hl, Expr.group, if_pos hl]
    have hgroup := DerivesWithin.group (h.lower (Nat.le_refl _) (conditional_le_level e))
    exact hgroup.lower hlow hhigh
  · rw [deepen, if_neg hl, Expr.group, if_neg hl]
    exact h.lower hlow (by omega)

theorem atom?_token {v : Value} (h : v.Legible) : v.token.atom? = some (.literal v) := by
  cases v with
  | array _ => exact h.elim
  | object _ => exact h.elim
  | function _ => exact h.elim
  | _ => rfl

theorem property?_ofWord (word : String) : (Token.ofWord word).property? = some word := by
  unfold Token.ofWord
  -- After a dot a keyword counts as the word that it is written as.
  repeat' split
  all_goals simp_all [Token.property?]

theorem derivesWithin_tokensArgs {args : List Expr}
    (ih : ∀ a ∈ args, a.Legible → DerivesWithin a.nesting a.tokens (.expr a.level a))
    (h : LegibleArgs args) :
    DerivesWithin (nestingArgs args) (tokensArgs args) (.arguments args) := by
  induction args with
  | nil => exact .noArgument
  | cons e es ihes =>
      have he := (ih e (by simp) h.1).lower (Nat.le_refl _) (conditional_le_level e)
      have hes := ihes (fun a ha => ih a (by simp [ha])) h.2
      have hleft : e.nesting ≤ nestingArgs (e :: es) := Nat.le_max_left ..
      have hright : nestingArgs es ≤ nestingArgs (e :: es) := Nat.le_max_right ..
      -- A comma stands only between two arguments.
      cases es with
      | nil => exact .lastArgument (he.mono hleft)
      | cons a args => exact .nextArgument (he.mono hleft) (hes.mono hright)

/-- The printed tokens derive the expression at the level of its form. -/
theorem derivesWithin_tokens {e : Expr} (h : e.Legible) :
    DerivesWithin e.nesting e.tokens (.expr e.level e) := by
  -- The nested parts of a form have one less to spend than the form.
  have hsplit : ∀ a b : Nat, ∃ m, max a (b + 1) = m + 1 ∧ b ≤ m := fun a b =>
    ⟨max a (b + 1) - 1, by omega, by omega⟩
  -- Each part is put in its place, with parentheses if the place demands a tighter level.
  induction e using Expr.induction with
  | literal v => exact .atom (atom?_token h)
  | identifier name => exact .atom rfl
  | member object property ih =>
      exact .member ((ih h.1).inPlace (by decide) (Nat.le_refl _)) (property?_ofWord property)
  | index object key iho ihk =>
      have ho := (iho h.1).inPlace (by decide) (Nat.le_refl Level.access)
      have hk := (ihk h.2).lower (Nat.le_refl _) (conditional_le_level key)
      rcases hsplit (deepen Level.access object object.nesting) key.nesting with ⟨m, hm, hkm⟩
      rw [nesting, hm]
      exact .index (ho.mono (by omega)) (hk.mono hkm)
  | binary op lhs rhs ihl ihr =>
      have hbounds := level_bounds op
      have hunary : Level.unary < Level.access := by decide
      have hl := (ihl h.1).inPlace (l := op.level) (by omega) (by omega)
      have hr := (ihr h.2).inPlace (l := op.level + 1) (by omega) (by omega)
      rcases hsplit (deepen op.level lhs lhs.nesting)
        (deepen (op.level + 1) rhs rhs.nesting) with ⟨m, hm, hrm⟩
      rw [nesting, hm]
      exact .binary (hl.mono (by omega)) (hr.mono hrm)
  | unary op operand ih => exact .unary ((ih h).inPlace (by decide) (by decide))
  | conditional c t e ihc iht ihe =>
      have hc := (ihc h.1).inPlace (l := Level.conditional + 1) (by decide) (by decide)
      have ht := (iht h.2.1).lower (Nat.le_refl _) (conditional_le_level t)
      have he := (ihe h.2.2).lower (Nat.le_refl _) (conditional_le_level e)
      rcases hsplit (deepen (Level.conditional + 1) c c.nesting) (max t.nesting e.nesting)
        with ⟨m, hm, hbranches⟩
      rw [nesting, hm]
      exact .conditional (hc.mono (by omega)) (ht.mono (by omega)) (he.mono (by omega))
  | call name args ih =>
      exact .call (.atom rfl) (derivesWithin_tokensArgs ih h.2)

/-- The expression or all the arguments are legible. -/
def Part.Legible : Part → Prop
  | .expr _ e => e.Legible
  | .arguments args => LegibleArgs args

theorem legible_of_atom? {t : Token} {e : Expr} (ht : t.WellFormed) (h : t.atom? = some e) :
    e.Legible := by
  cases t with
  | number n =>
      cases h
      exact ht
  | identifier name =>
      cases h
      exact ht
  | operator op => cases h
  | mark m => cases h
  | eof => cases h
  | _ =>
      cases h
      trivial

/-- After a dot every keyword is a word as well. -/
theorem isWord_of_property? {t : Token} {name : String} (ht : t.WellFormed)
    (h : t.property? = some name) : Token.IsWord name := by
  -- The keywords are checked one by one.
  cases t with
  | identifier name =>
      cases h
      exact ht.1
  | boolean b =>
      cases b with
      | true =>
          cases h
          exact Token.isWord_of_all rfl (by decide)
      | false =>
          cases h
          exact Token.isWord_of_all rfl (by decide)
  | null =>
      cases h
      exact Token.isWord_of_all rfl (by decide)
  | undefined =>
      cases h
      exact Token.isWord_of_all rfl (by decide)
  | _ => cases h

/-- What well formed tokens derive can be written. -/
theorem legible_of_derivesWithin {n : Nat} {ts : List Token} {p : Part} (h : DerivesWithin n ts p)
    (hts : ∀ t ∈ ts, t.WellFormed) : p.Legible := by
  -- The tokens of a part are among those of the whole.
  induction h with
  | tighter _ _ ih => exact ih hts
  | conditional _ _ _ ihc iht ihe =>
      exact ⟨ihc fun t ht => hts t (by simp [ht]), iht fun t ht => hts t (by simp [ht]),
        ihe fun t ht => hts t (by simp [ht])⟩
  | binary _ _ ihl ihr =>
      exact ⟨ihl fun t ht => hts t (by simp [ht]), ihr fun t ht => hts t (by simp [ht])⟩
  | unary _ ih => exact ih fun t ht => hts t (by simp [ht])
  | member _ ht ih =>
      exact ⟨ih fun t ht => hts t (by simp [ht]), isWord_of_property? (hts _ (by simp)) ht⟩
  | index _ _ iho ihk =>
      exact ⟨iho fun t ht => hts t (by simp [ht]), ihk fun t ht => hts t (by simp [ht])⟩
  | call _ _ iho iha =>
      exact ⟨iho fun t ht => hts t (by simp [ht]), iha fun t ht => hts t (by simp [ht])⟩
  | atom h => exact legible_of_atom? (hts _ (by simp)) h
  | group _ ih => exact ih fun t ht => hts t (by simp [ht])
  | noArgument => trivial
  | lastArgument _ ih => exact ⟨ih hts, trivial⟩
  | nextArgument _ _ ih iha =>
      exact ⟨ih fun t ht => hts t (by simp [ht]), iha fun t ht => hts t (by simp [ht])⟩

end Grammar

namespace Expr

open Token (Ends Spells)

/-- The text spells the tokens wherever something follows that ends a name or a numeral. It does not
    start with an equals sign, which would join an exclamation mark before it. -/
structure Printed (text : String) (ts : List Token) : Prop where
  head : ∃ c cs, text.toList = c :: cs ∧ c ≠ '='
  spells : ∀ {rest us}, Ends rest → Spells rest us → Spells (text.toList ++ rest) (ts ++ us)

namespace Printed

/-- A text put together from others starts as the first of them does. -/
theorem head_append {text : String} {ts : List Token} (h : Printed text ts) (cs : List Char) :
    ∃ c ds, text.toList ++ cs = c :: ds ∧ c ≠ '=' := by
  rcases h.head with ⟨c, ds, hchars, hc⟩
  exact ⟨c, ds ++ cs, by rw [hchars, List.cons_append], hc⟩

theorem group {text : String} {ts : List Token} (h : Printed text ts) :
    Printed ("(" ++ text ++ ")") (.mark .leftParen :: (ts ++ [.mark .rightParen])) where
  head := ⟨'(', _, by simp; rfl, by decide⟩
  spells := by
    intro rest us hrest hus
    have hclose : Spells (')' :: rest) (.mark .rightParen :: us) :=
      .mark (by decide) rfl hus
    have htext := h.spells (.cons (by decide) (by decide)) hclose
    have hopen : Spells ('(' :: (text.toList ++ ')' :: rest)) _ :=
      .mark (by decide) rfl htext
    simpa using hopen

theorem inPlace {e : Expr} (h : Printed e.render e.tokens) (l : Nat) :
    Printed (enclose l e e.render) (Expr.group l e e.tokens) := by
  by_cases hl : e.level < l
  · rw [enclose, if_pos hl, Expr.group, if_pos hl]
    exact h.group
  · rw [enclose, if_neg hl, Expr.group, if_neg hl]
    exact h

theorem word {word : String} (h : Token.IsWord word) : Printed word [Token.ofWord word] where
  head := by
    rcases h with ⟨c, cs, hchars, hstart, _⟩
    refine ⟨c, cs, hchars, ?_⟩
    rintro rfl
    exact absurd hstart (by decide)
  spells := fun hrest hus => .word h hrest hus

theorem name {name : String} (h : Token.IsName name) : Printed name [.identifier name] := by
  rw [← h.2]
  exact word h.1

theorem number {n : Float} (hn : Number.Unsigned n.toModel.unpack) (hfinite : n.isFinite = true)
    (hread : Number.ReadsBack n) : Printed (Number.text n) [.number n] where
  head := by
    rcases (Number.plain_chars hn hfinite).head with ⟨c, cs, hchars, hdigit⟩
    refine ⟨c, cs, by rw [Number.text, String.toList_ofList, hchars], ?_⟩
    rintro rfl
    exact absurd hdigit (by decide)
  spells := by
    intro rest us hrest hus
    rw [Number.text, String.toList_ofList]
    exact .number hn hfinite hread hrest hus

theorem quoted (s : String) : Printed (Text.quoted s) [.string s] where
  head := ⟨'\x22', _, by rw [Text.quoted, String.toList_ofList, List.cons_append], by decide⟩
  spells := fun _ hus => .quoted hus

theorem member {text property : String} {ts : List Token} (h : Printed text ts)
    (hp : Token.IsWord property) :
    Printed (text ++ "." ++ property) (ts ++ [.mark .dot, Token.ofWord property]) where
  head := by simpa using h.head_append ('.' :: property.toList)
  spells := by
    intro rest us hrest hus
    have hword : Spells (property.toList ++ rest) (Token.ofWord property :: us) :=
      .word hp hrest hus
    have hdot : Spells ('.' :: (property.toList ++ rest)) _ := .mark (by decide) rfl hword
    -- The point does not go on a numeral before it, because a word starts with no digit.
    have hends : Ends ('.' :: (property.toList ++ rest)) := by
      rcases hp with ⟨c, cs, hchars, hstart, _⟩
      rw [hchars]
      exact .dot (Token.isDigit_of_startsName hstart)
    simpa using h.spells hends hdot

theorem index {text key : String} {ts ks : List Token} (h : Printed text ts) (hk : Printed key ks) :
    Printed (text ++ "[" ++ key ++ "]")
      (ts ++ .mark .leftBracket :: (ks ++ [.mark .rightBracket])) where
  head := by simpa using h.head_append ('[' :: (key.toList ++ [']']))
  spells := by
    intro rest us hrest hus
    have hclose : Spells (']' :: rest) (.mark .rightBracket :: us) := .mark (by decide) rfl hus
    have hkey := hk.spells (.cons (by decide) (by decide)) hclose
    have hopen : Spells ('[' :: (key.toList ++ ']' :: rest)) _ := .mark (by decide) rfl hkey
    simpa using h.spells (.cons (by decide) (by decide)) hopen

/-- The blank after an operator keeps it from joining what follows. -/
theorem operator (op : BinaryOp) {rest : List Char} {us : List Token} (h : Spells rest us) :
    Spells (op.symbol.toList ++ ' ' :: rest) (.operator op :: us) := by
  have hblank := h.blank
  cases op with
  | equal => exact .symbol (l := ['=']) (by decide) rfl hblank
  | notEqual => exact .symbol (l := ['=']) (by decide) rfl hblank
  | lessOrEqual => exact .symbol (l := ['=']) (by decide) rfl hblank
  | greaterOrEqual => exact .symbol (l := ['=']) (by decide) rfl hblank
  | and => exact .symbol (l := ['&']) (by decide) rfl hblank
  | or => exact .symbol (l := ['|']) (by decide) rfl hblank
  | coalesce => exact .symbol (l := ['?']) (by decide) rfl hblank
  | _ => exact .mark (by decide) rfl hblank

theorem binary {lhs rhs : String} {ls rs : List Token} (op : BinaryOp) (hl : Printed lhs ls)
    (hr : Printed rhs rs) :
    Printed (lhs ++ " " ++ op.symbol ++ " " ++ rhs) (ls ++ .operator op :: rs) where
  head := by simpa using hl.head_append (' ' :: (op.symbol.toList ++ ' ' :: rhs.toList))
  spells := by
    intro rest us hrest hus
    have hop := operator op (hr.spells hrest hus)
    simpa using hl.spells (.cons (by decide) (by decide)) hop.blank

theorem unary {text : String} {ts : List Token} (op : UnaryOp) (h : Printed text ts) :
    Printed (op.symbol ++ text) (op.token :: ts) where
  head := by
    cases op with
    | negate => exact ⟨'-', text.toList, by simp [UnaryOp.symbol], by decide⟩
    | not => exact ⟨'!', text.toList, by simp [UnaryOp.symbol], by decide⟩
  spells := by
    intro rest us hrest hus
    have htext := h.spells hrest hus
    cases op with
    | negate =>
        have hminus : Spells ('-' :: (text.toList ++ rest)) _ := .mark (by decide) rfl htext
        simpa [UnaryOp.symbol, UnaryOp.token] using hminus
    | not =>
        -- An equals sign after the exclamation mark would make another operator of it.
        rcases h.head_append rest with ⟨c, cs, hchars, hc⟩
        rw [hchars] at htext
        have hnot : Spells ('!' :: c :: cs) _ :=
          .mark (by decide) (by simp [Token.symbol?, hc]; rfl) htext
        rw [← hchars] at hnot
        simpa [UnaryOp.symbol, UnaryOp.token] using hnot

theorem conditional {c t e : String} {cs ts es : List Token} (hc : Printed c cs) (ht : Printed t ts)
    (he : Printed e es) :
    Printed (c ++ " ? " ++ t ++ " : " ++ e)
      (cs ++ .mark .question :: (ts ++ .mark .colon :: es)) where
  head := by
    simpa using hc.head_append (" ? ".toList ++ (t.toList ++ (" : ".toList ++ e.toList)))
  spells := by
    intro rest us hrest hus
    have helse := he.spells hrest hus
    have hcolon : Spells (':' :: ' ' :: (e.toList ++ rest)) _ := .mark (by decide) rfl helse.blank
    have hthen := ht.spells (.cons (by decide) (by decide)) hcolon.blank
    have hquestion :
        Spells ('?' :: ' ' :: (t.toList ++ ' ' :: ':' :: ' ' :: (e.toList ++ rest))) _ :=
      .mark (by decide) rfl hthen.blank
    simpa using hc.spells (.cons (by decide) (by decide)) hquestion.blank

/-- Arguments end each other by commas, and the last one is ended by the parenthesis. -/
theorem arguments {args : List Expr} (h : ∀ a ∈ args, Printed a.render a.tokens) {rest : List Char}
    {us : List Token} (hrest : Ends rest) (hus : Spells rest us) :
    Spells ((String.intercalate ", " (renderArgs args)).toList ++ rest) (tokensArgs args ++ us) := by
  induction args with
  | nil => simpa [renderArgs, tokensArgs] using hus
  | cons e es ih =>
      have he := h e (by simp)
      cases es with
      | nil => simpa [renderArgs, tokensArgs] using he.spells hrest hus
      | cons a args =>
          have hes := ih fun b hb => h b (by simp [hb])
          have hcomma : Spells (',' :: ' ' :: _) _ := .mark (by decide) rfl hes.blank
          have hall := he.spells (.cons (by decide) (by decide)) hcomma
          simp only [renderArgs] at hall ⊢
          -- The joined text of a longer list is the first text, a comma and the rest.
          rw [String.intercalate_cons_cons]
          simpa [tokensArgs] using hall

theorem call {name : String} {args : List Expr} (hname : Token.IsName name)
    (h : ∀ a ∈ args, Printed a.render a.tokens) :
    Printed (name ++ "(" ++ String.intercalate ", " (renderArgs args) ++ ")")
      (.identifier name :: .mark .leftParen :: (tokensArgs args ++ [.mark .rightParen])) where
  head := by
    simpa using (Printed.name hname).head_append
      ('(' :: ((String.intercalate ", " (renderArgs args)).toList ++ [')']))
  spells := by
    intro rest us hrest hus
    have hclose : Spells (')' :: rest) (.mark .rightParen :: us) := .mark (by decide) rfl hus
    have hargs := arguments h (.cons (by decide) (by decide)) hclose
    have hopen : Spells ('(' :: _) _ := .mark (by decide) rfl hargs
    simpa using (Printed.name hname).spells (.cons (by decide) (by decide)) hopen

end Printed

theorem mem_of_legibleArgs {args : List Expr} (h : LegibleArgs args) : ∀ a ∈ args, a.Legible := by
  induction args with
  | nil => simp
  | cons e es ih => exact List.forall_mem_cons.mpr ⟨h.1, ih h.2⟩

theorem mem_numbersArgs {args : List Expr} {a : Expr} (ha : a ∈ args) {n : Float}
    (hn : n ∈ a.numbers) : n ∈ numbersArgs args := by
  induction args with
  | nil => simp at ha
  | cons e es ih =>
      rcases List.mem_cons.mp ha with rfl | ha
      · exact List.mem_append_left _ hn
      · exact List.mem_append_right _ (ih ha)

/-- The text of a legible value is spelled by its token. -/
theorem printed_literal {v : Value} (h : v.Legible)
    (hnumbers : ∀ n ∈ (Expr.literal v).numbers, n.isFinite = true ∧ Number.ReadsBack n) :
    Printed v.render [v.token] := by
  cases v with
  | number n =>
      have hn := hnumbers n (by simp [numbers])
      exact .number h hn.1 hn.2
  | string s => exact .quoted s
  | null => exact .word (Token.isWord_of_all rfl (by decide))
  | undefined =>
      exact .word (Token.isWord_of_all rfl (by decide))
  | bool b =>
      cases b with
      | true => exact .word (Token.isWord_of_all rfl (by decide))
      | false => exact .word (Token.isWord_of_all rfl (by decide))
  | array _ => exact h.elim
  | object _ => exact h.elim
  | function _ => exact h.elim

/-- The printed text spells the printed tokens, if the numbers are finite and read back. -/
theorem printed_of_legible {e : Expr} (h : e.Legible)
    (hnumbers : ∀ n ∈ e.numbers, n.isFinite = true ∧ Number.ReadsBack n) :
    Printed e.render e.tokens := by
  -- The text of each form puts the texts of its parts after one another, and so do the tokens.
  induction e using Expr.induction with
  | literal v => exact printed_literal h hnumbers
  | identifier name => exact .name h
  | member object property ih => exact ((ih h.1 hnumbers).inPlace _).member h.2
  | index object key iho ihk =>
      have ho := iho h.1 fun n hn => hnumbers n (List.mem_append_left _ hn)
      have hk := ihk h.2 fun n hn => hnumbers n (List.mem_append_right _ hn)
      exact (ho.inPlace _).index hk
  | binary op lhs rhs ihl ihr =>
      have hl := ihl h.1 fun n hn => hnumbers n (List.mem_append_left _ hn)
      have hr := ihr h.2 fun n hn => hnumbers n (List.mem_append_right _ hn)
      exact (hl.inPlace _).binary op (hr.inPlace _)
  | unary op operand ih => exact ((ih h hnumbers).inPlace _).unary op
  | conditional c t e ihc iht ihe =>
      have hc := ihc h.1 fun n hn => hnumbers n (List.mem_append_left _ hn)
      have ht := iht h.2.1 fun n hn =>
        hnumbers n (List.mem_append_right _ (List.mem_append_left _ hn))
      have he := ihe h.2.2 fun n hn =>
        hnumbers n (List.mem_append_right _ (List.mem_append_right _ hn))
      exact (hc.inPlace _).conditional ht he
  | call name args ih =>
      refine .call h.1 fun a ha => ?_
      exact ih a ha (mem_of_legibleArgs h.2 a ha) fun n hn => hnumbers n (mem_numbersArgs ha hn)

/-- A legible expression is read back from its text within every bound its nesting allows. -/
theorem parseWithin_render {e : Expr} (h : e.Legible)
    (hnumbers : ∀ n ∈ e.numbers, n.isFinite = true ∧ Number.ReadsBack n) {limit : Nat}
    (hlimit : e.nesting ≤ limit) : Expr.parseWithin limit e.render = .ok e := by
  -- At its end a text is followed by nothing, which ends names and numerals.
  have hspells : Spells e.render.toList e.tokens := by
    have hall := (printed_of_legible h hnumbers).spells .nil .nil
    rwa [List.append_nil, List.append_nil] at hall
  have hderives := (Grammar.derivesWithin_tokens h).lower (Nat.le_refl _) (conditional_le_level e)
  rw [Grammar.parseWithin_eq hspells.ofSource, Grammar.ofTokens_eq_ok_iff]
  exact hderives.mono hlimit

/-- The second expression is printed as the first one is, and its numbers are finite ones of the
    first. -/
structure Reprints (e e' : Expr) : Prop where
  level : e'.level = e.level
  nesting : e'.nesting = e.nesting
  render : e'.render = e.render
  legible : e'.Legible
  numbers : ∀ n ∈ e'.numbers, n ∈ e.numbers ∧ n.isFinite = true

/-- The same for the arguments of calls. -/
structure ReprintsArgs (as as' : List Expr) : Prop where
  nesting : nestingArgs as' = nestingArgs as
  render : renderArgs as' = renderArgs as
  legible : LegibleArgs as'
  numbers : ∀ n ∈ numbersArgs as', n ∈ numbersArgs as ∧ n.isFinite = true

theorem forall_mem_numbers_append {ns ms ns' ms' : List Float}
    (hns : ∀ n ∈ ns', n ∈ ns ∧ n.isFinite = true) (hms : ∀ n ∈ ms', n ∈ ms ∧ n.isFinite = true) :
    ∀ n ∈ ns' ++ ms', n ∈ ns ++ ms ∧ n.isFinite = true := by
  intro n hn
  rcases List.mem_append.mp hn with hn | hn
  · exact ⟨List.mem_append_left _ (hns n hn).1, (hns n hn).2⟩
  · exact ⟨List.mem_append_right _ (hms n hn).1, (hms n hn).2⟩

theorem isName_infinity : Token.IsName "Infinity" :=
  ⟨Token.isWord_of_all rfl (by decide), rfl⟩

theorem reprints_nameInfinite_number {n : Float} (h : Number.Unsigned n.toModel.unpack) :
    Reprints (.literal (.number n)) (Expr.literal (.number n)).nameInfinite := by
  rw [nameInfinite]
  -- The text of infinity is the name that is put in its place.
  by_cases hinf : n.isInf = true
  · rw [if_pos hinf]
    have htext : Number.text n = "Infinity" := by
      rw [Number.text, Number.chars_of_infinite h hinf, String.ofList_toList]
    exact ⟨rfl, rfl, htext.symm, isName_infinity, by simp [Expr.numbers]⟩
  · rw [if_neg hinf]
    have hfinite := Number.isFinite_of_not_isInf h (Bool.eq_false_iff.mpr hinf)
    exact ⟨rfl, rfl, rfl, h, by simpa [Expr.numbers] using hfinite⟩

theorem reprints_nameInfiniteArgs {args : List Expr}
    (h : ∀ a ∈ args, Reprints a a.nameInfinite) : ReprintsArgs args (nameInfiniteArgs args) := by
  induction args with
  | nil => exact ⟨rfl, rfl, trivial, by simp [nameInfiniteArgs, numbersArgs]⟩
  | cons e es ih =>
      have he := h e (by simp)
      have hes := ih fun a ha => h a (by simp [ha])
      refine ⟨?_, ?_, ⟨he.legible, hes.legible⟩, ?_⟩
      · rw [nameInfiniteArgs, nestingArgs, nestingArgs, he.nesting, hes.nesting]
      · rw [nameInfiniteArgs, renderArgs, renderArgs, he.render, hes.render]
      · exact forall_mem_numbers_append he.numbers hes.numbers

/-- A name for infinity is printed as infinity is. -/
theorem reprints_nameInfinite {e : Expr} (h : e.Legible) : Reprints e e.nameInfinite := by
  -- Parentheses depend on levels only, and the name has the level of the number.
  induction e using Expr.induction with
  | literal v =>
      cases v with
      | number n => exact reprints_nameInfinite_number h
      | _ => exact ⟨rfl, rfl, rfl, h, by simp [nameInfinite, Expr.numbers]⟩
  | identifier name => exact ⟨rfl, rfl, rfl, h, by simp [nameInfinite, Expr.numbers]⟩
  | member object property ih =>
      have ho := ih h.1
      refine ⟨rfl, ?_, ?_, ⟨ho.legible, h.2⟩, ho.numbers⟩
      · simp only [nameInfinite, Expr.nesting, deepen, ho.level, ho.nesting]
      · simp only [nameInfinite, Expr.render, enclose, ho.level, ho.render]
  | index object key iho ihk =>
      have ho := iho h.1
      have hk := ihk h.2
      refine ⟨rfl, ?_, ?_, ⟨ho.legible, hk.legible⟩, ?_⟩
      · simp only [nameInfinite, Expr.nesting, deepen, ho.level, ho.nesting, hk.nesting]
      · simp only [nameInfinite, Expr.render, enclose, ho.level, ho.render, hk.render]
      · exact forall_mem_numbers_append ho.numbers hk.numbers
  | binary op lhs rhs ihl ihr =>
      have hl := ihl h.1
      have hr := ihr h.2
      refine ⟨rfl, ?_, ?_, ⟨hl.legible, hr.legible⟩, ?_⟩
      · simp only [nameInfinite, Expr.nesting, deepen, hl.level, hr.level, hl.nesting, hr.nesting]
      · simp only [nameInfinite, Expr.render, enclose, hl.level, hr.level, hl.render, hr.render]
      · exact forall_mem_numbers_append hl.numbers hr.numbers
  | unary op operand ih =>
      have ho := ih h
      refine ⟨rfl, ?_, ?_, ho.legible, ho.numbers⟩
      · simp only [nameInfinite, Expr.nesting, deepen, ho.level, ho.nesting]
      · simp only [nameInfinite, Expr.render, enclose, ho.level, ho.render]
  | conditional c t e ihc iht ihe =>
      have hc := ihc h.1
      have ht := iht h.2.1
      have he := ihe h.2.2
      refine ⟨rfl, ?_, ?_, ⟨hc.legible, ht.legible, he.legible⟩, ?_⟩
      · simp only [nameInfinite, Expr.nesting, deepen, hc.level, hc.nesting, ht.nesting, he.nesting]
      · simp only [nameInfinite, Expr.render, enclose, hc.level, hc.render, ht.render, he.render]
      · exact forall_mem_numbers_append hc.numbers
          (forall_mem_numbers_append ht.numbers he.numbers)
  | call name args ih =>
      have hargs := reprints_nameInfiniteArgs fun a ha => ih a ha (mem_of_legibleArgs h.2 a ha)
      refine ⟨rfl, ?_, ?_, ⟨h.1, hargs.legible⟩, hargs.numbers⟩
      · simp only [nameInfinite, Expr.nesting, hargs.nesting]
      · simp only [nameInfinite, Expr.render, hargs.render]

theorem not_isInf_of_isFinite {n : Float} (h : n.isFinite = true) : n.isInf = false := by
  have hfinite : n.toModel.unpack.isFinite = true := h
  show n.toModel.unpack.isInf = false
  cases hu : n.toModel.unpack with
  | infinity sign =>
      rw [hu] at hfinite
      cases hfinite
  | _ => rfl

theorem nameInfiniteArgs_of_eq {args : List Expr} (h : ∀ a ∈ args, a.nameInfinite = a) :
    nameInfiniteArgs args = args := by
  induction args with
  | nil => rfl
  | cons e es ih => rw [nameInfiniteArgs, h e (by simp), ih fun a ha => h a (by simp [ha])]

/-- Without infinite numbers there is nothing to name. -/
theorem nameInfinite_of_finite {e : Expr} (h : ∀ n ∈ e.numbers, n.isFinite = true) :
    e.nameInfinite = e := by
  induction e using Expr.induction with
  | literal v =>
      cases v with
      | number n =>
          -- Only an infinite number is replaced, and this one is not.
          have hn := not_isInf_of_isFinite (h n (by simp [Expr.numbers]))
          rw [nameInfinite, hn]
          rfl
      | _ => rfl
  | identifier name => rfl
  | member object property ih => rw [nameInfinite, ih h]
  | index object key iho ihk =>
      rw [nameInfinite, iho fun n hn => h n (List.mem_append_left _ hn),
        ihk fun n hn => h n (List.mem_append_right _ hn)]
  | binary op lhs rhs ihl ihr =>
      rw [nameInfinite, ihl fun n hn => h n (List.mem_append_left _ hn),
        ihr fun n hn => h n (List.mem_append_right _ hn)]
  | unary op operand ih => rw [nameInfinite, ih h]
  | conditional c t e ihc iht ihe =>
      rw [nameInfinite, ihc fun n hn => h n (List.mem_append_left _ hn),
        iht fun n hn => h n (List.mem_append_right _ (List.mem_append_left _ hn)),
        ihe fun n hn => h n (List.mem_append_right _ (List.mem_append_right _ hn))]
  | call name args ih =>
      rw [nameInfinite, nameInfiniteArgs_of_eq fun a ha =>
        ih a ha fun n hn => h n (mem_numbersArgs ha hn)]

end Expr

/-- What is read from a source is read again from its printed text, within the same bound on
    nesting. Infinite numbers come back as a name; without them the expression comes back as it was.
    The text of a finite number is taken to be read as that number. -/
theorem parse_render (limit : Nat) (source : String) (e : Expr)
    (h : Expr.parseWithin limit source = .ok e)
    (hread : ∀ n ∈ e.numbers, n.isFinite = true → Number.ReadsBack n) :
    Expr.parseWithin limit e.render = .ok e.nameInfinite ∧
      ((∀ n ∈ e.numbers, n.isFinite = true) → Expr.parseWithin limit e.render = .ok e) := by
  rw [Expr.parseWithin, bind_eq_ok_iff] at h
  rcases h with ⟨tokens, hsource, htokens⟩
  rw [Grammar.ofTokens_eq_ok_iff] at htokens
  -- What has been read can be written, and not more deeply nested than it was.
  have hlegible : e.Legible :=
    Grammar.legible_of_derivesWithin htokens (Token.wellFormed_of_ofSource hsource)
  have hnesting : e.nesting ≤ limit :=
    Nat.le_trans (Expr.le_deepen _ e _) (Grammar.nesting_le_of_derivesWithin htokens)
  have hsame := Expr.reprints_nameInfinite hlegible
  -- It is printed like the expression with names for infinity, which has finite numbers only.
  have hback : Expr.parseWithin limit e.render = .ok e.nameInfinite := by
    rw [← hsame.render]
    exact Expr.parseWithin_render hsame.legible
      (fun n hn => ⟨(hsame.numbers n hn).2, hread n (hsame.numbers n hn).1 (hsame.numbers n hn).2⟩)
      (by rw [hsame.nesting]; exact hnesting)
  refine ⟨hback, fun hfinite => ?_⟩
  rw [hback, Expr.nameInfinite_of_finite hfinite]

/-- An infinite numeral among finite ones, nested as deeply as the bound allows, comes back as a
    name. -/
theorem parse_render_infinite :
    ∃ e, Expr.parseWithin 5 "(f(-(1.5), 1e999))[2 - (3 - y . null)]" = .ok e ∧
      e.render = "f(-1.5, Infinity)[2 - (3 - y.null)]" ∧
      Expr.parseWithin 5 e.render = .ok e.nameInfinite := by
  refine ⟨.index
    (.call "f" [.unary .negate (.literal (.number 1.5)), .literal (.number 1e999)])
    (.binary .subtract (.literal (.number 2))
      (.binary .subtract (.literal (.number 3)) (.member (.identifier "y") "null"))),
    rfl, by decide +kernel, ?_⟩
  refine (parse_render 5 "(f(-(1.5), 1e999))[2 - (3 - y . null)]" _ rfl ?_).1
  intro n hn hfinite
  simp only [Expr.numbers, Expr.numbersArgs, List.append_nil, List.nil_append, List.cons_append,
    List.mem_cons, List.not_mem_nil, or_false] at hn
  rcases hn with rfl | rfl | rfl | rfl
  · rfl
  · exact absurd hfinite (by decide +kernel)
  · rfl
  · rfl

end FieldLang

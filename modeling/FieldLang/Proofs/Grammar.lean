import FieldLang.Expr.Parser

/-!
# The Grammar of Expressions

Which lists of tokens write which expressions, without saying how they are read. The grammar is
stratified: conditionals at the loosest, then one layer for each group of binary operators, which
group to the left, then the unary operators, then accesses and calls, then what stands for itself.

`Derives` is the grammar. It names its layers and lists the operators of each, so it owes nothing to
the levels that the reader and the printer share. `DerivesWithin` is the same grammar told by those
levels, and bounds in addition how deeply expressions are nested in each other: each rule says which
of its parts continue the expression they stand in and which open a nested one. A left operand, the
object of an access and the condition of a conditional continue, everything else is nested.

The two agree. A derivation within some depth is a derivation, and a derivation needs no more depth
than it has tokens, so the bound never refuses an expression for good.

## Main definitions

* `Token.atom?`, `Token.property?`, `UnaryOp.token`: What single tokens write.
* `layers`: The binary operators, from the loosest layer to the tightest.
* `Phrase`, `Derives`: What a list of tokens can be derived as, and the grammar.
* `Part`, `DerivesWithin`: The same by levels, with a bound on nesting.
* `Phrase.part`, `Part.phrase`: From layers to levels and back.

## Theorems

* `DerivesWithin.mono`: A larger bound derives the same.
* `DerivesWithin.lower`: What binds tighter than demanded is derived as well.
* `DerivesWithin.derives`: Deriving by levels is deriving.
* `Derives.withinLength`: The number of tokens is bound enough.
-/

namespace FieldLang

/-- The expression that a single token writes. -/
def Token.atom? : Token → Option Expr
  | .number n => some (.literal (.number n))
  | .string s => some (.literal (.string s))
  | .boolean b => some (.literal (.bool b))
  | .null => some (.literal .null)
  | .undefined => some (.literal .undefined)
  | .identifier name => some (.identifier name)
  | _ => none

/-- The name of the property that a token writes after a dot, where the keywords are names too. -/
def Token.property? : Token → Option String
  | .identifier name => some name
  | .boolean b => some (if b then "true" else "false")
  | .null => some "null"
  | .undefined => some "undefined"
  | _ => none

/-- The token of a unary operator. -/
def UnaryOp.token : UnaryOp → Token
  | .negate => .operator .subtract
  | .not => .mark .not

namespace Grammar

/-- The binary operators, from the loosest layer to the tightest. -/
def layers : List (List BinaryOp) :=
  [[.coalesce], [.or], [.and], [.equal, .notEqual],
    [.lessThan, .lessOrEqual, .greaterThan, .greaterOrEqual], [.add, .subtract],
    [.multiply, .divide, .modulo]]

/-- What a list of tokens can be derived as: an expression of a layer, or the arguments of a call.
    -/
inductive Phrase where
  | conditional (e : Expr)
  /-- The layer of binary operators with a number; after the last one come the unary operators. -/
  | binary (layer : Nat) (e : Expr)
  | unary (e : Expr)
  | access (e : Expr)
  | primary (e : Expr)
  | arguments (args : List Expr)

/-- The tokens derive the phrase. -/
inductive Derives : List Token → Phrase → Prop
  | ofBinary {ts e} (h : Derives ts (.binary 0 e)) : Derives ts (.conditional e)
  | conditional {cs ts es c t e} (hc : Derives cs (.binary 0 c)) (ht : Derives ts (.conditional t))
      (he : Derives es (.conditional e)) :
      Derives (cs ++ .mark .question :: (ts ++ .mark .colon :: es))
        (.conditional (.conditional c t e))
  | ofTighter {ts i e} (hi : i < layers.length) (h : Derives ts (.binary (i + 1) e)) :
      Derives ts (.binary i e)
  /-- The right operand comes from the next tighter layer. -/
  | binary {ls rs i ops op l r} (hi : layers[i]? = some ops) (hop : op ∈ ops)
      (hl : Derives ls (.binary i l)) (hr : Derives rs (.binary (i + 1) r)) :
      Derives (ls ++ .operator op :: rs) (.binary i (.binary op l r))
  | ofUnary {ts e} (h : Derives ts (.unary e)) : Derives ts (.binary layers.length e)
  | unary {ts op e} (h : Derives ts (.unary e)) : Derives (op.token :: ts) (.unary (.unary op e))
  | ofAccess {ts e} (h : Derives ts (.access e)) : Derives ts (.unary e)
  | member {os t o name} (ho : Derives os (.access o)) (ht : t.property? = some name) :
      Derives (os ++ [.mark .dot, t]) (.access (.member o name))
  | index {os ks o k} (ho : Derives os (.access o)) (hk : Derives ks (.conditional k)) :
      Derives (os ++ .mark .leftBracket :: (ks ++ [.mark .rightBracket])) (.access (.index o k))
  /-- Only a bare name is called. -/
  | call {os as name args} (ho : Derives os (.access (.identifier name)))
      (ha : Derives as (.arguments args)) :
      Derives (os ++ .mark .leftParen :: (as ++ [.mark .rightParen])) (.access (.call name args))
  | ofPrimary {ts e} (h : Derives ts (.primary e)) : Derives ts (.access e)
  | atom {t e} (h : t.atom? = some e) : Derives [t] (.primary e)
  | group {ts e} (h : Derives ts (.conditional e)) :
      Derives (.mark .leftParen :: (ts ++ [.mark .rightParen])) (.primary e)
  | noArgument : Derives [] (.arguments [])
  | lastArgument {ts e} (h : Derives ts (.conditional e)) : Derives ts (.arguments [e])
  | nextArgument {ts as e a args} (h : Derives ts (.conditional e))
      (ha : Derives as (.arguments (a :: args))) :
      Derives (ts ++ .mark .comma :: as) (.arguments (e :: a :: args))

/-- What is derived by levels: an expression that binds at least as tightly as a level demands, or
    the arguments of a call. -/
inductive Part where
  | expr (level : Nat) (e : Expr)
  | arguments (args : List Expr)

/-- The tokens derive the part, and expressions are nested in it at most as deeply as the bound
    allows. The bound of arguments is that of each of them. -/
inductive DerivesWithin : Nat → List Token → Part → Prop
  | tighter {n ts l e} (hl : Level.conditional ≤ l) (h : DerivesWithin n ts (.expr (l + 1) e)) :
      DerivesWithin n ts (.expr l e)
  | conditional {n cs ts es c t e}
      (hc : DerivesWithin (n + 1) cs (.expr (Level.conditional + 1) c))
      (ht : DerivesWithin n ts (.expr Level.conditional t))
      (he : DerivesWithin n es (.expr Level.conditional e)) :
      DerivesWithin (n + 1) (cs ++ .mark .question :: (ts ++ .mark .colon :: es))
        (.expr Level.conditional (.conditional c t e))
  | binary {n ls rs op l r} (hl : DerivesWithin (n + 1) ls (.expr op.level l))
      (hr : DerivesWithin n rs (.expr (op.level + 1) r)) :
      DerivesWithin (n + 1) (ls ++ .operator op :: rs) (.expr op.level (.binary op l r))
  | unary {n ts op e} (h : DerivesWithin n ts (.expr Level.unary e)) :
      DerivesWithin (n + 1) (op.token :: ts) (.expr Level.unary (.unary op e))
  | member {n os t o name} (ho : DerivesWithin n os (.expr Level.access o))
      (ht : t.property? = some name) :
      DerivesWithin n (os ++ [.mark .dot, t]) (.expr Level.access (.member o name))
  | index {n os ks o k} (ho : DerivesWithin (n + 1) os (.expr Level.access o))
      (hk : DerivesWithin n ks (.expr Level.conditional k)) :
      DerivesWithin (n + 1) (os ++ .mark .leftBracket :: (ks ++ [.mark .rightBracket]))
        (.expr Level.access (.index o k))
  | call {n os as name args} (ho : DerivesWithin (n + 1) os (.expr Level.access (.identifier name)))
      (ha : DerivesWithin n as (.arguments args)) :
      DerivesWithin (n + 1) (os ++ .mark .leftParen :: (as ++ [.mark .rightParen]))
        (.expr Level.access (.call name args))
  | atom {n t e} (h : t.atom? = some e) : DerivesWithin (n + 1) [t] (.expr Level.access e)
  | group {n ts e} (h : DerivesWithin n ts (.expr Level.conditional e)) :
      DerivesWithin (n + 1) (.mark .leftParen :: (ts ++ [.mark .rightParen]))
        (.expr Level.access e)
  | noArgument {n} : DerivesWithin n [] (.arguments [])
  | lastArgument {n ts e} (h : DerivesWithin n ts (.expr Level.conditional e)) :
      DerivesWithin n ts (.arguments [e])
  | nextArgument {n ts as e a args} (h : DerivesWithin n ts (.expr Level.conditional e))
      (ha : DerivesWithin n as (.arguments (a :: args))) :
      DerivesWithin n (ts ++ .mark .comma :: as) (.arguments (e :: a :: args))

/-- The level of a layer. What stands for itself binds as tightly as an access. -/
def Phrase.part : Phrase → Part
  | .conditional e => .expr Level.conditional e
  | .binary layer e => .expr (Level.conditional + 1 + layer) e
  | .unary e => .expr Level.unary e
  | .access e => .expr Level.access e
  | .primary e => .expr Level.access e
  | .arguments args => .arguments args

/-- The layer of a level. -/
def Part.phrase : Part → Phrase
  | .expr level e =>
    if level ≤ Level.conditional then .conditional e
    else if level < Level.unary then .binary (level - (Level.conditional + 1)) e
    else if level < Level.access then .unary e
    else .access e
  | .arguments args => .arguments args

/-- A binary operator binds tighter than a conditional and less tightly than a unary operator. -/
theorem level_bounds (op : BinaryOp) : Level.conditional < op.level ∧ op.level < Level.unary := by
  cases op <;> decide

/-- The operators of a layer bind at its level. -/
theorem level_of_mem_layers {i : Nat} {ops : List BinaryOp} {op : BinaryOp}
    (hi : layers[i]? = some ops) (hop : op ∈ ops) : op.level = Level.conditional + 1 + i := by
  -- There are finitely many layers, so the table of levels is checked entry by entry.
  have hall : ∀ i < layers.length, ∀ op ∈ layers[i]?.getD [],
      op.level = Level.conditional + 1 + i := by
    decide
  have hlt : i < layers.length := (List.getElem?_eq_some_iff.mp hi).1
  exact hall i hlt op (by rwa [hi])

/-- Every operator is in the layer of its level. -/
theorem exists_layer (op : BinaryOp) :
    ∃ i ops, op.level = Level.conditional + 1 + i ∧ layers[i]? = some ops ∧ op ∈ ops := by
  refine ⟨op.level - (Level.conditional + 1), ?_⟩
  cases op <;> exact ⟨_, rfl, rfl, by decide⟩

namespace DerivesWithin

/-- A larger bound derives the same. -/
theorem mono {n : Nat} {ts : List Token} {p : Part} (h : DerivesWithin n ts p) :
    ∀ {m : Nat}, n ≤ m → DerivesWithin m ts p := by
  -- A rule with a nested part takes one from the bound, so the larger bound has one to give too.
  have hsucc : ∀ {n m : Nat}, n + 1 ≤ m → ∃ k, m = k + 1 ∧ n ≤ k := fun {n m} hm =>
    ⟨m - 1, by omega, by omega⟩
  induction h with
  | tighter hl _ ih => exact fun hm => .tighter hl (ih hm)
  | conditional _ _ _ ihc iht ihe =>
      intro m hm
      rcases hsucc hm with ⟨k, rfl, hk⟩
      exact .conditional (ihc hm) (iht hk) (ihe hk)
  | binary _ _ ihl ihr =>
      intro m hm
      rcases hsucc hm with ⟨k, rfl, hk⟩
      exact .binary (ihl hm) (ihr hk)
  | unary _ ih =>
      intro m hm
      rcases hsucc hm with ⟨k, rfl, hk⟩
      exact .unary (ih hk)
  | member _ ht ih => exact fun hm => .member (ih hm) ht
  | index _ _ iho ihk =>
      intro m hm
      rcases hsucc hm with ⟨k, rfl, hk⟩
      exact .index (iho hm) (ihk hk)
  | call _ _ iho iha =>
      intro m hm
      rcases hsucc hm with ⟨k, rfl, hk⟩
      exact .call (iho hm) (iha hk)
  | atom h =>
      intro m hm
      rcases hsucc hm with ⟨k, rfl, _⟩
      exact .atom h
  | group _ ih =>
      intro m hm
      rcases hsucc hm with ⟨k, rfl, hk⟩
      exact .group (ih hk)
  | noArgument => exact fun _ => .noArgument
  | lastArgument _ ih => exact fun hm => .lastArgument (ih hm)
  | nextArgument _ _ ih iha => exact fun hm => .nextArgument (ih hm) (iha hm)

/-- What binds at one level is derived at every looser one. -/
theorem lower {n l m : Nat} {ts : List Token} {e : Expr} (h : DerivesWithin n ts (.expr m e))
    (hl : Level.conditional ≤ l) (hm : l ≤ m) : DerivesWithin n ts (.expr l e) := by
  induction hm with
  | refl => exact h
  | step hlm ih => exact ih (.tighter (Nat.le_trans hl hlm) h)

/-- No expression is free of nesting: it counts itself. -/
theorem pos {n l : Nat} {ts : List Token} {e : Expr} (h : DerivesWithin n ts (.expr l e)) :
    0 < n := by
  generalize hp : Part.expr l e = p at h
  -- Rules that pass on to another part keep its bound; the others count one themselves.
  induction h generalizing l e with
  | tighter _ _ ih => exact ih rfl
  | member _ _ ih => exact ih rfl
  | noArgument => cases hp
  | lastArgument => cases hp
  | nextArgument => cases hp
  | _ => exact Nat.succ_pos _

/-- Nothing binds tighter than an access. -/
theorem level_le {n l : Nat} {ts : List Token} {e : Expr} (h : DerivesWithin n ts (.expr l e)) :
    l ≤ Level.access := by
  generalize hp : Part.expr l e = p at h
  induction h generalizing l e with
  | tighter _ _ ih =>
      cases hp
      exact Nat.le_of_succ_le (ih rfl)
  | @binary _ _ _ op _ _ _ _ _ _ =>
      cases hp
      exact Nat.le_trans (Nat.le_of_lt (level_bounds op).2) (by decide)
  | noArgument => cases hp
  | lastArgument => cases hp
  | nextArgument => cases hp
  | _ =>
      cases hp
      decide

/-- An expression starts with a token, which is not a closing parenthesis. -/
theorem head {n l : Nat} {ts : List Token} {e : Expr} (h : DerivesWithin n ts (.expr l e)) :
    ∃ t rest, ts = t :: rest ∧ t ≠ .mark .rightParen := by
  generalize hp : Part.expr l e = p at h
  -- Most forms start as their first part does, the others with a token of their own.
  induction h generalizing l e with
  | tighter _ _ ih => exact ih rfl
  | conditional _ _ _ ihc =>
      rcases ihc rfl with ⟨t, rest, rfl, ht⟩
      exact ⟨t, _, rfl, ht⟩
  | binary _ _ ihl =>
      rcases ihl rfl with ⟨t, rest, rfl, ht⟩
      exact ⟨t, _, rfl, ht⟩
  | @unary _ _ op _ _ _ => exact ⟨op.token, _, rfl, by cases op <;> simp [UnaryOp.token]⟩
  | member _ _ ih =>
      rcases ih rfl with ⟨t, rest, rfl, ht⟩
      exact ⟨t, _, rfl, ht⟩
  | index _ _ iho =>
      rcases iho rfl with ⟨t, rest, rfl, ht⟩
      exact ⟨t, _, rfl, ht⟩
  | call _ _ iho =>
      rcases iho rfl with ⟨t, rest, rfl, ht⟩
      exact ⟨t, _, rfl, ht⟩
  | @atom _ t _ ha =>
      refine ⟨t, [], rfl, ?_⟩
      rintro rfl
      simp [Token.atom?] at ha
  | group _ _ => exact ⟨_, _, rfl, by simp⟩
  | noArgument => cases hp
  | lastArgument => cases hp
  | nextArgument => cases hp

/-- The levels after that of conditionals are those of the layers of binary operators. -/
theorem phrase_layer {i : Nat} (hi : i < layers.length) (e : Expr) :
    (Part.expr (Level.conditional + 1 + i) e).phrase = .binary i e := by
  have hlow : ¬ Level.conditional + 1 + i ≤ Level.conditional := by omega
  have hhigh : Level.conditional + 1 + i < Level.unary := Nat.add_lt_add_left hi _
  simp only [Part.phrase, hlow, hhigh, if_true, if_false, Nat.add_sub_cancel_left]

/-- The unary operators count as the layer after the last. -/
theorem binary_of_phrase {ts : List Token} {i : Nat} {e : Expr} (hi : i ≤ layers.length)
    (h : Derives ts (Part.expr (Level.conditional + 1 + i) e).phrase) :
    Derives ts (.binary i e) := by
  rcases Nat.lt_or_eq_of_le hi with hlt | rfl
  · rwa [phrase_layer hlt] at h
  · exact .ofUnary h

/-- Each layer holds the next tighter one, by levels. -/
theorem phrase_of_tighter {ts : List Token} {l : Nat} {e : Expr} (hl : Level.conditional ≤ l)
    (hle : l + 1 ≤ Level.access) (h : Derives ts (Part.expr (l + 1) e).phrase) :
    Derives ts (Part.expr l e).phrase := by
  have hlen : Level.access = Level.conditional + 1 + layers.length + 1 := rfl
  -- The level is that of conditionals, of a layer of binary operators or of unary operators.
  rcases Nat.lt_or_eq_of_le hl with hlt | rfl
  · rcases Nat.exists_eq_add_of_le hlt with ⟨i, rfl⟩
    rcases Nat.lt_or_eq_of_le (by omega : i ≤ layers.length) with hi | rfl
    · rw [phrase_layer hi]
      exact .ofTighter hi (binary_of_phrase hi h)
    · exact .ofAccess h
  · exact .ofBinary h

/-- Deriving by levels within a bound is deriving. -/
theorem derives {n : Nat} {ts : List Token} {p : Part} (h : DerivesWithin n ts p) :
    Derives ts p.phrase := by
  induction h with
  | tighter hl h ih => exact phrase_of_tighter hl h.level_le ih
  | conditional _ _ _ ihc iht ihe => exact .conditional ihc iht ihe
  | @binary _ _ _ op _ _ _ _ ihl ihr =>
      -- The level of the operator tells its layer, and the operands are phrases of that layer and
      -- the next.
      rcases exists_layer op with ⟨i, ops, hlevel, hops, hmem⟩
      have hi : i < layers.length := (List.getElem?_eq_some_iff.mp hops).1
      rw [hlevel] at ihl ihr ⊢
      rw [phrase_layer hi] at ihl ⊢
      exact .binary hops hmem ihl (binary_of_phrase hi ihr)
  | unary _ ih => exact .unary ih
  | member _ ht ih => exact .member ih ht
  | index _ _ iho ihk => exact .index iho ihk
  | call _ _ iho iha => exact .call iho iha
  | atom h => exact .ofPrimary (.atom h)
  | group _ ih => exact .ofPrimary (.group ih)
  | noArgument => exact .noArgument
  | lastArgument _ ih => exact .lastArgument ih
  | nextArgument _ _ ih iha => exact .nextArgument ih iha

end DerivesWithin

/-- A derivation needs no more depth than it has tokens: every rule that nests a part adds a token
    of its own. -/
theorem Derives.withinLength {ts : List Token} {p : Phrase} (h : Derives ts p) :
    DerivesWithin ts.length ts p.part := by
  -- The tokens that a rule adds on its own pay for the nesting of its parts.
  induction h with
  | ofBinary _ ih => exact .tighter (by decide) ih
  | @conditional cs ts es _ _ _ _ _ _ ihc iht ihe =>
      have hlen : (cs ++ Token.mark .question :: (ts ++ .mark .colon :: es)).length
          = cs.length + ts.length + es.length + 1 + 1 := by
        simp only [List.length_append, List.length_cons]
        omega
      rw [hlen]
      exact .conditional (ihc.mono (by omega)) (iht.mono (by omega)) (ihe.mono (by omega))
  | ofTighter _ _ ih => exact .tighter (by simp only [Level.conditional]; omega) ih
  | @binary ls rs i _ op _ _ hi hop _ _ ihl ihr =>
      have hlen : (ls ++ Token.operator op :: rs).length = ls.length + rs.length + 1 := by
        simp only [List.length_append, List.length_cons]
        omega
      rw [hlen]
      simp only [Phrase.part, ← Nat.add_assoc, ← level_of_mem_layers hi hop] at ihl ihr ⊢
      exact .binary (ihl.mono (by omega)) (ihr.mono (by omega))
  | ofUnary _ ih => exact ih
  | unary _ ih => exact .unary ih
  | ofAccess _ ih => exact .tighter (by decide) ih
  | member _ ht ih => exact .member (ih.mono (by simp)) ht
  | @index os ks _ _ _ _ iho ihk =>
      have hlen : (os ++ Token.mark .leftBracket :: (ks ++ [.mark .rightBracket])).length
          = os.length + ks.length + 1 + 1 := by
        simp only [List.length_append, List.length_cons, List.length_nil]
        omega
      rw [hlen]
      exact .index (iho.mono (by omega)) (ihk.mono (by omega))
  | @call os as _ _ _ _ iho iha =>
      have hlen : (os ++ Token.mark .leftParen :: (as ++ [.mark .rightParen])).length
          = os.length + as.length + 1 + 1 := by
        simp only [List.length_append, List.length_cons, List.length_nil]
        omega
      rw [hlen]
      exact .call (iho.mono (by omega)) (iha.mono (by omega))
  | ofPrimary _ ih => exact ih
  | atom h => exact .atom h
  | group _ ih => exact .group (ih.mono (by simp))
  | noArgument => exact .noArgument
  | lastArgument _ ih => exact .lastArgument ih
  | nextArgument _ _ ih iha =>
      exact .nextArgument (ih.mono (by simp)) (iha.mono (by simp; omega))

end Grammar

end FieldLang

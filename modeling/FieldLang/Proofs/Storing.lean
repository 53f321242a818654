import FieldLang.Expr.Stored
import FieldLang.Proofs.NumberText
import FieldLang.Proofs.RoundTrip

/-!
# Expressions through JSON

An expression that is stored as JSON text and restored. Names, properties and operators come back as
they were, and literals as what JSON keeps of their values. Of the literals that can be read from a source
only two kinds do not come back: undefined, which is stored as null, and numbers that are not finite.

Whether a number comes back is a matter of the library that reads and writes JSON. What the library writes for
the number has to be read as the number, and the expression is restored only with libraries that do this for
its literals. Integers need not be asked for.

Storing nests two levels per form, one for the name of the form and one for its parts, and the reader of
JSON stops at a fixed number of levels. So not everything that can be read from a source can be restored:
a path of some sixty properties is nested once for the reader of expressions and more than a hundred
levels in its stored form. `storedNesting` counts these levels.

As for values, the document is the link between writing and reading. A form is written as an object whose
members are found by their keys, so one lemma, `exists_stored_of_form`, serves all forms with parts.

## Main definitions

* `Json.Entry`, `Json.Labelled`: Members as they are written, and members that were read from them.
* `Expr.literals`, `Expr.mapLiterals`: The values of the literals, and the expression with others.
* `Expr.nullUndefined`: The expression with null for undefined.
* `Expr.storedNesting`: How deeply the stored form is nested.
* `Expr.Stored`: A document is what an expression stores.

## Theorems

* `Json.exists_denotes_entriesText`: The text of an object writes members with its keys.
* `Expr.exists_stored`: Every expression stores a document.
* `Expr.Stored.restore?`: What is restored of a stored expression.
* `stored_expressions_restore`: What was read from a source and stored is restored.
-/

namespace FieldLang

namespace Json

/-- A member as it is written and read: its key, the text of its content, and the document that the text
    writes. -/
structure Entry where
  key : String
  text : String
  content : Document
  denotes : Denotes text.toList content

/-- The text of an object with entries as its members. -/
def entriesText (entries : List Entry) : String :=
  objectText (entries.map fun entry => (entry.key, entry.text))

/-- Members have the keys and the documents of entries, in the same order. -/
def Labelled (ms : List (List Piece × Document)) (entries : List Entry) : Prop :=
  List.Forall₂ (fun m entry => text? m.1 = some entry.key ∧ m.2 = entry.content) ms entries

/-- The text of an object writes an object with members for its entries. -/
theorem exists_denotes_entriesText (entries : List Entry) :
    ∃ ms, Denotes (entriesText entries).toList (.object ms) ∧ Labelled ms entries := by
  -- The members are found one by one, each with the text of its key and the document of its content.
  have hmembers : ∃ ms, List.Forall₂ MemberText
      (entries.map fun entry => (quote entry.key ++ ":" ++ entry.text).toList) ms ∧
        Labelled ms entries := by
    induction entries with
    | nil => exact ⟨[], .nil, .nil⟩
    | cons entry entries ih =>
        obtain ⟨ms, hmembers, hlabelled⟩ := ih
        obtain ⟨pieces, htext, hmember⟩ := exists_memberText compact entry.key entry.denotes
        rw [← toList_member] at hmember
        exact ⟨(pieces, entry.content) :: ms, .cons hmember hmembers, .cons ⟨htext, rfl⟩ hlabelled⟩
  obtain ⟨ms, hmembers, hlabelled⟩ := hmembers
  refine ⟨ms, ?_, hlabelled⟩
  have htext : (entriesText entries).toList =
      compact.object (entries.map fun entry => (quote entry.key ++ ":" ++ entry.text).toList) := by
    simp [entriesText, objectText, String.toList_intercalate, Function.comp_def, Style.object,
      Style.separated, compact]
  rw [htext]
  exact .object compact hmembers

/-- The members of an object are nested as deeply as the documents of its entries. -/
theorem Labelled.nestingMembers {ms : List (List Piece × Document)} {entries : List Entry}
    (h : Labelled ms entries) :
    Document.nestingMembers ms = Document.nestingItems (entries.map Entry.content) := by
  induction h with
  | nil => rfl
  | cons hm _ ih => rw [Document.nestingMembers, ih, hm.2, List.map_cons, Document.nestingItems]

end Json

namespace Expr

open Json (Document Piece Entry Labelled)

mutual

/-- The values of the literals of an expression. -/
def literals : Expr → List Value
  | .literal v => [v]
  | .identifier _ => []
  | .member object _ => object.literals
  | .index object key => object.literals ++ key.literals
  | .binary _ lhs rhs => lhs.literals ++ rhs.literals
  | .unary _ operand => operand.literals
  | .conditional condition thenBranch elseBranch =>
    condition.literals ++ (thenBranch.literals ++ elseBranch.literals)
  | .call _ args => literalsArgs args

/-- The values of the literals in the arguments of a call. -/
def literalsArgs : List Expr → List Value
  | [] => []
  | e :: es => e.literals ++ literalsArgs es

end

mutual

/-- An expression with other values in its literals. -/
def mapLiterals (f : Value → Value) : Expr → Expr
  | .literal v => .literal (f v)
  | .identifier name => .identifier name
  | .member object property => .member (object.mapLiterals f) property
  | .index object key => .index (object.mapLiterals f) (key.mapLiterals f)
  | .binary op lhs rhs => .binary op (lhs.mapLiterals f) (rhs.mapLiterals f)
  | .unary op operand => .unary op (operand.mapLiterals f)
  | .conditional condition thenBranch elseBranch =>
    .conditional (condition.mapLiterals f) (thenBranch.mapLiterals f) (elseBranch.mapLiterals f)
  | .call name args => .call name (mapLiteralsArgs f args)

/-- The arguments of a call with other values in their literals. -/
def mapLiteralsArgs (f : Value → Value) : List Expr → List Expr
  | [] => []
  | e :: es => e.mapLiterals f :: mapLiteralsArgs f es

end

/-- An expression with null in place of its undefined literals. -/
def nullUndefined (e : Expr) : Expr :=
  e.mapLiterals fun v => if v.isUndefined then .null else v

mutual

/-- How deeply the stored form of an expression is nested. A form takes two levels, or one if it has no
    parts, and arguments take one more. -/
def storedNesting : Expr → Nat
  | .literal v => v.nesting + 1
  | .identifier _ => 1
  | .member object _ => object.storedNesting + 2
  | .index object key => max object.storedNesting key.storedNesting + 2
  | .binary _ lhs rhs => max lhs.storedNesting rhs.storedNesting + 2
  | .unary _ operand => operand.storedNesting + 2
  | .conditional condition thenBranch elseBranch =>
    max condition.storedNesting (max thenBranch.storedNesting elseBranch.storedNesting) + 2
  | .call _ args => storedNestingArgs args + 3

/-- How deeply the stored forms of the arguments of a call are nested. -/
def storedNestingArgs : List Expr → Nat
  | [] => 0
  | e :: es => max e.storedNesting (storedNestingArgs es)

end

theorem literalsArgs_eq (args : List Expr) : literalsArgs args = args.flatMap literals := by
  induction args with
  | nil => rfl
  | cons e es ih => rw [literalsArgs, ih, List.flatMap_cons]

theorem mapLiteralsArgs_eq (f : Value → Value) (args : List Expr) :
    mapLiteralsArgs f args = args.map (mapLiterals f) := by
  induction args with
  | nil => rfl
  | cons e es ih => rw [mapLiteralsArgs, ih, List.map_cons]

/-- A literal of an argument is one of the call. -/
theorem mem_literals_call {name : String} {args : List Expr} {a : Expr} (ha : a ∈ args) {v : Value}
    (hv : v ∈ a.literals) : v ∈ (Expr.call name args).literals := by
  rw [literals, literalsArgs_eq]
  exact List.mem_flatMap_of_mem ha hv

/-- Only the literals decide what an expression with others is. -/
theorem mapLiterals_congr {f g : Value → Value} {e : Expr} (h : ∀ v ∈ e.literals, f v = g v) :
    e.mapLiterals f = e.mapLiterals g := by
  -- A form is made of its parts again, and only a literal asks the functions.
  induction e using Expr.induction with
  | literal v => rw [mapLiterals, h v (by simp [literals]), mapLiterals]
  | identifier name => rfl
  | member object property ih => rw [mapLiterals, ih h, mapLiterals]
  | index object key iho ihk =>
      rw [literals, List.forall_mem_append] at h
      rw [mapLiterals, iho h.1, ihk h.2, mapLiterals]
  | binary op lhs rhs ihl ihr =>
      rw [literals, List.forall_mem_append] at h
      rw [mapLiterals, ihl h.1, ihr h.2, mapLiterals]
  | unary op operand ih => rw [mapLiterals, ih h, mapLiterals]
  | conditional c t e ihc iht ihe =>
      rw [literals, List.forall_mem_append, List.forall_mem_append] at h
      rw [mapLiterals, ihc h.1, iht h.2.1, ihe h.2.2, mapLiterals]
  | call name args ih =>
      have hargs : args.map (mapLiterals f) = args.map (mapLiterals g) :=
        List.map_congr_left fun a ha => ih a ha fun v hv => h v (mem_literals_call ha hv)
      rw [mapLiterals, mapLiteralsArgs_eq, hargs, ← mapLiteralsArgs_eq, mapLiterals]

theorem mapLiterals_id (e : Expr) : e.mapLiterals id = e := by
  induction e using Expr.induction with
  | literal v => rfl
  | identifier name => rfl
  | member object property ih => rw [mapLiterals, ih]
  | index object key iho ihk => rw [mapLiterals, iho, ihk]
  | binary op lhs rhs ihl ihr => rw [mapLiterals, ihl, ihr]
  | unary op operand ih => rw [mapLiterals, ih]
  | conditional c t e ihc iht ihe => rw [mapLiterals, ihc, iht, ihe]
  | call name args ih =>
      rw [mapLiterals, mapLiteralsArgs_eq, List.map_congr_left ih, List.map_id']

theorem ofFormName?_binary (op : BinaryOp) : BinaryOp.ofFormName? op.formName = some op := by
  cases op <;> decide

theorem ofFormName?_unary (op : UnaryOp) : UnaryOp.ofFormName? op.formName = some op := by
  cases op <;> decide

section Members

variable {ms : List (List Piece × Document)}

/-- The content of the member with a key is that of the first entry with it. -/
theorem member?_of_labelled {entries : List Entry} (h : Labelled ms entries) {key : String}
    {entry : Entry} (hkey : (entries.find? fun entry => entry.key == key) = some entry) :
    member? key ms = some entry.content := by
  induction h with
  | nil => cases hkey
  | @cons m first ms entries hm _ ih =>
      rw [member?, hm.1, hm.2]
      rw [List.find?_cons] at hkey
      -- Labels are decoded keys, so both searches stop at the same place.
      by_cases heq : first.key = key
      · rw [beq_iff_eq.mpr heq] at hkey
        cases hkey
        rw [if_pos (congrArg some heq)]
      · rw [beq_eq_false_iff_ne.mpr heq] at hkey
        rw [if_neg fun hsome => heq (Option.some.inj hsome)]
        exact ih hkey

variable [library : Json.Library]

/-- The expression in the member with a key is that of its content. -/
theorem ofMember?_eq (key : String) (ms : List (List Piece × Document)) :
    ofMember? key ms = (member? key ms).bind ofDocument? := by
  induction ms with
  | nil => rfl
  | cons m ms ih =>
      rw [ofMember?, member?, ih]
      split
      · rfl
      · rfl

/-- The arguments of a call are in the member for them. -/
theorem ofArgs?_of_member? {items : List Document} (h : member? "args" ms = some (.array items)) :
    ofArgs? ms = ofDocuments? items := by
  induction ms with
  | nil => cases h
  | cons m ms ih =>
      rw [member?] at h
      rw [ofArgs?.eq_def]
      simp only
      split
      · rename_i heq
        rw [if_pos heq, Option.some.injEq] at h
        rw [h]
      · rename_i hne
        rw [if_neg hne] at h
        exact ih h

end Members

variable [library : Json.Library]

/-- A document is what an expression stores, and it stands for the expression with what JSON keeps of its
    literals. -/
structure Stored (e : Expr) (d : Document) : Prop where
  denotes : Json.Denotes e.store.toList d
  expr : ofDocument? d = some (e.mapLiterals Value.norm)
  nesting : d.nesting = e.storedNesting

/-- A text under the name of a form writes that form, one level deeper. -/
theorem exists_denotes_named (form : String) {content : String} {d : Document}
    (h : Json.Denotes content.toList d) :
    ∃ whole, Json.Denotes (Json.objectText [(form, content)]).toList whole ∧
      ofDocument? whole = ofForm? form d ∧ whole.nesting = d.nesting + 1 := by
  obtain ⟨ms, hdenotes, hlabelled⟩ := Json.exists_denotes_entriesText [⟨form, content, d, h⟩]
  refine ⟨.object ms, hdenotes, ?_, ?_⟩
  · -- The object has just one member, which is what tells a form from other objects.
    cases hlabelled with
    | @cons m _ ms _ hm hms =>
        cases hms
        obtain ⟨pieces, content⟩ := m
        obtain ⟨htext, rfl⟩ := hm
        rw [ofDocument?, htext]
        rfl
  · rw [Document.nesting, hlabelled.nestingMembers]
    simp [Document.nestingItems]

/-- An expression stores a document if its form is written as members and made again from them. -/
theorem exists_stored_of_form {e : Expr} (form : String) (entries : List Entry)
    (hstore : e.store = Json.objectText [(form, Json.entriesText entries)])
    (hexpr : ∀ ms, (∀ key entry, (entries.find? fun entry => entry.key == key) = some entry →
        member? key ms = some entry.content) →
      ofForm? form (.object ms) = some (e.mapLiterals Value.norm))
    (hnesting : Document.nestingItems (entries.map Entry.content) + 2 = e.storedNesting) :
    ∃ d, Stored e d := by
  obtain ⟨ms, hparts, hlabelled⟩ := Json.exists_denotes_entriesText entries
  -- The form is one level around its members, and these are one level around their contents.
  obtain ⟨d, hdenotes, hform, hdeeper⟩ := exists_denotes_named form hparts
  refine ⟨d, ?_, ?_, ?_⟩
  · rw [hstore]
    exact hdenotes
  · rw [hform]
    exact hexpr ms fun key entry => member?_of_labelled hlabelled
  · rw [hdeeper, Document.nesting, hlabelled.nestingMembers]
    exact hnesting

theorem ofForm?_literal {content : Document} {v : Value} (h : Value.ofDocument? content = some v) :
    ofForm? "Literal" content = some (.literal v) := by
  cases content <;> simp [ofForm?, h]

theorem exists_stored_literal {v : Value} (h : ∀ w ∈ v.parts, w.Writable library) :
    ∃ d, Stored (.literal v) d := by
  obtain ⟨content, hcontent⟩ := Value.exists_written v h
  obtain ⟨d, hdenotes, hform, hnesting⟩ := exists_denotes_named "Literal" hcontent.denotes
  refine ⟨d, hdenotes, ?_, ?_⟩
  · rw [hform, ofForm?_literal hcontent.value]
    rfl
  · rw [hnesting, hcontent.nesting]
    rfl

theorem exists_stored_identifier (name : String) : ∃ d, Stored (.identifier name) d := by
  obtain ⟨pieces, hname, htext⟩ := Json.exists_denotes_quote name
  obtain ⟨d, hdenotes, hform, hnesting⟩ := exists_denotes_named "Identifier" hname
  refine ⟨d, hdenotes, ?_, hnesting⟩
  rw [hform]
  simp [ofForm?, htext, mapLiterals]

/-- The arguments of a call store documents if each of them does. -/
theorem exists_storedArgs {args : List Expr} (h : ∀ a ∈ args, ∃ d, Stored a d) :
    ∃ ds, List.Forall₂ Json.Denotes ((storeArgs args).map String.toList) ds ∧
      ofDocuments? ds = some (mapLiteralsArgs Value.norm args) ∧
      Document.nestingItems ds = storedNestingArgs args := by
  induction args with
  | nil => exact ⟨[], .nil, rfl, rfl⟩
  | cons e es ih =>
      rw [List.forall_mem_cons] at h
      obtain ⟨d, hd⟩ := h.1
      obtain ⟨ds, hdenotes, hexprs, hnesting⟩ := ih h.2
      refine ⟨d :: ds, .cons hd.denotes hdenotes, ?_, ?_⟩
      · rw [ofDocuments?, hd.expr, hexprs]
        rfl
      · rw [Document.nestingItems, hd.nesting, hnesting, storedNestingArgs]

theorem exists_stored_call (name : String) {args : List Expr} (h : ∀ a ∈ args, ∃ d, Stored a d) :
    ∃ d, Stored (.call name args) d := by
  obtain ⟨pieces, hname, htext⟩ := Json.exists_denotes_quote name
  obtain ⟨ds, hdenotes, hexprs, hnesting⟩ := exists_storedArgs h
  have hargs : Json.Denotes ("[" ++ String.intercalate "," (storeArgs args) ++ "]").toList
      (.array ds) := by
    simpa [String.toList_intercalate, Json.Style.array, Json.Style.separated, Json.compact]
      using Json.Denotes.array Json.compact hdenotes
  refine exists_stored_of_form "Call"
    [⟨"name", _, .string pieces, hname⟩, ⟨"args", _, .array ds, hargs⟩]
    (by rw [store]; rfl) (fun ms hms => ?_) ?_
  · simp [ofForm?, textMember?, hms "name" _ rfl, htext, ofArgs?_of_member? (hms "args" _ rfl),
      hexprs, mapLiterals]
  · simp [Document.nestingItems, Document.nesting, hnesting, storedNesting]

/-- Every expression stores a document, if no object in its literals has a key twice and the numbers in them
    are read back. -/
theorem exists_stored {e : Expr} (h : ∀ v ∈ e.literals, ∀ w ∈ v.parts, w.Writable library) :
    ∃ d, Stored e d := by
  -- The members of a form are those of its parts, and each is found under its key.
  induction e using Expr.induction with
  | literal v => exact exists_stored_literal (h v (by simp [literals]))
  | identifier name => exact exists_stored_identifier name
  | member object property ih =>
      obtain ⟨o, ho⟩ := ih h
      obtain ⟨pieces, hproperty, htext⟩ := Json.exists_denotes_quote property
      refine exists_stored_of_form "Member"
        [⟨"object", _, o, ho.denotes⟩, ⟨"property", _, .string pieces, hproperty⟩]
        (by rw [store]; rfl) (fun ms hms => ?_) ?_
      · simp [ofForm?, ofMember?_eq, textMember?, hms "object" _ rfl, hms "property" _ rfl, htext,
          ho.expr, mapLiterals]
      · simp [Document.nestingItems, Document.nesting, ho.nesting, storedNesting]
  | index object key iho ihk =>
      rw [literals, List.forall_mem_append] at h
      obtain ⟨o, ho⟩ := iho h.1
      obtain ⟨k, hk⟩ := ihk h.2
      refine exists_stored_of_form "Index"
        [⟨"object", _, o, ho.denotes⟩, ⟨"index", _, k, hk.denotes⟩]
        (by rw [store]; rfl) (fun ms hms => ?_) ?_
      · simp [ofForm?, ofMember?_eq, hms "object" _ rfl, hms "index" _ rfl, ho.expr, hk.expr,
          mapLiterals]
      · simp [Document.nestingItems, ho.nesting, hk.nesting, storedNesting]
  | binary op lhs rhs ihl ihr =>
      rw [literals, List.forall_mem_append] at h
      obtain ⟨l, hl⟩ := ihl h.1
      obtain ⟨r, hr⟩ := ihr h.2
      obtain ⟨pieces, hop, htext⟩ := Json.exists_denotes_quote op.formName
      refine exists_stored_of_form "Binary"
        [⟨"op", _, .string pieces, hop⟩, ⟨"lhs", _, l, hl.denotes⟩, ⟨"rhs", _, r, hr.denotes⟩]
        (by rw [store]; rfl) (fun ms hms => ?_) ?_
      · simp [ofForm?, ofMember?_eq, textMember?, hms "op" _ rfl, hms "lhs" _ rfl, hms "rhs" _ rfl,
          htext, ofFormName?_binary, hl.expr, hr.expr, mapLiterals]
      · simp [Document.nestingItems, Document.nesting, hl.nesting, hr.nesting, storedNesting]
  | unary op operand ih =>
      obtain ⟨o, ho⟩ := ih h
      obtain ⟨pieces, hop, htext⟩ := Json.exists_denotes_quote op.formName
      refine exists_stored_of_form "Unary"
        [⟨"op", _, .string pieces, hop⟩, ⟨"operand", _, o, ho.denotes⟩]
        (by rw [store]; rfl) (fun ms hms => ?_) ?_
      · simp [ofForm?, ofMember?_eq, textMember?, hms "op" _ rfl, hms "operand" _ rfl, htext,
          ofFormName?_unary, ho.expr, mapLiterals]
      · simp [Document.nestingItems, Document.nesting, ho.nesting, storedNesting]
  | conditional c t e ihc iht ihe =>
      rw [literals, List.forall_mem_append, List.forall_mem_append] at h
      obtain ⟨cd, hc⟩ := ihc h.1
      obtain ⟨td, ht⟩ := iht h.2.1
      obtain ⟨ed, he⟩ := ihe h.2.2
      refine exists_stored_of_form "Conditional"
        [⟨"condition", _, cd, hc.denotes⟩, ⟨"then_branch", _, td, ht.denotes⟩,
          ⟨"else_branch", _, ed, he.denotes⟩]
        (by rw [store]; rfl) (fun ms hms => ?_) ?_
      · simp [ofForm?, ofMember?_eq, hms "condition" _ rfl, hms "then_branch" _ rfl,
          hms "else_branch" _ rfl, hc.expr, ht.expr, he.expr, mapLiterals]
      · simp [Document.nestingItems, hc.nesting, ht.nesting, he.nesting, storedNesting]
  | call name args ih =>
      exact exists_stored_call name fun a ha => ih a ha fun v hv => h v (mem_literals_call ha hv)

/-- A stored expression is restored with what JSON keeps of its literals, or refused by the reader of JSON
    because it is nested too deeply. -/
theorem Stored.restore? (htexts : library.ReadsTexts) {e : Expr} {d : Document} (h : Stored e d) :
    restore? e.store = if e.storedNesting < 128 then some (e.mapLiterals Value.norm) else none := by
  unfold Expr.restore?
  rw [htexts e.store d h.denotes]
  simp only [Option.bind_eq_bind, Option.bind_some]
  rw [Document.shallow?, h.nesting]
  -- The document stands for the expression at any depth; only the reader's limit can refuse it.
  by_cases hdeep : e.storedNesting < 128
  · have hlimit : e.storedNesting ≤ Document.maxNesting := Nat.le_of_lt_succ hdeep
    rw [if_pos hlimit, if_pos hdeep]
    exact h.expr
  · have hlimit : ¬ e.storedNesting ≤ Document.maxNesting := fun hle =>
      hdeep (Nat.lt_succ_of_le hle)
    rw [if_neg hlimit, if_neg hdeep]
    rfl

omit library in
/-- The literals of a legible expression are legible, and their numbers are those of the expression. -/
theorem forall_mem_literals {p : Float → Prop} {e : Expr} (h : e.Legible)
    (hnumbers : ∀ n ∈ e.numbers, p n) :
    ∀ v ∈ e.literals, v.Legible ∧ ∀ n ∈ (Expr.literal v).numbers, p n := by
  -- The numbers of a form are those of its parts, in the same places as the literals.
  induction e using Expr.induction with
  | literal v => exact List.forall_mem_singleton.mpr ⟨h, hnumbers⟩
  | identifier name => simp [literals]
  | member object property ih => exact ih h.1 hnumbers
  | index object key iho ihk =>
      rw [numbers, List.forall_mem_append] at hnumbers
      exact List.forall_mem_append.mpr ⟨iho h.1 hnumbers.1, ihk h.2 hnumbers.2⟩
  | binary op lhs rhs ihl ihr =>
      rw [numbers, List.forall_mem_append] at hnumbers
      exact List.forall_mem_append.mpr ⟨ihl h.1 hnumbers.1, ihr h.2 hnumbers.2⟩
  | unary op operand ih => exact ih h hnumbers
  | conditional c t e ihc iht ihe =>
      rw [numbers, List.forall_mem_append, List.forall_mem_append] at hnumbers
      exact List.forall_mem_append.mpr ⟨ihc h.1 hnumbers.1,
        List.forall_mem_append.mpr ⟨iht h.2.1 hnumbers.2.1, ihe h.2.2 hnumbers.2.2⟩⟩
  | call name args ih =>
      rw [literals, literalsArgs_eq, List.forall_mem_flatMap]
      intro a ha
      exact ih a ha (mem_of_legibleArgs h.2 a ha) fun n hn => hnumbers n (mem_numbersArgs ha hn)

end Expr

namespace Value

/-- JSON keeps finite numbers without a sign. -/
theorem norm_number {x : Float} (hx : Number.Unsigned x.toModel.unpack)
    (hfinite : x.isFinite = true) : (Value.number x).norm = .number x := by
  rw [norm, Number.kept_of_isFinite hfinite]
  obtain rfl | ⟨m, e, hm, hu⟩ := Number.eq_zero_or_positive hx hfinite
  · rw [ite_self]
    rfl
  · have hnonzero : (x == 0) = false := by
      show x.toModel.unpack.beq (0 : Float).toModel.unpack = false
      rw [hu, unpack_zero]
      rfl
    rw [hnonzero]
    rfl

/-- A legible literal has no objects in it, so only its number counts, if it is one. -/
theorem writable_of_legible {library : Json.Library} {v : Value} (h : v.Legible)
    (hback : ∀ n ∈ (Expr.literal v).numbers, Json.isInteger n = false → library.ReadsBack n) :
    ∀ w ∈ v.parts, w.Writable library := by
  cases v with
  | array _ => exact h.elim
  | object _ => exact h.elim
  | number x =>
      rintro w hw
      obtain rfl := List.mem_singleton.mp hw
      exact ⟨rfl, fun _ hinteger => hback x (List.mem_singleton_self x) hinteger⟩
  | _ => simp [parts, Writable, hasUniqueKeys, ReadsBack]

/-- JSON keeps all legible literals with finite numbers but undefined. -/
theorem norm_of_legible {v : Value} (h : v.Legible)
    (hfinite : ∀ n ∈ (Expr.literal v).numbers, n.isFinite = true) :
    v.norm = if v.isUndefined then .null else v := by
  cases v with
  | array _ => exact h.elim
  | object _ => exact h.elim
  | function _ => exact h.elim
  | number x => exact norm_number h (hfinite x (by simp [Expr.numbers]))
  | _ => rfl

end Value

namespace Expr

/-- The exact library reads back all finite numbers. -/
theorem readsBack_exact {e : Expr} (hfinite : ∀ n ∈ e.numbers, n.isFinite = true) :
    ∀ n ∈ e.numbers, Json.isInteger n = false → Json.exact.ReadsBack n :=
  fun n hn => Json.exact_readsBack (Number.kept_of_isFinite (hfinite n hn))

/-- An expression without undefined literals stays as it is. -/
theorem nullUndefined_of_not_mem {e : Expr} (h : .undefined ∉ e.literals) : e.nullUndefined = e := by
  have hsame : ∀ v ∈ e.literals, (if v.isUndefined then Value.null else v) = id v := by
    intro v hv
    cases v with
    | undefined => exact absurd hv h
    | _ => rfl
  rw [nullUndefined, mapLiterals_congr hsame, mapLiterals_id]

/-- What is read from a source is legible. -/
theorem legible_of_parse {source : String} {e : Expr} (h : Expr.parse source = .ok e) :
    e.Legible := by
  rw [Expr.parse, Expr.parseWithin, bind_eq_ok_iff] at h
  obtain ⟨tokens, hsource, htokens⟩ := h
  rw [Grammar.ofTokens_eq_ok_iff] at htokens
  exact Grammar.legible_of_derivesWithin htokens (Token.wellFormed_of_ofSource hsource)

/-- A legible expression with finite numbers that are read back stores a document, and JSON keeps all of it
    but undefined. -/
theorem exists_stored_of_legible [library : Json.Library] {e : Expr} (h : e.Legible)
    (hfinite : ∀ n ∈ e.numbers, n.isFinite = true)
    (hback : ∀ n ∈ e.numbers, Json.isInteger n = false → library.ReadsBack n) :
    (∃ d, Stored e d) ∧ e.mapLiterals Value.norm = e.nullUndefined := by
  refine ⟨exists_stored fun v hv => ?_, mapLiterals_congr fun v hv => ?_⟩
  · have hliteral := forall_mem_literals h hback v hv
    exact Value.writable_of_legible hliteral.1 hliteral.2
  · have hliteral := forall_mem_literals h hfinite v hv
    exact Value.norm_of_legible hliteral.1 hliteral.2

end Expr

/-- With a library that reads the texts of the standard and reads back the literals, what was read from a
    source, with finite numbers only, and stored is restored as it was but for its undefined literals, which
    have become null, unless the stored form is nested beyond the limit of the reader of JSON, which then
    refuses it. Without undefined literals the same expression is restored, and it has the same outcome in
    every engine and scope. -/
theorem stored_expressions_restore [library : Json.Library] (htexts : library.ReadsTexts)
    (source : String) (e : Expr) (h : Expr.parse source = .ok e)
    (hfinite : ∀ n ∈ e.numbers, n.isFinite = true)
    (hback : ∀ n ∈ e.numbers, Json.isInteger n = false → library.ReadsBack n) :
    (∃ d, library.document? e.store = some d ∧ d.nesting = e.storedNesting) ∧
    Expr.restore? e.store = (if e.storedNesting < 128 then some e.nullUndefined else none) ∧
    (.undefined ∉ e.literals → e.storedNesting < 128 →
      Expr.restore? e.store = some e ∧ ∀ engine : Engine, ∀ scope,
        (Expr.restore? e.store).map (engine.eval scope) = some (engine.eval scope e)) := by
  -- What JSON keeps of the literals is all but the undefined ones, as their numbers are finite.
  obtain ⟨⟨d, hd⟩, hnorm⟩ := Expr.exists_stored_of_legible (Expr.legible_of_parse h) hfinite hback
  have hrestore := hd.restore? htexts
  rw [hnorm] at hrestore
  refine ⟨⟨d, htexts e.store d hd.denotes, hd.nesting⟩, hrestore, fun hundefined hshallow => ?_⟩
  have hsame : Expr.restore? e.store = some e := by
    rw [hrestore, if_pos hshallow, Expr.nullUndefined_of_not_mem hundefined]
  refine ⟨hsame, fun engine scope => ?_⟩
  rw [hsame, Option.map_some]

/-- An expression with every form. -/
def everyForm : Expr :=
  .conditional
    (.binary .and (.binary .greaterThan (.identifier "total") (.literal (.number 1.5)))
      (.unary .not (.member (.index (.identifier "tags") (.literal (.number 0))) "used")))
    (.call "f" [.identifier "x", .literal .null]) (.literal (.bool true))

/-- Through the exact library an expression with every form is restored as it was. -/
theorem every_form_restores :
    Expr.parse "total > 1.5 && !tags[0].used ? f(x, null) : true" = .ok everyForm ∧
      Json.exact.ReadsTexts ∧ (∀ n ∈ everyForm.numbers, n.isFinite = true) ∧
      (∀ n ∈ everyForm.numbers, Json.isInteger n = false → Json.exact.ReadsBack n) ∧
      .undefined ∉ everyForm.literals ∧
      everyForm.storedNesting < 128 ∧ Expr.restore? everyForm.store = some everyForm ∧
      ∀ engine : Engine, ∀ scope,
        (Expr.restore? everyForm.store).map (engine.eval scope) =
          some (engine.eval scope everyForm) := by
  have hparse : Expr.parse "total > 1.5 && !tags[0].used ? f(x, null) : true" = .ok everyForm := rfl
  have hfinite : ∀ n ∈ everyForm.numbers, n.isFinite = true := by decide +kernel
  have hback := Expr.readsBack_exact hfinite
  have hundefined : .undefined ∉ everyForm.literals := by
    simp [everyForm, Expr.literals, Expr.literalsArgs]
  have hshallow : everyForm.storedNesting < 128 := by decide
  have hrestore := (stored_expressions_restore Json.exact_readsTexts _ everyForm hparse hfinite
    hback).2.2 hundefined hshallow
  exact ⟨hparse, Json.exact_readsTexts, hfinite, hback, hundefined, hshallow, hrestore⟩

/-- A path of a number of properties. -/
def longPath : Nat → Expr
  | 0 => .identifier "a"
  | n + 1 => .member (longPath n) "a"

theorem legible_longPath (n : Nat) : (longPath n).Legible := by
  have hword : Token.IsWord "a" := Token.isWord_of_all rfl (by decide)
  induction n with
  | zero => exact ⟨hword, rfl⟩
  | succ n ih => exact ⟨ih, hword⟩

/-- Undefined is restored as null, which is another outcome, and of a path of 64 properties nothing is
    restored, although it is read from a source. -/
theorem undefined_restores_as_null :
    (Expr.parse "undefined" = .ok (.literal .undefined) ∧
      (Expr.literal .undefined).numbers = [] ∧
      Expr.restore? (Expr.literal .undefined).store = some (.literal .null) ∧
      ((Engine.ofGlobals []).eval [] (.literal .null)).outcome ≠
        ((Engine.ofGlobals []).eval [] (.literal .undefined)).outcome) ∧
    Expr.parse (longPath 64).render = .ok (longPath 64) ∧ (longPath 64).numbers = [] ∧
      Expr.restore? (longPath 64).store = none := by
  refine ⟨⟨rfl, rfl, ?_, ?_⟩, ?_, rfl, ?_⟩
  · obtain ⟨⟨d, hd⟩, hnull⟩ := Expr.exists_stored_of_legible
      (show (Expr.literal .undefined).Legible from trivial) (by simp [Expr.numbers])
      (by simp [Expr.numbers])
    rw [hd.restore? Json.exact_readsTexts, hnull]
    rfl
  · show Except.ok Value.null ≠ Except.ok Value.undefined
    simp
  · exact Expr.parseWithin_render (legible_longPath 64) (by simp [longPath, Expr.numbers]) (by decide)
  · -- Each property of the path takes two levels of the stored form.
    obtain ⟨⟨d, hd⟩, -⟩ := Expr.exists_stored_of_legible (legible_longPath 64)
      (by simp [longPath, Expr.numbers]) (by simp [longPath, Expr.numbers])
    rw [hd.restore? Json.exact_readsTexts, if_neg (by decide)]

end FieldLang

import FieldLang.Engine.Basic
import FieldLang.Json.Decode

/-!
# Options of an Engine

The variables and the bound on depth of an engine, as a mapping definition gives them in JSON: an object
with the members `variables` and `maxDepth`, or the same two in a list. Both may be missing. Members
with other names are not looked into, so it does not matter what they hold or how deeply they are
nested; the two that count must not be repeated.

## Main definitions

* `Options`: Variables and the bound on depth.
* `Options.ofDocument?`: The options that a document gives.
* `Options.read?`: The options that a text gives.
-/

namespace FieldLang

open Json (Document Piece Library)

/-- Variables and the bound on depth of an engine. -/
structure Options where
  globals : Keyed Value
  maxDepth : Nat

namespace Options

/-- The options where nothing is given. -/
def standard : Options :=
  ⟨[], Expr.defaultDepth⟩

variable [Library]

/-- The variables that a document gives: an object, inside another array or object. -/
def globals? : Document → Option (Keyed Value)
  | .object members =>
    if (Document.object members).nesting < Document.maxNesting then Value.ofMembers? [] members
    else none
  | _ => none

/-- The bound on depth that a document gives. -/
def maxDepth? : Document → Option Nat
  | .number n =>
    match n.number? with
    | some (.natural n) => some n
    | _ => none
  | _ => none

/-- The options that members give. `globals` and `maxDepth` are those given so far. -/
def ofMembers? : (globals : Option (Keyed Value)) → (maxDepth : Option Nat) →
    List (List Piece × Document) → Option Options
  | globals, maxDepth, [] =>
    some ⟨globals.getD standard.globals, maxDepth.getD standard.maxDepth⟩
  | globals, maxDepth, (key, d) :: rest => do
    let key ← Json.text? key
    if key = "variables" then
      if globals.isSome then none else ofMembers? (some (← globals? d)) maxDepth rest
    else if key = "maxDepth" then
      if maxDepth.isSome then none else ofMembers? globals (some (← maxDepth? d)) rest
    else ofMembers? globals maxDepth rest

/-- The options that a document gives. -/
def ofDocument? : Document → Option Options
  | .object members => ofMembers? none none members
  | .array [] => some standard
  | .array [globals] => do return { standard with globals := ← globals? globals }
  | .array [globals, maxDepth] => do return ⟨← globals? globals, ← maxDepth? maxDepth⟩
  | _ => none

/-- The options that a text gives. -/
def read? (text : String) : Option Options := do
  ofDocument? (← Library.document? text)

end Options

end FieldLang

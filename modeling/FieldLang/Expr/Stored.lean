import FieldLang.Engine.Eval
import FieldLang.Json.Decode
import FieldLang.Json.Writer

/-!
# Expressions and Reports in JSON

Expressions can be stored as JSON: every node is an object with one member, whose key names the form
and whose content holds the parts. Literals lose what JSON cannot express. A report is written as an
object with its value, its type and, if there is one, the message of its error.

## Main definitions

* `BinaryOp.formName`, `UnaryOp.formName`: The names under which operators are stored.
* `Expr.store`, `Expr.storeArgs`: An expression as JSON text.
* `Expr.ofDocument?`: The expression that a document stores.
* `Expr.restore?`: The expression that a text stores.
* `Report.toJson`: A report as JSON text.
-/

namespace FieldLang

/-- The name under which a binary operator is stored. -/
def BinaryOp.formName : BinaryOp → String
  | .add => "Add"
  | .subtract => "Subtract"
  | .multiply => "Multiply"
  | .divide => "Divide"
  | .modulo => "Modulo"
  | .equal => "Equal"
  | .notEqual => "NotEqual"
  | .lessThan => "LessThan"
  | .lessOrEqual => "LessThanOrEqual"
  | .greaterThan => "GreaterThan"
  | .greaterOrEqual => "GreaterThanOrEqual"
  | .and => "And"
  | .or => "Or"
  | .coalesce => "Coalesce"

/-- The name under which a unary operator is stored. -/
def UnaryOp.formName : UnaryOp → String
  | .negate => "Negate"
  | .not => "Not"

/-- All binary operators. -/
def BinaryOp.all : List BinaryOp :=
  [.add, .subtract, .multiply, .divide, .modulo, .equal, .notEqual, .lessThan, .lessOrEqual,
   .greaterThan, .greaterOrEqual, .and, .or, .coalesce]

/-- The binary operator stored under a name. -/
def BinaryOp.ofFormName? (name : String) : Option BinaryOp :=
  BinaryOp.all.find? fun op => op.formName == name

/-- The unary operator stored under a name. -/
def UnaryOp.ofFormName? (name : String) : Option UnaryOp :=
  [UnaryOp.negate, UnaryOp.not].find? fun op => op.formName == name

/-- An object as JSON text, given the texts of its members. -/
def Json.objectText (members : List (String × String)) : String :=
  "\x7b" ++ String.intercalate "," (members.map fun m => Json.quote m.1 ++ ":" ++ m.2) ++ "\x7d"

namespace Expr

variable [Json.Library]

mutual

/-- An expression as JSON text. -/
def store : Expr → String
  | .literal v => Json.objectText [("Literal", v.toJson)]
  | .identifier name => Json.objectText [("Identifier", Json.quote name)]
  | .member object property =>
    Json.objectText [("Member", Json.objectText
      [("object", object.store), ("property", Json.quote property)])]
  | .index object key =>
    Json.objectText [("Index", Json.objectText [("object", object.store), ("index", key.store)])]
  | .binary op lhs rhs =>
    Json.objectText [("Binary", Json.objectText
      [("op", Json.quote op.formName), ("lhs", lhs.store), ("rhs", rhs.store)])]
  | .unary op operand =>
    Json.objectText [("Unary", Json.objectText
      [("op", Json.quote op.formName), ("operand", operand.store)])]
  | .conditional condition thenBranch elseBranch =>
    Json.objectText [("Conditional", Json.objectText
      [("condition", condition.store), ("then_branch", thenBranch.store),
       ("else_branch", elseBranch.store)])]
  | .call name args =>
    Json.objectText [("Call", Json.objectText
      [("name", Json.quote name),
       ("args", "[" ++ String.intercalate "," (storeArgs args) ++ "]")])]

/-- The arguments of a call as JSON texts. -/
def storeArgs : List Expr → List String
  | [] => []
  | e :: es => e.store :: storeArgs es

end

open Json (Document Piece Library)

/-- The content of the first member with a key. -/
def member? (key : String) : List (List Piece × Document) → Option Document
  | [] => none
  | (k, d) :: rest => if Json.text? k = some key then some d else member? key rest

/-- The text of the first member with a key, if it is a string. -/
def textMember? (key : String) (members : List (List Piece × Document)) : Option String :=
  match member? key members with
  | some (.string pieces) => Json.text? pieces
  | _ => none

mutual

/-- The expression that a document stores. -/
def ofDocument? : Document → Option Expr
  | .object [(key, content)] => do ofForm? (← Json.text? key) content
  | _ => none

/-- The expression of a form, given its content. -/
def ofForm? (form : String) : Document → Option Expr
  | .object members =>
    if form = "Literal" then do return .literal (← Value.ofDocument? (.object members))
    else if form = "Member" then do
      return .member (← ofMember? "object" members) (← textMember? "property" members)
    else if form = "Index" then do
      return .index (← ofMember? "object" members) (← ofMember? "index" members)
    else if form = "Binary" then do
      let op ← BinaryOp.ofFormName? (← textMember? "op" members)
      return .binary op (← ofMember? "lhs" members) (← ofMember? "rhs" members)
    else if form = "Unary" then do
      let op ← UnaryOp.ofFormName? (← textMember? "op" members)
      return .unary op (← ofMember? "operand" members)
    else if form = "Conditional" then do
      return .conditional (← ofMember? "condition" members) (← ofMember? "then_branch" members)
        (← ofMember? "else_branch" members)
    else if form = "Call" then do
      return .call (← textMember? "name" members) (← ofArgs? members)
    else none
  | content =>
    if form = "Literal" then do return .literal (← Value.ofDocument? content)
    else if form = "Identifier" then
      match content with
      | .string pieces => do return .identifier (← Json.text? pieces)
      | _ => none
    else none

/-- The expression stored in the first member with a key. -/
def ofMember? (key : String) : List (List Piece × Document) → Option Expr
  | [] => none
  | (k, d) :: rest => if Json.text? k = some key then ofDocument? d else ofMember? key rest

/-- The expressions stored in the arguments of a call. -/
def ofArgs? : List (List Piece × Document) → Option (List Expr)
  | [] => none
  | (k, d) :: rest =>
    if Json.text? k = some "args" then
      match d with
      | .array items => ofDocuments? items
      | _ => none
    else ofArgs? rest

/-- The expressions stored in a list of documents. -/
def ofDocuments? : List Document → Option (List Expr)
  | [] => some []
  | d :: ds => do
    let e ← ofDocument? d
    let es ← ofDocuments? ds
    return e :: es

end

/-- The expression that a text stores. -/
def restore? (text : String) : Option Expr := do
  ofDocument? (← (← Library.document? text).shallow?)

end Expr

/-- A report as JSON text. -/
def Report.toJson [Json.Library] (report : Report) : String :=
  Json.objectText ([("value", report.value.toJson), ("type", Json.quote report.tag.name)] ++
    (report.error.map fun e => ("error", Json.quote e.message)).toList)

end FieldLang

import FieldLang.Expr.Parser
import FieldLang.Pipeline.Basic

/-!
# Reading Pipelines

Source text as a pipeline: a dotted path and stages, each after a bar or a dot. A dot is both part of a
path and the mark before a stage; it belongs to the path unless an opening parenthesis follows the name
after it.

The expressions inside a stage are each read with the full bound on nesting. The stages are counted by
the tokens left, since each takes some.

## Main definitions

* `Read.path`: The reader of a dotted path.
* `Read.lambda`: The reader of a lambda.
* `Read.stageArgs`, `Read.stage`: The readers of a stage.
* `Pipeline.ofTokens`: The pipeline that a whole list of tokens writes.
* `Pipeline.parse`, `Pipeline.parseWithin`: The pipeline that a source text writes.
-/

namespace FieldLang

namespace Read

/-- Reads the segments of a path after the first, up to a dot that starts a stage. -/
def pathTail : Reader (List String)
  | .mark .dot :: t :: .mark .leftParen :: rest =>
    .ok ([], .mark .dot :: t :: .mark .leftParen :: rest)
  | .mark .dot :: .identifier segment :: rest => do
    let (segments, rest) ← pathTail rest
    return (segment :: segments, rest)
  | .mark .dot :: rest => .error (.expected "IDENTIFIER" (front rest))
  | tokens => .ok ([], tokens)

/-- Reads a dotted path. -/
def path : Reader String := fun tokens => do
  let (root, rest) ← name tokens
  let (segments, rest) ← pathTail rest
  return (String.intercalate "." (root :: segments), rest)

/-- Reads one or more parameters separated by commas. -/
def paramList : Reader (List String)
  | .identifier param :: .mark .comma :: rest => do
    let (params, rest) ← paramList rest
    return (param :: params, rest)
  | .identifier param :: rest => .ok ([param], rest)
  | tokens => .error (.expected "IDENTIFIER" (front tokens))

/-- Reads the parameters of a lambda: a name, or names in parentheses. -/
def params : Reader (List String)
  | .mark .leftParen :: .mark .rightParen :: rest => .ok ([], rest)
  | .mark .leftParen :: rest => do
    let (params, rest) ← paramList rest
    let rest ← expect .rightParen rest
    return (params, rest)
  | .identifier param :: rest => .ok ([param], rest)
  | tokens => .error (.expected "lambda parameter" (front tokens))

/-- Reads a lambda. -/
def lambda (limit : Nat) : Reader Lambda := fun tokens => do
  let (params, rest) ← params tokens
  let rest ← expect .arrow rest
  let (body, rest) ← fullExpression limit rest
  return (⟨params, body⟩, rest)

/-- Reads a further argument if a comma announces one. -/
def furtherArg (limit : Nat) : Reader (Option Expr)
  | .mark .comma :: rest => do
    let (e, rest) ← fullExpression limit rest
    return (some e, rest)
  | tokens => .ok (none, tokens)

/-- Reads the initial value of a reduction, which may not be missing. -/
def initialArg (limit : Nat) : Reader Expr
  | .mark .rightParen :: _ => .error (.invalidSyntax "reduce requires an initial value")
  | tokens => do
    let rest ← expect .comma tokens
    fullExpression limit rest

/-- Reads the bounds of a slice. -/
def sliceArgs (limit : Nat) : Reader Stage := fun tokens => do
  let (start, rest) ← fullExpression limit tokens
  let (stop, rest) ← furtherArg limit rest
  match stop with
  | some stop =>
    let (step, rest) ← furtherArg limit rest
    return (.slice (some start) (some stop) step, rest)
  | none => return (.slice (some start) none none, rest)

/-- Reads the arguments of a stage of a kind. -/
def stageArgs (limit : Nat) (kind : StageKind) : Reader Stage := fun tokens =>
  match kind with
  | .map => do
    let (transform, rest) ← lambda limit tokens
    return (.map (some transform), rest)
  | .filter => do
    let (predicate, rest) ← lambda limit tokens
    return (.filter (some predicate), rest)
  | .flatMap => do
    let (transform, rest) ← lambda limit tokens
    return (.flatMap (some transform), rest)
  | .reduce => do
    let (reducer, rest) ← lambda limit tokens
    let (initial, rest) ← initialArg limit rest
    return (.reduce (some reducer) (some initial), rest)
  | .slice => sliceArgs limit tokens

/-- Reads a stage: its name and its arguments in parentheses. -/
def stage (limit : Nat) : Reader Stage := fun tokens => do
  let (stageName, rest) ← name tokens
  match StageKind.ofName? stageName with
  | none => throw (.unknownStage stageName)
  | some kind =>
    let rest ← expect .leftParen rest
    let (stage, rest) ← stageArgs limit kind rest
    let rest ← expect .rightParen rest
    return (stage, rest)

/-- Reads a stage after a bar or a dot. -/
def nextStage (limit : Nat) : Reader Stage
  | .mark .pipe :: rest => stage limit rest
  | .mark .dot :: rest => stage limit rest
  | tokens => .error (.expected "'|' or '.'" (front tokens))

/-- Reads stages up to the end of the source, at most `count` of them. -/
def stagesToEnd (limit : Nat) : (count : Nat) → List Token → Except ParseError (List Stage)
  | _, [] => .ok []
  | 0, tokens => .error (.expected "'|' or '.'" (front tokens))
  | count + 1, tokens => do
    let (stage, rest) ← nextStage limit tokens
    let stages ← stagesToEnd limit count rest
    return stage :: stages

end Read

namespace Pipeline

/-- The pipeline that a whole list of tokens writes. -/
def ofTokens (limit : Nat) : List Token → Except ParseError Pipeline
  | [] => .error .emptyExpression
  | tokens => do
    let (source, rest) ← Read.path tokens
    match rest with
    | [] => throw .missingStage
    | rest =>
      let (first, rest) ← Read.nextStage limit rest
      let stages ← Read.stagesToEnd limit rest.length rest
      return ⟨source, first, stages⟩

/-- The pipeline that a source text writes, its expressions nested at most as deeply as allowed. -/
def parseWithin (limit : Nat) (source : String) : Except ParseError Pipeline := do
  ofTokens limit (← Token.ofSource source)

/-- The pipeline that a source text writes. -/
def parse (source : String) : Except ParseError Pipeline :=
  parseWithin Expr.defaultDepth source

end Pipeline

end FieldLang

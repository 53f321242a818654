import FieldLang.Pipeline.Run
import FieldLang.Proofs.Flattening

/-!
# Mapping and Flattening

Mapping a function over an array and splicing the arrays among its results is mapping it and flattening
what comes out by one level. This is so for the built-in functions and for the stages of pipelines, which
share the loops but call the function with different arguments and fail with different errors.

The loop that splices puts its result together while the function is still being called on later elements.
Flattening starts when all calls are made. So the two are compared as computations, for a function with
whatever effects: it is called on the same elements in the same order, and where it fails, neither gets to
the end.

Flattening is the general function, with the recursion into nested arrays. That it takes out one level and
no more is seen on `spliced`, which leaves the elements of an inner array as they are.

## Main definitions

* `Arrays.flattened`: A value flattened to the default depth, or the refusal of what is no array.

## Theorems

* `Elements.splice_eq_transform`: Splicing the results one by one, or all at the end.
* `Arrays.flatten_one`: One level of flattening.
* `Arrays.withCallback_flatMap`, `runStage_flatMap`: The built-in function and the stage.
* `Arrays.flatMap_eq_map_flattened`: Both, and the calls of the functions by name.
-/

namespace FieldLang

section Loops

variable {m : Type → Type} [Monad m] [LawfulMonad m]

/-- Splicing every result as it comes is splicing all of them at the end. -/
theorem Elements.splice_eq_transform (f : Nat → Value → m Value) (position : Nat) (vs : List Value) :
    splice f position vs = do return (← transform f position vs).flatMap spliced := by
  induction vs generalizing position with
  | nil => simp [splice, transform]
  | cons v vs ih => simp [splice, transform, ih]

end Loops

namespace Arrays

/-- Without a level nothing is taken out. -/
theorem flatten_zero (vs : List Value) : flatten (some 0) vs = vs := by
  induction vs with
  | nil => rfl
  | cons v vs ih => rw [flatten, flattenItem_zero, ih, List.singleton_append]

/-- One level splices the arrays among the elements, and leaves alone what is in them. -/
theorem flatten_one (vs : List Value) : flatten (some 1) vs = vs.flatMap Elements.spliced := by
  have hitem : ∀ v, flattenItem (some 1) v = Elements.spliced v := by
    intro v
    cases v with
    | array items => exact flatten_zero items
    | _ => rfl
  induction vs with
  | nil => rfl
  | cons v vs ih => rw [flatten, hitem, ih, List.flatMap_cons]

section Default

variable {m : Type → Type} [Monad m]

/-- A value flattened to the default depth. What is no array is refused. -/
def flattened (refuse : FunctionError → m Value) (v : Value) : m Value :=
  match Builtin.flat.apply [v] with
  | .ok w => pure w
  | .error e => refuse e

/-- An array is not refused. -/
theorem flattened_array (refuse : FunctionError → m Value) (vs : List Value) :
    flattened refuse (.array vs) = pure (.array (vs.flatMap Elements.spliced)) := by
  have hflat : Builtin.flat.apply [.array vs] = .ok (.array (flatten (some 1) vs)) := rfl
  rw [flattened, hflat, flatten_one]

/-- Two loops over the same elements, one of which splices and the other leaves that to the end. -/
theorem splice_eq_flattened [LawfulMonad m] (f : Nat → Value → m Value)
    (refuse : FunctionError → m Value) (vs : List Value) :
    (do return .array (← Elements.splice f 0 vs)) =
      (do return .array (← Elements.transform f 0 vs)) >>= flattened refuse := by
  simp only [Elements.splice_eq_transform, bind_assoc, pure_bind, flattened_array]

/-- The built-in function that maps and splices is the one that maps, and then flattening. -/
theorem withCallback_flatMap [LawfulMonad m] (call : List Value → m Value)
    (refuse : FunctionError → m Value) (items : List Value) (initial : Option Value) :
    withCallback .flatMap call refuse items initial =
      withCallback .map call refuse items initial >>= flattened refuse :=
  splice_eq_flattened (fun position v => call [v, .ofNat position, .array items]) refuse items

end Default

section Calls

variable (engine : Engine) (budget : Nat)

/-- Called by name, the function that flattens is refused with an error of evaluation. -/
theorem callAt_flat (v : Value) :
    engine.callAt budget "flat" [v] = flattened (fun e => .fail (.function e)) v := by
  have hname : Builtin.ofName? "flat" = some .flat := by decide
  rw [Engine.callAt.eq_def]
  simp only [hname]
  rw [if_neg (by decide), Traced.ofFunction, flattened]
  cases Builtin.flat.apply [v] with
  | ok w => rfl
  | error e => rfl

/-- Called by name on an array and a function, a function that calls another runs its loop, if the budget
    lasts. -/
theorem callAt_withCallback {name : String} {function : Builtin}
    (hname : Builtin.ofName? name = some function) (htakes : function.takesCallback = true)
    (items : List Value) (callback : String) (rest : List Value) :
    engine.callAt budget name (.array items :: .function callback :: rest) =
      match budget with
      | 0 => .fail (.tooDeep engine.maxDepth)
      | budget + 1 =>
        withCallback function (engine.callAt budget callback) (fun e => .fail (.function e)) items
          rest[0]? := by
  rw [Engine.callAt.eq_def]
  simp only [hname, htakes, if_true]
  -- One level is spent on the function, and the callback runs on what is left.
  cases budget with
  | zero => rfl
  | succ budget =>
      have hitems : Traced.ofFunction (require function
          (Builtin.argument (.array items :: .function callback :: rest) 0)) = pure items := rfl
      -- A function reference is not the missing comparator for which sorting has a default.
      have hcallback : (Builtin.argument (.array items :: .function callback :: rest) 1).isUndefined =
          false := rfl
      simp only [Engine.applyCallback, hitems, pure_bind, hcallback, Bool.false_eq_true, and_false,
        if_false]
      rfl

/-- Called by name, mapping and splicing is mapping and then flattening, within every budget. -/
theorem callAt_flatMap (items : List Value) (callback : String) (rest : List Value) :
    engine.callAt budget "flatMap" (.array items :: .function callback :: rest) =
      engine.callAt budget "map" (.array items :: .function callback :: rest) >>= fun w =>
        engine.callAt budget "flat" [w] := by
  have hflatMap : Builtin.ofName? "flatMap" = some .flatMap := by decide
  have hmap : Builtin.ofName? "map" = some .map := by decide
  simp only [callAt_flat]
  rw [callAt_withCallback engine budget hflatMap rfl, callAt_withCallback engine budget hmap rfl]
  cases budget with
  | zero => rfl
  | succ budget => exact withCallback_flatMap _ _ items _

end Calls

/-- The stage that maps and splices is the one that maps, and then flattening. -/
theorem runStage_flatMap (context : Context) (scope : Scope) (transform : Lambda)
    (refuse : FunctionError → Traced PipelineError Value) (items : List Value) :
    context.runStage scope (.flatMap (some transform)) items =
      context.runStage scope (.map (some transform)) items >>= flattened refuse :=
  splice_eq_flattened (context.visit scope transform) refuse items

/-- Mapping and splicing is mapping and then flattening to the default depth. The built-in functions agree
    on this for every array and every function, which may fail or have other effects; a call of them by
    name does so in every engine and within every budget; and the stages of pipelines agree for every
    lambda, in every context and scope. Where the function fails, both fail with its error. -/
theorem flatMap_eq_map_flattened :
    (∀ {m : Type → Type} [Monad m] [LawfulMonad m] (call : List Value → m Value)
        (refuse : FunctionError → m Value) (items : List Value) (initial : Option Value),
      withCallback .flatMap call refuse items initial =
        withCallback .map call refuse items initial >>= flattened refuse) ∧
    (∀ (engine : Engine) (budget : Nat) (items : List Value) (callback : String) (rest : List Value),
      engine.callAt budget "flatMap" (.array items :: .function callback :: rest) =
        engine.callAt budget "map" (.array items :: .function callback :: rest) >>= fun w =>
          engine.callAt budget "flat" [w]) ∧
    ∀ (context : Context) (scope : Scope) (transform : Lambda)
        (refuse : FunctionError → Traced PipelineError Value) (items : List Value),
      context.runStage scope (.flatMap (some transform)) items =
        context.runStage scope (.map (some transform)) items >>= flattened refuse :=
  ⟨withCallback_flatMap, callAt_flatMap, runStage_flatMap⟩

/-- A text stands for itself and, one level down, itself again; a null is refused. -/
def twice : List Value → Except FunctionError Value
  | .string s :: _ => .ok (.array [.string s, .array [.string s]])
  | .null :: _ => .error (.argument "null cannot be taken twice")
  | v :: _ => .ok v
  | [] => .ok .undefined

/-- A text is spliced and the array in its place is not; a null in the middle ends everything. In a pipeline
    an array of arrays loses one level, and a lambda that names what is not there fails in both ways. -/
theorem twice_spliced :
    withCallback .flatMap twice .error [.string "a", .number 1] none =
        .ok (.array [.string "a", .array [.string "a"], .number 1]) ∧
      withCallback .flatMap twice .error [.string "a", .null, .string "b"] none =
        .error (.argument "null cannot be taken twice") ∧
      ((Engine.ofGlobals []).context.runStage [] (.flatMap (some ⟨["x"], .identifier "x"⟩))
          [.array [.null, .array [.bool true]], .bool false]).outcome =
        .ok (.array [.null, .array [.bool true], .bool false]) ∧
      ((Engine.ofGlobals []).context.runStage [] (.flatMap (some ⟨["x"], .identifier "y"⟩))
          [.null]).outcome =
        .error (.expression (.undefinedVariable "y")) := by
  obtain ⟨hbuiltin, -, hstage⟩ := flatMap_eq_map_flattened
  refine ⟨(hbuiltin twice .error _ none).trans rfl, (hbuiltin twice .error _ none).trans rfl, ?_, ?_⟩
  · rw [hstage _ _ _ (fun e => .fail (.expression (.function e)))]
    rfl
  · rw [hstage _ _ _ (fun e => .fail (.expression (.function e)))]
    rfl

end Arrays

end FieldLang

import FieldLang.Pipeline.Run
import FieldLang.Proofs.Lockstep

/-!
# Source Paths and Path Expressions

A dotted path is resolved in two ways. As the source of a pipeline it is followed segment by segment,
and what is missing is undefined. As an expression it is a name with member accesses around it: the
segments are guarded from the last to the first, a name may stand for a function, texts have a
length, and a nullish value on the way is an error.

The two need not have the same value, but they lead to the same arrays. They come apart only at a
value that is neither an array nor an object, and from there no path leads to an array: what follows
is undefined in the one way, and an error or another such value in the other. `Value.Matches` says
this of the value that a path has reached and the outcome of the expression for it, and every
segment keeps it. Denied keys are a matter of the segments alone, whatever the values are.

## Main definitions

* `Value.Matches`: A value that a path has reached, and the outcome of the expression for it.
* `EvalError.isDenial`: Whether an error refuses a denied key.
* `Expr.under`: An expression with member accesses around it.

## Theorems

* `Value.Matches.property`: One more segment keeps a value and an outcome matching.
* `followAll_of_not_denied`, `followAll_of_denied`: What becomes of the segments of a source path.
* `evalAt_under_of_not_denied`, `evalAt_under_of_denied`: What becomes of member accesses.
* `path_resolvers_agree`: Both ways lead to the same arrays and refuse the same paths.
-/

namespace FieldLang

/-- Whether an error refuses a denied key. -/
def EvalError.isDenial : EvalError → Bool
  | .accessDenied _ => true
  | _ => false

namespace Value

/-- The outcome of an expression matches a value that a path has reached: it is this value, or
    neither of the two leads to an array. -/
def Matches (v : Value) : Except EvalError Value → Prop
  | .ok w => w = v ∨ (v.isFlat = true ∧ w.isFlat = true)
  | .error e => v.isFlat = true ∧ e.isDenial = false

/-- From a value that is neither an array nor an object nothing can be reached. -/
theorem follow_of_isFlat {v : Value} (h : v.isFlat = true) (segment : String) :
    Context.follow v segment = .undefined := by
  cases v with
  | array items => cases h
  | object fields => cases h
  | _ => rfl

/-- A property of such a value is such a value, if there is one. -/
theorem isFlat_propertyOf {v : Value} (h : v.isFlat = true) (segment : String) :
    (v.propertyOf segment).isFlat = true := by
  cases v with
  | array items => cases h
  | object fields => cases h
  | string s =>
      show (if segment = "length" then Value.ofNat s.length else .undefined).isFlat = true
      by_cases hlength : segment = "length"
      · rw [if_pos hlength]
        rfl
      · rw [if_neg hlength]
        rfl
  | _ => rfl

/-- Arrays and objects have the same properties in both ways. -/
theorem propertyOf_eq_follow {v : Value} (h : v.isFlat = false) (segment : String) :
    v.propertyOf segment = Context.follow v segment := by
  cases v with
  | array items => rfl
  | object fields =>
      simp only [propertyOf, Context.follow, field?]
      cases Keyed.get? segment fields with
      | none => rfl
      | some w => rfl
  | _ => cases h

theorem isNullish_of_not_isFlat {v : Value} (h : v.isFlat = false) : v.isNullish = false := by
  cases v with
  | array items => rfl
  | object fields => rfl
  | _ => cases h

/-- A property of a value that leads to no array matches the undefined value. -/
theorem matches_undefined_property {w : Value} (h : w.isFlat = true) (segment : String) :
    Matches .undefined (w.property segment) := by
  unfold property
  by_cases hnullish : w.isNullish = true
  · rw [if_pos hnullish]
    exact ⟨rfl, rfl⟩
  · rw [if_neg hnullish]
    exact Or.inr ⟨rfl, isFlat_propertyOf h segment⟩

/-- One more segment keeps a value and an outcome matching. -/
theorem Matches.property {v : Value} {x : Except EvalError Value} (h : v.Matches x)
    (segment : String) :
    (Context.follow v segment).Matches (x >>= fun w => w.property segment) := by
  cases x with
  | error e =>
      rw [follow_of_isFlat h.1]
      exact ⟨rfl, h.2⟩
  | ok w =>
      show (Context.follow v segment).Matches (w.property segment)
      cases hflat : v.isFlat with
      | true =>
          -- Both have left the arrays and objects behind, also if they are still the same value.
          have hw : w.isFlat = true := by
            rcases h with rfl | h
            · exact hflat
            · exact h.2
          rw [follow_of_isFlat hflat]
          exact matches_undefined_property hw segment
      | false =>
          -- Arrays and objects can still be told apart, so the two have the same value.
          have hw : w = v := by
            rcases h with rfl | h
            · rfl
            · rw [hflat] at h
              cases h.1
          subst hw
          rw [Value.property, isNullish_of_not_isFlat hflat, if_neg Bool.false_ne_true]
          exact Or.inl (propertyOf_eq_follow hflat segment)

theorem items_eq_ok_iff {v : Value} {items : List Value} :
    v.items = .ok items ↔ v = .array items := by
  cases v with
  | array others =>
      show Except.ok others = .ok items ↔ _
      rw [Except.ok.injEq, Value.array.injEq]
  | _ => exact ⟨nofun, nofun⟩

/-- Asking a value for its elements is no evaluation. -/
theorem items_ne_expression (v : Value) (e : EvalError) : v.items ≠ .error (.expression e) := by
  cases v <;> exact nofun

/-- Only the same array matches an array. -/
theorem Matches.array_iff {v : Value} {x : Except EvalError Value} (h : v.Matches x)
    (items : List Value) : v = .array items ↔ x = .ok (.array items) := by
  cases x with
  | error e =>
      constructor
      · rintro rfl
        cases h.1
      · intro hx
        cases hx
  | ok w =>
      rcases h with rfl | ⟨hv, hw⟩
      · rw [Except.ok.injEq]
      · constructor
        · rintro rfl
          cases hv
        · intro hx
          cases hx
          cases hw

end Value

section Segments

/-- Where no segment is denied, all of them are followed. -/
theorem followAll_of_not_denied {segments : List String}
    (h : ∀ segment ∈ segments, isDenied segment = false) (v : Value) :
    Context.followAll v segments = .ok (segments.foldl Context.follow v) := by
  induction segments generalizing v with
  | nil => rfl
  | cons segment rest ih =>
      rw [List.forall_mem_cons] at h
      rw [Context.followAll, guardKey, h.1]
      exact ih h.2 (Context.follow v segment)

/-- A denied segment is refused, whatever comes before it. -/
theorem followAll_of_denied {segments : List String}
    (h : ∃ segment ∈ segments, isDenied segment = true) (v : Value) :
    ∃ key, Context.followAll v segments = .error (.accessDenied key) := by
  induction segments generalizing v with
  | nil =>
      rcases h with ⟨_, hmem, _⟩
      cases hmem
  | cons segment rest ih =>
      rw [Context.followAll, guardKey]
      cases hsegment : isDenied segment with
      | true => exact ⟨segment, rfl⟩
      | false =>
          rcases h with ⟨other, hmem, hother⟩
          rcases List.mem_cons.mp hmem with rfl | hmem
          · rw [hsegment] at hother
            cases hother
          · exact ih ⟨other, hmem, hother⟩ (Context.follow v segment)

/-- An expression with member accesses around it, the first one innermost. -/
def Expr.under (e : Expr) (segments : List String) : Expr :=
  segments.foldl Expr.member e

variable {engine : Engine} {scope : Scope}

theorem evalAt_member_of_not_denied {segment : String} (h : isDenied segment = false)
    (budget : Nat) (e : Expr) :
    (engine.evalAt scope (budget + 1) (.member e segment)).outcome =
      (engine.evalAt scope budget e).outcome >>= fun w => w.property segment := by
  rw [Engine.evalAt, guardKey, h, Traced.outcome_bind]
  exact Traced.outcome_bind ..

/-- A member access refuses its own key before it looks at the object, and passes on what the object
    is refused for. -/
theorem evalAt_member_of_denied {segment : String} {budget : Nat} {e : Expr}
    (h : isDenied segment = true ∨
      ∃ key, (engine.evalAt scope budget e).outcome = .error (.accessDenied key)) :
    ∃ key, (engine.evalAt scope (budget + 1) (.member e segment)).outcome =
      .error (.accessDenied key) := by
  cases hsegment : isDenied segment with
  | true =>
      rw [Engine.evalAt, guardKey, hsegment]
      exact ⟨segment, rfl⟩
  | false =>
      rw [evalAt_member_of_not_denied hsegment]
      rcases h with hdenied | ⟨key, hkey⟩
      · rw [hsegment] at hdenied
        cases hdenied
      · rw [hkey]
        exact ⟨key, rfl⟩

/-- Where no segment is denied, the outcome of member accesses matches the value that following the
    segments leads to. -/
theorem evalAt_under_of_not_denied {segments : List String}
    (h : ∀ segment ∈ segments, isDenied segment = false) {v : Value} {budget : Nat} {e : Expr}
    (hv : v.Matches (engine.evalAt scope budget e).outcome) :
    (segments.foldl Context.follow v).Matches
      (engine.evalAt scope (budget + segments.length) (e.under segments)).outcome := by
  -- The first segment is the innermost access, so it becomes part of the expression.
  induction segments generalizing v budget e with
  | nil => exact hv
  | cons segment rest ih =>
      rw [List.forall_mem_cons] at h
      have hnext : (Context.follow v segment).Matches
          (engine.evalAt scope (budget + 1) (.member e segment)).outcome := by
        rw [evalAt_member_of_not_denied h.1]
        exact hv.property segment
      have hrest := ih h.2 hnext
      rwa [Nat.add_right_comm] at hrest

/-- Member accesses are refused if one of their keys is denied, or what they start from. -/
theorem evalAt_under_of_denied {segments : List String} {budget : Nat} {e : Expr}
    (h : (∃ segment ∈ segments, isDenied segment = true) ∨
      ∃ key, (engine.evalAt scope budget e).outcome = .error (.accessDenied key)) :
    ∃ key, (engine.evalAt scope (budget + segments.length) (e.under segments)).outcome =
      .error (.accessDenied key) := by
  induction segments generalizing budget e with
  | nil =>
      rcases h with ⟨_, hmem, _⟩ | h
      · cases hmem
      · exact h
  | cons segment rest ih =>
      -- A denied segment is refused where it is reached, and from there on the refusal is kept.
      have hnext : (∃ other ∈ rest, isDenied other = true) ∨
          ∃ key, (engine.evalAt scope (budget + 1) (.member e segment)).outcome =
            .error (.accessDenied key) := by
        rcases h with ⟨other, hmem, hother⟩ | h
        · rcases List.mem_cons.mp hmem with rfl | hmem
          · exact Or.inr (evalAt_member_of_denied (Or.inl hother))
          · exact Or.inl ⟨other, hmem, hother⟩
        · exact Or.inr (evalAt_member_of_denied (Or.inr h))
      have hrest := ih hnext
      rwa [Nat.add_right_comm] at hrest

end Segments

/-- A path has at least one segment. -/
theorem segments_ne_nil (path : String) : Text.segments path ≠ [] := by
  have hsplit : ∀ cs, Text.splitAt '.' cs ≠ [] := by
    intro cs
    unfold Text.splitAt
    split
    · exact List.cons_ne_nil _ _
    · split
      · exact List.cons_ne_nil _ _
      · split
        · exact List.cons_ne_nil _ _
        · exact List.cons_ne_nil _ _
  unfold Text.segments
  rw [ne_eq, List.map_eq_nil_iff]
  exact hsplit path.toList

section Roots

variable (engine : Engine) (scope : Scope)

/-- A name that is not denied matches the value that a source path starts from. A function that it
    may stand for leads to no array. -/
theorem matches_lookup {root : String} (h : isDenied root = false) :
    ((engine.binding? scope root).getD .undefined).Matches (engine.lookup scope root) := by
  rw [Engine.lookup_eq, guardKey, h]
  cases engine.binding? scope root with
  | some v => exact Or.inl rfl
  | none =>
      show Value.Matches .undefined (engine.reference root)
      unfold Engine.reference
      by_cases hfunction : engine.hasFunction root = true
      · rw [if_pos hfunction]
        exact Or.inr ⟨rfl, rfl⟩
      · rw [if_neg hfunction]
        exact ⟨rfl, rfl⟩

theorem lookup_of_denied {root : String} (h : isDenied root = true) :
    engine.lookup scope root = .error (.accessDenied root) := by
  unfold Engine.lookup
  rw [guardKey, h]
  rfl

variable {path root : String} {rest : List String}

theorem resolve_of_segments (hsegments : Text.segments path = root :: rest) :
    engine.context.resolve scope path =
      guardKey root >>= fun _ =>
        Context.followAll ((engine.binding? scope root).getD .undefined) rest := by
  unfold Context.resolve
  rw [hsegments]
  rfl

omit scope in
/-- The depth that the member accesses leave is at least one, which the name needs. -/
theorem exists_maxDepth_eq (hdepth : (root :: rest).length ≤ engine.maxDepth) :
    ∃ spare, engine.maxDepth = (spare + 1) + rest.length := by
  rcases Nat.exists_eq_add_of_le hdepth with ⟨spare, hspare⟩
  refine ⟨spare, ?_⟩
  rw [hspare, List.length_cons]
  omega

/-- Where no segment is denied, both ways lead to the same arrays and neither is refused. -/
theorem resolvers_of_not_denied (hsegments : Text.segments path = root :: rest)
    (hdepth : (root :: rest).length ≤ engine.maxDepth)
    (h : ∀ segment ∈ root :: rest, isDenied segment = false) :
    ∃ v, engine.context.resolve scope path = .ok v ∧
      v.Matches (engine.eval scope ((Expr.identifier root).under rest)).outcome := by
  rw [List.forall_mem_cons] at h
  refine ⟨rest.foldl Context.follow ((engine.binding? scope root).getD .undefined), ?_, ?_⟩
  · rw [resolve_of_segments engine scope hsegments, guardKey, h.1]
    exact followAll_of_not_denied h.2 _
  · rcases exists_maxDepth_eq engine hdepth with ⟨spare, hmax⟩
    unfold Engine.eval
    rw [hmax]
    exact evalAt_under_of_not_denied h.2 (matches_lookup engine scope h.1)

/-- Where a segment is denied, both ways are refused. -/
theorem resolvers_of_denied (hsegments : Text.segments path = root :: rest)
    (hdepth : (root :: rest).length ≤ engine.maxDepth)
    (h : ∃ segment ∈ root :: rest, isDenied segment = true) :
    (∃ key, engine.context.resolve scope path = .error (.accessDenied key)) ∧
      ∃ key, (engine.eval scope ((Expr.identifier root).under rest)).outcome =
        .error (.accessDenied key) := by
  rcases exists_maxDepth_eq engine hdepth with ⟨spare, hmax⟩
  unfold Engine.eval
  rw [resolve_of_segments engine scope hsegments, hmax]
  -- The first segment is a name and the others are keys, and each is checked in its own place.
  cases hroot : isDenied root with
  | true =>
      refine ⟨⟨root, by rw [guardKey, hroot]; rfl⟩, evalAt_under_of_denied (Or.inr ⟨root, ?_⟩)⟩
      exact lookup_of_denied engine scope hroot
  | false =>
      have hrest : ∃ segment ∈ rest, isDenied segment = true := by
        rcases h with ⟨segment, hmem, hsegment⟩
        rcases List.mem_cons.mp hmem with rfl | hmem
        · rw [hroot] at hsegment
          cases hsegment
        · exact ⟨segment, hmem, hsegment⟩
      refine ⟨?_, evalAt_under_of_denied (Or.inl hrest)⟩
      rw [guardKey, hroot]
      exact followAll_of_denied hrest _

end Roots

/-- The array at a source path is the value of the path as an expression: either way finds an array
    if the other finds the same one. A path is refused for a denied key in either way exactly if one
    of its segments is denied. The engine must allow as much depth as the path has segments. -/
theorem path_resolvers_agree (engine : Engine) (scope : Scope) (path : String)
    (hroot : (Text.segments path).head? ≠ some "")
    (hdepth : (Text.segments path).length ≤ engine.maxDepth) :
    ∃ e, Expr.path? path = some e ∧
      (∀ items, engine.resolveArray scope path = .ok items ↔
        (engine.eval scope e).outcome = .ok (.array items)) ∧
      ((∃ key, engine.resolveArray scope path = .error (.expression (.accessDenied key))) ↔
        ∃ segment ∈ Text.segments path, isDenied segment = true) ∧
      ((∃ key, (engine.eval scope e).outcome = .error (.accessDenied key)) ↔
        ∃ segment ∈ Text.segments path, isDenied segment = true) := by
  rcases List.exists_cons_of_ne_nil (segments_ne_nil path) with ⟨root, rest, hsegments⟩
  rw [hsegments] at hroot hdepth ⊢
  have hpath : Expr.path? path = some ((Expr.identifier root).under rest) := by
    have hempty : root.isEmpty = false := by
      rw [Bool.eq_false_iff, ne_eq, String.isEmpty_iff]
      exact fun h => hroot (congrArg some h)
    unfold Expr.path?
    rw [hsegments]
    simp only [hempty]
    rfl
  refine ⟨(Expr.identifier root).under rest, hpath, ?_⟩
  unfold Engine.resolveArray Context.resolveArray
  -- A denied segment stops both; without one they arrive at matching values.
  by_cases hdenied : ∃ segment ∈ root :: rest, isDenied segment = true
  · rcases resolvers_of_denied engine scope hsegments hdepth hdenied with ⟨⟨key, hkey⟩, key', hkey'⟩
    rw [hkey, hkey']
    refine ⟨fun items => ⟨nofun, nofun⟩, ⟨fun _ => hdenied, fun _ => ⟨key, rfl⟩⟩,
      ⟨fun _ => hdenied, fun _ => ⟨key', rfl⟩⟩⟩
  · have hall : ∀ segment ∈ root :: rest, isDenied segment = false := by
      intro segment hmem
      rw [Bool.eq_false_iff]
      exact fun h => hdenied ⟨segment, hmem, h⟩
    rcases resolvers_of_not_denied engine scope hsegments hdepth hall with ⟨v, hv, hmatches⟩
    rw [hv]
    refine ⟨fun items => ?_, ⟨?_, fun h => absurd h hdenied⟩, ⟨?_, fun h => absurd h hdenied⟩⟩
    · -- Values that match are the same array if either is an array.
      rw [← hmatches.array_iff]
      exact Value.items_eq_ok_iff
    · rintro ⟨key, hkey⟩
      exact absurd hkey (Value.items_ne_expression v _)
    · rintro ⟨key, hkey⟩
      rw [hkey] at hmatches
      cases hmatches.2

section Orders

/-- An engine with an order that has lines, a note and no address, and a depth of three. -/
def orderEngine : Engine where
  globals := [("order", .object [("lines", .array [.object [("", .array [.null])]]),
    ("note", .string "none"), ("address", .null)])]
  functions := []
  maxDepth := 3

/-- The lines are found in both ways. A field of what is missing is undefined for the one and an
    error for the other, and neither is an array. A denied segment is refused although nothing is
    bound to the first one. -/
theorem orderLines_agree :
    (orderEngine.resolveArray [] "order.lines" = .ok [.object [("", .array [.null])]] ∧
      (orderEngine.eval [] (.member (.identifier "order") "lines")).outcome =
        .ok (.array [.object [("", .array [.null])]])) ∧
    (orderEngine.resolveArray [] "order.address.lines" = .error (.expectedArray "undefined") ∧
      ∀ items, (orderEngine.eval [] (.member (.member (.identifier "order") "address")
        "lines")).outcome ≠ .ok (.array items)) ∧
    ∃ key, (orderEngine.eval [] (.member (.member (.identifier "missing") "")
      "prototype")).outcome = .error (.accessDenied key) := by
  have hlines : orderEngine.resolveArray [] "order.lines" =
      .ok [.object [("", .array [.null])]] := rfl
  have haddress : orderEngine.resolveArray [] "order.address.lines" =
      .error (.expectedArray "undefined") := rfl
  have hpath : Expr.path? "order.lines" = some (.member (.identifier "order") "lines") := rfl
  have hpath' : Expr.path? "order.address.lines" =
      some (.member (.member (.identifier "order") "address") "lines") := rfl
  have hpath'' : Expr.path? "missing..prototype" =
      some (.member (.member (.identifier "missing") "") "prototype") := rfl
  refine ⟨⟨hlines, ?_⟩, ⟨haddress, ?_⟩, ?_⟩
  · rcases path_resolvers_agree orderEngine [] "order.lines" (by decide) (by decide) with
      ⟨e, he, harrays, _⟩
    rw [hpath, Option.some.injEq] at he
    subst he
    exact (harrays _).mp hlines
  · rcases path_resolvers_agree orderEngine [] "order.address.lines" (by decide) (by decide) with
      ⟨e, he, harrays, _⟩
    rw [hpath', Option.some.injEq] at he
    subst he
    intro items hitems
    rw [← harrays, haddress] at hitems
    cases hitems
  · rcases path_resolvers_agree orderEngine [] "missing..prototype" (by decide) (by decide) with
      ⟨e, he, _, _, hdenied⟩
    rw [hpath'', Option.some.injEq] at he
    subst he
    exact hdenied.mpr ⟨"prototype", by decide, by decide⟩

end Orders

end FieldLang

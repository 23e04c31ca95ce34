import Charter.Proofs.Paths

/-!
The context keys of an expression. In two contexts that give the same value to each of them, an expression ends in the
same, whatever else a request knows: the keys cover every path into the context, inside of calls and lambdas too.
-/

namespace Charter

-- The value of a reported path: the chain of members that its dots separate.
def RequestContext.valueAt (context : RequestContext) (path : String) : Value :=
  match (path.toList.splitOn '.').map String.ofList with
  | [] => .undefined
  | root :: keys => ((context.scope none).resolve root).follow keys

-- No key in a chain of members below a name has a dot in it.
def Ir.Expression.PlainKeys (e : Expression) : Prop := ∀ path ∈ e.paths [], ∀ key ∈ path.2, '.' ∉ key.toList

namespace Ir.Expression
variable {bound : List String} {root : String} {keys : List String} {e : Expression}

-- The reported path of a chain is the chain with dots in it; only chains are reported.
theorem contextPath_eq (e : Expression) : e.contextPath? = e.path?.bind fun path =>
    if path.1 = "user" ∨ path.1 = "context" then some (dotted path.1 path.2) else none := by
  induction e using Expression.induction with
  | identifier name => simp [contextPath?, path?, dotted]
  | member target key ih =>
      rw [contextPath?, path?, ih]
      cases target.path? with
      | none => rfl
      | some path => simp only [Option.bind_some, Option.map_some]; split <;> simp [dotted]
  | literal | binary | unary | call | conditional | array | object | lambda => rfl

theorem contextReadings_items (items : List Expression) :
    contextReadings.items items = items.flatMap contextReadings := List.eq_flatMap_of rfl (fun _ _ => rfl) items

theorem contextReadings_pairs (pairs : List (String × Expression)) :
    contextReadings.pairs pairs = pairs.flatMap fun pair => contextReadings pair.2 :=
  List.eq_flatMap_of rfl (fun _ _ => rfl) pairs

-- Every path into the context is reported, whichever names are bound.
theorem dotted_reported (read : (root, keys) ∈ e.paths bound) (reserved : root = "user" ∨ root = "context") :
    dotted root keys ∈ e.contextReadings := by
  induction e using Expression.induction generalizing bound with
  | literal value => cases read
  | identifier name =>
      cases (mem_free.mp read).1
      rw [contextReadings, contextPath_eq, path?, Option.bind_some, if_pos reserved]
      exact List.mem_singleton_self _
  | member target key ih =>
      rw [paths] at read
      rw [contextReadings, contextPath_eq]
      cases spelled : path? (.member target key) with
      | some path =>
          rw [spelled] at read
          cases (mem_free.mp read).1
          rw [Option.bind_some, if_pos reserved]
          exact List.mem_singleton_self _
      | none =>
          rw [spelled] at read
          exact ih read
  | binary operator left right first second =>
      exact List.mem_append.mpr ((List.mem_append.mp read).imp first second)
  | unary operator operand ih => exact ih read
  | call callee arguments called each =>
      have given (read : (root, keys) ∈ paths.ofList bound arguments) :
          dotted root keys ∈ contextReadings.items arguments := by
        obtain ⟨argument, member, found⟩ := mem_ofList.mp read
        rw [contextReadings_items]
        exact List.mem_flatMap.mpr ⟨argument, member, each argument member found⟩
      cases callee with
      | identifier name => exact List.mem_append_right _ (given read)
      | literal | member | binary | unary | call | conditional | array | object | lambda =>
          exact List.mem_append.mpr ((List.mem_append.mp read).imp called given)
  | conditional condition consequent alternate decided first second =>
      refine List.mem_append.mpr ((List.mem_append.mp read).imp (fun both => ?_) second)
      exact List.mem_append.mpr ((List.mem_append.mp both).imp decided first)
  | array elements each =>
      obtain ⟨element, member, found⟩ := mem_ofList.mp read
      rw [contextReadings, contextReadings_items]
      exact List.mem_flatMap.mpr ⟨element, member, each element member found⟩
  | object properties each =>
      obtain ⟨property, member, found⟩ := mem_ofPairs.mp read
      rw [contextReadings, contextReadings_pairs]
      exact List.mem_flatMap.mpr ⟨property, member, each property member found⟩
  | lambda params body ih => exact ih read

end Ir.Expression

theorem RequestContext.valueAt_dotted (context : RequestContext) {root : String} {keys : List String}
    (plain : ∀ part ∈ root :: keys, '.' ∉ part.toList) :
    context.valueAt (dotted root keys) = ((context.scope none).resolve root).follow keys := by
  rw [valueAt, splitOn_dotted plain]

-- In two contexts with the same values under all context keys of an expression, scopes that agree on everything else
-- give it the same value, or the same error.
theorem told_of_contextKeys {e : Ir.Expression} (plain : e.PlainKeys) {one other : RequestContext}
    (same : ∀ path ∈ e.contextKeys, one.valueAt path = other.valueAt path) {env : Environment} {self : Value}
    (data : env.Data) (own : self.Data) (around : Surroundings) (usage : Usage) :
    told (evaluate around (one.bindReserved env self) e usage) =
      told (evaluate around (other.bindReserved env self) e usage) := by
  refine told_of_paths (one.bindReserved_data data own) (other.bindReserved_data data own) around usage ?_
  rintro ⟨root, keys⟩ read
  by_cases reserved : root = "user" ∨ root = "context"
  · have rootPlain : '.' ∉ root.toList := by rcases reserved with rfl | rfl <;> decide
    have parts : ∀ part ∈ root :: keys, '.' ∉ part.toList := List.forall_mem_cons.mpr ⟨rootPlain, plain _ read⟩
    have reported := same _ (List.mem_eraseDups.mpr (Ir.Expression.dotted_reported read reserved))
    rw [one.valueAt_dotted parts, other.valueAt_dotted parts] at reported
    rw [RequestContext.resolve_bindReserved_context reserved, RequestContext.resolve_bindReserved_context reserved]
    exact reported
  · rw [RequestContext.resolve_bindReserved_other one other env self reserved]

-- Two requests whose contexts give the same value to every context key of a policy cannot be told apart by it, if they
-- are about the same record with the same input.
theorem context_keys_decide {e : Ir.Expression} (plain : e.PlainKeys) {one other : RequestContext}
    (same : ∀ path ∈ e.contextKeys, one.valueAt path = other.valueAt path) (engine : Engine) (command : Ir.Command)
    (record : Option Record) (input : Record) (usage : Usage) :
    told (evaluate engine.around ({ engine with context := one }.commandScope command record input) e usage) =
      told (evaluate engine.around ({ engine with context := other }.commandScope command record input) e usage) := by
  obtain ⟨env, self, data, own, bound⟩ := engine.commandScope_bound command record input
  rw [bound one, bound other]
  exact told_of_contextKeys plain same data own engine.around usage

-- A policy that compares the plan with the role, by a lambda, is blind to the name of the user and to the tenant.
theorem plan_policy_blind :
    let policy : Ir.Expression := .call
      (.lambda ["p"] (.binary "==" (.identifier "p") (.member (.identifier "user") "role")))
      [.member (.identifier "context") "plan"]
    let one : RequestContext :=
      { user := some (.object [("role", .string "gold"), ("name", .string "Ann")]), values := [("plan", .string "gold")] }
    let other : RequestContext :=
      { user := some (.object [("role", .string "gold")]),
        values := [("tenant", .integer 7), ("plan", .string "gold")] }
    policy.contextKeys = ["user.role", "context.plan"] ∧
    ∀ (engine : Engine) (command : Ir.Command) (record : Option Record) (input : Record) (usage : Usage),
      told (evaluate engine.around ({ engine with context := one }.commandScope command record input) policy usage) =
        told (evaluate engine.around ({ engine with context := other }.commandScope command record input) policy
          usage) := by
  intro policy one other
  have keys : policy.contextKeys = ["user.role", "context.plan"] := by decide
  have plain : policy.PlainKeys := by
    have paths : policy.paths [] = [("user", ["role"]), ("context", ["plan"])] := by decide
    rw [Ir.Expression.PlainKeys, paths]
    decide
  refine ⟨keys, context_keys_decide plain ?_⟩
  rw [keys]
  exact List.forall_mem_cons.mpr ⟨rfl, List.forall_mem_singleton.mpr rfl⟩

end Charter

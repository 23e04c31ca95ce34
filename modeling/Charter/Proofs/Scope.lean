import Charter.Context
import Charter.Proofs.Fields

/-!
What names mean in the scopes that expressions about a record are evaluated in.
-/

namespace Charter

namespace Environment

theorem lookup?_define (env : Environment) (name : String) (value : Value) (key : String) :
    (env.define name value).lookup? key = if name = key then some value else env.lookup? key := by
  obtain ⟨scopes⟩ := env
  cases scopes with
  | nil =>
      by_cases same : name = key <;> simp [define, lookup?, Fields.get?, same]
  | cons scope outer =>
      by_cases same : name = key <;> simp [define, lookup?, List.findSome?_cons, Fields.get?_put, same]

theorem lookup?_ofFields (fields : Fields Value) (key : String) :
    (ofFields fields).lookup? key = Fields.get? fields key := by
  cases found : Fields.get? fields key <;> simp [ofFields, lookup?, found]

-- The last binding of a name counts.
theorem lookup?_defineAll (env : Environment) (bindings : Fields Value) (key : String) :
    (env.defineAll bindings).lookup? key = (Fields.get? bindings.reverse key).or (env.lookup? key) := by
  induction bindings generalizing env with
  | nil => rfl
  | cons pair rest ih =>
      obtain ⟨name, value⟩ := pair
      change ((env.define name value).defineAll rest).lookup? key = _
      rw [ih, List.reverse_cons, Fields.get?_append, lookup?_define, Option.or_assoc, Fields.get?]
      by_cases same : name = key
      · rw [if_pos same, if_pos same, Option.some_or]
      · rw [if_neg same, if_neg same, Fields.get?, Option.none_or]

theorem resolve_define_self (env : Environment) (name : String) (value : Value) :
    (env.define name value).resolve name = value := by
  simp only [resolve, lookup?_define, if_pos]

theorem resolve_define_other (env : Environment) {name key : String} (value : Value) (other : name ≠ key) :
    (env.define name value).resolve key = env.resolve key := by
  simp only [resolve, lookup?_define, if_neg other]

end Environment

theorem Record.get?_values (record : Record) (key : String) :
    Fields.get? (Record.values record) key = (Fields.get? record key).map .ofJson :=
  Fields.get?_map _ record key

namespace RequestContext
variable {context : RequestContext} {root : String}

-- What every scope binds over all else.
def reserved (context : RequestContext) (self : Value) : Fields Value :=
  [("context", context.value), ("user", context.userValue), ("this", self), ("self", self)]

theorem lookup?_bindReserved (env : Environment) (self : Value) (key : String) :
    (context.bindReserved env self).lookup? key = (Fields.get? (context.reserved self) key).or (env.lookup? key) := by
  simp only [bindReserved, reserved, Environment.lookup?_define, Fields.get?]
  repeat' split
  all_goals rfl

theorem get?_reserved_eq_none (self : Value) {key : String} :
    Fields.get? (context.reserved self) key = none ↔ key ∉ ["self", "this", "user", "context"] := by
  simp only [reserved, Fields.get?, List.mem_cons, List.not_mem_nil]
  grind

theorem resolve_scope_field (fields : Fields Value) (plain : root ∉ ["self", "this", "user", "context"]) :
    (context.scope (some fields)).resolve root = (Environment.ofFields fields).resolve root := by
  simp only [List.mem_cons, List.not_mem_nil, not_or, or_false] at plain
  obtain ⟨self, this, user, rest⟩ := plain
  simp only [RequestContext.scope, RequestContext.bindReserved]
  rw [Environment.resolve_define_other _ _ (Ne.symm rest), Environment.resolve_define_other _ _ (Ne.symm user),
    Environment.resolve_define_other _ _ (Ne.symm this), Environment.resolve_define_other _ _ (Ne.symm self)]

theorem resolve_scope_self (fields : Fields Value) (whole : root = "self" ∨ root = "this") :
    (context.scope (some fields)).resolve root = .object fields := by
  simp only [RequestContext.scope, RequestContext.bindReserved]
  rcases whole with rfl | rfl
  · rw [Environment.resolve_define_other _ _ (by decide), Environment.resolve_define_other _ _ (by decide),
      Environment.resolve_define_other _ _ (by decide), Environment.resolve_define_self]
  · rw [Environment.resolve_define_other _ _ (by decide), Environment.resolve_define_other _ _ (by decide),
      Environment.resolve_define_self]

-- Scopes of records with the same field give it the same value, whatever their contexts are.
theorem resolve_scope_field_same {record other : Record} (context context' : RequestContext)
    (plain : root ∉ ["self", "this", "user", "context"]) (same : Fields.get? record root = Fields.get? other root) :
    (context.scope (some (Record.values record))).resolve root =
      (context'.scope (some (Record.values other))).resolve root := by
  rw [resolve_scope_field _ plain, resolve_scope_field _ plain]
  unfold Environment.resolve
  rw [Environment.lookup?_ofFields, Environment.lookup?_ofFields, Record.get?_values, Record.get?_values, same]

theorem resolve_scope_member_same {record other : Record} (context context' : RequestContext)
    (whole : root = "self" ∨ root = "this") {key : String} (same : Fields.get? record key = Fields.get? other key) :
    ((context.scope (some (Record.values record))).resolve root).member key =
      ((context'.scope (some (Record.values other))).resolve root).member key := by
  rw [resolve_scope_self _ whole, resolve_scope_self _ whole]
  change (Fields.get? _ key).getD Value.undefined = (Fields.get? _ key).getD Value.undefined
  rw [Record.get?_values, Record.get?_values, same]

-- The context and its user are the same in all scopes.
theorem resolve_bindReserved_context (reserved : root = "user" ∨ root = "context") (env : Environment) (self : Value) :
    (context.bindReserved env self).resolve root = (context.scope none).resolve root := by
  unfold RequestContext.scope Environment.resolve
  rw [lookup?_bindReserved, lookup?_bindReserved]
  rcases reserved with rfl | rfl <;> rfl

theorem resolve_scope_context (reserved : root = "user" ∨ root = "context") (fields fields' : Fields Value) :
    (context.scope (some fields)).resolve root = (context.scope (some fields')).resolve root :=
  (resolve_bindReserved_context reserved _ _).trans (resolve_bindReserved_context reserved _ _).symm

-- All that a scope binds beside them comes from elsewhere.
theorem resolve_bindReserved_other (context other : RequestContext) (env : Environment) (self : Value)
    (unreserved : ¬ (root = "user" ∨ root = "context")) :
    (context.bindReserved env self).resolve root = (other.bindReserved env self).resolve root := by
  obtain ⟨user, whole⟩ := not_or.mp unreserved
  simp only [bindReserved]
  rw [Environment.resolve_define_other _ _ (Ne.symm whole), Environment.resolve_define_other _ _ (Ne.symm user),
    Environment.resolve_define_other _ _ (Ne.symm whole), Environment.resolve_define_other _ _ (Ne.symm user)]

end RequestContext
end Charter

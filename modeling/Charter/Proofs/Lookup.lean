import Charter.Proofs.Independence
import Charter.Proofs.Parts

/-!
Evaluation depends on nothing but what names stand for. Two environments that give the same value to every name cannot
be told apart by an expression, though the lambdas that it makes keep hold of different scopes.
-/

namespace Charter
open Evaluation

-- Every expression reads no more than everything.
theorem Within.everything (e : Ir.Expression) : Within True (fun _ _ => True) e := by
  induction e using Ir.Expression.induction with
  | literal value => exact .literal value
  | identifier name => exact .path rfl trivial
  | member target property ih => exact .member property ih
  | binary operator left right first second => exact .binary operator first second
  | unary operator operand ih => exact .unary operator ih
  | call callee arguments called each =>
      cases callee with
      | identifier name => exact .named (fun _ _ => .inr trivial) (fun _ => trivial) each
      | literal | member | binary | unary | call | conditional | array | object | lambda =>
          exact .call nofun called each
  | conditional condition consequent alternate decided first second => exact .conditional decided first second
  | array elements each => exact .array each
  | object properties each => exact .object each
  | lambda params body ih => exact .lambda ((everything_bind params).symm ▸ ih)

-- Runs from one start cannot tell a value from itself.
theorem Alike.self {start : Nat} (value : Value) : Alike ⟨True, start, start⟩ value value := by
  induction value using Value.induction with
  | undefined => exact .undefined
  | null => exact .null
  | boolean value => exact .boolean value
  | number value => exact .number value
  | string value => exact .string value
  | array items each => exact .array_self each
  | object entries each => exact .object_self each
  | lambda identity params body scopes each =>
      refine .lambda_self ?_ (Within.everything body) each
      rcases Nat.lt_or_ge identity start with found | made
      · exact .inl ⟨rfl, found, found⟩
      · exact .inr ⟨made, made, rfl⟩

namespace Environment
variable {env env' : Environment}

-- All bindings in one scope, where an inner one hides those of its name around it.
def flat (env : Environment) : Environment := .ofFields (Fields.firsts env.scopes.flatten)

theorem lookup?_inner (env : Environment) (name : String) : env.inner.lookup? name = env.lookup? name := rfl

theorem lookup?_flat (env : Environment) (name : String) : env.flat.lookup? name = env.lookup? name := by
  obtain ⟨scopes⟩ := env
  rw [flat, lookup?_ofFields, Fields.get?_firsts]
  induction scopes with
  | nil => rfl
  | cons scope outer ih =>
      rw [List.flatten_cons, Fields.get?_append, ih, lookup?, lookup?, List.findSome?_cons]
      cases Fields.get? scope name <;> rfl

theorem resolve_of_lookup (name : String) (same : env.lookup? name = env'.lookup? name) :
    env.resolve name = env'.resolve name := by
  unfold resolve
  rw [same]

end Environment

-- Where every name stands for the same in two environments, an expression that is evaluated in both with the same
-- answers of clock and ids takes the same of them, and ends in the same error or in values that are the same as a
-- document, as a text and as a condition.
theorem lookups_decide (around : Surroundings) (e : Ir.Expression) (usage : Usage) {env env' : Environment}
    (same : ∀ name, env.lookup? name = env'.lookup? name) :
    observed (evaluate around env e usage) = observed (evaluate around env' e usage) := by
  have shown : Shown ⟨True, usage.lambdas, usage.lambdas⟩ (fun _ _ => True) env env' := by
    intro root keys _
    rw [Environment.resolve_of_lookup root (same root)]
    exact (Alike.self _).follow keys
  exact observed_evaluate around usage ((Within.everything e).confined fun _ => False) shown fun _ => False.elim

-- An empty scope inside of two others, and the two as one. A lambda is made there, and another one is called with a
-- fresh id.
theorem call_in_flat_scopes :
    let around : Surroundings := ⟨fun _ => 0, fun _ => "id"⟩
    let env : Environment := ⟨[[("x", .string "near")], [("x", .string "far"), ("y", .string "!")]]⟩
    let joined : Ir.Expression := .lambda ["z"] (.binary "+" (.identifier "x")
      (.binary "+" (.identifier "y") (.identifier "z")))
    let e : Ir.Expression := .array [joined, .call joined [.call (.identifier "uuid") []]]
    (∀ name, env.inner.lookup? name = env.flat.lookup? name) ∧
    observed (evaluate around env.inner e {}) = observed (evaluate around env.flat e {}) ∧
    observed (evaluate around env.flat e {}) =
      (.ok (.array [.null, .string "near!id"], "(z) => ...,near!id", true), { ids := 1, lambdas := 2 }) := by
  intro around env joined e
  have same : ∀ name, env.inner.lookup? name = env.flat.lookup? name := fun name =>
    (env.lookup?_inner name).trans (env.lookup?_flat name).symm
  exact ⟨same, lookups_decide around e {} same, rfl⟩

end Charter

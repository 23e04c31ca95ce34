import Charter.Proofs.Itemwise
import Charter.Proofs.Steadiness

/-!
The paths that an expression reads. In a scope of data, what an expression ends in depends on the values of these
paths and on nothing else: what it calls by name alone is a parameter of a lambda around the call, or no function.
-/

namespace Charter

-- The chains of members below a name that an expression reads, each as long as it is. Names that are bound by a lambda
-- around them stand for its arguments, and names that are called are not read.
def Ir.Expression.paths (bound : List String) : Expression → List (String × List String)
  | .literal _ => []
  | .identifier name => free (name, [])
  | .member target key =>
    match path? (.member target key) with
    | some path => free path
    | none => paths bound target
  | .binary _ left right => paths bound left ++ paths bound right
  | .unary _ operand => paths bound operand
  | .call (.identifier _) arguments => ofList arguments
  | .call callee arguments => paths bound callee ++ ofList arguments
  | .conditional condition consequent alternate =>
    paths bound condition ++ paths bound consequent ++ paths bound alternate
  | .array elements => ofList elements
  | .object properties => ofPairs properties
  | .lambda params body => paths (bound ++ params) body
where
  free (path : String × List String) : List (String × List String) := if bound.contains path.1 then [] else [path]
  ofList : List Expression → List (String × List String)
    | [] => []
    | item :: rest => paths bound item ++ ofList rest
  ofPairs : List (String × Expression) → List (String × List String)
    | [] => []
    | (_, value) :: rest => paths bound value ++ ofPairs rest

namespace Ir.Expression
variable {bound : List String} {path : String × List String} {e : Expression}

theorem mem_free {other : String × List String} : other ∈ paths.free bound path ↔ other = path ∧ path.1 ∉ bound := by
  unfold paths.free
  split <;> simp_all

theorem mem_ofList {items : List Expression} :
    path ∈ paths.ofList bound items ↔ ∃ item ∈ items, path ∈ item.paths bound := by
  rw [List.eq_flatMap_of (f := paths.ofList bound) rfl (fun _ _ => rfl), List.mem_flatMap]

theorem mem_ofPairs {pairs : List (String × Expression)} :
    path ∈ paths.ofPairs bound pairs ↔ ∃ pair ∈ pairs, path ∈ pair.2.paths bound := by
  rw [List.eq_flatMap_of (f := paths.ofPairs bound) rfl (fun _ _ => rfl), List.mem_flatMap]

theorem path_member {target : Expression} {key root : String} {keys : List String}
    (spelled : (member target key).path? = some (root, keys)) :
    ∃ before, target.path? = some (root, before) ∧ keys = before ++ [key] := by
  rw [path?] at spelled
  obtain ⟨⟨_, before⟩, within, same⟩ := Option.map_eq_some_iff.mp spelled
  cases same
  exact ⟨before, within, rfl⟩

end Ir.Expression

/-! The text of a chain of members. -/

-- A name and the keys behind it, with dots in between.
def dotted (root : String) (keys : List String) : String := keys.foldl (fun text key => text ++ "." ++ key) root

theorem dotted_toList (root : String) (keys : List String) :
    (dotted root keys).toList = ['.'].intercalate ((root :: keys).map String.toList) := by
  induction keys generalizing root with
  | nil => simp [dotted]
  | cons key rest ih =>
      refine (ih _).trans ?_
      cases rest with
      | nil => simp
      | cons next later => simp [List.intercalate_cons_cons]

-- The dots of a path are found again where none is in its parts.
theorem splitOn_dotted {root : String} {keys : List String} (plain : ∀ part ∈ root :: keys, '.' ∉ part.toList) :
    ((dotted root keys).toList.splitOn '.').map String.ofList = root :: keys := by
  have parts : ∀ part ∈ (root :: keys).map String.toList, '.' ∉ part := by
    intro part member
    obtain ⟨text, source, rfl⟩ := List.mem_map.mp member
    exact plain text source
  rw [dotted_toList, List.splitOn_intercalate '.' parts (by simp)]
  simp

section Confined
variable {view : View} {bound params : List String} {e : Ir.Expression}

theorem View.bind_append : view.bind (bound ++ params) = (view.bind bound).bind params := by
  funext root keys
  simp only [View.bind, List.mem_append, eq_iff_iff]
  tauto

theorem confined_path {path : String × List String} (spelled : e.path? = some path)
    (read : ∀ other ∈ Ir.Expression.paths.free bound path, view other.1 other.2) :
    Confined True (view.bind bound) (· ∉ bound) e := by
  refine .path spelled ?_
  by_cases hidden : path.1 ∈ bound
  · exact .inl hidden
  · exact .inr (read path (Ir.Expression.mem_free.mpr ⟨rfl, hidden⟩))

-- By induction on the expression, with more names bound in the body of a lambda.
theorem confined_paths (read : ∀ path ∈ e.paths bound, view path.1 path.2) :
    Confined True (view.bind bound) (· ∉ bound) e := by
  induction e using Ir.Expression.induction generalizing bound with
  | literal value => exact .literal value
  | identifier name => exact confined_path rfl read
  | member target key ih =>
      rw [Ir.Expression.paths] at read
      cases spelled : Ir.Expression.path? (.member target key) with
      | some path => exact confined_path spelled (by simpa only [spelled] using read)
      | none => exact .member key (ih (by simpa only [spelled] using read))
  | binary operator left right first second =>
      obtain ⟨before, behind⟩ := List.forall_mem_append.mp read
      exact .binary operator (first before) (second behind)
  | unary operator operand ih => exact .unary operator (ih read)
  | call callee arguments called each =>
      have given (read : ∀ path ∈ Ir.Expression.paths.ofList bound arguments, view path.1 path.2) :
          ∀ argument ∈ arguments, Confined True (view.bind bound) (· ∉ bound) argument := fun argument member =>
        each argument member fun path found => read path (Ir.Expression.mem_ofList.mpr ⟨argument, member, found⟩)
      cases callee with
      | identifier name =>
          refine .named (fun _ _ => .inr trivial) (fun _ => ?_) (given read)
          exact (Classical.em (name ∈ bound)).imp .inl id
      | literal | member | binary | unary | call | conditional | array | object | lambda =>
          obtain ⟨before, behind⟩ := List.forall_mem_append.mp read
          exact .call (fun _ => nofun) (called before) (given behind)
  | conditional condition consequent alternate decided first second =>
      obtain ⟨both, last⟩ := List.forall_mem_append.mp read
      obtain ⟨before, behind⟩ := List.forall_mem_append.mp both
      exact .conditional (decided before) (first behind) (second last)
  | array elements each =>
      exact .array fun element member =>
        each element member fun path found => read path (Ir.Expression.mem_ofList.mpr ⟨element, member, found⟩)
  | object properties each =>
      exact .object fun property member =>
        each property member fun path found => read path (Ir.Expression.mem_ofPairs.mpr ⟨property, member, found⟩)
  | lambda params body ih =>
      have inside : Confined True (view.bind (bound ++ params)) (· ∉ bound ++ params) body := ih read
      simp only [View.bind_append, List.mem_append, not_or] at inside
      exact .lambda inside

end Confined

-- Data is no function: in two runs that count lambdas differently, a lambda is not alike itself.
theorem Value.Data.isFunction {value : Value} (data : value.Data) : value.isFunction = false := by
  cases value with
  | lambda identity params body scopes =>
      cases data ⟨True, 0, 1⟩ with
      | lambda met =>
          have unmet : ¬ Pairing.Meets ⟨True, 0, 1⟩ identity identity := by simp [Pairing.Meets]
          exact absurd met unmet
  | undefined | null | boolean | number | string | array | object => rfl

theorem Environment.Data.idle {env env' : Environment} (data : env.Data) (data' : env'.Data)
    (refused : String → Prop) : Idle refused env env' := fun name _ =>
  ⟨Value.Data.isFunction (data.resolve name), Value.Data.isFunction (data'.resolve name)⟩

-- In two scopes of data that give the same value to each path that an expression reads, nothing that can be told of it
-- is different.
theorem told_of_paths {env env' : Environment} {e : Ir.Expression} (data : env.Data) (data' : env'.Data)
    (around : Surroundings) (usage : Usage)
    (same : ∀ path ∈ e.paths [], (env.resolve path.1).follow path.2 = (env'.resolve path.1).follow path.2) :
    told (evaluate around env e usage) = told (evaluate around env' e usage) := by
  have read : Confined True (View.bind (fun root keys => (root, keys) ∈ e.paths []) []) (· ∉ []) e :=
    confined_paths fun _ member => member
  refine told_of_observed (observed_evaluate around usage read (fun root keys seen => ?_) (data.idle data' _))
  rw [← same _ (seen.resolve_left List.not_mem_nil)]
  exact (data.resolve root _).follow keys

end Charter

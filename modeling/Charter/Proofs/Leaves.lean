import Charter.Proofs.Paths

/-!
The leaves that are shown beside a condition, with their values. Each text stands once, in the order in which the texts
first appear in the condition, and shows the value of the leaf that has it first. What an expression takes no part in,
such as how many lambdas were made before, does not show.
-/

namespace Charter

namespace Ir.Expression
variable {e : Expression} {root : String} {keys : List String}

-- Chains of members are shown as they are written with dots.
theorem render_path (spelled : e.path? = some (root, keys)) : e.render = dotted root keys := by
  induction e using Expression.induction generalizing keys with
  | identifier name => cases spelled; rfl
  | member target key ih =>
      obtain ⟨before, within, rfl⟩ := path_member spelled
      have simple : target.isComposed = false := by
        cases target with
        | binary | conditional | lambda => cases within
        | literal | identifier | member | unary | call | array | object => rfl
      rw [render, simple, enclosed, if_neg Bool.false_ne_true, ih within, dotted, dotted, List.foldl_append]
      rfl
  | literal | binary | unary | call | conditional | array | object | lambda => cases spelled

-- There is one chain with a name and keys.
theorem eq_chain (spelled : e.path? = some (root, keys)) : e = keys.foldl member (identifier root) := by
  induction e using Expression.induction generalizing keys with
  | identifier name => cases spelled; rfl
  | member target key ih =>
      obtain ⟨before, within, rfl⟩ := path_member spelled
      rw [List.foldl_append, ← ih within]
      rfl
  | literal | binary | unary | call | conditional | array | object | lambda => cases spelled

end Ir.Expression

-- It asks neither the clock nor for fresh ids.
def Ir.Expression.AsksNothing (e : Expression) : Prop := Within False (fun _ _ => True) e

-- Every lambda in a value was made before, and asks nothing.
inductive Value.Settled (made : Nat) : Value → Prop
  | undefined : Settled made .undefined
  | null : Settled made .null
  | boolean (value : Bool) : Settled made (.boolean value)
  | number (value : Float) : Settled made (.number value)
  | string (value : String) : Settled made (.string value)
  | array {items : List Value} (each : ∀ item ∈ items, Settled made item) : Settled made (.array items)
  | object {entries : Fields Value} (each : ∀ entry ∈ entries, Settled made entry.2) : Settled made (.object entries)
  | lambda {identity : Nat} {params : List String} {body : Ir.Expression} {scopes : List (Fields Value)}
      (before : identity < made) (asks : body.AsksNothing)
      (each : ∀ scope ∈ scopes, ∀ entry ∈ scope, Settled made entry.2) :
      Settled made (.lambda identity params body scopes)

def Environment.Settled (made : Nat) (env : Environment) : Prop :=
  ∀ scope ∈ env.scopes, ∀ entry ∈ scope, entry.2.Settled made

section Settled
variable {made here there : Nat} {env : Environment}

-- Runs that begin behind a settled value cannot tell it from itself.
theorem Value.Settled.alike {value : Value} (settled : value.Settled made) (before : made ≤ here)
    (before' : made ≤ there) : Alike ⟨False, here, there⟩ value value := by
  induction settled with
  | undefined => exact .undefined
  | null => exact .null
  | boolean value => exact .boolean value
  | number value => exact .number value
  | string value => exact .string value
  | array _ ih => exact .array_self ih
  | object _ ih => exact .object_self ih
  | @lambda identity params body scopes earlier asks _ ih =>
      have met : Pairing.Meets ⟨False, here, there⟩ identity identity :=
        .inl ⟨rfl, Nat.lt_of_lt_of_le earlier before, Nat.lt_of_lt_of_le earlier before'⟩
      exact .lambda_self met asks ih

theorem Environment.Settled.shown (settled : env.Settled made) (before : made ≤ here) (before' : made ≤ there)
    (view : View) : Shown ⟨False, here, there⟩ view env env := by
  have each : ∀ scope ∈ env.scopes, ∀ entry ∈ scope, Alike ⟨False, here, there⟩ entry.2 entry.2 :=
    fun scope member entry bound => (settled scope member entry bound).alike before before'
  exact fun root keys _ => (Environment.resolve_alike each root).follow keys

end Settled

section Leaves
variable {around : Surroundings} {made : Nat} {env : Environment} {e leaf : Ir.Expression} {usage start : Usage}

-- The value that an evaluation ends in, as a document.
def json? (run : Except EvaluationError Value × Usage) : Option Json := run.1.toOption.map Value.toJson

-- What asks nothing has one value in a settled environment, whenever it is evaluated, and unmakes no lambda.
theorem json_steady (settled : env.Settled made) (asks : e.AsksNothing) (begun : made ≤ usage.lambdas)
    (begun' : made ≤ start.lambdas) :
    json? (evaluate around env e usage) = json? (evaluate around env e start) ∧
      made ≤ (evaluate around env e usage).2.lambdas := by
  let pairing : Pairing := ⟨False, usage.lambdas, start.lambdas⟩
  have aligned : Aligned pairing usage start := ⟨Nat.le_refl _, Nat.add_comm .., nofun⟩
  have read : Within pairing.surrounded (fun _ _ => True) e := asks
  have ended := evaluate_together around read (settled.shown begun begun' _) usage start aligned
  match evaluate around env e usage, evaluate around env e start, ended with
  | (.ok _, _), (.ok _, _), .ok alike aligned => exact ⟨congrArg some alike.toJson, Nat.le_trans begun aligned.begun⟩
  | (.error _, _), (.error _, _), .error aligned => exact ⟨rfl, Nat.le_trans begun aligned.begun⟩

theorem mem_leaves_of_distinct {entry : String × Ir.Expression} (member : entry ∈ e.distinctLeaves) :
    entry.2 ∈ e.leaves ∧ entry.1 = entry.2.render := by
  obtain ⟨leaf, present, rfl⟩ := List.mem_map.mp (Fields.mem_of_mem_firsts member)
  exact ⟨present, rfl⟩

-- What is shown of one leaf.
def shownLeaf (around : Surroundings) (env : Environment) (start : Usage) (entry : String × Ir.Expression) :
    Option ResolvedValue := (json? (evaluate around env entry.2 start)).map fun json => ⟨entry.1, json⟩

theorem resolveLeaf_eq (found : List ResolvedValue) (entry : String × Ir.Expression) :
    resolveLeaf around env (found, usage) entry =
      (found ++ (shownLeaf around env usage entry).toList, (evaluate around env entry.2 usage).2) := by
  unfold resolveLeaf shownLeaf json?
  split
  · next ran => rw [ran]; rfl
  · next ran => rw [ran]; exact Prod.ext (List.append_nil found).symm rfl

-- By induction on the leaves: each is evaluated where the ones before it left off.
theorem resolveLeaves_eq (settled : env.Settled made) (asks : ∀ leaf ∈ e.leaves, leaf.AsksNothing)
    (begun : made ≤ usage.lambdas) (begun' : made ≤ start.lambdas) :
    (resolveLeaves around env e usage).1 = e.distinctLeaves.filterMap (shownLeaf around env start) := by
  suffices ∀ (entries : List (String × Ir.Expression)) (found : List ResolvedValue) (usage : Usage),
      made ≤ usage.lambdas → (∀ entry ∈ entries, entry.2.AsksNothing) →
      (entries.foldl (resolveLeaf around env) (found, usage)).1 =
        found ++ entries.filterMap (shownLeaf around env start) by
    refine this e.distinctLeaves [] usage begun fun entry member => ?_
    exact asks _ (mem_leaves_of_distinct member).1
  intro entries
  induction entries with
  | nil => exact fun found _ _ _ => (List.append_nil found).symm
  | cons entry rest ih =>
      intro found usage begun asks
      obtain ⟨same, later⟩ := json_steady settled (asks entry List.mem_cons_self) begun begun'
      have shown : shownLeaf around env usage entry = shownLeaf around env start entry := by
        rw [shownLeaf, same, shownLeaf]
      rw [List.foldl_cons, resolveLeaf_eq, shown,
        ih _ _ later fun other member => asks other (List.mem_cons_of_mem _ member), List.append_assoc]
      cases read : shownLeaf around env start entry with
      | none => rw [List.filterMap_cons_none read]; rfl
      | some value => rw [List.filterMap_cons_some read]; rfl

theorem mem_shown {text : String} {json : Json} :
    ⟨text, json⟩ ∈ e.distinctLeaves.filterMap (shownLeaf around env start) ↔
      ∃ leaf, e.leaves.find? (·.render == text) = some leaf ∧ json? (evaluate around env leaf start) = some json := by
  have first (leaf : Ir.Expression) :
      (text, leaf) ∈ e.distinctLeaves ↔ e.leaves.find? (·.render == text) = some leaf := by
    rw [← Fields.get?_keyed Ir.Expression.render, ← Fields.get?_firsts]
    exact ⟨(Fields.distinct_firsts _).get?_of_mem, Fields.mem_of_get?⟩
  rw [List.mem_filterMap]
  constructor
  · rintro ⟨⟨_, leaf⟩, member, shown⟩
    obtain ⟨_, value, same⟩ := Option.map_eq_some_iff.mp shown
    cases same
    exact ⟨leaf, (first leaf).mp member, value⟩
  · rintro ⟨leaf, found, value⟩
    exact ⟨(text, leaf), (first leaf).mpr found, by rw [shownLeaf, value]; rfl⟩

theorem shown_texts (entries : List (String × Ir.Expression)) :
    ((entries.filterMap (shownLeaf around env start)).map (·.expression)).Sublist (Fields.keys entries) := by
  induction entries with
  | nil => exact .slnil
  | cons entry rest ih =>
      cases read : shownLeaf around env start entry with
      | none =>
          rw [List.filterMap_cons_none read]
          exact ih.cons _
      | some value =>
          obtain ⟨_, _, rfl⟩ := Option.map_eq_some_iff.mp read
          rw [List.filterMap_cons_some read]
          exact ih.cons_cons _

-- Where nothing asks the clock or for ids: no text is shown twice, the texts stand in the order of first appearance,
-- and each text of a leaf is shown with the value of the first leaf that has it, just if that leaf has a value.
theorem leaves_resolved (around : Surroundings) (settled : env.Settled made)
    (asks : ∀ leaf ∈ e.leaves, leaf.AsksNothing) (begun : made ≤ usage.lambdas) (begun' : made ≤ start.lambdas) :
    ((resolveLeaves around env e usage).1.map (·.expression)).Nodup ∧
    ((resolveLeaves around env e usage).1.map (·.expression)).Sublist (e.leaves.map (·.render)).eraseDups ∧
    ∀ text leaf, e.leaves.find? (·.render == text) = some leaf → ∀ json,
      (⟨text, json⟩ ∈ (resolveLeaves around env e usage).1 ↔
        json? (evaluate around env leaf start) = some json) := by
  have keys : Fields.keys e.distinctLeaves = (e.leaves.map (·.render)).eraseDups := by
    rw [Ir.Expression.distinctLeaves, Fields.keys_firsts, Fields.keys, List.map_map]
    rfl
  have texts := @shown_texts around env start e.distinctLeaves
  rw [resolveLeaves_eq settled asks begun begun']
  refine ⟨List.Pairwise.sublist texts (Fields.distinct_firsts _), keys ▸ texts, fun text leaf found json => ?_⟩
  rw [mem_shown]
  refine ⟨?_, fun value => ⟨leaf, found, value⟩⟩
  rintro ⟨other, found', value⟩
  cases found.symm.trans found'
  exact value

-- Where all leaves are chains of members without dots in their keys, no two have one text, so each of them is shown
-- with its own value.
theorem chains_resolved (around : Surroundings) (settled : env.Settled made) (begun : made ≤ usage.lambdas)
    (begun' : made ≤ start.lambdas) (chains : ∀ leaf ∈ e.leaves, ∃ root keys, leaf.path? = some (root, keys) ∧
      ∀ part ∈ root :: keys, '.' ∉ part.toList) :
    ∀ leaf ∈ e.leaves, ∀ json, ⟨leaf.render, json⟩ ∈ (resolveLeaves around env e usage).1 ↔
      json? (evaluate around env leaf start) = some json := by
  have asks : ∀ leaf ∈ e.leaves, leaf.AsksNothing := by
    intro leaf member
    obtain ⟨root, keys, spelled, _⟩ := chains leaf member
    exact .path spelled trivial
  intro leaf member json
  obtain ⟨root, keys, spelled, plain⟩ := chains leaf member
  have alone : ∀ other ∈ e.leaves, other.render = leaf.render → other = leaf := by
    intro other member' same
    obtain ⟨root', keys', spelled', plain'⟩ := chains other member'
    rw [Ir.Expression.render_path spelled, Ir.Expression.render_path spelled'] at same
    have parts : root' :: keys' = root :: keys := by rw [← splitOn_dotted plain', same, splitOn_dotted plain]
    obtain ⟨rfl, rfl⟩ := List.cons.inj parts
    rw [Ir.Expression.eq_chain spelled', Ir.Expression.eq_chain spelled]
  have found : e.leaves.find? (·.render == leaf.render) = some leaf := by
    cases first : e.leaves.find? (·.render == leaf.render) with
    | none => simpa using List.find?_eq_none.mp first leaf member
    | some other =>
        have same : other.render = leaf.render := by simpa using List.find?_some first
        rw [alone other (List.mem_of_find?_eq_some first) same]
  rw [resolveLeaves_eq settled asks begun begun', mem_shown]
  refine ⟨?_, fun value => ⟨leaf, found, value⟩⟩
  rintro ⟨other, found', value⟩
  cases found.symm.trans found'
  exact value

end Leaves

-- A name and a call of a lambda that was there before, beside a name that is not bound.
theorem doubled_name_resolved :
    let around : Surroundings := ⟨fun _ => 0, fun _ => ""⟩
    let double : Value := .lambda 0 ["x"] (.binary "+" (.identifier "x") (.identifier "x")) []
    let env : Environment := ⟨[[("double", double), ("name", .string "ab")]]⟩
    let e : Ir.Expression := .binary "is" (.call (.identifier "double") [.identifier "name"]) (.identifier "name")
    let usage : Usage := { lambdas := 1 }
    (e.leaves.map (·.render)).eraseDups = ["double(name)", "name"] ∧
    ((resolveLeaves around env e usage).1.map (·.expression)).Nodup ∧
    ⟨"double(name)", .string "abab"⟩ ∈ (resolveLeaves around env e usage).1 := by
  intro around double env e usage
  have name (text : String) : Ir.Expression.AsksNothing (.identifier text) := .path rfl trivial
  have body : Ir.Expression.AsksNothing (.binary "+" (.identifier "x") (.identifier "x")) :=
    .binary "+" (name "x") (name "x")
  have settled : env.Settled 1 := by
    refine List.forall_mem_singleton.mpr (List.forall_mem_cons.mpr ⟨?_, List.forall_mem_singleton.mpr (.string "ab")⟩)
    exact .lambda Nat.one_pos body (List.forall_mem_nil _)
  have asks : ∀ leaf ∈ e.leaves, leaf.AsksNothing := by
    refine List.forall_mem_cons.mpr ⟨?_, List.forall_mem_singleton.mpr (name "name")⟩
    refine .named (fun builtin meant => ?_) (fun _ => trivial) (List.forall_mem_singleton.mpr (name "name"))
    simp [Evaluation.builtin?] at meant
  obtain ⟨once, _, each⟩ := leaves_resolved around settled asks (Nat.le_refl usage.lambdas) (Nat.le_refl usage.lambdas)
  refine ⟨by decide, once, (each "double(name)" _ rfl _).mpr rfl⟩

end Charter

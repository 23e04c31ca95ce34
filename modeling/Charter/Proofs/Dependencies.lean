import Charter.Ir.Dependencies
import Charter.Proofs.Constant
import Charter.Proofs.Paths
import Charter.Proofs.Regularity

/-!
The dependencies of an expression. Records that agree on them, and on the members of `self` and `this` that the
expression names, give it the same value. The members have to be asked for: one that is called like a lambda's
parameter, or like a word with a meaning of its own, is left out of the dependencies, though it is read.
-/

namespace Charter

namespace Ir.Expression

-- The field of a record that a path begins with: a member of the instance, or a bare name.
def fieldOf (path : String × List String) : Option String := if isInstance path.1 then path.2.head? else some path.1

-- The members of the instance that an expression names.
def instanceMembers (e : Expression) : List String :=
  (e.paths []).filterMap fun path => if isInstance path.1 then path.2.head? else none

-- The instance is named for its members only.
def NamesMembers (e : Expression) : Prop := ∀ path ∈ e.paths [], isInstance path.1 = true → path.2 ≠ []

-- The parameters of the lambdas in an expression.
def parameters : Expression → List String
  | .literal _ | .identifier _ => []
  | .member target _ => parameters target
  | .binary _ left right => parameters left ++ parameters right
  | .unary _ operand => parameters operand
  | .call callee arguments => parameters callee ++ ofList arguments
  | .conditional condition consequent alternate =>
    parameters condition ++ parameters consequent ++ parameters alternate
  | .array elements => ofList elements
  | .object properties => ofPairs properties
  | .lambda params body => params ++ parameters body
where
  ofList : List Expression → List String
    | [] => []
    | item :: rest => parameters item ++ ofList rest
  ofPairs : List (String × Expression) → List String
    | [] => []
    | (_, value) :: rest => parameters value ++ ofPairs rest

variable {bound : List String} {path : String × List String} {e : Expression}

/-! Every field that an expression reads is listed, but for the members of the instance that are hidden. -/

theorem free_name (bound : List String) (name : String) :
    name ∈ readings.free bound name ∨ name ∈ reservedNames ∨ name ∈ bound := by
  by_cases reserved : name ∈ reservedNames
  · exact .inr (.inl reserved)
  · by_cases hidden : name ∈ bound
    · exact .inr (.inr hidden)
    · exact .inl (by simp [readings.free, reserved, hidden])

-- A field is listed, has a meaning of its own, or is a member of the instance that is hidden.
def Listed (listed hidden : List String) (path : String × List String) : Prop :=
  ∀ name, fieldOf path = some name →
    name ∈ listed ∨ name ∈ reservedNames ∨ isInstance path.1 = true ∧ name ∈ hidden

namespace Listed
variable {listed listed' hidden hidden' keys : List String} {root key : String}

theorem mono (field : Listed listed hidden path) (more : ∀ name ∈ listed, name ∈ listed')
    (other : ∀ name ∈ hidden, name ∈ hidden') : Listed listed' hidden' path := fun name read =>
  (field name read).imp (more name) (.imp id (.imp id (other name)))

-- The first key of a longer path is the one of its beginning.
theorem longer (field : Listed listed hidden (root, keys)) (some : keys ≠ []) :
    Listed listed hidden (root, keys ++ [key]) := by
  intro name read
  refine field name ?_
  unfold fieldOf at read ⊢
  rwa [List.head?_append_of_ne_nil _ some] at read

theorem bare (shown : root ∉ bound) : Listed (readings.free bound root) hidden (root, []) := by
  intro name read
  by_cases owner : isInstance root = true
  · simp [fieldOf, owner] at read
  · obtain rfl : root = name := by simpa [fieldOf, owner] using read
    exact (free_name bound root).imp id (.imp id fun hidden => absurd hidden shown)

theorem single (shown : root ∉ bound) :
    Listed ((member (identifier root) key).readings bound) bound (root, [key]) := by
  intro name read
  rw [readings]
  by_cases owner : isInstance root = true
  · obtain rfl : key = name := by simpa [fieldOf, owner] using read
    rw [if_pos owner]
    exact (free_name bound key).imp id (.imp id fun hidden => ⟨owner, hidden⟩)
  · obtain rfl : root = name := by simpa [fieldOf, owner] using read
    rw [if_neg owner]
    exact (free_name bound root).imp id (.imp id fun hidden => absurd hidden shown)

end Listed

theorem listed_path {root : String} {keys : List String} (spelled : e.path? = some (root, keys))
    (shown : root ∉ bound) : Listed (e.readings bound) bound (root, keys) := by
  induction e using Expression.induction generalizing keys with
  | identifier name => cases spelled; exact .bare shown
  | member target key ih =>
      obtain ⟨before, within, rfl⟩ := path_member spelled
      cases target with
      | identifier name => cases within; exact .single shown
      | member inner link =>
          obtain ⟨first, _, rfl⟩ := path_member within
          exact (ih within).longer (List.append_ne_nil_of_right_ne_nil _ (List.cons_ne_nil _ _))
      | literal | binary | unary | call | conditional | array | object | lambda => cases within
  | literal | binary | unary | call | conditional | array | object | lambda => cases spelled

theorem readings_ofList (items : List Expression) : readings.ofList bound items = items.flatMap (readings bound) :=
  List.eq_flatMap_of rfl (fun _ _ => rfl) items

theorem readings_ofPairs (pairs : List (String × Expression)) :
    readings.ofPairs bound pairs = pairs.flatMap fun pair => readings bound pair.2 :=
  List.eq_flatMap_of rfl (fun _ _ => rfl) pairs

theorem parameters_ofList (items : List Expression) : parameters.ofList items = items.flatMap parameters :=
  List.eq_flatMap_of rfl (fun _ _ => rfl) items

theorem parameters_ofPairs (pairs : List (String × Expression)) :
    parameters.ofPairs pairs = pairs.flatMap fun pair => parameters pair.2 :=
  List.eq_flatMap_of rfl (fun _ _ => rfl) pairs

-- What the first or the second of two parts lists and hides, both do.
theorem Listed.left {listed hidden : List String} (field : Listed listed (bound ++ hidden) path)
    (more others : List String) : Listed (listed ++ more) (bound ++ (hidden ++ others)) path :=
  field.mono (fun _ => List.mem_append_left _) fun _ found => by
    rw [← List.append_assoc]; exact List.mem_append_left _ found

theorem Listed.right {listed hidden : List String} (field : Listed listed (bound ++ hidden) path)
    (more others : List String) : Listed (more ++ listed) (bound ++ (others ++ hidden)) path :=
  field.mono (fun _ => List.mem_append_right _) fun _ found =>
    (List.mem_append.mp found).elim (List.mem_append_left _)
      fun inside => List.mem_append_right _ (List.mem_append_right _ inside)

-- What one of several parts lists and hides, they all do.
theorem Listed.part {α : Type} {lists hides : α → List String} {parts : List α} {part : α} (member : part ∈ parts)
    (field : Listed (lists part) (bound ++ hides part) path) :
    Listed (parts.flatMap lists) (bound ++ parts.flatMap hides) path := by
  refine field.mono (fun _ found => List.mem_flatMap.mpr ⟨part, member, found⟩) fun name hidden => ?_
  rcases List.mem_append.mp hidden with outside | inside
  · exact List.mem_append_left _ outside
  · exact List.mem_append_right _ (List.mem_flatMap.mpr ⟨part, member, inside⟩)

-- By induction on the expression, with more names bound in the body of a lambda.
theorem listed_paths (read : path ∈ e.paths bound) : Listed (e.readings bound) (bound ++ e.parameters) path := by
  induction e using Expression.induction generalizing bound with
  | literal value => cases read
  | identifier name =>
      obtain ⟨rfl, shown⟩ := mem_free.mp read
      exact .bare shown
  | member target key ih =>
      rw [paths] at read
      cases spelled : path? (.member target key) with
      | some found =>
          obtain ⟨rfl, shown⟩ := mem_free.mp (by simpa only [spelled] using read)
          exact (listed_path spelled shown).mono (fun _ => id) fun _ => List.mem_append_left _
      | none =>
          have listed := ih (by simpa only [spelled] using read)
          cases target with
          | identifier name => cases spelled
          | literal | member | binary | unary | call | conditional | array | object | lambda => exact listed
  | binary operator left right first second =>
      rcases List.mem_append.mp read with before | behind
      · exact (first before).left _ _
      · exact (second behind).right _ _
  | unary operator operand ih => exact ih read
  | call callee arguments called each =>
      have given (read : path ∈ paths.ofList bound arguments) :
          Listed (readings.ofList bound arguments) (bound ++ parameters.ofList arguments) path := by
        obtain ⟨argument, member, found⟩ := mem_ofList.mp read
        rw [readings_ofList, parameters_ofList]
        exact (each argument member found).part member
      cases callee with
      | identifier name => exact given read
      | literal | member | binary | unary | call | conditional | array | object | lambda =>
          rcases List.mem_append.mp read with before | behind
          · exact (called before).left _ _
          · exact (given behind).right _ _
  | conditional condition consequent alternate decided first second =>
      rcases List.mem_append.mp read with both | last
      · rcases List.mem_append.mp both with before | behind
        · exact ((decided before).left _ _).left _ _
        · exact ((first behind).right _ _).left _ _
      · exact (second last).right _ _
  | array elements each =>
      obtain ⟨element, member, found⟩ := mem_ofList.mp read
      rw [readings, readings_ofList, parameters, parameters_ofList]
      exact (each element member found).part member
  | object properties each =>
      obtain ⟨property, member, found⟩ := mem_ofPairs.mp read
      rw [readings, readings_ofPairs, parameters, parameters_ofPairs]
      exact (each property member found).part member
  | lambda params body ih =>
      have inside : Listed (body.readings (bound ++ params)) (bound ++ params ++ body.parameters) path := ih read
      rwa [List.append_assoc] at inside

theorem mem_instanceMembers {owner key : String} {rest : List String} (read : (owner, key :: rest) ∈ e.paths [])
    (instance' : isInstance owner = true) : key ∈ e.instanceMembers :=
  List.mem_filterMap.mpr ⟨_, read, by simp [instance']⟩

-- A member of the instance is a dependency, unless a parameter or a word with a meaning of its own is called the same.
theorem instanceMember_listed {name : String} (named : name ∈ e.instanceMembers) :
    name ∈ e.dependencies ∨ name ∈ reservedNames ∨ name ∈ e.parameters := by
  obtain ⟨path, read, first⟩ := List.mem_filterMap.mp named
  have field : fieldOf path = some name := by
    unfold fieldOf
    split at first
    · next owner => rw [if_pos owner, first]
    · cases first
  exact (listed_paths read name field).imp List.mem_eraseDups.mpr (.imp id fun hidden => hidden.2)

end Ir.Expression

namespace Source.Expression
variable {number : Float → Prop} {e : Expression} {bound : List String} {path : String × List String}

-- Somewhere in a source text the grammar reads the expression.
def Parsed (e : Expression) : Prop :=
  ∃ source limit tokens, tokens <:+ terminated (Lexed.ofSource source).tokens ∧
    (Grammar.expression limit tokens).result = .ok e

theorem Parsed.regular (parsed : e.Parsed) : e.Regular IsUnsigned := by
  obtain ⟨source, limit, tokens, suffix, read⟩ := parsed
  refine Grammar.gives_nested vouches_isRead limit limit .expression tokens e (fun token member => ?_) read
  exact terminated_isRead (Lexed.isRead source) token (suffix.subset member)

/-! Every path of an expression that is read from a text begins with a name, so with no constant. -/

theorem Regular.root_isName (regular : e.Regular number) {root : String} {keys : List String}
    (spelled : e.lower.path? = some (root, keys)) : IsName root := by
  induction regular generalizing keys with
  | identifier lexes => cases spelled; exact lexes
  | member property _ ih =>
      obtain ⟨_, within, _⟩ := Ir.Expression.path_member spelled
      exact ih within
  | literal | index | binary | unary | call | conditional | array | object | lambda => cases spelled

theorem Regular.paths_isName (regular : e.Regular number) (read : path ∈ e.lower.paths bound) : IsName path.1 := by
  induction regular generalizing bound with
  | literal => cases read
  | identifier lexes => cases (Ir.Expression.mem_free.mp read).1; exact lexes
  | @member target property within ih =>
      rw [lower, Ir.Expression.paths] at read
      cases spelled : Ir.Expression.path? (.member target.lower property) with
      | some found =>
          obtain ⟨rfl, _⟩ := Ir.Expression.mem_free.mp (by simpa only [spelled] using read)
          obtain ⟨_, inner, _⟩ := Ir.Expression.path_member spelled
          exact within.root_isName inner
      | none => exact ih (by simpa only [spelled] using read)
  | index _ _ _ within asked =>
      obtain ⟨operand, member, found⟩ := Ir.Expression.mem_ofList.mp read
      rcases List.mem_pair.mp member with rfl | rfl
      · exact within found
      · exact asked found
  | binary _ _ _ first second => exact (List.mem_append.mp read).elim first second
  | unary _ _ ih => exact ih read
  | @call callee arguments _ _ called each =>
      have given (read : path ∈ Ir.Expression.paths.ofList bound (lower.items arguments)) : IsName path.1 := by
        obtain ⟨_, member, found⟩ := Ir.Expression.mem_ofList.mp read
        rw [lower_items] at member
        obtain ⟨argument, source, rfl⟩ := List.mem_map.mp member
        exact each argument source found
      cases callee with
      | identifier name => exact given read
      | literal | member | index | binary | unary | call | conditional | array | object | lambda =>
          exact (List.mem_append.mp read).elim called given
  | conditional _ _ _ decided first second =>
      exact (List.mem_append.mp read).elim (fun both => (List.mem_append.mp both).elim decided first) second
  | array _ each =>
      obtain ⟨_, member, found⟩ := Ir.Expression.mem_ofList.mp read
      rw [lower_items] at member
      obtain ⟨element, source, rfl⟩ := List.mem_map.mp member
      exact each element source found
  | object _ each =>
      obtain ⟨_, member, found⟩ := Ir.Expression.mem_ofPairs.mp read
      rw [lower_pairs] at member
      obtain ⟨entry, source, rfl⟩ := List.mem_map.mp member
      exact each entry source found
  | lambda _ _ ih => exact ih read

end Source.Expression

-- A name stands for the instance, for the context or its user, or for a field.
theorem Source.Expression.IsName.meaning {root : String} (named : IsName root) :
    (root = "self" ∨ root = "this") ∨ (root = "user" ∨ root = "context") ∨ root ∉ Ir.reservedNames := by
  rcases named with ⟨_, free⟩ | word
  · have listed : ∀ name ∈ Ir.reservedNames, name ∈ keywords := by decide
    exact .inr (.inr fun reserved => free (listed root reserved))
  · simp only [List.mem_cons, List.not_mem_nil, or_false] at word
    tauto

-- An expression that was read from a text and names the instance for its members only gives records the same value,
-- or the same error, if they agree on its dependencies and on the members of the instance that these leave out: those
-- which a parameter or a word with a meaning of its own is called like.
theorem dependencies_decide {e : Source.Expression} (parsed : e.Parsed) (members : e.lower.NamesMembers)
    {one other : Record} (same : ∀ name ∈ e.lower.dependencies, Fields.get? one name = Fields.get? other name)
    (hidden : ∀ name ∈ e.lower.instanceMembers, name ∈ Ir.reservedNames ∨ name ∈ e.lower.parameters →
      Fields.get? one name = Fields.get? other name)
    (around : Surroundings) (context : RequestContext) (usage : Usage) :
    told (evaluate around (context.scope (some (Record.values one))) e.lower usage) =
      told (evaluate around (context.scope (some (Record.values other))) e.lower usage) := by
  refine told_of_paths (Engine.scope_data context one) (Engine.scope_data context other) around usage ?_
  rintro ⟨root, keys⟩ read
  rcases (parsed.regular.paths_isName read).meaning with whole | reserved | plain
  · have owner : Ir.isInstance root = true := by simpa [Ir.isInstance] using whole
    obtain ⟨key, rest, rfl⟩ := List.exists_cons_of_ne_nil (members _ read owner)
    have named := Ir.Expression.mem_instanceMembers read owner
    have agreed : Fields.get? one key = Fields.get? other key :=
      (Ir.Expression.instanceMember_listed named).elim (same key) (hidden key named)
    exact congrArg (·.follow rest) (RequestContext.resolve_scope_member_same context context whole agreed)
  · rw [RequestContext.resolve_scope_context reserved _ (Record.values other)]
  · have bare : Ir.isInstance root = false := by
      simp only [Ir.reservedNames, List.mem_cons, not_or] at plain
      simp [Ir.isInstance, plain]
    have listed := Ir.Expression.listed_paths read root (by simp [Ir.Expression.fieldOf, bare])
    have field : root ∈ e.lower.dependencies :=
      List.mem_eraseDups.mpr (listed.resolve_right fun other => other.elim plain fun hidden => by simp [bare] at hidden)
    have unbound : root ∉ ["self", "this", "user", "context"] := fun bound => plain (List.mem_append_left _ bound)
    rw [RequestContext.resolve_scope_field_same context context unbound (same root field)]

-- A member that a parameter is called like: the expression lists no dependency, and two records that hold the same
-- under the member are told apart by nothing else.
theorem hidden_member_decides :
    ∃ e : Source.Expression, e.Parsed ∧ e.lower.NamesMembers ∧ e.lower.dependencies = [] ∧
      ∀ (around : Surroundings) (usage : Usage),
        told (evaluate around (RequestContext.scope {} (some (Record.values [("x", .integer 2), ("y", .null)])))
            e.lower usage) =
          told (evaluate around (RequestContext.scope {} (some (Record.values [("x", .integer 2)]))) e.lower usage) := by
  let tokens := Source.terminated (Lexed.ofSource "((x) => self.x)(null)").tokens
  have checks : ((Source.Grammar.expression Source.defaultNesting tokens).result.toOption.any fun e =>
      e.lower.paths [] == [("self", ["x"])] && e.lower.dependencies == []) = true := by decide +kernel
  cases read : (Source.Grammar.expression Source.defaultNesting tokens).result with
  | error report => rw [read] at checks; cases checks
  | ok e =>
      rw [read] at checks
      obtain ⟨paths, dependencies⟩ := Bool.and_eq_true_iff.mp checks
      have paths : e.lower.paths [] = [("self", ["x"])] := beq_iff_eq.mp paths
      have dependencies : e.lower.dependencies = [] := beq_iff_eq.mp dependencies
      have parsed : e.Parsed := ⟨_, _, tokens, List.suffix_refl tokens, read⟩
      have members : e.lower.NamesMembers := by
        rintro path member -
        rw [paths, List.mem_singleton] at member
        exact member ▸ List.cons_ne_nil "x" []
      refine ⟨e, parsed, members, dependencies, fun around usage => ?_⟩
      refine dependencies_decide parsed members ?_ ?_ around {} usage
      · rw [dependencies]; exact List.forall_mem_nil _
      · rw [Ir.Expression.instanceMembers, paths]
        exact List.forall_mem_singleton.mpr fun _ => rfl

end Charter

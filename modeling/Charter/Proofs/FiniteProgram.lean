import Charter.Proofs.Constant
import Charter.Proofs.Fingerprint

/-!
Compiled programs whose numbers are finite. A compiled program has no key twice in a map, whatever its source says,
so nothing else is needed for its document to tell it.
-/

namespace Charter

namespace Ir

def Constant.isFinite : Constant → Bool
  | .number value => Binary64.isFinite value
  | .array items => elements items
  | .object entries => members entries
  | _ => true
where
  elements : List Constant → Bool
    | [] => true
    | item :: rest => isFinite item && elements rest
  members : List (String × Constant) → Bool
    | [] => true
    | (_, value) :: rest => isFinite value && members rest

def Expression.isFinite : Expression → Bool
  | .literal value => value.isFinite
  | .identifier _ => true
  | .member target _ => isFinite target
  | .binary _ left right => isFinite left && isFinite right
  | .unary _ operand => isFinite operand
  | .call callee arguments => isFinite callee && items arguments
  | .conditional condition consequent alternate => isFinite condition && isFinite consequent && isFinite alternate
  | .array elements => items elements
  | .object properties => pairs properties
  | .lambda _ body => isFinite body
where
  items : List Expression → Bool
    | [] => true
    | item :: rest => isFinite item && items rest
  pairs : List (String × Expression) → Bool
    | [] => true
    | (_, value) :: rest => isFinite value && pairs rest

theorem Constant.isFinite_array (items : List Constant) : isFinite (.array items) = items.all isFinite :=
  List.eq_all_of (f := isFinite.elements) rfl (fun _ _ => rfl) items

theorem Constant.isFinite_object (entries : List (String × Constant)) :
    isFinite (.object entries) = entries.all (·.2.isFinite) :=
  List.eq_all_of (f := isFinite.members) rfl (fun _ _ => rfl) entries

theorem Expression.isFinite_items (items : List Expression) : isFinite.items items = items.all isFinite :=
  List.eq_all_of rfl (fun _ _ => rfl) items

theorem Expression.isFinite_pairs (pairs : List (String × Expression)) :
    isFinite.pairs pairs = pairs.all (·.2.isFinite) := List.eq_all_of rfl (fun _ _ => rfl) pairs

def Property.isFinite (p : Property) : Bool := p.default?.all Constant.isFinite

def Computed.isFinite (c : Computed) : Bool := c.expression.isFinite

def Constraint.isFinite (c : Constraint) : Bool := c.expression.isFinite && c.details.all (·.2.isFinite)

def Transition.isFinite (t : Transition) : Bool := t.source.isFinite && t.targets.all Constant.isFinite

def Entity.isFinite (e : Entity) : Bool :=
  e.properties.all Property.isFinite && e.computed.all Computed.isFinite && e.constraints.all Constraint.isFinite &&
    e.transitions.all Transition.isFinite

def Parameter.isFinite (p : Parameter) : Bool := p.default?.all Constant.isFinite

def Action.isFinite (a : Action) : Bool := a.expression.isFinite

def Command.isFinite (c : Command) : Bool :=
  c.parameters.all Parameter.isFinite && c.guards.all Expression.isFinite && c.constraints.all Constraint.isFinite &&
    c.actions.all Action.isFinite

def Policy.isFinite (p : Policy) : Bool := p.expression.isFinite

def Store.isFinite (s : Store) : Bool := s.config.all (·.2.isFinite)

-- All numbers are finite.
def isFinite (ir : Ir) : Bool :=
  ir.entities.all Entity.isFinite && ir.stores.all Store.isFinite && ir.commands.all Command.isFinite &&
    ir.policies.all Policy.isFinite

end Ir

namespace Source
open Ir (Constant)

theorem Literal.proper_of_finite (value : Literal) (finite : value.constant.isFinite = true) :
    value.constant.isProper = true := by
  cases value with
  | number value => exact finite
  | _ => rfl

namespace Expression

theorem constant?_proper {e : Expression} {constant : Constant} (found : e.constant? = some constant)
    (finite : constant.isFinite = true) : constant.isProper = true := by
  have form : e.IsConstant := isConstant_of_constant? e (Option.isSome_of_eq_some found)
  induction form generalizing constant with
  | literal value =>
      cases found
      exact value.proper_of_finite finite
  | negate number =>
      obtain ⟨value, same⟩ := number.constant?
      rw [constant?, same] at found
      cases found
      exact finite
  | array _ ih =>
      obtain ⟨items, listed, rfl⟩ := Option.map_eq_some_iff.mp found
      rw [Constant.isFinite_array, List.all_eq_true] at finite
      rw [Constant.isProper_array, List.all_eq_true]
      intro item member
      obtain ⟨element, origin, same⟩ := mem_constant?_items listed item member
      exact ih element origin same (finite item member)
  | object _ ih =>
      obtain ⟨members, listed, rfl⟩ := Option.map_eq_some_iff.mp found
      rw [Constant.isFinite_object, List.all_eq_true] at finite
      rw [Constant.isProper_object, Bool.and_eq_true, decide_eq_true_eq, List.all_eq_true]
      refine ⟨Fields.distinct_ofList members, fun pair member => ?_⟩
      obtain ⟨entry, origin, same⟩ := mem_constant?_pairs listed pair (Fields.mem_of_mem_ofList member)
      exact ih entry origin same (finite pair member)

mutual

-- The constants of an expression are single values: there is no map in them.
theorem lower_proper : (e : Expression) → e.lower.isFinite = true → e.lower.isProper = true
  | .literal value, finite => value.proper_of_finite finite
  | .identifier _, _ => rfl
  | .member target _, finite => lower_proper target finite
  | .index target key, finite => by
      have both : (target.lower.isFinite && (key.lower.isFinite && true)) = true := finite
      rw [Bool.and_true, Bool.and_eq_true] at both
      change (target.lower.isProper && (key.lower.isProper && true)) = true
      rw [lower_proper target both.1, lower_proper key both.2]
      rfl
  | .binary _ left right, finite => by
      obtain ⟨finiteLeft, finiteRight⟩ := Bool.and_eq_true_iff.mp finite
      exact Bool.and_eq_true_iff.mpr ⟨lower_proper left finiteLeft, lower_proper right finiteRight⟩
  | .unary _ operand, finite => lower_proper operand finite
  | .call callee arguments, finite => by
      obtain ⟨finiteCallee, finiteArguments⟩ := Bool.and_eq_true_iff.mp finite
      exact Bool.and_eq_true_iff.mpr ⟨lower_proper callee finiteCallee, lowerItems_proper arguments finiteArguments⟩
  | .conditional condition consequent alternate, finite => by
      obtain ⟨others, finiteAlternate⟩ := Bool.and_eq_true_iff.mp finite
      obtain ⟨finiteCondition, finiteConsequent⟩ := Bool.and_eq_true_iff.mp others
      have both := Bool.and_eq_true_iff.mpr
        ⟨lower_proper condition finiteCondition, lower_proper consequent finiteConsequent⟩
      exact Bool.and_eq_true_iff.mpr ⟨both, lower_proper alternate finiteAlternate⟩
  | .array elements, finite => lowerItems_proper elements finite
  | .object entries, finite => lowerPairs_proper entries finite
  | .lambda _ body, finite => lower_proper body finite

theorem lowerItems_proper : (items : List Expression) → Ir.Expression.isFinite.items (lower.items items) = true →
    Ir.Expression.isProper.items (lower.items items) = true
  | [], _ => rfl
  | item :: rest, finite => by
      obtain ⟨first, others⟩ := Bool.and_eq_true_iff.mp finite
      exact Bool.and_eq_true_iff.mpr ⟨lower_proper item first, lowerItems_proper rest others⟩

theorem lowerPairs_proper : (pairs : List (String × Expression)) →
    Ir.Expression.isFinite.pairs (lower.pairs pairs) = true → Ir.Expression.isProper.pairs (lower.pairs pairs) = true
  | [], _ => rfl
  | (_, value) :: rest, finite => by
      obtain ⟨first, others⟩ := Bool.and_eq_true_iff.mp finite
      exact Bool.and_eq_true_iff.mpr ⟨lower_proper value first, lowerPairs_proper rest others⟩

end

end Expression

section Declarations
variable {α β : Type} {first second : β → Bool}

theorem all_map_of {lower : α → β} (each : ∀ x, first (lower x) = true → second (lower x) = true) (items : List α)
    (all : (items.map lower).all first = true) : (items.map lower).all second = true := by
  rw [List.all_map, List.all_eq_true] at all ⊢
  exact fun x member => each x (all x member)

theorem all_flatMap_of {lower : α → List β} (each : ∀ x, (lower x).all first = true → (lower x).all second = true)
    (items : List α) (all : (items.flatMap lower).all first = true) : (items.flatMap lower).all second = true := by
  rw [List.all_flatMap, List.all_eq_true] at all ⊢
  exact fun x member => each x (all x member)

theorem all_append_of {items others : List β} (here : items.all first = true → items.all second = true)
    (there : others.all first = true → others.all second = true) (all : (items ++ others).all first = true) :
    (items ++ others).all second = true := by
  rw [List.all_append, Bool.and_eq_true] at all ⊢
  exact ⟨here all.1, there all.2⟩

theorem default_proper (default? : Option Expression)
    (finite : (default?.bind Expression.constant?).all Constant.isFinite = true) :
    (default?.bind Expression.constant?).all Constant.isProper = true := by
  rw [Option.all_eq_true] at finite ⊢
  intro constant found
  obtain ⟨e, _, same⟩ := Option.bind_eq_some_iff.mp found
  exact Expression.constant?_proper same (finite constant found)

theorem Property.lower_proper (p : Property) : p.lower.isFinite = true → p.lower.isProper = true :=
  default_proper p.default?

theorem Computed.lower_proper (c : Computed) : c.lower.isFinite = true → c.lower.isProper = true :=
  c.expression.lower_proper

theorem Constraint.lower_proper (c : Constraint) (finite : c.lower.isFinite = true) : c.lower.isProper = true := by
  obtain ⟨finiteExpression, finiteDetails⟩ := Bool.and_eq_true_iff.mp finite
  rw [List.all_eq_true] at finiteDetails
  refine Bool.and_eq_true_iff.mpr ⟨c.expression.lower_proper finiteExpression, Bool.and_eq_true_iff.mpr ⟨?_, ?_⟩⟩
  · exact decide_eq_true (Fields.distinct_ofList _)
  · refine List.all_eq_true.mpr fun field member => ?_
    obtain ⟨source, _, rfl⟩ := List.mem_map.mp (Fields.mem_of_mem_ofList member)
    exact source.2.lower_proper (finiteDetails _ member)

theorem Transition.lower_proper (t : Transition) (finite : t.lower.isFinite = true) : t.lower.isProper = true := by
  obtain ⟨finiteSource, finiteTargets⟩ := Bool.and_eq_true_iff.mp finite
  exact Bool.and_eq_true_iff.mpr
    ⟨t.source.proper_of_finite finiteSource, all_map_of Literal.proper_of_finite t.targets finiteTargets⟩

theorem Parameter.lower_proper (p : Parameter) : p.lower.isFinite = true → p.lower.isProper = true :=
  default_proper p.default?

theorem Action.lower_proper (a : Action) : a.lower.isFinite = true → a.lower.isProper = true :=
  a.expression.lower_proper

theorem Command.lower_proper (module entity : Option String) (c : Command)
    (finite : (c.lower module entity).isFinite = true) : (c.lower module entity).isProper = true := by
  simp only [Ir.Command.isFinite, Ir.Command.isProper, Bool.and_eq_true] at finite ⊢
  obtain ⟨⟨⟨parameters, guards⟩, constraints⟩, actions⟩ := finite
  exact ⟨⟨⟨all_map_of Parameter.lower_proper c.parameters parameters,
    all_map_of Expression.lower_proper c.guards guards⟩,
    all_map_of Constraint.lower_proper c.constraints constraints⟩, all_map_of Action.lower_proper c.actions actions⟩

theorem Policy.lower_proper (module entity : Option String) (p : Policy) :
    (p.lower module entity).isFinite = true → (p.lower module entity).isProper = true := p.expression.lower_proper

theorem Store.lower_proper (s : Store) (finite : s.lower.isFinite = true) : s.lower.isProper = true := by
  have each := List.all_eq_true.mp finite
  refine Bool.and_eq_true_iff.mpr
    ⟨decide_eq_true (Fields.distinct_ofList _), List.all_eq_true.mpr fun field member => ?_⟩
  obtain ⟨source, _, kept⟩ := List.mem_filterMap.mp (Fields.mem_of_mem_ofList member)
  obtain ⟨constant, found, rfl⟩ := Option.map_eq_some_iff.mp kept
  exact Expression.constant?_proper found (each _ member)

theorem Entity.lower_proper (module : Option String) (e : Entity) (finite : (e.lower module).isFinite = true) :
    (e.lower module).isProper = true := by
  simp only [Ir.Entity.isFinite, Ir.Entity.isProper, Bool.and_eq_true] at finite ⊢
  obtain ⟨⟨⟨properties, computed⟩, constraints⟩, transitions⟩ := finite
  exact ⟨⟨⟨all_map_of Property.lower_proper e.properties properties,
    all_map_of Computed.lower_proper e.computed computed⟩,
    all_map_of Constraint.lower_proper e.constraints constraints⟩,
    all_map_of Transition.lower_proper e.transitions transitions⟩

-- No key stands twice in a map of what a program is lowered to.
theorem Program.lower_proper (provenance : Ir.Provenance) (p : Program)
    (finite : (p.lower provenance).isFinite = true) : (p.lower provenance).isProper = true := by
  simp only [Ir.isFinite, Ir.isProper, Bool.and_eq_true] at finite ⊢
  obtain ⟨⟨⟨entities, stores⟩, commands⟩, policies⟩ := finite
  refine ⟨⟨⟨?_, ?_⟩, ?_⟩, ?_⟩
  · exact all_flatMap_of (fun s => all_map_of (Entity.lower_proper s.module) s.entities) p.scopes entities
  · refine all_flatMap_of (fun s => all_append_of ?_ (all_map_of Store.lower_proper s.stores)) p.scopes stores
    refine all_flatMap_of (fun e => ?_) s.entities
    rw [Option.toList_map]
    exact all_map_of Store.lower_proper e.store.toList
  · refine all_flatMap_of (fun s => all_append_of ?_ (all_map_of (Command.lower_proper s.module none) s.commands))
      p.scopes commands
    exact all_flatMap_of (fun e => all_map_of (Command.lower_proper s.module (some e.name)) e.commands) s.entities
  · refine all_flatMap_of (fun s => all_append_of ?_ (all_map_of (Policy.lower_proper s.module none) s.policies))
      p.scopes policies
    exact all_flatMap_of (fun e => all_map_of (Policy.lower_proper s.module (some e.name)) e.policies) s.entities

end Declarations
end Source

-- A compiled program is proper as soon as its numbers are finite.
theorem compile_proper {options : CompileOptions} {time source : String} {ir : Ir}
    (compiled : (compile options time source).ir = some ir) (finite : ir.isFinite = true) : ir.isProper = true := by
  obtain ⟨_, rfl⟩ := compile_lowered compiled
  exact Source.Program.lower_proper _ _ finite

end Charter

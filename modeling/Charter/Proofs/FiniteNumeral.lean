import Charter.Proofs.Contents
import Charter.Proofs.FiniteNumber
import Charter.Proofs.FiniteProgram
import Charter.Proofs.ReadProgram

/-!
Programs whose numerals stand for finite numbers. The numbers of a compiled program are those of its numerals, perhaps
negated, so they are finite too, and the program comes back from its document. A numeral may be too large for that: it
then stands for infinity, which a document does not tell.
-/

namespace Charter

-- The token is no numeral, or stands for a finite number.
def Token.IsFinite (token : Token) : Prop :=
  token.kind = .number → ∀ n, Decimal.parse? token.value = some n → Binary64.isFinite n = true

-- Numerals without an exponent are finite up to 308 digits before the point.
theorem Token.isFinite_short {token : Token} {whole fraction : List Char} (digits : IsDigits whole)
    (part : IsFraction fraction) (short : whole.length ≤ 308) (form : token.value.toList = whole ++ fraction) :
    token.IsFinite := fun _ _ => Decimal.isFinite_short digits part short form

namespace Source
open Charter.Source.Parser
open Ir (Constant)

namespace Grammar
variable {known : Token → Prop} {number : Float → Prop}

theorem supplies_regular (vouched : Vouches known number) (limit : Nat) :
    Supplies known limit (Expression.Regular number) where
  whole := gives_nested vouched limit limit .expression
  first := gives_primary vouched (gives_nested vouched limit limit .expression)
  literal := by
    refine (gives_primary vouched (gives_nested vouched limit limit .expression)).bind fun e regular => ?_
    split
    · exact .pure regular
    · exact .pure (.literal fun n same => by cases same)
    · exact .fail _
  entries := fun entries regular => by
    cases regular with
    | object each => exact each
  self := .identifier (.inr (by decide))
  empty := .object (List.forall_mem_nil _)

end Grammar

namespace Expression

-- The form of what is read, with finite numbers.
def IsFinite (e : Expression) : Prop := e.Regular fun n => Binary64.isFinite n = true

variable {e : Expression}

theorem literal_finite {value : Literal} (written : ∀ n, value = .number n → Binary64.isFinite n = true) :
    value.constant.isFinite = true := by
  cases value with
  | number n => exact written n rfl
  | string | boolean | null => rfl

theorem IsFinite.literal {value : Literal} (finite : (literal value).IsFinite) : value.constant.isFinite = true := by
  cases finite with
  | literal written => exact literal_finite written

theorem IsFinite.lower (finite : e.IsFinite) : e.lower.isFinite = true := by
  unfold IsFinite at finite
  induction finite with
  | literal written => exact literal_finite written
  | identifier lexes => rfl
  | member property _ ih => exact ih
  | index _ _ _ within asked =>
      rw [Expression.lower, Ir.Expression.isFinite, Ir.Expression.isFinite_items]
      simp [within, asked, Ir.Expression.isFinite]
  | binary operator _ _ first second => exact Bool.and_eq_true_iff.mpr ⟨first, second⟩
  | unary operator _ ih => exact ih
  | call _ _ called each =>
      refine Bool.and_eq_true_iff.mpr ⟨called, ?_⟩
      rw [Ir.Expression.isFinite_items, lower_items]
      exact List.all_eq_true.mpr (List.forall_mem_map.mpr each)
  | conditional _ _ _ asked yes no =>
      exact Bool.and_eq_true_iff.mpr ⟨Bool.and_eq_true_iff.mpr ⟨asked, yes⟩, no⟩
  | array _ each =>
      rw [Expression.lower, Ir.Expression.isFinite, Ir.Expression.isFinite_items, lower_items]
      exact List.all_eq_true.mpr (List.forall_mem_map.mpr each)
  | object _ each =>
      rw [Expression.lower, Ir.Expression.isFinite, Ir.Expression.isFinite_pairs, lower_pairs]
      exact List.all_eq_true.mpr (List.forall_mem_map.mpr each)
  | lambda _ _ ih => exact ih

-- A negated constant has another sign than its operand, and so it is finite too.
theorem IsFinite.constant (finite : e.IsFinite) {found : Constant} (same : e.constant? = some found) :
    found.isFinite = true := by
  unfold IsFinite at finite
  induction finite generalizing found with
  | literal written =>
      cases same
      exact literal_finite written
  | unary operator _ ih =>
      cases operator with
      | negate =>
          rw [constant?] at same
          split at same
          · next value inner =>
            cases same
            exact (Binary64.isFinite_neg value).trans (ih inner)
          · cases same
      | not | notWord => cases same
  | array _ each =>
      obtain ⟨items, listed, rfl⟩ := Option.map_eq_some_iff.mp same
      rw [Constant.isFinite_array, List.all_eq_true]
      intro item member
      obtain ⟨element, origin, inner⟩ := mem_constant?_items listed item member
      exact each element origin inner
  | object _ each =>
      obtain ⟨members, listed, rfl⟩ := Option.map_eq_some_iff.mp same
      rw [Constant.isFinite_object, List.all_eq_true]
      intro pair member
      obtain ⟨entry, origin, inner⟩ := mem_constant?_pairs listed pair (Fields.mem_of_mem_ofList member)
      exact each entry origin inner
  | identifier | member | index | binary | call | conditional | lambda => cases same

end Expression

/-! Declarations are lowered to finite ones if all that they hold is finite. -/

section Declarations
open Expression (IsFinite)

theorem lower_all {α β : Type} {lower : α → β} {finite : β → Bool} {items : List α}
    (each : ∀ item ∈ items, finite (lower item) = true) : (items.map lower).all finite = true :=
  List.all_eq_true.mpr (List.forall_mem_map.mpr each)

theorem default_finite {default? : Option Expression} (each : ∀ e ∈ default?.toList, e.IsFinite) :
    (default?.bind Expression.constant?).all Constant.isFinite = true := by
  rw [Option.all_eq_true]
  intro constant found
  obtain ⟨e, given, same⟩ := Option.bind_eq_some_iff.mp found
  exact (each e (Option.mem_toList.mpr given)).constant same

theorem Property.lower_finite {p : Property} (each : ∀ e ∈ p.expressions, e.IsFinite) : p.lower.isFinite = true :=
  default_finite each

theorem Parameter.lower_finite {p : Parameter} (each : ∀ e ∈ p.expressions, e.IsFinite) : p.lower.isFinite = true :=
  default_finite each

theorem Constraint.lower_finite {c : Constraint} (each : ∀ e ∈ c.expressions, e.IsFinite) :
    c.lower.isFinite = true := by
  obtain ⟨expression, details⟩ := Constraint.forall_expressions.mp each
  refine Bool.and_eq_true_iff.mpr ⟨expression.lower, List.all_eq_true.mpr fun field member => ?_⟩
  obtain ⟨source, within, rfl⟩ := List.mem_map.mp (Fields.mem_of_mem_ofList member)
  exact (details source within).lower

theorem Transition.lower_finite {t : Transition} (each : ∀ e ∈ t.literals, e.IsFinite) : t.lower.isFinite = true := by
  obtain ⟨source, targets⟩ := Transition.forall_literals.mp each
  exact Bool.and_eq_true_iff.mpr ⟨source.literal, lower_all fun target member => (targets target member).literal⟩

theorem Command.lower_finite {module entity : Option String} {c : Command}
    (each : ∀ e ∈ c.expressions, e.IsFinite) : (c.lower module entity).isFinite = true := by
  obtain ⟨parameters, guards, constraints, actions⟩ := Command.forall_expressions.mp each
  simp only [Ir.Command.isFinite, Bool.and_eq_true]
  exact ⟨⟨⟨lower_all fun p member => Parameter.lower_finite (parameters p member),
    lower_all fun guard member => (guards guard member).lower⟩,
    lower_all fun k member => Constraint.lower_finite (constraints k member)⟩,
    lower_all fun action member => (actions action member).lower⟩

theorem Policy.lower_finite {module entity : Option String} {p : Policy} (finite : p.expression.IsFinite) :
    (p.lower module entity).isFinite = true := finite.lower

theorem Store.lower_finite {s : Store} (each : ∀ e ∈ s.expressions, e.IsFinite) : s.lower.isFinite = true := by
  refine List.all_eq_true.mpr fun field member => ?_
  obtain ⟨source, within, kept⟩ := List.mem_filterMap.mp (Fields.mem_of_mem_ofList member)
  obtain ⟨constant, found, rfl⟩ := Option.map_eq_some_iff.mp kept
  exact (List.forall_mem_map.mp each source within).constant found

theorem Entity.lower_finite {module : Option String} {entity : Entity} (each : ∀ e ∈ entity.contents, e.IsFinite) :
    (entity.lower module).isFinite = true := by
  obtain ⟨properties, computed, _, constraints, _, _, transitions⟩ := Entity.forall_contents.mp each
  simp only [Ir.Entity.isFinite, Bool.and_eq_true]
  exact ⟨⟨⟨lower_all fun p member => Property.lower_finite (properties p member),
    lower_all fun c member => (computed c member).lower⟩,
    lower_all fun k member => Constraint.lower_finite (constraints k member)⟩,
    lower_all fun t member => Transition.lower_finite (transitions t member)⟩

-- All that stands in a scope.
structure Scope.Holds (fine : Expression → Prop) (s : Scope) : Prop where
  entities : ∀ entity ∈ s.entities, ∀ e ∈ entity.contents, fine e
  commands : ∀ c ∈ s.commands, ∀ e ∈ c.expressions, fine e
  policies : ∀ p ∈ s.policies, fine p.expression
  stores : ∀ store ∈ s.stores, ∀ e ∈ store.expressions, fine e

theorem Program.scopes_hold {fine : Expression → Prop} {p : Program} (each : ∀ e ∈ p.contents, fine e) :
    ∀ s ∈ p.scopes, s.Holds fine := by
  obtain ⟨modules, entities, commands, policies, stores, _⟩ := Program.forall_contents.mp each
  refine forall_mem_snoc (List.forall_mem_map.mpr fun m member => ?_) ⟨entities, commands, policies, stores⟩
  obtain ⟨entities, commands, policies, stores⟩ := Module.forall_contents.mp (modules m member)
  exact ⟨entities, commands, policies, stores⟩

-- In a list of what the entities of a scope hold and of what the scope holds itself.
theorem Scope.all_parts {α : Type} {finite : α → Bool} {s : Scope} {parts : Entity → List α} {own : List α}
    (inner : ∀ entity ∈ s.entities, (parts entity).all finite = true) (outer : own.all finite = true) :
    (s.entities.flatMap parts ++ own).all finite = true := by
  rw [List.all_append, List.all_flatMap, Bool.and_eq_true]
  exact ⟨List.all_eq_true.mpr inner, outer⟩

theorem Scope.Holds.lower {s : Scope} (holds : s.Holds IsFinite) :
    (s.entities.map (Entity.lower s.module)).all Ir.Entity.isFinite = true ∧
      s.loweredStores.all Ir.Store.isFinite = true ∧ s.loweredCommands.all Ir.Command.isFinite = true ∧
      s.loweredPolicies.all Ir.Policy.isFinite = true := by
  refine ⟨lower_all fun entity member => Entity.lower_finite (holds.entities entity member), ?_, ?_, ?_⟩
  · refine Scope.all_parts (fun entity member => ?_) (lower_all fun store given => ?_)
    · obtain ⟨_, _, _, _, _, stores, _⟩ := Entity.forall_contents.mp (holds.entities entity member)
      rw [Option.toList_map]
      exact lower_all fun store given => Store.lower_finite (stores store given)
    · exact Store.lower_finite (holds.stores store given)
  · refine Scope.all_parts (fun entity member => lower_all fun c given => ?_) (lower_all fun c given => ?_)
    · obtain ⟨_, _, commands, _⟩ := Entity.forall_contents.mp (holds.entities entity member)
      exact Command.lower_finite (commands c given)
    · exact Command.lower_finite (holds.commands c given)
  · refine Scope.all_parts (fun entity member => lower_all fun p given => ?_) (lower_all fun p given => ?_)
    · obtain ⟨_, _, _, _, policies, _⟩ := Entity.forall_contents.mp (holds.entities entity member)
      exact Policy.lower_finite (policies p given)
    · exact Policy.lower_finite (holds.policies p given)

theorem Program.lower_finite {provenance : Ir.Provenance} {p : Program} (each : ∀ e ∈ p.contents, e.IsFinite) :
    (p.lower provenance).isFinite = true := by
  have scopes := fun s member => (Program.scopes_hold each s member).lower
  simp only [Ir.isFinite, Program.lower, List.all_flatMap, Bool.and_eq_true, List.all_eq_true (l := p.scopes)]
  exact ⟨⟨⟨fun s member => (scopes s member).1, fun s member => (scopes s member).2.1⟩,
    fun s member => (scopes s member).2.2.1⟩, fun s member => (scopes s member).2.2.2⟩

-- What is known of the tokens of a source whose numerals are finite.
theorem vouches_finite : Vouches (fun token => token.IsRead ∧ token.IsFinite) fun n => Binary64.isFinite n = true where
  free _ known := known.1.free
  numeral _ n known kind := known.2 kind n

theorem Document.contents_finite {policy : AnomalyPolicy} {limit : Nat} {source : String}
    (finite : ∀ token ∈ (Lexed.ofSource source).tokens, token.IsFinite) :
    ∀ e ∈ (Document.ofSource policy limit source).program.contents, e.IsFinite := by
  change ∀ e ∈ (Program.ofTokens limit (Lexed.ofSource source).tokens).1.contents, e.IsFinite
  unfold Program.ofTokens
  dsimp only
  split
  · next read =>
    refine (Grammar.supplies_regular vouches_finite limit).program _ _ (terminated_each ?_ ?_) read
    · exact fun position => ⟨Token.isRead_other TokenKind.noConfusion TokenKind.noConfusion, TokenKind.noConfusion⟩
    · exact fun token member => ⟨Lexed.isRead source token member, finite token member⟩
  · exact List.forall_mem_nil _

end Declarations
end Source

-- If no numeral of a source is too large for a finite number, all numbers of the compiled program are finite, and the
-- program comes back from its document, up to the order of keys in maps. Every numeral of the text counts, wherever it
-- stands.
theorem compiled_finite {options : CompileOptions} {time source : String} {ir : Ir}
    (compiled : (compile options time source).ir = some ir)
    (finite : ∀ token ∈ (Lexed.ofSource source).tokens, token.IsFinite) :
    ir.isFinite = true ∧ ∃ back, Ir.ofJson? ir.json = some back ∧ back.ordered = ir.ordered := by
  have numbers : ir.isFinite = true := by
    obtain ⟨_, rfl⟩ := compile_lowered compiled
    exact Source.Program.lower_finite (Source.Document.contents_finite finite)
  have proper := compile_proper compiled numbers
  obtain ⟨back, read, _, same⟩ := Ir.reads ir proper ir.json (Ir.keyed ir proper) rfl
  exact ⟨numbers, back, read, same⟩

-- Numbers in a default, a transition, a store and a policy, some of them negated.
theorem negated_defaults_exchanged :
    let source := "entity Task \x7b\n property points: number = -3e2\n transition points from 1 to [2.5, 3]\n" ++
      " store memory \x7b limits: [0, - -1] \x7d\n\x7d\npolicy small: self.points < 1e308\n"
    ∃ ir, (compile {} "morning" source).ir = some ir ∧
      (∀ token ∈ (Lexed.ofSource source).tokens, token.IsFinite) ∧ ir.isFinite = true ∧
      ∃ back, Ir.ofJson? ir.json = some back ∧ back.ordered = ir.ordered := by
  intro source
  have compiles : (compile {} "morning" source).ir.isSome = true := by decide +kernel
  have numerals : ((Lexed.ofSource source).tokens.all fun token =>
      token.kind != .number || (Decimal.parse? token.value).all Binary64.isFinite) = true := by decide +kernel
  obtain ⟨ir, compiled⟩ := Option.isSome_iff_exists.mp compiles
  have finite : ∀ token ∈ (Lexed.ofSource source).tokens, token.IsFinite := by
    intro token member kind n read
    have each := List.all_eq_true.mp numerals token member
    simpa [kind, read] using each
  exact ⟨ir, compiled, finite, compiled_finite compiled finite⟩

-- A numeral that is too large.
example : let source := "entity Task \x7b\n property points: number = 1e400\n\x7d\n"
    (compile {} "morning" source).ir.map Ir.isFinite = some false := by decide +kernel

end Charter

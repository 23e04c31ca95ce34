import Charter.Proofs.Acceptance
import Charter.Proofs.Consumption
import Mathlib.Logic.Basic

/-!
A higher nesting limit. What a production reads without a fault where fewer levels may nest, it reads in the same way
where more may: the limit shows in nothing but the fault that it is passed. So a text that compiles under one limit
compiles to the same under every higher one.
-/

namespace Charter.Source
open Charter.Source.Parser

set_option synthInstance.maxSize 100000

namespace Parser
variable {α β σ : Type} {p q p' q' : Parser α} {next next' : α → Parser β}

-- What the first production reads without a fault the second reads in the same way.
class Widens (p q : Parser α) : Prop where
  reads : ∀ tokens value rest, p tokens = ⟨.ok value, rest, []⟩ → q tokens = ⟨.ok value, rest, []⟩

namespace Widens

instance (priority := high) refl (p : Parser α) : Widens p p := ⟨fun _ _ _ ran => ran⟩

instance failAt (position : Position) (fault : Fault) (q : Parser α) : Widens (Parser.failAt position fault) q :=
  ⟨nofun⟩

instance fail (fault : Fault) (q : Parser α) : Widens (Parser.fail fault) q := ⟨nofun⟩

-- Nothing is read behind a fault.
instance fail_bind (fault : Fault) (q : Parser β) : Widens (Parser.fail fault >>= next) q := ⟨nofun⟩

instance bind [first : Widens p q] [behind : ∀ value, Widens (next value) (next' value)] :
    Widens (p >>= next) (q >>= next') := by
  constructor
  intro tokens last rest ran
  obtain ⟨value, middle, began, went⟩ := bind_clean ran
  rw [run_bind (first.reads _ _ _ began)]
  exact (behind value).reads _ _ _ went

instance ite {c : Prop} [Decidable c] [yes : Widens p q] [no : Widens p' q'] :
    Widens (if c then p else p') (if c then q else q') := by
  split
  · exact yes
  · exact no

instance loop {step step' : σ → Parser (Turn σ α)} [each : ∀ state, Widens (step state) (step' state)] (state : σ) :
    Widens (Parser.loop step state) (Parser.loop step' state) := by
  constructor
  intro tokens value rest ran
  induction size : tokens.length using Nat.strongRecOn generalizing tokens state with
  | ind length ih =>
  subst size
  obtain ended | ⟨next, middle, again, shorter, went⟩ := loop_clean ran
  · exact run_loop_done ((each state).reads _ _ _ ended)
  · rw [run_loop_again ((each state).reads _ _ _ again) shorter, ih middle.length shorter next middle went rfl]
    rfl

instance recover [each : Widens p q] (instead : α) (resume : List Token → List Token → List Token) :
    Widens (Parser.recover instead p resume) (Parser.recover instead q resume) := by
  constructor
  intro tokens value rest ran
  unfold Parser.recover
  rw [each.reads _ _ _ (recover_clean ran)]

/-! The rules for parts that are not found as instances, such as choices by the form of a value. -/

theorem of_bind (first : Widens p q) (behind : ∀ value, Widens (next value) (next' value)) :
    Widens (p >>= next) (q >>= next') := bind

theorem of_loop {step step' : σ → Parser (Turn σ α)} (each : ∀ state, Widens (step state) (step' state)) (state : σ) :
    Widens (Parser.loop step state) (Parser.loop step' state) := loop state

instance after? (kind : TokenKind) (mark : String) [Widens p q] :
    Widens (Parser.after? kind mark p) (Parser.after? kind mark q) := by unfold Parser.after?; infer_instance

end Widens
end Parser

namespace Grammar
open Charter.Source.Parser

section Expression
variable {expression expression' operand operand' plain plain' : Parser Expression} [Widens expression expression']
  [Widens operand operand'] [Widens plain plain']

instance (level : Nat) : Widens (chain level operand) (chain level operand') := by
  unfold chain
  refine .of_bind inferInstance fun first => .of_loop (fun left => .of_bind inferInstance fun operator => ?_) first
  split <;> infer_instance

instance : Widens (binary operand) (binary operand') := by unfold binary; infer_instance

instance : Widens (conditional expression operand) (conditional expression' operand') := by
  unfold conditional; infer_instance

instance : Widens (signed operand plain) (signed operand' plain') := by
  unfold signed
  refine .of_bind inferInstance fun token => ?_
  split <;> infer_instance

instance (close : String) : Widens (sequence expression close) (sequence expression' close) := by
  unfold sequence; infer_instance

instance : Widens (entries expression) (entries expression') := by unfold entries; infer_instance

instance (params : List String) : Widens (lambda expression params) (lambda expression' params) := by
  unfold lambda; infer_instance

instance : Widens (parenthesized expression) (parenthesized expression') := by
  unfold parenthesized
  refine .of_bind inferInstance fun params => ?_
  split <;> infer_instance

instance : Widens (primary expression) (primary expression') := by
  unfold primary
  refine .of_bind inferInstance fun token => ?_
  split
  case h_5 => split <;> infer_instance
  all_goals infer_instance

instance : Widens (accesses expression) (accesses expression') := by unfold accesses; infer_instance

end Expression

section Declaration
variable {limit more : Nat}

-- By induction on the levels that are left of the lower limit: where none is left, nothing is read without a fault.
theorem nested_widens {levels levels' : Nat} (fewer : levels ≤ levels') (production : Production) :
    Widens (nested limit levels production) (nested more levels' production) := by
  induction levels generalizing levels' production with
  | zero =>
      cases production with
      | expression => exact Widens.fail (.tooDeep limit) _
      | operand =>
          cases levels' with
          | zero =>
              exact (inferInstance : Widens (signed (fail (.tooDeep limit)) (accesses (fail (.tooDeep limit))))
                (signed (fail (.tooDeep more)) (accesses (fail (.tooDeep more)))))
          | succ levels' =>
              exact (inferInstance : Widens (signed (fail (.tooDeep limit)) (accesses (fail (.tooDeep limit))))
                (signed (nested more levels' .operand)
                  (accesses (conditional (nested more levels' .expression) (nested more levels' .operand)))))
  | succ levels ih =>
      obtain ⟨levels', rfl⟩ := Nat.exists_eq_add_of_le' fewer
      have deeper := ih (Nat.le_add_left levels levels') .expression
      have operand := ih (Nat.le_add_left levels levels') .operand
      cases production with
      | expression =>
          exact (inferInstance : Widens
            (conditional (nested limit levels .expression) (nested limit levels .operand))
            (conditional (nested more (levels' + levels) .expression) (nested more (levels' + levels) .operand)))
      | operand =>
          exact (inferInstance : Widens
            (signed (nested limit levels .operand)
              (accesses (conditional (nested limit levels .expression) (nested limit levels .operand))))
            (signed (nested more (levels' + levels) .operand)
              (accesses (conditional (nested more (levels' + levels) .expression)
                (nested more (levels' + levels) .operand)))))

instance {argument argument' : Parser TypeRef} [Widens argument argument'] :
    Widens (typeForm argument) (typeForm argument') := by unfold typeForm; infer_instance

theorem nestedType_widens {levels levels' : Nat} (fewer : levels ≤ levels') :
    Widens (nestedType limit levels) (nestedType more levels') := by
  induction levels generalizing levels' with
  | zero =>
      cases levels' with
      | zero => exact (inferInstance : Widens (typeForm (fail (.tooDeep limit))) (typeForm (fail (.tooDeep more))))
      | succ levels' =>
          exact (inferInstance : Widens (typeForm (fail (.tooDeep limit))) (typeForm (nestedType more levels')))
  | succ levels ih =>
      obtain ⟨levels', rfl⟩ := Nat.exists_eq_add_of_le' fewer
      have argument := ih (Nat.le_add_left levels levels')
      exact (inferInstance : Widens (typeForm (nestedType limit levels))
        (typeForm (nestedType more (levels' + levels))))

variable [wider : Fact (limit ≤ more)]

instance : Widens (expression limit) (expression more) := nested_widens wider.out .expression

instance : Widens (type limit) (type more) := nestedType_widens wider.out

instance {σ : Type} {separators unclosed : Parser Unit} {item item' : σ → Parser σ}
    [∀ state, Widens (item state) (item' state)] (start : σ) :
    Widens (braced separators unclosed item start) (braced separators unclosed item' start) := by
  unfold braced; infer_instance

instance : Widens (property limit) (property more) := by unfold property; infer_instance

instance : Widens (computed limit) (computed more) := by unfold computed; infer_instance

instance : Widens (literalValue limit) (literalValue more) := by unfold literalValue; infer_instance

instance : Widens (literalList limit) (literalList more) := by unfold literalList; infer_instance

instance : Widens (transition limit) (transition more) := by unfold transition; infer_instance

instance (fields : ConstraintFields) : Widens (constraintField limit fields) (constraintField more fields) := by
  unfold constraintField
  refine .of_bind inferInstance fun start => .of_bind inferInstance fun key => .of_bind inferInstance fun _ => ?_
  split <;> infer_instance

instance (name : String) (severity : Option Enforcement) (position : Position) :
    Widens (constraintBlock limit name severity position) (constraintBlock more name severity position) := by
  unfold constraintBlock; infer_instance

instance : Widens (constraint limit) (constraint more) := by unfold constraint; infer_instance

instance : Widens (parameter limit) (parameter more) := by unfold parameter; infer_instance

instance : Widens (parameters limit) (parameters more) := by unfold parameters; infer_instance

-- The same words begin an action.
theorem action?_widens (word : String) :
    (action? limit word = none ∧ action? more word = none) ∨
      ∃ action action',
        action? limit word = some action ∧ action? more word = some action' ∧ Widens action action' := by
  unfold action?
  split
  case h_7 => exact .inl ⟨rfl, rfl⟩
  all_goals exact .inr ⟨_, _, rfl, rfl, inferInstance⟩

instance (command : Command) : Widens (statement limit command) (statement more command) := by
  unfold statement
  refine .of_bind inferInstance fun token => @Widens.ite _ _ _ _ _ _ _ inferInstance ?_
  dsimp only
  split
  case h_4 =>
    obtain ⟨none, none'⟩ | ⟨action, action', some, some', widens⟩ := @action?_widens limit more wider token.value
    · rw [none, none']
      infer_instance
    · rw [some, some']
      infer_instance
  all_goals infer_instance

instance : Widens (command limit) (command more) := by unfold command; infer_instance

instance : Widens (policy limit) (policy more) := by unfold policy; infer_instance

instance : Widens (configuration limit) (configuration more) := by unfold configuration; infer_instance

instance (entity : String) : Widens (entityStore limit entity) (entityStore more entity) := by
  unfold entityStore; infer_instance

instance : Widens (store limit) (store more) := by unfold store; infer_instance

instance (fields : List EventField) : Widens (eventField limit fields) (eventField more fields) := by
  unfold eventField; infer_instance

instance : Widens (event limit) (event more) := by unfold event; infer_instance

instance (entity : Entity) : Widens (entityMember limit entity) (entityMember more entity) := by
  unfold entityMember
  refine .of_bind inferInstance fun token => ?_
  split <;> infer_instance

instance : Widens (entity limit) (entity more) := by unfold entity; infer_instance

instance (steps : List FlowStep) : Widens (flowStep limit steps) (flowStep more steps) := by
  unfold flowStep; infer_instance

instance : Widens (flow limit) (flow more) := by unfold flow; infer_instance

instance : Widens (effect limit) (effect more) := by unfold effect; infer_instance

instance (m : Module) : Widens (moduleMember limit m) (moduleMember more m) := by
  unfold moduleMember
  refine .of_bind inferInstance fun token => ?_
  split <;> infer_instance

instance : Widens (module limit) (module more) := by unfold module; infer_instance

instance (program : Program) : Widens (declaration limit program) (declaration more program) := by
  unfold declaration
  refine .of_bind inferInstance fun token => @Widens.ite _ _ _ _ _ _ _ inferInstance ?_
  dsimp only
  split <;> infer_instance

instance : Widens (program limit) (program more) := by unfold program; infer_instance

end Declaration
end Grammar

theorem Program.ofTokens_wider {limit more : Nat} (wider : limit ≤ more) {tokens : List Token}
    (clean : (Program.ofTokens limit tokens).2 = []) :
    Program.ofTokens more tokens = Program.ofTokens limit tokens := by
  have : Fact (limit ≤ more) := ⟨wider⟩
  unfold Program.ofTokens at clean ⊢
  cases ran : Grammar.program limit (terminated tokens) with
  | mk outcome rest reports =>
      rw [ran] at clean
      cases outcome with
      | error report => cases List.append_ne_nil_of_right_ne_nil reports (List.cons_ne_nil report []) clean
      | ok program =>
          cases clean
          have widens : Parser.Widens (Grammar.program limit) (Grammar.program more) := inferInstance
          rw [widens.reads _ _ _ ran]

end Charter.Source

namespace Charter
open Source

theorem compile_congr {options options' : CompileOptions} (time source : String)
    (same : Document.ofSource options'.anomalies options'.maxNesting source =
      Document.ofSource options.anomalies options.maxNesting source) :
    compile options' time source = compile options time source := by
  unfold compile
  rw [same]

-- What is read without an error under one limit is read in the same way under every higher one, with the same
-- diagnostics, and compiles to the same.
theorem wider_limit_agrees {limit more : Nat} (wider : limit ≤ more) (policy : AnomalyPolicy) (source : String) :
    ((Document.ofSource policy limit source).hasErrors = false →
      Document.ofSource policy more source = Document.ofSource policy limit source) ∧
    ∀ (options : CompileOptions) (time : String) (ir : Ir),
      (compile { options with anomalies := policy, maxNesting := limit } time source).ir = some ir →
        compile { options with anomalies := policy, maxNesting := more } time source =
          compile { options with anomalies := policy, maxNesting := limit } time source := by
  have read : (Document.ofSource policy limit source).hasErrors = false →
      Document.ofSource policy more source = Document.ofSource policy limit source := by
    intro clean
    obtain ⟨reports, _⟩ := (harmless_ofSource policy limit source).mp (hasErrors_eq_false.mp clean)
    unfold Document.ofSource
    dsimp only
    rw [Program.ofTokens_wider wider reports]
  refine ⟨read, fun options time ir compiled => compile_congr time source (read ?_)⟩
  obtain ⟨_, failed⟩ | ⟨clean, _⟩ := compile_cases { options with anomalies := policy, maxNesting := limit } time
    source (rfl : _ = Document.ofSource policy limit source)
  · rw [failed] at compiled
    cases compiled
  · exact clean

-- Parentheses take two levels: with one the text has an error, with two no higher limit makes a difference.
theorem parenthesized_policy_agrees :
    let source := "policy Open read: (user)"
    let compiled (limit : Nat) := compile { maxNesting := limit } "noon" source
    (Document.ofSource .warn 1 source).hasErrors = true ∧ (Document.ofSource .warn 2 source).hasErrors = false ∧
      Document.ofSource .warn 64 source = Document.ofSource .warn 2 source ∧ (compiled 2).ir.isSome = true ∧
      compiled 64 = compiled 2 := by
  intro source compiled
  have shallow : (Document.ofSource .warn 1 source).hasErrors = true := by decide +kernel
  have clean : (Document.ofSource .warn 2 source).hasErrors = false := by decide +kernel
  have some : (compiled 2).ir.isSome = true := by decide +kernel
  obtain ⟨ir, compiles⟩ := Option.isSome_iff_exists.mp some
  obtain ⟨read, same⟩ := wider_limit_agrees (show 2 ≤ 64 by decide) .warn source
  exact ⟨shallow, clean, read clean, some, same {} "noon" ir compiles⟩

end Charter

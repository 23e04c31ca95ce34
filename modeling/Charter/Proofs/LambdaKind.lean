import Charter.Compile.Lowering
import Charter.Proofs.ApplicationLimit
import Charter.Proofs.RoundTrip
import Mathlib.Logic.Function.Basic

/-!
Where evaluation comes to an end. A lambda may be applied to itself, and then evaluation need not end, whatever number
of applications may nest. It does end where lambdas have kinds: what a lambda takes and gives is told beforehand, and
so no lambda takes its own kind.
-/

namespace Charter
open Evaluation

/-! The lambdas that a value holds. -/

-- Each lambda in a value is good, not looking into the scopes of lambdas.
inductive Value.Holds (good : Closure → Prop) : Value → Prop
  | undefined : Holds good .undefined
  | null : Holds good .null
  | boolean (value : Bool) : Holds good (.boolean value)
  | number (value : Float) : Holds good (.number value)
  | string (value : String) : Holds good (.string value)
  | array {items : List Value} (each : ∀ item ∈ items, Holds good item) : Holds good (.array items)
  | object {entries : List (String × Value)} (each : ∀ entry ∈ entries, Holds good entry.2) :
      Holds good (.object entries)
  | lambda {identity : Nat} {params : List String} {body : Ir.Expression} {scopes : List (Fields Value)}
      (holds : good ⟨params, body, ⟨scopes⟩⟩) : Holds good (.lambda identity params body scopes)

namespace Value.Holds
variable {good weaker : Closure → Prop} {value : Value}

theorem imp (holds : value.Holds good) (less : ∀ closure, good closure → weaker closure) : value.Holds weaker := by
  induction holds with
  | undefined => exact .undefined
  | null => exact .null
  | boolean value => exact .boolean value
  | number value => exact .number value
  | string value => exact .string value
  | array _ ih => exact .array ih
  | object _ ih => exact .object ih
  | lambda holds => exact .lambda (less _ holds)

theorem ofConstant (constant : Ir.Constant) : (Value.ofConstant constant).Holds good := by
  induction constant using Ir.Constant.induction with
  | string value => exact .string value
  | number value => exact .number value
  | boolean value => exact .boolean value
  | null => exact .null
  | array items each =>
      rw [Value.ofConstant_array]
      exact .array (List.forall_mem_map.mpr each)
  | object entries each =>
      rw [Value.ofConstant_object]
      exact .object (List.forall_mem_map.mpr each)

theorem ofJson (json : Json) : (Value.ofJson json).Holds good := by
  induction json using Json.induction with
  | null => exact .null
  | boolean value => exact .boolean value
  | integer value => exact .number _
  | double value => exact .number value
  | string value => exact .string value
  | array items each =>
      rw [Value.ofJson_array]
      exact .array (List.forall_mem_map.mpr each)
  | object fields each =>
      rw [Value.ofJson_object]
      exact .object (List.forall_mem_map.mpr each)

theorem getD {found : Option Value} (holds : ∀ value, found = some value → value.Holds good) :
    (found.getD .undefined).Holds good := by
  cases found with
  | none => exact .undefined
  | some value => exact holds value rfl

theorem member (holds : value.Holds good) (key : String) : (value.member key).Holds good := by
  cases holds with
  | object each => exact getD fun value found => each _ (Fields.mem_of_get? found)
  | array each =>
      unfold Value.member
      dsimp only
      split
      · exact .number _
      · refine getD fun value found => ?_
        obtain ⟨index, _, present⟩ := Option.bind_eq_some_iff.mp found
        exact each value (List.mem_of_getElem? present)
  | string text =>
      unfold Value.member
      dsimp only
      split
      · exact .number _
      · split
        · exact .string _
        · exact .undefined
  | undefined | null | boolean | number | lambda => exact .undefined

theorem keyed (holds : value.Holds good) (key : Value) : (value.keyed key).Holds good := by
  unfold Value.keyed
  split
  · split
    · exact holds.member _
    · exact .undefined
  · exact holds.member _
  · exact .undefined

theorem add (left right : Value) : (left.add right).Holds good := by
  unfold Value.add
  split
  · exact .number _
  · exact .string _
  · exact .string _
  · exact .number _

end Value.Holds

-- Whether an operation has one of its operands for a value.
def BinaryOperator.chooses : BinaryOperator → Bool
  | .both | .bothWord | .either | .eitherWord | .fallback => true
  | _ => false

theorem Evaluation.chooses_of_decidedBy {operator : BinaryOperator} {left : Value}
    (decided : decidedBy operator left = true) : operator.chooses = true := by
  cases operator <;> first | rfl | cases decided

theorem Evaluation.combine_holds {good : Closure → Prop} (operator : BinaryOperator) (left : Value) {right : Value}
    (second : operator.chooses = true → right.Holds good) : (combine operator left right).Holds good := by
  cases operator with
  | both | bothWord | either | eitherWord | fallback => exact second rfl
  | add => exact .add left right
  | subtract | multiply | divide | remainder => exact .number _
  | equal | is | notEqual | less | greater | lessOrEqual | greaterOrEqual | isIn | contains => exact .boolean _

/-! Kinds, and what has them. -/

-- What is known of the lambdas in a value: there are none, or what they give for arguments of some kinds.
inductive Kind where
  | data
  | function (argument : Nat → Kind) (result : Kind)

namespace Kind

-- A lambda of the kind ends for all arguments of the kinds that it takes, with a result of the kind that it gives.
def Allows (around : Surroundings) : Kind → Closure → Prop
  | data => fun _ => False
  | function argument result => fun closure =>
    ∀ arguments : List Value,
      (∀ index value, arguments[index]? = some value → Value.Holds ((argument index).Allows around) value) →
        Settles (fun limit => apply around limit closure arguments) (Value.Holds (result.Allows around))

abbrev Fits (around : Surroundings) (kind : Kind) (value : Value) : Prop := value.Holds (kind.Allows around)

-- What is of one kind is of the other too.
inductive Below : Kind → Kind → Prop
  | refl (kind : Kind) : Below kind kind
  | data (kind : Kind) : Below .data kind
  | function {argument argument' : Nat → Kind} {result result' : Kind}
      (takes : ∀ index, Below (argument' index) (argument index)) (gives : Below result result') :
      Below (.function argument result) (.function argument' result')

variable {around : Surroundings} {kind wider : Kind} {value : Value}

theorem Below.allows (below : kind.Below wider) {closure : Closure} (allows : kind.Allows around closure) :
    wider.Allows around closure := by
  induction below generalizing closure with
  | refl kind => exact allows
  | data kind => exact allows.elim
  | function takes gives ih ih' =>
      intro arguments fit
      refine (allows arguments fun index value present => (fit index value present).imp fun _ => ih index).imp ?_
      exact fun value holds => holds.imp fun _ => ih'

theorem Below.fits (below : kind.Below wider) (fits : kind.Fits around value) : wider.Fits around value :=
  fits.imp fun _ => below.allows

-- The kinds of names with parameters bound over them.
def bind (kinds : String → Kind) (params : List String) (argument : Nat → Kind) : String → Kind :=
  params.zipIdx.foldl (fun kinds (param, index) => Function.update kinds param (argument index)) kinds

end Kind

-- The lambdas that an expression makes, calls and passes on have kinds. Those of names are given.
inductive Kinded : (String → Kind) → Ir.Expression → Kind → Prop
  | widen {kinds : String → Kind} {e : Ir.Expression} {kind wider : Kind} (kinded : Kinded kinds e kind)
      (below : kind.Below wider) : Kinded kinds e wider
  | literal {kinds : String → Kind} (value : Ir.Constant) : Kinded kinds (.literal value) .data
  | identifier (kinds : String → Kind) (name : String) : Kinded kinds (.identifier name) (kinds name)
  | member {kinds : String → Kind} {target : Ir.Expression} {kind : Kind} (kinded : Kinded kinds target kind)
      (property : String) : Kinded kinds (.member target property) kind
  | choose {kinds : String → Kind} {left right : Ir.Expression} {kind : Kind} (operator : String)
      (first : Kinded kinds left kind) (second : Kinded kinds right kind) :
      Kinded kinds (.binary operator left right) kind
  | compute {kinds : String → Kind} {left right : Ir.Expression} {kind other : Kind} {operator : String}
      (computes : ∀ known, BinaryOperator.ofSpelling? operator = some known → known.chooses = false)
      (first : Kinded kinds left kind) (second : Kinded kinds right other) :
      Kinded kinds (.binary operator left right) .data
  | unary {kinds : String → Kind} {operand : Ir.Expression} {kind : Kind} (operator : String)
      (kinded : Kinded kinds operand kind) : Kinded kinds (.unary operator operand) .data
  | builtin {kinds : String → Kind} {name : String} {arguments : List Ir.Expression} {kind : Kind}
      (known : (builtin? name).isSome) (each : ∀ argument ∈ arguments, Kinded kinds argument kind) :
      Kinded kinds (.call (.identifier name) arguments) kind
  | call {kinds : String → Kind} {callee : Ir.Expression} {arguments : List Ir.Expression} {argument : Nat → Kind}
      {result : Kind} (called : Kinded kinds callee (.function argument result))
      (own : ∀ name, callee = .identifier name → builtin? name = none)
      (each : ∀ index item, arguments[index]? = some item → Kinded kinds item (argument index)) :
      Kinded kinds (.call callee arguments) result
  | conditional {kinds : String → Kind} {condition consequent alternate : Ir.Expression} {kind other : Kind}
      (decided : Kinded kinds condition other) (first : Kinded kinds consequent kind)
      (second : Kinded kinds alternate kind) : Kinded kinds (.conditional condition consequent alternate) kind
  | array {kinds : String → Kind} {elements : List Ir.Expression} {kind : Kind}
      (each : ∀ element ∈ elements, Kinded kinds element kind) : Kinded kinds (.array elements) kind
  | object {kinds : String → Kind} {properties : List (String × Ir.Expression)} {kind : Kind}
      (each : ∀ property ∈ properties, Kinded kinds property.2 kind) : Kinded kinds (.object properties) kind
  | lambda {kinds : String → Kind} {params : List String} {body : Ir.Expression} {argument : Nat → Kind}
      {result : Kind} (kinded : Kinded (Kind.bind kinds params argument) body result) :
      Kinded kinds (.lambda params body) (.function argument result)

-- Names stand for what they are told to.
def Environment.Fits (around : Surroundings) (kinds : String → Kind) (env : Environment) : Prop :=
  ∀ name, (kinds name).Fits around (env.resolve name)

namespace Environment.Fits
variable {around : Surroundings} {kinds : String → Kind} {env : Environment}

theorem define (fits : env.Fits around kinds) (name : String) {kind : Kind} {value : Value}
    (bound : kind.Fits around value) : (env.define name value).Fits around (Function.update kinds name kind) := by
  intro key
  by_cases same : name = key
  · subst same
    rw [Environment.resolve_define_self, Function.update_self]
    exact bound
  · rw [Environment.resolve_define_other _ _ same, Function.update_of_ne (Ne.symm same)]
    exact fits key

-- What is missing is undefined, and so of any kind.
theorem scope (fits : env.Fits around kinds) (params : List String) (body : Ir.Expression) {argument : Nat → Kind}
    {arguments : List Value}
    (given : ∀ index value, arguments[index]? = some value → (argument index).Fits around value) :
    (Closure.scope ⟨params, body, env⟩ arguments).Fits around (Kind.bind kinds params argument) := by
  have inner : env.inner.Fits around kinds := fits
  unfold Closure.scope Kind.bind
  clear fits
  generalize params.zipIdx = numbered
  dsimp only
  generalize env.inner = start at inner
  induction numbered generalizing start kinds with
  | nil => exact inner
  | cons param rest ih => exact ih _ (inner.define param.1 (.getD (given param.2)))

end Environment.Fits

namespace Evaluation
variable {around : Surroundings} {kinds : String → Kind} {env : Environment} {kind : Kind}

theorem items_settle {items : List Ir.Expression} {good : Nat → Value → Prop}
    (each : ∀ index item, items[index]? = some item → Settles (evaluateWithin around · env item) (good index)) :
    Settles (fun limit => expression.items around (apply around limit) env items)
      fun values => ∀ index value, values[index]? = some value → good index value := by
  induction items generalizing good with
  | nil => exact .pure nofun
  | cons item rest ih =>
      refine (each 0 item rfl).bind fun value first => ?_
      have behind := @ih (fun index => good (index + 1)) fun index => each (index + 1)
      refine behind.bind fun values others => ?_
      refine .pure fun index found present => ?_
      cases index with
      | zero => cases present; exact first
      | succ index => exact others index found present

theorem pairs_settle {pairs : List (String × Ir.Expression)} {good : Value → Prop}
    (each : ∀ pair ∈ pairs, Settles (evaluateWithin around · env pair.2) good) :
    Settles (fun limit => expression.pairs around (apply around limit) env pairs)
      fun values => ∀ pair ∈ values, good pair.2 := by
  induction pairs with
  | nil => exact .pure nofun
  | cons pair rest ih =>
      refine (each pair List.mem_cons_self).bind fun value first => ?_
      refine (ih fun other later => each other (List.mem_cons_of_mem _ later)).bind fun values others => ?_
      exact .pure (List.forall_mem_cons.mpr ⟨first, others⟩)

theorem builtin_settles (builtin : Builtin) {arguments : List Value}
    (fit : ∀ (index : Nat) (value : Value), arguments[index]? = some value → kind.Fits around value) :
    Settles (fun _ => builtin.call around arguments) (kind.Fits around) := by
  cases builtin with
  | now => exact (Settles.total fun _ => trivial).bind fun _ (_ : True) => .pure (.number _)
  | uuid => exact (Settles.total fun _ => trivial).bind fun _ (_ : True) => .pure (.string _)
  | element =>
      match arguments with
      | [target, key] => exact .pure ((fit 0 target rfl).keyed key)
      | [] | [_] | _ :: _ :: _ :: _ => exact .fail nofun

theorem applyValue_settles (name : String) {function : Value} {arguments : List Value} {argument : Nat → Kind}
    {result : Kind} (fits : (Kind.function argument result).Fits around function)
    (given : ∀ index value, arguments[index]? = some value → (argument index).Fits around value) :
    Settles (fun limit => applyValue (apply around limit) name function arguments) (result.Fits around) := by
  cases fits with
  | lambda allows => exact allows arguments given
  | undefined | null | boolean | number | string | array | object => exact .fail nofun

-- By induction on the kinds that were given. That a lambda ends is what its kind says, so that nothing is asked of
-- the number of applications.
theorem kinded_settles {e : Ir.Expression} (kinded : Kinded kinds e kind) (fits : env.Fits around kinds) :
    Settles (evaluateWithin around · env e) (kind.Fits around) := by
  induction kinded generalizing env with
  | widen _ below ih => exact (ih fits).imp fun _ => below.fits
  | literal value => exact .pure (.ofConstant value)
  | identifier kinds name => exact .pure (fits name)
  | member _ property ih => exact (ih fits).bind fun _ holds => .pure (holds.member property)
  | choose operator _ _ ih ih' =>
      refine (ih fits).bind fun left first => ?_
      cases BinaryOperator.ofSpelling? operator with
      | none => exact (ih' fits).bind fun _ _ => .fail nofun
      | some known =>
          dsimp only
          split
          · exact .pure first
          · exact (ih' fits).bind fun _ second => .pure (combine_holds known left fun _ => second)
  | @compute kinds left right kind other operator computes _ _ ih ih' =>
      refine (ih fits).bind fun left first => ?_
      cases spelled : BinaryOperator.ofSpelling? operator with
      | none => exact (ih' fits).bind fun _ _ => .fail nofun
      | some known =>
          have computes := computes known spelled
          dsimp only
          split
          · next decided => exact absurd (chooses_of_decidedBy decided) (by simp [computes])
          · exact (ih' fits).bind fun _ _ => .pure (combine_holds known left (by simp [computes]))
  | unary operator _ ih =>
      refine (ih fits).bind fun value _ => ?_
      unfold unary
      split
      · exact .pure (.boolean _)
      · exact .pure (.boolean _)
      · exact .pure (.number _)
      · exact .fail nofun
  | @builtin kinds name arguments kind known _ ih =>
      refine (items_settle fun _ item present => ih item (List.mem_of_getElem? present) fits).bind fun values fit => ?_
      obtain ⟨builtin, known⟩ := Option.isSome_iff_exists.mp known
      simp only [known]
      exact builtin_settles builtin fit
  | @call kinds callee arguments argument result _ own _ ih ih' =>
      have given := items_settle fun index item present => ih' index item present fits
      cases callee with
      | identifier name =>
          refine given.bind fun values fit => ?_
          simp only [own name rfl]
          exact applyValue_settles name (ih fits).of_pure fit
      | literal | member | binary | unary | call | conditional | array | object | lambda =>
          exact given.bind fun values fit => (ih fits).bind fun function called => applyValue_settles _ called fit
  | conditional _ _ _ decided first second =>
      refine (decided fits).bind fun value _ => ?_
      split
      · exact first fits
      · exact second fits
  | array _ ih =>
      refine (items_settle fun _ item present => ih item (List.mem_of_getElem? present) fits).bind fun values fit => ?_
      refine .pure (.array fun item member => ?_)
      obtain ⟨index, present⟩ := List.mem_iff_getElem?.mp member
      exact fit index item present
  | object _ ih =>
      refine (pairs_settle fun pair member => ih pair member fits).bind fun values fit => ?_
      exact .pure (.object fun entry member => fit entry (Fields.mem_of_mem_ofList member))
  | @lambda kinds params body argument result _ ih =>
      refine (Settles.total fun _ => trivial).bind fun identity (_ : True) => ?_
      exact .pure (.lambda fun arguments given => .apply (ih (fits.scope params body given)))

end Evaluation

/-! Where no lambda is passed on, there are kinds. -/

namespace Ir.Expression

-- Lambdas are called, but stand in no argument of a call; without `lambdas` there are none.
def isFirstOrder (lambdas : Bool) : Expression → Bool
  | .literal _ | .identifier _ => true
  | .member target _ => isFirstOrder lambdas target
  | .binary _ left right => isFirstOrder lambdas left && isFirstOrder lambdas right
  | .unary _ operand => isFirstOrder lambdas operand
  | .call callee arguments => isFirstOrder lambdas callee && items false arguments
  | .conditional condition consequent alternate =>
    isFirstOrder lambdas condition && isFirstOrder lambdas consequent && isFirstOrder lambdas alternate
  | .array elements => items lambdas elements
  | .object properties => pairs lambdas properties
  | .lambda _ body => lambdas && isFirstOrder lambdas body
where
  items (lambdas : Bool) : List Expression → Bool
    | [] => true
    | item :: rest => isFirstOrder lambdas item && items lambdas rest
  pairs (lambdas : Bool) : List (String × Expression) → Bool
    | [] => true
    | (_, value) :: rest => isFirstOrder lambdas value && pairs lambdas rest

theorem isFirstOrder_items (lambdas : Bool) (items : List Expression) :
    isFirstOrder.items lambdas items = items.all (isFirstOrder lambdas) :=
  List.eq_all_of (f := isFirstOrder.items lambdas) rfl (fun _ _ => rfl) items

theorem isFirstOrder_pairs (lambdas : Bool) (pairs : List (String × Expression)) :
    isFirstOrder.pairs lambdas pairs = pairs.all (isFirstOrder lambdas ·.2) :=
  List.eq_all_of (f := isFirstOrder.pairs lambdas) rfl (fun _ _ => rfl) pairs

end Ir.Expression

namespace Kind

-- Takes data so many times, and gives data in the end.
def takesData : Nat → Kind
  | 0 => data
  | times + 1 => function (fun _ => data) (takesData times)

theorem takesData_below {times more : Nat} (fewer : times ≤ more) : (takesData times).Below (takesData more) := by
  induction times generalizing more with
  | zero => exact .data _
  | succ times ih =>
      obtain ⟨rest, rfl⟩ := Nat.exists_eq_add_of_le' fewer
      exact .function (fun _ => .refl _) (ih (Nat.le_add_left times rest))

theorem bind_data (params : List String) : bind (fun _ => data) params (fun _ => data) = fun _ => data := by
  unfold bind
  generalize params.zipIdx = numbered
  induction numbered with
  | nil => rfl
  | cons param rest ih =>
      rw [List.foldl_cons]
      dsimp only
      rwa [Function.update_eq_self param.1 (fun _ => data)]

end Kind

namespace Kinded
open Ir.Expression Kind

-- The lambdas of an expression take data only, some number of times; without lambdas that number is zero.
def Takes (lambdas : Bool) (e : Ir.Expression) (times : Nat) : Prop :=
  Kinded (fun _ => .data) e (takesData times) ∧ (lambdas = false → times = 0)

variable {lambdas : Bool} {e other : Ir.Expression}

theorem Takes.more {times more : Nat} (takes : Takes lambdas e times) (fewer : times ≤ more) :
    Kinded (fun _ => .data) e (takesData more) := takes.1.widen (takesData_below fewer)

theorem Takes.data {e : Ir.Expression} {times : Nat} (takes : Takes false e times) :
    Kinded (fun _ => .data) e .data := by
  obtain ⟨kinded, zero⟩ := takes
  cases zero rfl
  exact kinded

theorem takes_all {α : Type} {items : List α} {part : α → Ir.Expression}
    (each : ∀ item ∈ items, ∃ times, Takes lambdas (part item) times) :
    ∃ times, (∀ item ∈ items, Kinded (fun _ => .data) (part item) (takesData times)) ∧
      (lambdas = false → times = 0) := by
  induction items with
  | nil => exact ⟨0, nofun, fun _ => rfl⟩
  | cons item rest ih =>
      obtain ⟨times, first⟩ := each item List.mem_cons_self
      obtain ⟨more, others, zero⟩ := ih fun other later => each other (List.mem_cons_of_mem _ later)
      refine ⟨max times more, List.forall_mem_cons.mpr ⟨first.more (Nat.le_max_left ..), fun other later => ?_⟩, ?_⟩
      · exact (others other later).widen (takesData_below (Nat.le_max_right ..))
      · intro without
        rw [first.2 without, zero without, Nat.max_self]

theorem takes_both (first : ∃ times, Takes lambdas e times) (second : ∃ times, Takes lambdas other times) :
    ∃ times, Kinded (fun _ => .data) e (takesData times) ∧ Kinded (fun _ => .data) other (takesData times) ∧
      (lambdas = false → times = 0) := by
  have each : ∀ item ∈ [e, other], ∃ times, Takes lambdas (id item) times :=
    List.forall_mem_cons.mpr ⟨first, List.forall_mem_singleton.mpr second⟩
  obtain ⟨times, both, zero⟩ := takes_all each
  exact ⟨times, both e (by simp), both other (by simp), zero⟩

-- By induction on the expression. A call uses up one of the times that its callee takes data.
theorem takes_of_isFirstOrder (order : e.isFirstOrder lambdas = true) : ∃ times, Takes lambdas e times := by
  induction e using Ir.Expression.induction generalizing lambdas with
  | literal value => exact ⟨0, .literal value, fun _ => rfl⟩
  | identifier name => exact ⟨0, .identifier _ name, fun _ => rfl⟩
  | member target property ih =>
      obtain ⟨times, takes, zero⟩ := ih order
      exact ⟨times, takes.member property, zero⟩
  | binary operator left right ih ih' =>
      obtain ⟨one, two⟩ := Bool.and_eq_true_iff.mp order
      obtain ⟨times, first, second, zero⟩ := takes_both (ih one) (ih' two)
      exact ⟨times, .choose operator first second, zero⟩
  | unary operator operand ih =>
      obtain ⟨times, takes, _⟩ := ih order
      exact ⟨0, .unary operator takes, fun _ => rfl⟩
  | call callee arguments ih ih' =>
      obtain ⟨called, given⟩ := Bool.and_eq_true_iff.mp order
      rw [isFirstOrder_items, List.all_eq_true] at given
      have data : ∀ argument ∈ arguments, Kinded (fun _ => .data) argument .data := fun argument member =>
        (ih' argument member (given argument member)).elim fun _ => Takes.data
      obtain ⟨times, takes, zero⟩ := ih called
      by_cases known : ∃ name builtin, callee = .identifier name ∧ builtin? name = some builtin
      · obtain ⟨name, builtin, rfl, known⟩ := known
        exact ⟨0, .builtin (Option.isSome_of_eq_some known) data, fun _ => rfl⟩
      · have own : ∀ name, callee = .identifier name → builtin? name = none := by
          intro name same
          by_contra some
          obtain ⟨builtin, known'⟩ := Option.ne_none_iff_exists'.mp some
          exact known ⟨name, builtin, same, known'⟩
        have each : ∀ (index : Nat) item, arguments[index]? = some item → Kinded (fun _ => .data) item .data :=
          fun _ item present => data item (List.mem_of_getElem? present)
        cases times with
        | zero => exact ⟨0, .call (takes.widen (.data _)) own each, fun _ => rfl⟩
        | succ times => exact ⟨times, .call takes own each, fun without => absurd (zero without) (Nat.succ_ne_zero _)⟩
  | conditional condition consequent alternate ih first second =>
      obtain ⟨before, three⟩ := Bool.and_eq_true_iff.mp order
      obtain ⟨one, two⟩ := Bool.and_eq_true_iff.mp before
      obtain ⟨_, decided, _⟩ := ih one
      obtain ⟨times, first, second, zero⟩ := takes_both (first two) (second three)
      exact ⟨times, .conditional decided first second, zero⟩
  | array elements ih =>
      rw [isFirstOrder, isFirstOrder_items, List.all_eq_true] at order
      obtain ⟨times, each, zero⟩ := takes_all fun element member => ih element member (order element member)
      exact ⟨times, .array each, zero⟩
  | object properties ih =>
      rw [isFirstOrder, isFirstOrder_pairs, List.all_eq_true] at order
      obtain ⟨times, each, zero⟩ := takes_all fun property member => ih property member (order property member)
      exact ⟨times, .object each, zero⟩
  | lambda params body ih =>
      obtain ⟨rfl, inside⟩ := Bool.and_eq_true_iff.mp order
      obtain ⟨times, takes, _⟩ := ih inside
      refine ⟨times + 1, .lambda ?_, nofun⟩
      rwa [bind_data]

end Kinded

-- All that is bound comes from documents.
def Environment.IsDocumented (env : Environment) : Prop :=
  ∀ scope ∈ env.scopes, ∀ binding ∈ scope, ∃ json, binding.2 = Value.ofJson json

theorem Environment.IsDocumented.fits {env : Environment} (documented : env.IsDocumented) (around : Surroundings) :
    env.Fits around fun _ => .data := by
  intro name
  unfold Environment.resolve
  cases found : env.lookup? name with
  | some value =>
      obtain ⟨scope, member, bound⟩ := List.exists_of_findSome?_eq_some found
      obtain ⟨json, same⟩ := documented scope member _ (Fields.mem_of_get? bound)
      change value = Value.ofJson json at same
      rw [same]
      exact .ofJson json
  | none =>
      dsimp only
      split
      · exact .boolean true
      · exact .boolean false
      · exact .null
      · exact .undefined

-- The lambdas of an expression have kinds, where all names stand for data.
def Ir.Expression.HasKind (e : Expression) : Prop := ∃ kind, Kinded (fun _ => .data) e kind

-- Evaluation ends where the lambdas of an expression have kinds, and they have where no lambda is passed to a call.
theorem kinded_evaluation_ends (e : Ir.Expression) {env : Environment} (documented : env.IsDocumented)
    (around : Surroundings) (usage : Usage) :
    (e.isFirstOrder true = true → e.HasKind) ∧
      (e.HasKind → ∃ outcome, EndsIn around env e usage outcome ∧
        (evaluate around env e usage = outcome ∨ (evaluate around env e usage).1 = .error .tooManyApplications)) := by
  constructor
  · intro order
    obtain ⟨times, takes⟩ := Kinded.takes_of_isFirstOrder order
    exact ⟨_, takes.1⟩
  · rintro ⟨kind, kinded⟩
    obtain ⟨limit, outcome, finished, same⟩ := kinded_settles kinded (documented.fits around) usage
    have ends : EndsIn around env e usage outcome := by
      refine ⟨?_, limit, same⟩
      cases finished with
      | value => exact nofun
      | error told => exact fun cut => told (Except.error.inj cut)
    exact ⟨outcome, ends, ends.evaluate⟩

-- A lambda that takes another one and applies it twice, called with one that doubles a text.
def twiceDoubled : Ir.Expression :=
  .call (.lambda ["f", "x"] (.call (.identifier "f") [.call (.identifier "f") [.identifier "x"]]))
    [.lambda ["text"] (.binary "+" (.identifier "text") (.identifier "text")), .identifier "word"]

theorem twiceDoubled_ends :
    let env := Environment.ofFields [("word", .ofJson (.string "ab"))]
    env.IsDocumented ∧ twiceDoubled.HasKind ∧
      ∀ around usage, ∃ outcome, EndsIn around env twiceDoubled usage outcome := by
  intro env
  have documented : env.IsDocumented := by
    refine List.forall_mem_singleton.mpr (List.forall_mem_singleton.mpr ?_)
    exact ⟨.string "ab", rfl⟩
  let double : Kind := .function (fun _ => .data) .data
  let takes : Nat → Kind := fun index => if index = 0 then double else .data
  let bound : String → Kind := Kind.bind (fun _ => .data) ["f", "x"] takes
  have f : Kinded bound (.identifier "f") double := .identifier bound "f"
  have x : Kinded bound (.identifier "x") .data := .identifier bound "x"
  have text : Kinded (Kind.bind (fun _ => .data) ["text"] fun _ => .data) (.identifier "text") .data :=
    .identifier _ "text"
  have one {kinds : String → Kind} {item : Ir.Expression} (kinded : Kinded kinds item .data) :
      ∀ (index : Nat) other, [item][index]? = some other → Kinded kinds other .data :=
    fun _ _ present => List.mem_singleton.mp (List.mem_of_getElem? present) ▸ kinded
  have own : ∀ name, Ir.Expression.identifier "f" = .identifier name → builtin? name = none := by
    rintro _ ⟨⟩
    rfl
  have twice : Kinded bound (.call (.identifier "f") [.call (.identifier "f") [.identifier "x"]]) .data :=
    .call f own (one (.call f own (one x)))
  have kinded : Kinded (fun _ => .data) twiceDoubled .data := by
    have outer : Kinded (fun _ => .data) (.lambda ["f", "x"] _) (.function takes .data) := .lambda twice
    refine .call outer nofun fun index item present => ?_
    match index, present with
    | 0, rfl => exact .lambda (.choose "+" text text)
    | 1, rfl => exact .identifier _ "word"
  have hasKind : twiceDoubled.HasKind := ⟨.data, kinded⟩
  refine ⟨documented, hasKind, fun around usage => ?_⟩
  obtain ⟨outcome, ends, _⟩ := (kinded_evaluation_ends twiceDoubled documented around usage).2 hasKind
  exact ⟨outcome, ends⟩

namespace Source

-- A list of what a lambda gives for itself, which is what the lambda gives.
def selfApplied : Expression :=
  let twin : Expression := .lambda ["x"] (.array [.call (.identifier "x") [.identifier "x"]])
  .call twin [twin]

theorem selfApplied_read : Expression.ofSource "( x => [ x ( x ) ] ) ( x => [ x ( x ) ] )" = .ok selfApplied := by
  have x : IsWord "x".toList ∧ "x" ∉ keywords := ⟨Symbol.isPlainWord_iff.mp rfl, by decide⟩
  have name : Expression.Regular (fun _ => False) (.identifier "x") := .identifier (.inl x)
  have twin : Expression.Regular (fun _ => False)
      (.lambda ["x"] (.array [.call (.identifier "x") [.identifier "x"]])) := by
    refine .lambda (List.forall_mem_singleton.mpr x) (.array (List.forall_mem_singleton.mpr ?_))
    exact .call name (List.forall_mem_singleton.mpr name)
  have regular : selfApplied.Regular fun _ => False := .call twin (List.forall_mem_singleton.mpr twin)
  have printed : selfApplied.print (fun _ => "") = "( x => [ x ( x ) ] ) ( x => [ x ( x ) ] )" := by decide +kernel
  have shallow : selfApplied.depth < defaultNesting := by decide +kernel
  exact printed ▸ (regular.ofSource fun _ => False.elim).1 shallow

end Source

-- Whatever number of applications may nest, there is one too many.
theorem Evaluation.apply_self_cut (around : Surroundings) (limit identity : Nat) (scopes : List (Fields Value))
    (env : Environment) (usage : Usage) :
    let body : Ir.Expression := .array [.call (.identifier "x") [.identifier "x"]]
    (apply around limit ⟨["x"], body, env⟩ [.lambda identity ["x"] body scopes] usage).1 =
      .error .tooManyApplications := by
  intro body
  induction limit generalizing env with
  | zero => rfl
  | succ limit ih =>
      let twin : Value := .lambda identity ["x"] body scopes
      let scope := Closure.scope ⟨["x"], body, env⟩ [twin]
      have bound : scope.resolve "x" = twin := Environment.resolve_define_self env.inner "x" twin
      have called : expression around (apply around limit) scope (.call (.identifier "x") [.identifier "x"]) =
          apply around limit ⟨["x"], body, ⟨scopes⟩⟩ [twin] := by
        change applyValue (apply around limit) "x" (scope.resolve "x") [scope.resolve "x"] = _
        rw [bound]
        rfl
      have cut := ih ⟨scopes⟩
      rw [← called] at cut
      cases ran : expression around (apply around limit) scope (.call (.identifier "x") [.identifier "x"]) usage with
      | mk result after =>
          rw [ran] at cut
          cases cut
          exact congrArg Prod.fst (Step.bind_of_error (Step.bind_of_error ran))

-- A lambda that is applied to itself is read from a text, and its evaluation never ends.
theorem self_application_never_ends :
    Source.Expression.ofSource "( x => [ x ( x ) ] ) ( x => [ x ( x ) ] )" = .ok Source.selfApplied ∧
      Environment.IsDocumented {} ∧
      ∀ around usage outcome, ¬ EndsIn around {} Source.selfApplied.lower usage outcome := by
  refine ⟨Source.selfApplied_read, nofun, fun around usage outcome => ?_⟩
  rintro ⟨whole, limit, same⟩
  have cut : (evaluateWithin around limit {} Source.selfApplied.lower usage).1 = .error .tooManyApplications :=
    apply_self_cut around limit _ _ _ _
  exact whole (same limit (Nat.le_refl limit) ▸ cut)

end Charter

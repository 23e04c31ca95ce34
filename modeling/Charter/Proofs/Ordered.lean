import Charter.Proofs.Canonical
import Charter.Proofs.Parts

/-!
Constants and expressions up to the order of the keys of objects, and what their documents tell of them: two
have one canonical document exactly if they are the same in that order.
-/

namespace Charter

namespace Ir
open Json

namespace Constant

-- The numbers are finite, and no key stands twice in an object.
def isProper : Constant → Bool
  | .number value => Binary64.isFinite value
  | .array items => elements items
  | .object entries => decide (Fields.Distinct entries) && members entries
  | _ => true
where
  elements : List Constant → Bool
    | [] => true
    | item :: rest => isProper item && elements rest
  members : List (String × Constant) → Bool
    | [] => true
    | (_, value) :: rest => isProper value && members rest

-- The constant with the keys of every object in increasing order.
def ordered : Constant → Constant
  | .array items => .array (elements items)
  | .object entries => .object (Fields.sorted (members entries))
  | other => other
where
  elements : List Constant → List Constant
    | [] => []
    | item :: rest => ordered item :: elements rest
  members : List (String × Constant) → List (String × Constant)
    | [] => []
    | (key, value) :: rest => (key, ordered value) :: members rest

theorem isProper_array (items : List Constant) : isProper (.array items) = items.all isProper :=
  List.eq_all_of (f := isProper.elements) rfl (fun _ _ => rfl) items

theorem isProper_object (entries : List (String × Constant)) :
    isProper (.object entries) = (decide (Fields.Distinct entries) && entries.all (·.2.isProper)) :=
  congrArg (decide (Fields.Distinct entries) && ·) (List.eq_all_of rfl (fun _ _ => rfl) entries)

theorem ordered_array (items : List Constant) : ordered (.array items) = .array (items.map ordered) :=
  congrArg Constant.array (List.eq_map_of rfl (fun _ _ => rfl) items)

theorem ordered_object (entries : Fields Constant) : ordered (.object entries) = .object (arrange ordered entries) :=
  congrArg (fun members => Constant.object (Fields.sorted members)) (List.eq_map_of rfl (fun _ _ => rfl) entries)

theorem json_array (items : List Constant) :
    json (.array items) = .object [("kind", .string "array"), ("value", listJson json items)] := by
  refine congrArg (fun items => Json.object [("kind", .string "array"), ("value", .array items)]) ?_
  exact List.eq_map_of rfl (fun _ _ => rfl) items

theorem json_object (entries : Fields Constant) :
    json (.object entries) = .object [("kind", .string "object"), ("value", constantsJson entries)] := by
  refine congrArg (fun members => Json.object [("kind", .string "object"), ("value", .object members)]) ?_
  exact List.eq_map_of rfl (fun _ _ => rfl) entries

def kind : Constant → String
  | .string _ => "string"
  | .number _ => "number"
  | .boolean _ => "boolean"
  | .null => "null"
  | .array _ => "array"
  | .object _ => "object"

theorem kind_json (constant : Constant) : constant.json.canonical.get? "kind" = some (.string constant.kind) := by
  cases constant <;> rfl

theorem kind_ordered (constant : Constant) : constant.ordered.kind = constant.kind := by
  cases constant <;> rfl

theorem canonical_value_iff {kind : String} {value other : Json} :
    canonical (.object [("kind", .string kind), ("value", value)]) =
      canonical (.object [("kind", .string kind), ("value", other)]) ↔ value.canonical = other.canonical := by
  rw [canonical_fields_iff]
  · simp
  · simp [Fields.Distinct, Fields.keys]
  · rfl

theorem faithful : Faithful isProper json ordered := by
  intro x y proper proper'
  induction x using Constant.induction generalizing y with
  | string value =>
      cases y with
      | string other => simp [Tells, json, ordered, canonical_value_iff]
      | _ => exact tells_of_kind kind_json kind_ordered (by simp [kind])
  | number value =>
      cases y with
      | number other =>
          have finite : Binary64.isFinite value = true := proper
          have finite' : Binary64.isFinite other = true := proper'
          simp [Tells, json, ordered, canonical_value_iff, ofNumber, finite, finite']
      | _ => exact tells_of_kind kind_json kind_ordered (by simp [kind])
  | boolean value =>
      cases y with
      | boolean other => simp [Tells, json, ordered, canonical_value_iff]
      | _ => exact tells_of_kind kind_json kind_ordered (by simp [kind])
  | null =>
      cases y with
      | null => exact ⟨fun _ => rfl, fun _ => rfl⟩
      | _ => exact tells_of_kind kind_json kind_ordered (by simp [kind])
  | array items ih =>
      cases y with
      | array others =>
          rw [isProper_array, List.all_eq_true] at proper proper'
          have each : Tells (listJson json) (List.map ordered) items others :=
            tells_list fun item member other member' =>
              ih item member other (proper item member) (proper' other member')
          rw [Tells, json_array, json_array, canonical_value_iff, ordered_array, ordered_array, Constant.array.injEq]
          exact each
      | _ => exact tells_of_kind kind_json kind_ordered (by simp [kind])
  | object entries ih =>
      cases y with
      | object others =>
          rw [isProper_object, Bool.and_eq_true, decide_eq_true_eq, List.all_eq_true] at proper proper'
          have each : Tells constantsJson (arrange ordered) entries others :=
            tells_fields proper.1 proper'.1 fun entry member other member' =>
              ih entry member other.2 (proper.2 entry member) (proper'.2 other member')
          rw [Tells, json_object, json_object, canonical_value_iff, ordered_object, ordered_object,
            Constant.object.injEq]
          exact each
      | _ => exact tells_of_kind kind_json kind_ordered (by simp [kind])

theorem plain (constant : Constant) : constant.json.Plain := by
  induction constant using Constant.induction with
  | string value => exact .object (by simp [Plain.string])
  | number value =>
      have value : (ofNumber value).Plain := by
        unfold ofNumber
        split
        · next finite => exact .double finite
        · exact .null
      exact .object (by simp [Plain.string, value])
  | boolean value => exact .object (by simp [Plain.string, Plain.boolean])
  | null => exact .object (by simp [Plain.string])
  | array items ih =>
      rw [json_array]
      have elements : (listJson json items).Plain := .array (by simpa using ih)
      exact .object (by simp [Plain.string, elements])
  | object entries ih =>
      rw [json_object]
      have members : (constantsJson entries).Plain := by
        refine .object fun member within => ?_
        obtain ⟨entry, origin, rfl⟩ := List.mem_map.mp within
        exact ih entry origin
      exact .object (by simp [Plain.string, members])

end Constant

namespace Expression

-- All constants are proper.
def isProper : Expression → Bool
  | .literal value => value.isProper
  | .identifier _ => true
  | .member target _ => isProper target
  | .binary _ left right => isProper left && isProper right
  | .unary _ operand => isProper operand
  | .call callee arguments => isProper callee && items arguments
  | .conditional condition consequent alternate => isProper condition && isProper consequent && isProper alternate
  | .array elements => items elements
  | .object properties => pairs properties
  | .lambda _ body => isProper body
where
  items : List Expression → Bool
    | [] => true
    | item :: rest => isProper item && items rest
  pairs : List (String × Expression) → Bool
    | [] => true
    | (_, value) :: rest => isProper value && pairs rest

-- The expression with its constants in order. The properties of an object expression keep theirs: their
-- values are evaluated one after the other.
def ordered : Expression → Expression
  | .literal value => .literal value.ordered
  | .identifier name => .identifier name
  | .member target property => .member (ordered target) property
  | .binary operator left right => .binary operator (ordered left) (ordered right)
  | .unary operator operand => .unary operator (ordered operand)
  | .call callee arguments => .call (ordered callee) (items arguments)
  | .conditional condition consequent alternate =>
    .conditional (ordered condition) (ordered consequent) (ordered alternate)
  | .array elements => .array (items elements)
  | .object properties => .object (pairs properties)
  | .lambda params body => .lambda params (ordered body)
where
  items : List Expression → List Expression
    | [] => []
    | item :: rest => ordered item :: items rest
  pairs : List (String × Expression) → List (String × Expression)
    | [] => []
    | (key, value) :: rest => (key, ordered value) :: pairs rest

theorem isProper_items (items : List Expression) : isProper.items items = items.all isProper :=
  List.eq_all_of rfl (fun _ _ => rfl) items

theorem isProper_pairs (pairs : List (String × Expression)) : isProper.pairs pairs = pairs.all (·.2.isProper) :=
  List.eq_all_of rfl (fun _ _ => rfl) pairs

theorem ordered_items (items : List Expression) : ordered.items items = items.map ordered :=
  List.eq_map_of rfl (fun _ _ => rfl) items

theorem ordered_pairs (pairs : List (String × Expression)) :
    ordered.pairs pairs = pairs.map fun (key, value) => (key, value.ordered) :=
  List.eq_map_of rfl (fun _ _ => rfl) pairs

theorem json_items (items : List Expression) : json.items items = items.map json :=
  List.eq_map_of rfl (fun _ _ => rfl) items

theorem json_pairs (pairs : List (String × Expression)) :
    json.pairs pairs = pairs.map fun (key, value) => .object [("key", .string key), ("value", value.json)] :=
  List.eq_map_of rfl (fun _ _ => rfl) pairs

def kind : Expression → String
  | .literal _ => "literal"
  | .identifier _ => "identifier"
  | .member .. => "member"
  | .binary .. => "binary"
  | .unary .. => "unary"
  | .call .. => "call"
  | .conditional .. => "conditional"
  | .array _ => "array"
  | .object _ => "object"
  | .lambda .. => "lambda"

theorem kind_json (e : Expression) : e.json.canonical.get? "kind" = some (.string e.kind) := by
  cases e <;> rfl

theorem kind_ordered (e : Expression) : e.ordered.kind = e.kind := by cases e <;> rfl

theorem tells_items {items others : List Expression}
    (each : ∀ item ∈ items, ∀ other : Expression, item.isProper = true → other.isProper = true →
      Tells json ordered item other)
    (proper : isProper.items items = true) (proper' : isProper.items others = true) :
    canonical (.array (json.items items)) = canonical (.array (json.items others)) ↔
      ordered.items items = ordered.items others := by
  rw [isProper_items, List.all_eq_true] at proper proper'
  rw [json_items, json_items, ordered_items, ordered_items]
  exact tells_list fun item member other member' => each item member other (proper item member) (proper' other member')

theorem tells_pairs {pairs others : List (String × Expression)}
    (each : ∀ pair ∈ pairs, ∀ other : Expression, pair.2.isProper = true → other.isProper = true →
      Tells json ordered pair.2 other)
    (proper : isProper.pairs pairs = true) (proper' : isProper.pairs others = true) :
    canonical (.array (json.pairs pairs)) = canonical (.array (json.pairs others)) ↔
      ordered.pairs pairs = ordered.pairs others := by
  rw [isProper_pairs, List.all_eq_true] at proper proper'
  rw [json_pairs, json_pairs, ordered_pairs, ordered_pairs]
  refine tells_list fun pair member other member' => ?_
  have value := each pair member other.2 (proper pair member) (proper' other member')
  rw [Tells, canonical_fields_iff]
  · simpa [Tells] using fun _ => value
  · simp [Fields.Distinct, Fields.keys]
  · rfl

theorem faithful : Faithful isProper json ordered := by
  intro x y proper proper'
  induction x using Expression.induction generalizing y with
  | literal value =>
      cases y with
      | literal other =>
          have values := Constant.faithful value other proper proper'
          rw [Tells, json, json, canonical_fields_iff]
          · simpa [ordered, Tells] using values
          · simp [Fields.Distinct, Fields.keys]
          · rfl
      | _ => exact tells_of_kind kind_json kind_ordered (by simp [kind])
  | identifier name =>
      cases y with
      | identifier other =>
          rw [Tells, json, json, canonical_fields_iff]
          · simp [ordered]
          · simp [Fields.Distinct, Fields.keys]
          · rfl
      | _ => exact tells_of_kind kind_json kind_ordered (by simp [kind])
  | member target property ih =>
      cases y with
      | member target' property' =>
          have targets := (ih target' proper proper').iff
          rw [Tells, json, json, canonical_fields_iff]
          · simp [ordered, targets]
          · simp [Fields.Distinct, Fields.keys]
          · rfl
      | _ => exact tells_of_kind kind_json kind_ordered (by simp [kind])
  | binary operator left right ihLeft ihRight =>
      cases y with
      | binary operator' left' right' =>
          obtain ⟨properLeft, properRight⟩ := Bool.and_eq_true_iff.mp proper
          obtain ⟨properLeft', properRight'⟩ := Bool.and_eq_true_iff.mp proper'
          have lefts := (ihLeft left' properLeft properLeft').iff
          have rights := (ihRight right' properRight properRight').iff
          rw [Tells, json, json, canonical_fields_iff]
          · simp [ordered, lefts, rights]
          · simp [Fields.Distinct, Fields.keys]
          · rfl
      | _ => exact tells_of_kind kind_json kind_ordered (by simp [kind])
  | unary operator operand ih =>
      cases y with
      | unary operator' operand' =>
          have operands := (ih operand' proper proper').iff
          rw [Tells, json, json, canonical_fields_iff]
          · simp [ordered, operands]
          · simp [Fields.Distinct, Fields.keys]
          · rfl
      | _ => exact tells_of_kind kind_json kind_ordered (by simp [kind])
  | call callee arguments ih ihArguments =>
      cases y with
      | call callee' arguments' =>
          obtain ⟨properCallee, properArguments⟩ := Bool.and_eq_true_iff.mp proper
          obtain ⟨properCallee', properArguments'⟩ := Bool.and_eq_true_iff.mp proper'
          have callees := (ih callee' properCallee properCallee').iff
          have items := tells_items ihArguments properArguments properArguments'
          rw [Tells, json, json, canonical_fields_iff]
          · simp [ordered, callees, items]
          · simp [Fields.Distinct, Fields.keys]
          · rfl
      | _ => exact tells_of_kind kind_json kind_ordered (by simp [kind])
  | conditional condition consequent alternate ihCondition ihConsequent ihAlternate =>
      cases y with
      | conditional condition' consequent' alternate' =>
          obtain ⟨others, properAlternate⟩ := Bool.and_eq_true_iff.mp proper
          obtain ⟨properCondition, properConsequent⟩ := Bool.and_eq_true_iff.mp others
          obtain ⟨others', properAlternate'⟩ := Bool.and_eq_true_iff.mp proper'
          obtain ⟨properCondition', properConsequent'⟩ := Bool.and_eq_true_iff.mp others'
          have conditions := (ihCondition condition' properCondition properCondition').iff
          have consequents := (ihConsequent consequent' properConsequent properConsequent').iff
          have alternates := (ihAlternate alternate' properAlternate properAlternate').iff
          rw [Tells, json, json, canonical_fields_iff]
          · simp [ordered, conditions, consequents, alternates]
          · simp [Fields.Distinct, Fields.keys]
          · rfl
      | _ => exact tells_of_kind kind_json kind_ordered (by simp [kind])
  | array elements ih =>
      cases y with
      | array elements' =>
          have items := tells_items ih proper proper'
          rw [Tells, json, json, canonical_fields_iff]
          · simp [ordered, items]
          · simp [Fields.Distinct, Fields.keys]
          · rfl
      | _ => exact tells_of_kind kind_json kind_ordered (by simp [kind])
  | object properties ih =>
      cases y with
      | object properties' =>
          have pairs := tells_pairs ih proper proper'
          rw [Tells, json, json, canonical_fields_iff]
          · simp [ordered, pairs]
          · simp [Fields.Distinct, Fields.keys]
          · rfl
      | _ => exact tells_of_kind kind_json kind_ordered (by simp [kind])
  | lambda params body ih =>
      cases y with
      | lambda params' body' =>
          have bodies := (ih body' proper proper').iff
          rw [Tells, json, json, canonical_fields_iff]
          · simp [ordered, names_iff, bodies]
          · simp [Fields.Distinct, Fields.keys]
          · rfl
      | _ => exact tells_of_kind kind_json kind_ordered (by simp [kind])

theorem plain (e : Expression) : e.json.Plain := by
  induction e using Expression.induction with
  | literal value => exact .object (by simp [Plain.string, value.plain])
  | identifier name => exact .object (by simp [Plain.string])
  | member target property ih => exact .object (by simp [Plain.string, ih])
  | binary operator left right ihLeft ihRight => exact .object (by simp [Plain.string, ihLeft, ihRight])
  | unary operator operand ih => exact .object (by simp [Plain.string, ih])
  | call callee arguments ih ihArguments =>
      have items : Plain (.array (json.items arguments)) := .array (by simpa [json_items] using ihArguments)
      exact .object (by simp [Plain.string, ih, items])
  | conditional condition consequent alternate ihCondition ihConsequent ihAlternate =>
      exact .object (by simp [Plain.string, ihCondition, ihConsequent, ihAlternate])
  | array elements ih =>
      have items : Plain (.array (json.items elements)) := .array (by simpa [json_items] using ih)
      exact .object (by simp [Plain.string, items])
  | object properties ih =>
      have pairs : Plain (.array (json.pairs properties)) := by
        refine .array fun document member => ?_
        rw [json_pairs] at member
        obtain ⟨pair, within, rfl⟩ := List.mem_map.mp member
        exact .object (by simp [Plain.string, ih pair within])
      exact .object (by simp [Plain.string, pairs])
  | lambda params body ih => exact .object (by simp [Plain.string, plain_names, ih])

end Expression

end Ir
end Charter

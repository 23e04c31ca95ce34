import Charter.Proofs.Declarations
import Charter.Proofs.ReadBack

/-!
Types, constants and expressions are read back from their documents. Each reader goes down into a document by its
parts; first it is told as a reader of fields.
-/

namespace Charter.Ir
open Json

theorem type?_eq (document : Json) : type? document = (do
    let field := document.field? ["name", "generic", "nullable"]
    let name ← string? (← field "name")
    let nullable ← boolean? (← field "nullable")
    let generic ← optional? type? (field "generic")
    return { name, generic, nullable }) := by
  rw [type?]
  simp only [field?, Option.bind_eq_bind, Option.bind_map]
  cases part? ["name", "generic", "nullable"] document "generic" with
  | none => rfl
  | some generic =>
      obtain ⟨generic, smaller⟩ := generic
      cases generic
      case null => rfl
      all_goals
        simp only [Option.map_some, optional?, Option.bind_map]
        rfl

theorem Constant.ofJson?_eq (nested : Bool) (document : Json) : Constant.ofJson? nested document = (do
    let field := document.field? ["kind", "value"]
    let kind ← word? nested (← field "kind")
    match kind with
    | "null" =>
      match field "value" with
      | some .null => some .null
      | some _ => none
      | none => if document.items?.isSome then none else some .null
    | kind =>
      let value ← field "value"
      match kind with
      | "string" => (string? value).map .string
      | "number" => (number? value).map .number
      | "boolean" => (boolean? value).map .boolean
      | "array" => (list? (ofJson? nested) value).map .array
      | "object" => (map? (ofJson? nested) value).map .object
      | _ => none) := by
  rw [Constant.ofJson?]
  simp only [field?, ← items?_mapM, ← members?_mapM, Option.map_bind, Option.bind_eq_bind, Option.bind_map]
  cases part? ["kind", "value"] document "value" with
  | none => rfl
  | some value =>
      obtain ⟨value, smaller⟩ := value
      cases value <;> rfl

-- A pair of a key and what stands under it.
def pair? {α : Type} (read : Json → Option α) (document : Json) : Option (String × α) := do
  let field := document.field? ["key", "value"]
  let value ← field "value"
  let key ← string? (← field "key")
  return (key, ← read value)

theorem Expression.ofJson?_eq (nested : Bool) (document : Json) : Expression.ofJson? nested document = (do
    let (kind, names) ← form? nested (← (document.tag? "kind").map (·.1))
    let field := document.field? ("kind" :: names)
    match kind with
    | "literal" => return .literal (← Constant.ofJson? true (← field "value"))
    | "identifier" => return .identifier (← string? (← field "name"))
    | "member" =>
      let target ← field "object"
      return .member (← ofJson? true target) (← string? (← field "property"))
    | "binary" =>
      let left ← field "left"
      let right ← field "right"
      return .binary (← string? (← field "operator")) (← ofJson? true left) (← ofJson? true right)
    | "unary" =>
      let operand ← field "operand"
      return .unary (← string? (← field "operator")) (← ofJson? true operand)
    | "call" =>
      let callee ← field "callee"
      let arguments ← field "args"
      let items ← items? arguments
      return .call (← ofJson? true callee) (← items.mapM fun item => ofJson? true item.1)
    | "conditional" =>
      let condition ← field "condition"
      let consequent ← field "consequent"
      let alternate ← field "alternate"
      return .conditional (← ofJson? true condition) (← ofJson? true consequent) (← ofJson? true alternate)
    | "array" => return .array (← list? (ofJson? true) (← field "elements"))
    | "object" => return .object (← list? (pair? (ofJson? true)) (← field "properties"))
    | "lambda" =>
      let body ← field "body"
      return .lambda (← names? (← field "params")) (← ofJson? true body)
    | _ => none) := by
  rw [Expression.ofJson?]
  simp only [field?, pair?, ← items?_mapM, Option.bind_eq_bind, Option.bind_map, Option.bind_assoc]
  rfl

theorem type_ne_null : (type : TypeRef) → (typeJson type).canonical ≠ .null
  | ⟨_, none, _⟩ => nofun
  | ⟨_, some _, _⟩ => nofun

theorem type_reads : ReadsSame type? typeJson
  | ⟨name, generic, nullable⟩, _, document, keyed, same => by
    rw [typeJson_eq] at same
    have shows := shows_record keyed same (by simp) ["name", "generic", "nullable"]
    have inner := ReadsAt.optional (fun type _ => type_reads type rfl) type_ne_null (shows "generic")
    rw [type?_eq]
    refine text_reads.required (shows "name") ?_
    refine flag_reads.required (shows "nullable") ?_
    refine inner.bind fun generic' _ same => ⟨_, rfl, rfl, ?_⟩
    rw [Option.map_id_fun, id, id] at same
    rw [same]

@[simp] theorem keyed_type : (type : TypeRef) → (typeJson type).Keyed
  | ⟨name, none, nullable⟩ => .object (by simp) (by simp)
  | ⟨name, some generic, nullable⟩ => .object (by simp) (by simp [keyed_type generic])

namespace Constant

theorem json_ne_null (constant : Constant) : constant.json.canonical ≠ .null := by
  cases constant <;> nofun

theorem reads (nested : Bool) : ReadsBack isProper (ofJson? nested) json ordered := by
  intro constant proper
  induction constant using Constant.induction with
  | string value =>
      intro document keyed same
      have shows := shows_object keyed same (by simp) ["kind", "value"]
      rw [ofJson?_eq]
      refine (kind_reads nested).required (shows "kind") ?_
      exact text_reads.wrapped (shows "value") rfl rfl
  | number value =>
      intro document keyed same
      have finite : Binary64.isFinite value = true := proper
      have shows := shows_object keyed same (by simp) ["kind", "value"]
      have shown := shows "value"
      simp only [ofNumber, finite] at shown
      rw [ofJson?_eq]
      refine (kind_reads nested).required (shows "kind") ?_
      exact number_reads.wrapped shown proper rfl
  | boolean value =>
      intro document keyed same
      have shows := shows_object keyed same (by simp) ["kind", "value"]
      rw [ofJson?_eq]
      refine (kind_reads nested).required (shows "kind") ?_
      exact flag_reads.wrapped (shows "value") rfl rfl
  | null =>
      intro document keyed same
      have distinct : Fields.Distinct [("kind", Json.string "null")] := by simp
      obtain ⟨fields, rfl, _⟩ := object_of_canonical keyed distinct same
      have shows := shows_object keyed same distinct ["kind", "value"]
      have none : field? ["kind", "value"] (.object fields) "value" = none :=
        Option.map_eq_none_iff.mp (shows "value").1
      rw [ofJson?_eq]
      refine (kind_reads nested).required (shows "kind") ?_
      simp only [none]
      exact ⟨.null, rfl, rfl, rfl⟩
  | array items ih =>
      intro document keyed same
      rw [isProper_array, List.all_eq_true] at proper
      rw [json_array] at same
      have shows := shows_object keyed same (by simp) ["kind", "value"]
      rw [ofJson?_eq]
      refine (kind_reads nested).required (shows "kind") ?_
      have elements := ReadsAt.list fun item member => ih item member (proper item member)
      refine elements.wrapped (shows "value") ?_
      intro items' proper' same
      exact ⟨(isProper_array items').trans proper', by rw [ordered_array, ordered_array, same]⟩
  | object entries ih =>
      intro document keyed same
      rw [isProper_object, Bool.and_eq_true, decide_eq_true_eq, List.all_eq_true] at proper
      rw [json_object] at same
      have shows := shows_object keyed same (by simp) ["kind", "value"]
      rw [ofJson?_eq]
      refine (kind_reads nested).required (shows "kind") ?_
      have members := ReadsAt.map proper.1 fun entry member => ih entry member (proper.2 entry member)
      refine members.wrapped (shows "value") ?_
      intro entries' proper' same
      exact ⟨(isProper_object entries').trans proper', by rw [ordered_object, ordered_object, same]⟩

theorem keyed : WritesKeyed isProper json := by
  intro constant proper
  induction constant using Constant.induction with
  | string value => exact .object (by simp) (by simp)
  | number value =>
      have finite : Binary64.isFinite value = true := proper
      exact .object (by simp) (by simp [ofNumber, finite])
  | boolean value => exact .object (by simp) (by simp)
  | null => exact .object (by simp) (by simp)
  | array items ih =>
      rw [isProper_array, List.all_eq_true] at proper
      have elements : (listJson json items).Keyed :=
        .array (by simpa using fun item member => ih item member (proper item member))
      rw [json_array]
      exact .object (by simp) (by simp [elements])
  | object entries ih =>
      rw [isProper_object, Bool.and_eq_true, decide_eq_true_eq, List.all_eq_true] at proper
      have members : (constantsJson entries).Keyed := by
        refine .object (proper.1.map json) fun member within => ?_
        obtain ⟨entry, origin, rfl⟩ := List.mem_map.mp within
        exact ih entry origin (proper.2 entry origin)
      rw [json_object]
      exact .object (by simp) (by simp [members])

end Constant

namespace Expression

-- The kind and the fields of a document that says its kind.
theorem shows_form {document : Json} {kind : String} {fields : List (String × Json)} (keyed : document.Keyed)
    (same : document.canonical = canonical (.object (("kind", .string kind) :: fields)))
    (distinct : Fields.Distinct (("kind", Json.string kind) :: fields)) (names : List String) :
    (document.tag? "kind").map (·.1) = some (.string kind) ∧
      ∀ key, Shows (document.field? names key) (Fields.get? (("kind", .string kind) :: fields) key) :=
  ⟨(shows_tag keyed same distinct "kind").text, shows_object keyed same distinct names⟩

theorem items_read {items : List Expression}
    (each : ∀ item ∈ items, item.isProper = true → ReadsAt isProper (ofJson? true) json ordered item)
    (proper : isProper.items items = true) :
    ReadsAt isProper.items (list? (ofJson? true)) (fun items => .array (json.items items)) ordered.items items := by
  intro document keyed same
  rw [isProper_items, List.all_eq_true] at proper
  simp only [json_items] at same
  obtain ⟨read, found, proper', seen⟩ :=
    ReadsAt.list (fun item member => each item member (proper item member)) document keyed same
  exact ⟨read, found, (isProper_items read).trans proper', by rw [ordered_items, ordered_items, seen]⟩

theorem pairs_read {pairs : List (String × Expression)}
    (each : ∀ pair ∈ pairs, pair.2.isProper = true → ReadsAt isProper (ofJson? true) json ordered pair.2)
    (proper : isProper.pairs pairs = true) :
    ReadsAt isProper.pairs (list? (pair? (ofJson? true))) (fun pairs => .array (json.pairs pairs)) ordered.pairs
      pairs := by
  intro document keyed same
  rw [isProper_pairs, List.all_eq_true] at proper
  simp only [json_pairs] at same
  have one : ∀ pair ∈ pairs, ReadsAt (fun pair => isProper pair.2) (pair? (ofJson? true))
      (fun pair => .object [("key", .string pair.1), ("value", pair.2.json)])
      (fun pair => (pair.1, ordered pair.2)) pair := by
    intro pair member document keyed same
    have shows := shows_object keyed same (by simp) ["key", "value"]
    have name := (shows "key").text
    obtain ⟨_, found, value', read, proper', seen⟩ :=
      (each pair member (proper _ member)).present (shows "value")
    refine ⟨(pair.1, value'), ?_, proper', congrArg (pair.1, ·) seen⟩
    simp [pair?, name, found, read, string?]
  obtain ⟨read, found, proper', seen⟩ := ReadsAt.list one document keyed same
  exact ⟨read, found, (isProper_pairs read).trans proper', by rw [ordered_pairs, ordered_pairs]; exact seen⟩

theorem reads (nested : Bool) : ReadsBack isProper (ofJson? nested) json ordered := by
  intro e proper
  induction e using Expression.induction generalizing nested with
  | literal value =>
      intro document keyed same
      obtain ⟨tag, shows⟩ := shows_form keyed same (by simp) ["kind", "value"]
      obtain ⟨_, found, value', read, proper', seen⟩ := (Constant.reads true value proper).present (shows "value")
      refine ⟨.literal value', ?_, proper', congrArg Expression.literal seen⟩
      rw [ofJson?_eq, tag]
      simp [form?, forms, found, read]
  | identifier name =>
      intro document keyed same
      obtain ⟨tag, shows⟩ := shows_form keyed same (by simp) ["kind", "name"]
      refine ⟨.identifier name, ?_, rfl, rfl⟩
      rw [ofJson?_eq, tag]
      simp [form?, forms, (shows "name").text, string?]
  | member target property ih =>
      intro document keyed same
      obtain ⟨tag, shows⟩ := shows_form keyed same (by simp) ["kind", "object", "property"]
      obtain ⟨_, found, target', read, proper', seen⟩ := (ih true proper).present (shows "object")
      refine ⟨.member target' property, ?_, proper', congrArg (Expression.member · property) seen⟩
      rw [ofJson?_eq, tag]
      simp [form?, forms, (shows "property").text, string?, found, read]
  | binary operator left right ihLeft ihRight =>
      intro document keyed same
      obtain ⟨properLeft, properRight⟩ := Bool.and_eq_true_iff.mp proper
      obtain ⟨tag, shows⟩ := shows_form keyed same (by simp) ["kind", "operator", "left", "right"]
      obtain ⟨_, foundLeft, left', readLeft, properLeft', seenLeft⟩ := (ihLeft true properLeft).present (shows "left")
      obtain ⟨_, foundRight, right', readRight, properRight', seenRight⟩ :=
        (ihRight true properRight).present (shows "right")
      refine ⟨.binary operator left' right', ?_, Bool.and_eq_true_iff.mpr ⟨properLeft', properRight'⟩, ?_⟩
      · rw [ofJson?_eq, tag]
        simp [form?, forms, (shows "operator").text, string?, foundLeft, readLeft, foundRight, readRight]
      · rw [ordered, ordered, seenLeft, seenRight]
  | unary operator operand ih =>
      intro document keyed same
      obtain ⟨tag, shows⟩ := shows_form keyed same (by simp) ["kind", "operator", "operand"]
      obtain ⟨_, found, operand', read, proper', seen⟩ := (ih true proper).present (shows "operand")
      refine ⟨.unary operator operand', ?_, proper', congrArg (Expression.unary operator) seen⟩
      rw [ofJson?_eq, tag]
      simp [form?, forms, (shows "operator").text, string?, found, read]
  | call callee arguments ih ihArguments =>
      intro document keyed same
      obtain ⟨properCallee, properArguments⟩ := Bool.and_eq_true_iff.mp proper
      obtain ⟨tag, shows⟩ := shows_form keyed same (by simp) ["kind", "callee", "args"]
      obtain ⟨_, found, callee', read, proper', seen⟩ := (ih true properCallee).present (shows "callee")
      have items := items_read (fun argument member => ihArguments argument member true) properArguments
      obtain ⟨listed, foundItems, arguments', readItems, properItems, seenItems⟩ := items.present (shows "args")
      rw [← items?_mapM] at readItems
      obtain ⟨parts, isList, readParts⟩ := Option.bind_eq_some_iff.mp readItems
      simp only [List.mapM_subtype] at readParts
      refine ⟨.call callee' arguments', ?_, Bool.and_eq_true_iff.mpr ⟨proper', properItems⟩, ?_⟩
      · rw [ofJson?_eq, tag]
        simp [form?, forms, found, read, foundItems, isList, readParts]
      · rw [ordered, ordered, seen, seenItems]
  | conditional condition consequent alternate ihCondition ihConsequent ihAlternate =>
      intro document keyed same
      obtain ⟨others, properAlternate⟩ := Bool.and_eq_true_iff.mp proper
      obtain ⟨properCondition, properConsequent⟩ := Bool.and_eq_true_iff.mp others
      obtain ⟨tag, shows⟩ := shows_form keyed same (by simp) ["kind", "condition", "consequent", "alternate"]
      obtain ⟨_, found, condition', read, proper₁, seen⟩ :=
        (ihCondition true properCondition).present (shows "condition")
      obtain ⟨_, found', consequent', read', proper₂, seen'⟩ :=
        (ihConsequent true properConsequent).present (shows "consequent")
      obtain ⟨_, found'', alternate', read'', proper₃, seen''⟩ :=
        (ihAlternate true properAlternate).present (shows "alternate")
      refine ⟨.conditional condition' consequent' alternate', ?_, by simp [isProper, proper₁, proper₂, proper₃], ?_⟩
      · rw [ofJson?_eq, tag]
        simp [form?, forms, found, read, found', read', found'', read'']
      · rw [ordered, ordered, seen, seen', seen'']
  | array elements ih =>
      intro document keyed same
      obtain ⟨tag, shows⟩ := shows_form keyed same (by simp) ["kind", "elements"]
      have items := items_read (fun element member => ih element member true) proper
      obtain ⟨_, found, elements', read, proper', seen⟩ := items.present (shows "elements")
      refine ⟨.array elements', ?_, proper', congrArg Expression.array seen⟩
      rw [ofJson?_eq, tag]
      simp [form?, forms, found, read]
  | object properties ih =>
      intro document keyed same
      obtain ⟨tag, shows⟩ := shows_form keyed same (by simp) ["kind", "properties"]
      have pairs := pairs_read (fun property member => ih property member true) proper
      obtain ⟨_, found, properties', read, proper', seen⟩ := pairs.present (shows "properties")
      refine ⟨.object properties', ?_, proper', congrArg Expression.object seen⟩
      rw [ofJson?_eq, tag]
      simp [form?, forms, found, read]
  | lambda params body ih =>
      intro document keyed same
      obtain ⟨tag, shows⟩ := shows_form keyed same (by simp) ["kind", "params", "body"]
      obtain ⟨_, found, body', read, proper', seen⟩ := (ih true proper).present (shows "body")
      obtain ⟨_, foundNames, names, readNames, _, same⟩ := (names_read params rfl).present (shows "params")
      cases (same : names = params)
      refine ⟨.lambda params body', ?_, proper', congrArg (Expression.lambda params) seen⟩
      rw [ofJson?_eq, tag]
      simp [form?, forms, foundNames, readNames, found, read]

theorem keyed : WritesKeyed isProper json := by
  intro e proper
  induction e using Expression.induction with
  | literal value =>
      exact .object (by simp) (by simp [Constant.keyed value proper])
  | identifier name => exact .object (by simp) (by simp)
  | member target property ih =>
      exact .object (by simp) (by simp [ih proper])
  | binary operator left right ihLeft ihRight =>
      obtain ⟨properLeft, properRight⟩ := Bool.and_eq_true_iff.mp proper
      exact .object (by simp) (by simp [ihLeft properLeft, ihRight properRight])
  | unary operator operand ih =>
      exact .object (by simp) (by simp [ih proper])
  | call callee arguments ih ihArguments =>
      obtain ⟨properCallee, properArguments⟩ := Bool.and_eq_true_iff.mp proper
      rw [isProper_items, List.all_eq_true] at properArguments
      have items : Keyed (.array (json.items arguments)) := by
        rw [json_items]
        exact .array (by
          simpa using fun argument member => ihArguments argument member (properArguments argument member))
      exact .object (by simp) (by simp [ih properCallee, items])
  | conditional condition consequent alternate ihCondition ihConsequent ihAlternate =>
      obtain ⟨others, properAlternate⟩ := Bool.and_eq_true_iff.mp proper
      obtain ⟨properCondition, properConsequent⟩ := Bool.and_eq_true_iff.mp others
      exact .object (by simp)
        (by
          simp [ihCondition properCondition, ihConsequent properConsequent, ihAlternate properAlternate])
  | array elements ih =>
      rw [isProper, isProper_items, List.all_eq_true] at proper
      have items : Keyed (.array (json.items elements)) := by
        rw [json_items]
        exact .array (by simpa using fun element member => ih element member (proper element member))
      exact .object (by simp) (by simp [items])
  | object properties ih =>
      rw [isProper, isProper_pairs, List.all_eq_true] at proper
      have pairs : Keyed (.array (json.pairs properties)) := by
        refine .array fun document member => ?_
        rw [json_pairs] at member
        obtain ⟨pair, within, rfl⟩ := List.mem_map.mp member
        exact .object (by simp) (by simp [ih pair within (proper pair within)])
      exact .object (by simp) (by simp [pairs])
  | lambda params body ih =>
      exact .object (by simp) (by simp [ih proper])

end Expression
end Charter.Ir

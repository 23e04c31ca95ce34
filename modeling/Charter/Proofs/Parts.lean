import Charter.Proofs.Itemwise
import Charter.Value

/-!
Induction over documents, constants, expressions and values, whose parts stand in lists: what holds of one as soon as
it holds of all its parts, holds of all.
-/

namespace Charter

theorem Json.induction {P : Json → Prop} (null : P .null) (boolean : ∀ value, P (.boolean value))
    (integer : ∀ value, P (.integer value)) (double : ∀ value, P (.double value)) (string : ∀ value, P (.string value))
    (array : ∀ items, (∀ item ∈ items, P item) → P (.array items))
    (object : ∀ fields, (∀ field ∈ fields, P field.2) → P (.object fields)) (document : Json) : P document := by
  refine @Json.rec P (fun items => ∀ item ∈ items, P item) (fun fields => ∀ field ∈ fields, P field.2)
    (fun field => P field.2) null boolean integer double string array object ?_ ?_ ?_ ?_ ?_ document
  · nofun
  · exact fun _ _ first others => List.forall_mem_cons.mpr ⟨first, others⟩
  · nofun
  · exact fun _ _ first others => List.forall_mem_cons.mpr ⟨first, others⟩
  · exact fun _ _ held => held

namespace Ir

theorem Constant.induction {P : Constant → Prop} (string : ∀ value, P (.string value))
    (number : ∀ value, P (.number value)) (boolean : ∀ value, P (.boolean value)) (null : P .null)
    (array : ∀ items, (∀ item ∈ items, P item) → P (.array items))
    (object : ∀ entries, (∀ entry ∈ entries, P entry.2) → P (.object entries)) (constant : Constant) : P constant := by
  refine @Constant.rec P (fun items => ∀ item ∈ items, P item) (fun entries => ∀ entry ∈ entries, P entry.2)
    (fun entry => P entry.2) string number boolean null array object ?_ ?_ ?_ ?_ ?_ constant
  · nofun
  · exact fun _ _ first others => List.forall_mem_cons.mpr ⟨first, others⟩
  · nofun
  · exact fun _ _ first others => List.forall_mem_cons.mpr ⟨first, others⟩
  · exact fun _ _ held => held

theorem Expression.induction {P : Expression → Prop} (literal : ∀ value, P (.literal value))
    (identifier : ∀ name, P (.identifier name)) (member : ∀ target property, P target → P (.member target property))
    (binary : ∀ operator left right, P left → P right → P (.binary operator left right))
    (unary : ∀ operator operand, P operand → P (.unary operator operand))
    (call : ∀ callee arguments, P callee → (∀ argument ∈ arguments, P argument) → P (.call callee arguments))
    (conditional : ∀ condition consequent alternate, P condition → P consequent → P alternate →
      P (.conditional condition consequent alternate))
    (array : ∀ elements, (∀ element ∈ elements, P element) → P (.array elements))
    (object : ∀ properties, (∀ property ∈ properties, P property.2) → P (.object properties))
    (lambda : ∀ params body, P body → P (.lambda params body)) (e : Expression) : P e := by
  refine @Expression.rec P (fun items => ∀ item ∈ items, P item) (fun pairs => ∀ pair ∈ pairs, P pair.2)
    (fun pair => P pair.2) literal identifier member binary unary call conditional array object lambda
    ?_ ?_ ?_ ?_ ?_ e
  · nofun
  · exact fun _ _ first others => List.forall_mem_cons.mpr ⟨first, others⟩
  · nofun
  · exact fun _ _ first others => List.forall_mem_cons.mpr ⟨first, others⟩
  · exact fun _ _ held => held

end Ir

namespace Value

-- The values in the scopes of a lambda belong to it.
theorem induction {P : Value → Prop} (undefined : P .undefined) (null : P .null)
    (boolean : ∀ value, P (.boolean value)) (number : ∀ value, P (.number value)) (string : ∀ value, P (.string value))
    (array : ∀ items, (∀ item ∈ items, P item) → P (.array items))
    (object : ∀ entries, (∀ entry ∈ entries, P entry.2) → P (.object entries))
    (lambda : ∀ identity params body scopes, (∀ scope ∈ scopes, ∀ entry ∈ scope, P entry.2) →
      P (.lambda identity params body scopes)) (value : Value) : P value := by
  refine @Value.rec P (fun items => ∀ item ∈ items, P item) (fun entries => ∀ entry ∈ entries, P entry.2)
    (fun scopes => ∀ scope ∈ scopes, ∀ entry ∈ scope, P entry.2) (fun entry => P entry.2)
    undefined null boolean number string array object lambda ?_ ?_ ?_ ?_ ?_ ?_ ?_ value
  · nofun
  · exact fun _ _ first others => List.forall_mem_cons.mpr ⟨first, others⟩
  · nofun
  · exact fun _ _ first others => List.forall_mem_cons.mpr ⟨first, others⟩
  · nofun
  · exact fun _ _ first others => List.forall_mem_cons.mpr ⟨first, others⟩
  · exact fun _ _ held => held

/-! The values of arrays and objects are those of their parts. -/

theorem ofConstant_array (items : List Ir.Constant) : ofConstant (.array items) = .array (items.map ofConstant) :=
  congrArg array (List.eq_map_of rfl (fun _ _ => rfl) items)

theorem ofConstant_object (entries : Fields Ir.Constant) :
    ofConstant (.object entries) = .object (entries.map fun (key, value) => (key, ofConstant value)) :=
  congrArg object (List.eq_map_of rfl (fun _ _ => rfl) entries)

theorem ofJson_array (items : List Json) : ofJson (.array items) = .array (items.map ofJson) :=
  congrArg array (List.eq_map_of rfl (fun _ _ => rfl) items)

theorem ofJson_object (fields : Fields Json) :
    ofJson (.object fields) = .object (fields.map fun (key, value) => (key, ofJson value)) :=
  congrArg object (List.eq_map_of rfl (fun _ _ => rfl) fields)

end Value
end Charter

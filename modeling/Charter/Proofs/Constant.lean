import Charter.Compile.Lowering
import Charter.Proofs.Itemwise

/-!
What lowering makes of several expressions, and which expressions are constants, by their form.
-/

namespace Charter.Source.Expression
open Ir (Constant)

theorem lower_items (items : List Expression) : lower.items items = items.map lower :=
  List.eq_map_of rfl (fun _ _ => rfl) items

theorem lower_pairs (pairs : List (String × Expression)) :
    lower.pairs pairs = pairs.map fun pair => (pair.1, pair.2.lower) := List.eq_map_of rfl (fun _ _ => rfl) pairs

theorem constant?_items_cons {element : Expression} {rest : List Expression} {items : List Constant} :
    constant?.items (element :: rest) = some items ↔ ∃ first, element.constant? = some first ∧
      ∃ others, constant?.items rest = some others ∧ first :: others = items := by
  simp [constant?.items, Option.bind_eq_some_iff]

theorem constant?_pairs_cons {entry : String × Expression} {rest : List (String × Expression)}
    {members : List (String × Constant)} :
    constant?.pairs (entry :: rest) = some members ↔ ∃ first, entry.2.constant? = some first ∧
      ∃ others, constant?.pairs rest = some others ∧ (entry.1, first) :: others = members := by
  simp [constant?.pairs, Option.bind_eq_some_iff]

-- Each constant comes from an expression.
theorem mem_constant?_items {elements : List Expression} {items : List Constant}
    (found : constant?.items elements = some items) :
    ∀ item ∈ items, ∃ element ∈ elements, element.constant? = some item := by
  induction elements generalizing items with
  | nil => cases found; exact List.forall_mem_nil _
  | cons element rest ih =>
      obtain ⟨first, isFirst, others, areOthers, rfl⟩ := constant?_items_cons.mp found
      refine List.forall_mem_cons.mpr ⟨⟨element, List.mem_cons_self, isFirst⟩, fun item later => ?_⟩
      obtain ⟨origin, member, same⟩ := ih areOthers item later
      exact ⟨origin, List.mem_cons_of_mem _ member, same⟩

theorem mem_constant?_pairs {entries : List (String × Expression)} {members : List (String × Constant)}
    (found : constant?.pairs entries = some members) :
    ∀ member ∈ members, ∃ entry ∈ entries, entry.2.constant? = some member.2 := by
  induction entries generalizing members with
  | nil => cases found; exact List.forall_mem_nil _
  | cons entry rest ih =>
      obtain ⟨first, isFirst, others, areOthers, rfl⟩ := constant?_pairs_cons.mp found
      refine List.forall_mem_cons.mpr ⟨⟨entry, List.mem_cons_self, isFirst⟩, fun member later => ?_⟩
      obtain ⟨origin, within, same⟩ := ih areOthers member later
      exact ⟨origin, List.mem_cons_of_mem _ within, same⟩

inductive IsNumber : Expression → Prop
  | literal (value : Float) : IsNumber (.literal (.number value))
  | negate {operand : Expression} (number : IsNumber operand) : IsNumber (.unary .negate operand)

inductive IsConstant : Expression → Prop
  | literal (value : Literal) : IsConstant (.literal value)
  | negate {operand : Expression} (number : IsNumber operand) : IsConstant (.unary .negate operand)
  | array {elements : List Expression} (each : ∀ element ∈ elements, IsConstant element) :
      IsConstant (.array elements)
  | object {entries : List (String × Expression)} (each : ∀ entry ∈ entries, IsConstant entry.2) :
      IsConstant (.object entries)

variable {e operand : Expression}

theorem constant?_negate : (unary .negate operand).constant?.isSome ↔
    ∃ value, operand.constant? = some (.number value) := by
  rw [constant?]
  split
  · rename_i value found
    exact ⟨fun _ => ⟨value, found⟩, fun _ => rfl⟩
  · rename_i other
    exact ⟨nofun, fun ⟨value, found⟩ => absurd found (other value)⟩

theorem IsNumber.constant? (number : e.IsNumber) : ∃ value, e.constant? = some (.number value) := by
  induction number with
  | literal value => exact ⟨value, rfl⟩
  | negate _ ih =>
      obtain ⟨value, found⟩ := ih
      exact ⟨-value, by rw [Expression.constant?, found]⟩

theorem isNumber_of_constant? : (e : Expression) → (value : Float) → e.constant? = some (.number value) →
    e.IsNumber
  | .literal (.number value), _, _ => .literal value
  | .unary .negate operand, _, found => by
      obtain ⟨inner, number⟩ := constant?_negate.mp (Option.isSome_of_eq_some found)
      exact .negate (isNumber_of_constant? operand inner number)
  | .array elements, _, found => by
      obtain ⟨_, _, impossible⟩ := Option.map_eq_some_iff.mp found
      cases impossible
  | .object entries, _, found => by
      obtain ⟨_, _, impossible⟩ := Option.map_eq_some_iff.mp found
      cases impossible

theorem constant?_items (items : List Expression) :
    (constant?.items items).isSome ↔ ∀ item ∈ items, item.constant?.isSome := by
  induction items with
  | nil => exact ⟨fun _ _ => nofun, fun _ => rfl⟩
  | cons item rest ih =>
      rw [List.forall_mem_cons, ← ih, constant?.items]
      cases item.constant? <;> cases constant?.items rest <;> simp

theorem constant?_pairs (pairs : List (String × Expression)) :
    (constant?.pairs pairs).isSome ↔ ∀ pair ∈ pairs, pair.2.constant?.isSome := by
  induction pairs with
  | nil => exact ⟨fun _ _ => nofun, fun _ => rfl⟩
  | cons pair rest ih =>
      rw [List.forall_mem_cons, ← ih, constant?.pairs]
      cases pair.2.constant? <;> cases constant?.pairs rest <;> simp

theorem IsConstant.constant? (constant : e.IsConstant) : e.constant?.isSome := by
  induction constant with
  | literal value => rfl
  | negate number => exact constant?_negate.mpr number.constant?
  | array _ ih => rw [Expression.constant?, Option.isSome_map]; exact (constant?_items _).mpr ih
  | object _ ih => rw [Expression.constant?, Option.isSome_map]; exact (constant?_pairs _).mpr ih

mutual

theorem isConstant_of_constant? : (e : Expression) → e.constant?.isSome → e.IsConstant
  | .literal value, _ => .literal value
  | .unary .negate operand, found => by
      obtain ⟨value, number⟩ := constant?_negate.mp found
      exact .negate (isNumber_of_constant? operand value number)
  | .array elements, found => by
      rw [Expression.constant?, Option.isSome_map, constant?_items] at found
      exact .array (isConstant_elements elements found)
  | .object entries, found => by
      rw [Expression.constant?, Option.isSome_map, constant?_pairs] at found
      exact .object (isConstant_entries entries found)

theorem isConstant_elements : (elements : List Expression) →
    (∀ element ∈ elements, element.constant?.isSome) → ∀ element ∈ elements, element.IsConstant
  | [], _ => fun _ => nofun
  | first :: rest, found => fun element member => by
      rcases List.mem_cons.mp member with same | later
      · exact same ▸ isConstant_of_constant? first (found first List.mem_cons_self)
      · exact isConstant_elements rest (fun other within => found other (List.mem_cons_of_mem _ within)) element later

theorem isConstant_entries : (entries : List (String × Expression)) →
    (∀ entry ∈ entries, entry.2.constant?.isSome) → ∀ entry ∈ entries, entry.2.IsConstant
  | [], _ => fun _ => nofun
  | (key, value) :: rest, found => fun entry member => by
      rcases List.mem_cons.mp member with rfl | later
      · exact isConstant_of_constant? value (found (key, value) List.mem_cons_self)
      · exact isConstant_entries rest (fun other within => found other (List.mem_cons_of_mem _ within)) entry later

end

theorem constant?_isSome_iff : e.constant?.isSome ↔ e.IsConstant :=
  ⟨isConstant_of_constant? e, IsConstant.constant?⟩

end Charter.Source.Expression

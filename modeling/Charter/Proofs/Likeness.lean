import Charter.Evaluation
import Charter.Proofs.Fields
import Charter.Proofs.Parts
import Mathlib.Data.List.Forall2
import Mathlib.Data.Option.Basic

/-!
What an expression may read, and values that no such expression can tell apart. Two runs make their
lambdas anew, so lambdas are compared by how far they are from the first one of their run, unless both runs found
them, and by what their bodies may read of the scopes that they were made in.
-/

namespace Charter
open Evaluation

-- The value at the end of a path of keys.
def Value.follow (value : Value) (keys : List String) : Value := keys.foldl Value.member value

-- The name and the keys of a chain of members.
def Ir.Expression.path? : Ir.Expression → Option (String × List String)
  | .identifier name => some (name, [])
  | .member target key => (path? target).map fun (root, keys) => (root, keys ++ [key])
  | _ => none

-- The paths that may be read, each below a name.
abbrev View := String → List String → Prop

-- A name that is bound may be read whole.
def View.bind (view : View) (names : List String) : View := fun root keys => root ∈ names ∨ view root keys

-- What two runs share: the surroundings, if they may be asked, and what was taken from them. `here` and
-- `there` are the numbers of the first lambdas.
structure Pairing where
  surrounded : Prop
  here : Nat
  there : Nat

-- Two runs have a lambda in common: each has found it, or has made it as its lambda of the same number.
def Pairing.Meets (pairing : Pairing) (identity other : Nat) : Prop :=
  identity = other ∧ identity < pairing.here ∧ other < pairing.there ∨
    pairing.here ≤ identity ∧ pairing.there ≤ other ∧ identity + pairing.there = other + pairing.here

variable {pairing : Pairing} {v w v' w' : Value}

-- An expression reads no more than a view shows. Where the surroundings are not shared, it does not ask
-- them either.
inductive Within (surrounded : Prop) : View → Ir.Expression → Prop
  | literal {view : View} (value : Ir.Constant) : Within surrounded view (.literal value)
  | path {view : View} {e : Ir.Expression} {root : String} {keys : List String}
      (spelled : e.path? = some (root, keys)) (shown : view root keys) : Within surrounded view e
  | member {view : View} {target : Ir.Expression} (key : String)
      (read : Within surrounded view target) : Within surrounded view (.member target key)
  | binary {view : View} {left right : Ir.Expression} (operator : String)
      (first : Within surrounded view left) (second : Within surrounded view right) :
      Within surrounded view (.binary operator left right)
  | unary {view : View} {operand : Ir.Expression} (operator : String)
      (read : Within surrounded view operand) : Within surrounded view (.unary operator operand)
  | named {view : View} {name : String} {arguments : List Ir.Expression}
      (asked : ∀ builtin, builtin? name = some builtin → builtin = .element ∨ surrounded)
      (shown : builtin? name = none → view name [])
      (read : ∀ argument ∈ arguments, Within surrounded view argument) :
      Within surrounded view (.call (.identifier name) arguments)
  | call {view : View} {callee : Ir.Expression} {arguments : List Ir.Expression}
      (unnamed : ∀ name, callee ≠ .identifier name) (called : Within surrounded view callee)
      (read : ∀ argument ∈ arguments, Within surrounded view argument) :
      Within surrounded view (.call callee arguments)
  | conditional {view : View} {condition consequent alternate : Ir.Expression}
      (decided : Within surrounded view condition) (first : Within surrounded view consequent)
      (second : Within surrounded view alternate) :
      Within surrounded view (.conditional condition consequent alternate)
  | array {view : View} {elements : List Ir.Expression}
      (read : ∀ element ∈ elements, Within surrounded view element) :
      Within surrounded view (.array elements)
  | object {view : View} {properties : List (String × Ir.Expression)}
      (read : ∀ property ∈ properties, Within surrounded view property.2) :
      Within surrounded view (.object properties)
  | lambda {view : View} {params : List String} {body : Ir.Expression}
      (read : Within surrounded (view.bind params) body) : Within surrounded view (.lambda params body)

-- The same, where some names may also be called that are not shown. Nothing is asked of what these stand for but that
-- it is no function, and so they are refused, unless a lambda around the call binds them.
inductive Confined (surrounded : Prop) : View → (String → Prop) → Ir.Expression → Prop
  | literal {view : View} {refused : String → Prop} (value : Ir.Constant) :
      Confined surrounded view refused (.literal value)
  | path {view : View} {refused : String → Prop} {e : Ir.Expression} {root : String} {keys : List String}
      (spelled : e.path? = some (root, keys)) (shown : view root keys) : Confined surrounded view refused e
  | member {view : View} {refused : String → Prop} {target : Ir.Expression} (key : String)
      (read : Confined surrounded view refused target) : Confined surrounded view refused (.member target key)
  | binary {view : View} {refused : String → Prop} {left right : Ir.Expression} (operator : String)
      (first : Confined surrounded view refused left) (second : Confined surrounded view refused right) :
      Confined surrounded view refused (.binary operator left right)
  | unary {view : View} {refused : String → Prop} {operand : Ir.Expression} (operator : String)
      (read : Confined surrounded view refused operand) : Confined surrounded view refused (.unary operator operand)
  | named {view : View} {refused : String → Prop} {name : String} {arguments : List Ir.Expression}
      (asked : ∀ builtin, builtin? name = some builtin → builtin = .element ∨ surrounded)
      (shown : builtin? name = none → view name [] ∨ refused name)
      (read : ∀ argument ∈ arguments, Confined surrounded view refused argument) :
      Confined surrounded view refused (.call (.identifier name) arguments)
  | call {view : View} {refused : String → Prop} {callee : Ir.Expression} {arguments : List Ir.Expression}
      (unnamed : ∀ name, callee ≠ .identifier name) (called : Confined surrounded view refused callee)
      (read : ∀ argument ∈ arguments, Confined surrounded view refused argument) :
      Confined surrounded view refused (.call callee arguments)
  | conditional {view : View} {refused : String → Prop} {condition consequent alternate : Ir.Expression}
      (decided : Confined surrounded view refused condition) (first : Confined surrounded view refused consequent)
      (second : Confined surrounded view refused alternate) :
      Confined surrounded view refused (.conditional condition consequent alternate)
  | array {view : View} {refused : String → Prop} {elements : List Ir.Expression}
      (read : ∀ element ∈ elements, Confined surrounded view refused element) :
      Confined surrounded view refused (.array elements)
  | object {view : View} {refused : String → Prop} {properties : List (String × Ir.Expression)}
      (read : ∀ property ∈ properties, Confined surrounded view refused property.2) :
      Confined surrounded view refused (.object properties)
  | lambda {view : View} {refused : String → Prop} {params : List String} {body : Ir.Expression}
      (read : Confined surrounded (view.bind params) (fun name => refused name ∧ name ∉ params) body) :
      Confined surrounded view refused (.lambda params body)

-- What reads no more than a view shows calls no other names.
theorem Within.confined {surrounded : Prop} {view : View} {e : Ir.Expression} (within : Within surrounded view e)
    (refused : String → Prop) : Confined surrounded view refused e := by
  induction within generalizing refused with
  | literal value => exact .literal value
  | path spelled shown => exact .path spelled shown
  | member key _ ih => exact .member key (ih refused)
  | binary operator _ _ first second => exact .binary operator (first refused) (second refused)
  | unary operator _ ih => exact .unary operator (ih refused)
  | named asked shown _ ih =>
      exact .named asked (fun unknown => .inl (shown unknown)) fun argument member => ih argument member refused
  | call unnamed _ _ called ih => exact .call unnamed (called refused) fun argument member => ih argument member refused
  | conditional _ _ _ decided first second => exact .conditional (decided refused) (first refused) (second refused)
  | array _ ih => exact .array fun element member => ih element member refused
  | object _ ih => exact .object fun property member => ih property member refused
  | lambda _ ih => exact .lambda (ih _)

-- Whether a value can be applied.
def Value.isFunction : Value → Bool
  | .lambda .. => true
  | _ => false

-- The scopes of two lambdas need to be alike only where their body may read them, and need hold no function under a
-- name that it may only call.
inductive Alike (pairing : Pairing) : Value → Value → Prop
  | undefined : Alike pairing .undefined .undefined
  | null : Alike pairing .null .null
  | boolean (value : Bool) : Alike pairing (.boolean value) (.boolean value)
  | number (value : Float) : Alike pairing (.number value) (.number value)
  | string (value : String) : Alike pairing (.string value) (.string value)
  | array {items others : List Value} (length : items.length = others.length)
      (each : ∀ pair ∈ items.zip others, Alike pairing pair.1 pair.2) :
      Alike pairing (.array items) (.array others)
  | object {entries others : Fields Value} (keys : entries.map (·.1) = others.map (·.1))
      (each : ∀ pair ∈ entries.zip others, Alike pairing pair.1.2 pair.2.2) :
      Alike pairing (.object entries) (.object others)
  | lambda {identity other : Nat} {params : List String} {body : Ir.Expression}
      {scopes elsewhere : List (Fields Value)} {view : View} {refused : String → Prop}
      (met : pairing.Meets identity other)
      (read : Confined pairing.surrounded (view.bind params) (fun name => refused name ∧ name ∉ params) body)
      (shown : ∀ root keys, view root keys →
        Alike pairing ((Environment.resolve ⟨scopes⟩ root).follow keys)
          ((Environment.resolve ⟨elsewhere⟩ root).follow keys))
      (idle : ∀ name, refused name → (Environment.resolve ⟨scopes⟩ name).isFunction = false ∧
        (Environment.resolve ⟨elsewhere⟩ name).isFunction = false) :
      Alike pairing (.lambda identity params body scopes) (.lambda other params body elsewhere)

/-! Lists and fields of alike values. -/

section Lists
variable {α β γ : Type} {R : α → β → Prop} {items : List α} {others : List β}

-- The same keys in the same order, with related values.
def Fields.Matched (R : α → β → Prop) (entries : Fields α) (others : Fields β) : Prop :=
  List.Forall₂ (fun entry other => entry.1 = other.1 ∧ R entry.2 other.2) entries others

theorem List.map_eq_of_forall₂ {f : α → γ} {g : β → γ} (each : List.Forall₂ R items others)
    (same : ∀ item other, R item other → f item = g other) : items.map f = others.map g := by
  induction each with
  | nil => rfl
  | cons first _ ih => rw [List.map_cons, List.map_cons, same _ _ first, ih]

theorem List.rel_getElem? (each : List.Forall₂ R items others) (index : Nat) :
    Option.Rel R items[index]? others[index]? := by
  induction each generalizing index with
  | nil => exact .none
  | cons first _ ih =>
      cases index with
      | zero => exact .some first
      | succ index => simpa using ih index

theorem Fields.Matched.rel_get? {entries : Fields α} {others : Fields β}
    (matched : Fields.Matched R entries others) (key : String) :
    Option.Rel R (entries.get? key) (others.get? key) := by
  unfold Fields.Matched at matched
  induction matched with
  | nil => exact .none
  | @cons entry other rest behind first _ ih =>
      obtain ⟨name, value⟩ := entry
      obtain ⟨name', value'⟩ := other
      obtain ⟨rfl, related⟩ := first
      by_cases same : name = key
      · simpa [Fields.get?, same] using Option.Rel.some related
      · simpa [Fields.get?, same] using ih

theorem Fields.Matched.put {entries : Fields α} {others : Fields β} {value : α} {other : β}
    (matched : Fields.Matched R entries others) (key : String) (related : R value other) :
    Fields.Matched R (entries.put key value) (others.put key other) := by
  unfold Fields.Matched at matched
  induction matched with
  | nil => exact .cons ⟨rfl, related⟩ .nil
  | @cons entry other' rest behind first later ih =>
      obtain ⟨name, old⟩ := entry
      obtain ⟨name', old'⟩ := other'
      obtain ⟨rfl, olds⟩ := first
      unfold Fields.put
      split
      · exact .cons ⟨rfl, related⟩ later
      · exact .cons ⟨rfl, olds⟩ ih

theorem Fields.Matched.ofList {pairs : List (String × α)} {others : List (String × β)}
    (matched : Fields.Matched R pairs others) : Fields.Matched R (Fields.ofList pairs) (Fields.ofList others) := by
  suffices ∀ {fields : Fields α} {fields' : Fields β}, Fields.Matched R fields fields' → Fields.Matched R
      (pairs.foldl (fun fields pair => fields.put pair.1 pair.2) fields)
      (others.foldl (fun fields pair => fields.put pair.1 pair.2) fields') from this .nil
  unfold Fields.Matched at matched
  induction matched with
  | nil => exact id
  | @cons pair other _ _ first _ ih =>
      intro fields fields' before
      obtain ⟨key, value⟩ := pair
      obtain ⟨key', value'⟩ := other
      obtain ⟨rfl, related⟩ := first
      exact ih (before.put key related)

theorem Fields.matched_iff_zip {entries : Fields α} {others : Fields β} :
    Fields.Matched R entries others ↔
      entries.map (·.1) = others.map (·.1) ∧ ∀ pair ∈ entries.zip others, R pair.1.2 pair.2.2 := by
  constructor
  · intro matched
    refine ⟨List.map_eq_of_forall₂ matched fun _ _ both => both.1, ?_⟩
    exact fun pair member => ((List.forall₂_iff_zip.mp matched).2 member).2
  · rintro ⟨keys, each⟩
    refine List.forall₂_iff_zip.mpr ⟨by simpa using congrArg List.length keys, fun {entry other} member => ?_⟩
    refine ⟨?_, each _ member⟩
    have paired : (entry.1, other.1) ∈ (entries.map (·.1)).zip (others.map (·.1)) := by
      rw [List.zip_map]
      exact List.mem_map_of_mem member
    rw [keys] at paired
    exact List.forall₂_iff_zip.mp (List.forall₂_refl _) |>.2 paired

end Lists

namespace Alike

theorem array_of {items others : List Value} (each : List.Forall₂ (Alike pairing) items others) :
    Alike pairing (.array items) (.array others) :=
  .array each.length_eq fun _ member => (List.forall₂_iff_zip.mp each).2 member

theorem object_of {entries others : Fields Value} (matched : Fields.Matched (Alike pairing) entries others) :
    Alike pairing (.object entries) (.object others) :=
  .object (Fields.matched_iff_zip.mp matched).1 (Fields.matched_iff_zip.mp matched).2

theorem array_inv {items others : List Value} (alike : Alike pairing (.array items) (.array others)) :
    List.Forall₂ (Alike pairing) items others := by
  cases alike with
  | array length each => exact List.forall₂_iff_zip.mpr ⟨length, fun member => each _ member⟩

theorem object_inv {entries others : Fields Value} (alike : Alike pairing (.object entries) (.object others)) :
    Fields.Matched (Alike pairing) entries others := by
  cases alike with
  | object keys each => exact Fields.matched_iff_zip.mpr ⟨keys, each⟩

theorem isTruthy (alike : Alike pairing v w) : v.isTruthy = w.isTruthy := by
  cases alike <;> rfl

theorem isNullish (alike : Alike pairing v w) : v.isNullish = w.isNullish := by
  cases alike <;> rfl

theorem toNumber (alike : Alike pairing v w) : v.toNumber = w.toNumber := by
  cases alike <;> rfl

theorem elements_eq (items : List Value) : Value.toJson.elements items = items.map Value.toJson :=
  List.eq_map_of rfl (fun _ _ => rfl) items

theorem members_eq (entries : Fields Value) :
    Value.toJson.members entries = entries.map fun entry => (entry.1, entry.2.toJson) :=
  List.eq_map_of rfl (fun _ _ => rfl) entries

theorem texts_eq (items : List Value) : Value.text.texts items = items.map Value.text :=
  List.eq_map_of rfl (fun _ _ => rfl) items

theorem toJson (alike : Alike pairing v w) : v.toJson = w.toJson := by
  induction alike with
  | undefined | null | boolean | number | string | lambda => rfl
  | @array items others length _ ih =>
      have each : List.Forall₂ (fun a b => Value.toJson a = Value.toJson b) items others :=
        List.forall₂_iff_zip.mpr ⟨length, fun member => ih _ member⟩
      rw [Value.toJson, Value.toJson, elements_eq, elements_eq, List.map_eq_of_forall₂ each fun _ _ => id]
  | @object entries others keys _ ih =>
      have matched : Fields.Matched (fun a b => Value.toJson a = Value.toJson b) entries others :=
        Fields.matched_iff_zip.mpr ⟨keys, ih⟩
      rw [Value.toJson, Value.toJson, members_eq, members_eq, List.map_eq_of_forall₂ matched]
      rintro _ _ ⟨key, value⟩
      rw [key, value]

theorem text (alike : Alike pairing v w) : v.text = w.text := by
  induction alike with
  | undefined | null | boolean | number | string | lambda => rfl
  | @array items others length _ ih =>
      have each : List.Forall₂ (fun a b => Value.text a = Value.text b) items others :=
        List.forall₂_iff_zip.mpr ⟨length, fun member => ih _ member⟩
      rw [Value.text, Value.text, texts_eq, texts_eq, List.map_eq_of_forall₂ each fun _ _ => id]
  | object keys each _ =>
      rw [Value.text, Value.text, toJson (.object keys each)]

theorem getD {found other : Option Value} (alike : Option.Rel (Alike pairing) found other) :
    Alike pairing (found.getD .undefined) (other.getD .undefined) := by
  cases alike with
  | none => exact .undefined
  | some alike => exact alike

theorem member (alike : Alike pairing v w) (key : String) : Alike pairing (v.member key) (w.member key) := by
  cases alike with
  | undefined | null | boolean | number | lambda => exact .undefined
  | string value =>
      unfold Value.member
      dsimp only
      split
      · exact .number _
      · split
        · exact .string _
        · exact .undefined
  | array length each =>
      unfold Value.member
      dsimp only
      rw [length]
      split
      · exact .number _
      · cases Decimal.natural? key with
        | none => exact .undefined
        | some index => exact getD (List.rel_getElem? (array_inv (.array length each)) index)
  | object keys each => exact getD (Fields.Matched.rel_get? (object_inv (.object keys each)) key)

theorem follow (alike : Alike pairing v w) (keys : List String) :
    Alike pairing (v.follow keys) (w.follow keys) := by
  induction keys generalizing v w with
  | nil => exact alike
  | cons key rest ih => exact ih (alike.member key)

theorem keyed (target : Alike pairing v w) (key : Alike pairing v' w') :
    Alike pairing (v.keyed v') (w.keyed w') := by
  cases key with
  | undefined | null | boolean | array | object | lambda => exact .undefined
  | string key => exact target.member key
  | number n =>
      unfold Value.keyed
      dsimp only
      split
      · exact target.member _
      · exact .undefined

theorem typeName (alike : Alike pairing v w) : v.typeName = w.typeName := by
  cases alike <;> rfl

-- Numbers are their own numbers, so two cases are enough.
theorem add_eq (a b : Value) : a.add b =
    if a.typeName = "string" ∨ b.typeName = "string" then .string (a.text ++ b.text)
    else .number (a.toNumber + b.toNumber) := by
  cases a <;> cases b <;> simp [Value.add, Value.typeName, Value.toNumber]

theorem add (left : Alike pairing v w) (right : Alike pairing v' w') : Alike pairing (v.add v') (w.add w') := by
  rw [add_eq, add_eq, left.typeName, right.typeName, left.text, right.text, left.toNumber, right.toNumber]
  split
  · exact .string _
  · exact .number _

theorem compares (comparison : Value.Comparison) (left : Alike pairing v w) (right : Alike pairing v' w') :
    Value.compares comparison v v' = Value.compares comparison w w' := by
  cases left <;> cases right <;> rfl

theorem same_identity {a b a' b' : Nat} (left : pairing.Meets a b) (right : pairing.Meets a' b') :
    (a == a') = (b == b') := by
  unfold Pairing.Meets at left right
  rw [Bool.eq_iff_iff, beq_iff_eq, beq_iff_eq]
  omega

-- Two values that equal alike values alike.
def EqualAlike (pairing : Pairing) (a b : Value) : Prop :=
  ∀ a' b', Alike pairing a' b' → a.looselyEquals a' = b.looselyEquals b'

theorem looselyEquals_items {items others items' others' : List Value}
    (left : List.Forall₂ (EqualAlike pairing) items others)
    (right : List.Forall₂ (Alike pairing) items' others') :
    Value.looselyEquals.items items items' = Value.looselyEquals.items others others' := by
  induction left generalizing items' others' with
  | nil => rfl
  | cons first _ ih =>
      cases right with
      | nil => rfl
      | cons alike rest => rw [Value.looselyEquals.items, Value.looselyEquals.items, first _ _ alike, ih rest]

theorem looselyEquals_entries {entries others entries' others' : Fields Value}
    (left : Fields.Matched (EqualAlike pairing) entries others)
    (right : Fields.Matched (Alike pairing) entries' others') :
    Value.looselyEquals.entries entries entries' = Value.looselyEquals.entries others others' := by
  unfold Fields.Matched at left
  induction left with
  | nil => rfl
  | @cons entry other _ _ first _ ih =>
      obtain ⟨key, value⟩ := entry
      obtain ⟨key', value'⟩ := other
      obtain ⟨rfl, same⟩ := first
      rw [Value.looselyEquals.entries, Value.looselyEquals.entries, ih]
      have found := right.rel_get? key
      generalize Fields.get? entries' key = here, Fields.get? others' key = there at found
      cases found with
      | none => rfl
      | some alike => simp only [same _ _ alike]

theorem looselyEquals (left : Alike pairing v w) (right : Alike pairing v' w') :
    v.looselyEquals v' = w.looselyEquals w' := by
  suffices EqualAlike pairing v w from this v' w' right
  clear right
  induction left with
  | undefined | null => exact fun _ _ right => right.isNullish
  | boolean | number | string => exact fun _ _ right => by cases right <;> rfl
  | @array items others length _ ih =>
      intro v' w' right
      cases right with
      | undefined | null | boolean | number | string | object | lambda => rfl
      | array length' each' =>
          have each : List.Forall₂ (EqualAlike pairing) items others :=
            List.forall₂_iff_zip.mpr ⟨length, fun member => ih _ member⟩
          rw [Value.looselyEquals, Value.looselyEquals, length, length',
            looselyEquals_items each (array_inv (.array length' each'))]
  | @object entries others keys _ ih =>
      intro v' w' right
      cases right with
      | undefined | null | boolean | number | string | array | lambda => rfl
      | object keys' each' =>
          have matched : Fields.Matched (EqualAlike pairing) entries others :=
            Fields.matched_iff_zip.mpr ⟨keys, ih⟩
          have right := object_inv (.object keys' each')
          rw [Value.looselyEquals, Value.looselyEquals, matched.length_eq, right.length_eq,
            looselyEquals_entries matched right]
  | lambda met =>
      intro v' w' right
      cases right with
      | undefined | null | boolean | number | string | array | object => rfl
      | lambda met' => exact same_identity met met'

theorem any_looselyEquals {items others : List Value} (each : List.Forall₂ (Alike pairing) items others)
    (part : Alike pairing v w) : items.any (·.looselyEquals v) = others.any (·.looselyEquals w) := by
  induction each with
  | nil => rfl
  | cons first _ ih => rw [List.any_cons, List.any_cons, first.looselyEquals part, ih]

theorem contains (whole : Alike pairing v w) (part : Alike pairing v' w') : v.contains v' = w.contains w' := by
  cases whole with
  | undefined | null | boolean | number | lambda => rfl
  | string value => rw [Value.contains, Value.contains, part.text]
  | array length each => exact any_looselyEquals (array_inv (.array length each)) part
  | @object entries others keys each =>
      cases part with
      | string key =>
          have found := (object_inv (.object keys each)).rel_get? key
          change (Fields.get? entries key).isSome = (Fields.get? others key).isSome
          generalize Fields.get? entries key = here, Fields.get? others key = there at found
          cases found <;> rfl
      | undefined | null | boolean | number | array | object | lambda => rfl

/-! Data is alike itself in any two runs. -/

theorem array_self {items : List Value} (each : ∀ item ∈ items, Alike pairing item item) :
    Alike pairing (.array items) (.array items) :=
  array_of (List.forall₂_same.mpr each)

theorem object_self {entries : Fields Value} (each : ∀ entry ∈ entries, Alike pairing entry.2 entry.2) :
    Alike pairing (.object entries) (.object entries) :=
  object_of (List.forall₂_same.mpr fun entry member => ⟨rfl, each entry member⟩)

theorem ofJson (json : Json) : Alike pairing (.ofJson json) (.ofJson json) := by
  induction json using Json.induction with
  | null => exact .null
  | boolean value => exact .boolean value
  | integer value => exact .number _
  | double value => exact .number value
  | string value => exact .string value
  | array items each =>
      rw [Value.ofJson_array]
      exact array_self (List.forall_mem_map.mpr each)
  | object fields each =>
      rw [Value.ofJson_object]
      exact object_self (List.forall_mem_map.mpr each)

theorem ofConstant (constant : Ir.Constant) : Alike pairing (.ofConstant constant) (.ofConstant constant) := by
  induction constant using Ir.Constant.induction with
  | string value => exact .string value
  | number value => exact .number value
  | boolean value => exact .boolean value
  | null => exact .null
  | array items each =>
      rw [Value.ofConstant_array]
      exact array_self (List.forall_mem_map.mpr each)
  | object entries each =>
      rw [Value.ofConstant_object]
      exact object_self (List.forall_mem_map.mpr each)

end Alike

/-! What sees everything, and values that are alike themselves. -/

theorem everything_bind (params : List String) : View.bind (fun _ _ => True) params = fun _ _ => True := by
  funext root keys
  simp [View.bind]

-- What is found in an environment whose values are alike themselves is alike itself.
theorem Environment.resolve_alike {env : Environment}
    (each : ∀ scope ∈ env.scopes, ∀ entry ∈ scope, Alike pairing entry.2 entry.2) (name : String) :
    Alike pairing (env.resolve name) (env.resolve name) := by
  unfold resolve
  cases found : env.lookup? name with
  | some value =>
      obtain ⟨scope, member, bound⟩ := List.exists_of_findSome?_eq_some found
      exact each scope member _ (Fields.mem_of_get? bound)
  | none =>
      dsimp only
      split
      · exact .boolean true
      · exact .boolean false
      · exact .null
      · exact .undefined

-- A lambda is alike itself if what stands in its scopes is.
theorem Alike.lambda_self {identity : Nat} {params : List String} {body : Ir.Expression}
    {scopes : List (Fields Value)} (met : pairing.Meets identity identity)
    (read : Within pairing.surrounded (fun _ _ => True) body)
    (each : ∀ scope ∈ scopes, ∀ entry ∈ scope, Alike pairing entry.2 entry.2) :
    Alike pairing (.lambda identity params body scopes) (.lambda identity params body scopes) := by
  have read : Within pairing.surrounded (View.bind (fun _ _ => True) params) body :=
    (everything_bind params).symm ▸ read
  refine .lambda met (read.confined fun name => False ∧ name ∉ params) (fun root keys _ => ?_) fun _ => False.elim
  exact (@Environment.resolve_alike _ ⟨scopes⟩ each root).follow keys

end Charter

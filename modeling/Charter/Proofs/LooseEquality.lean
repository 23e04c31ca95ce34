import Charter.Engine.Write
import Charter.Proofs.ReadBack
import Mathlib.Data.List.Forall2
import Mathlib.Data.List.Perm.Subperm

/-!
The loose equality of expressions. It does not matter on which side a value stands, and values that are equal are
loosely equal. Objects are searched in one direction only, each key of the left one in the right one; that this is
enough is a count of keys: of two maps with equally many keys none of which stands twice, the one has no key that the
other has not.
-/

namespace Charter

theorem List.forall₂_iff_of {α β : Type} {f : List α → List β → Bool} {g : α → β → Bool} (nil : f [] [] = true)
    (cons : ∀ a as b bs, f (a :: as) (b :: bs) = (g a b && f as bs)) {as : List α} {bs : List β} :
    (as.length == bs.length && f as bs) = true ↔ List.Forall₂ (fun a b => g a b = true) as bs := by
  induction as generalizing bs with
  | nil =>
      cases bs with
      | nil => exact ⟨fun _ => .nil, fun _ => nil⟩
      | cons b bs => exact ⟨nofun, nofun⟩
  | cons a as ih =>
      cases bs with
      | nil => exact ⟨nofun, nofun⟩
      | cons b bs =>
          rw [List.forall₂_cons, ← ih, cons, Bool.and_left_comm, Bool.and_eq_true]
          simp only [List.length_cons, Nat.reduceBeqDiff]

namespace Fields
variable {α β : Type} {R : α → β → Prop} {S : β → α → Prop} {fields : Fields α} {others : Fields β}

-- Each value of the one map has a partner under the same key of the other.
def Finds (R : α → β → Prop) (fields : Fields α) (others : Fields β) : Prop :=
  ∀ pair ∈ fields, ∃ other, others.get? pair.1 = some other ∧ R pair.2 other

theorem finds_iff_of {f : Fields α → Bool} {g : α → β → Bool} (nil : f [] = true)
    (cons : ∀ key value rest, f ((key, value) :: rest) = ((others.get? key).any (g value) && f rest)) :
    f fields = true ↔ fields.Finds (fun value other => g value other = true) others := by
  unfold Finds
  induction fields with
  | nil => exact ⟨fun _ => nofun, fun _ => nil⟩
  | cons pair rest ih =>
      obtain ⟨key, value⟩ := pair
      rw [cons, Bool.and_eq_true, ih, List.forall_mem_cons]
      cases others.get? key <;> simp

-- The keys of two maps of one size are the same as soon as those of the one, each once, are keys of the other.
theorem Finds.keys (finds : fields.Finds R others) (distinct : fields.Distinct) (size : fields.length = others.length) :
    fields.keys.Perm others.keys := by
  have inside : fields.keys ⊆ others.keys := by
    intro key member
    obtain ⟨pair, present, rfl⟩ := List.mem_map.mp member
    obtain ⟨other, found, _⟩ := finds pair present
    exact List.mem_map_of_mem (mem_of_get? found)
  refine (distinct.subperm inside).perm_of_length_le ?_
  simp only [Fields.keys, List.length_map, size, Nat.le_refl]

theorem Finds.imp {S : α → β → Prop} (finds : fields.Finds R others)
    (less : ∀ pair ∈ fields, ∀ other, R pair.2 other → S pair.2 other) : fields.Finds S others := by
  intro pair member
  obtain ⟨other, found, related⟩ := finds pair member
  exact ⟨other, found, less pair member other related⟩

-- So the search may as well go the other way.
theorem Finds.symm (finds : fields.Finds R others) (distinct : fields.Distinct) (size : fields.length = others.length)
    (turned : ∀ pair ∈ fields, ∀ other, R pair.2 other → S other pair.2) : others.Finds S fields := by
  have same := finds.keys distinct size
  have distinct' : others.Distinct := same.nodup_iff.mp distinct
  intro ⟨key, other⟩ present
  obtain ⟨value, found⟩ := get?_of_mem_keys (same.mem_iff.mpr (List.mem_map_of_mem present))
  obtain ⟨partner, found', related⟩ := finds _ (mem_of_get? found)
  cases found'.symm.trans (distinct'.get?_of_mem present)
  exact ⟨value, found, turned _ (mem_of_get? found) other related⟩

end Fields

namespace Binary64
open Float.Model

theorem then_turned {e e' : Int} {m m' : Nat} (same : (compare e e').then (compare m m') = .eq) :
    (compare e' e).then (compare m' m) = .eq := by
  obtain ⟨exponents, mantissas⟩ := Ordering.then_eq_eq.mp same
  exact Ordering.then_eq_eq.mpr ⟨Std.OrientedCmp.eq_symm exponents, Std.OrientedCmp.eq_symm mantissas⟩

-- Only numbers of one form compare as equal, and their parts may change sides.
theorem compare_turned {a b : UnpackedFloat} (same : a.compare b = some .eq) : b.compare a = some .eq := by
  cases a with
  | notANumber => cases same
  | zero sign =>
      cases b with
      | zero => rfl
      | notANumber => cases same
      | infinity other => cases other <;> cases same
      | finite other => cases other <;> cases same
  | infinity sign =>
      cases b with
      | infinity other =>
          revert same
          cases sign <;> cases other <;> decide
      | notANumber => cases sign <;> cases same
      | zero => cases sign <;> cases same
      | finite => cases sign <;> cases same
  | finite sign mantissa exponent positive =>
      cases b with
      | notANumber => cases sign <;> cases same
      | zero => cases sign <;> cases same
      | infinity other => cases other <;> cases sign <;> cases same
      | finite other mantissa' exponent' positive' =>
          cases sign <;> cases other
          case positive.positive => exact congrArg some (then_turned (Option.some.inj same))
          case negative.negative =>
            have unswapped := Ordering.swap_eq_eq.mp (Option.some.inj same)
            exact congrArg some (Ordering.swap_eq_eq.mpr (then_turned unswapped))
          all_goals cases same

theorem beq_symm {x y : Float} (same : (x == y) = true) : (y == x) = true := by
  change (x.toModel.unpack.compare y.toModel.unpack == some .eq) = true at same
  change (y.toModel.unpack.compare x.toModel.unpack == some .eq) = true
  exact beq_iff_eq.mpr (compare_turned (beq_iff_eq.mp same))

end Binary64

namespace Value

-- No key stands twice in an object. The scopes of a lambda do not count: a lambda is compared by its identity.
inductive Keyed : Value → Prop
  | undefined : Keyed .undefined
  | null : Keyed .null
  | boolean (value : Bool) : Keyed (.boolean value)
  | number (value : Float) : Keyed (.number value)
  | string (value : String) : Keyed (.string value)
  | array {items : List Value} (each : ∀ item ∈ items, Keyed item) : Keyed (.array items)
  | object {entries : List (String × Value)} (distinct : Fields.Distinct entries)
      (each : ∀ entry ∈ entries, Keyed entry.2) : Keyed (.object entries)
  | lambda (identity : Nat) (params : List String) (body : Ir.Expression) (scopes : List (Fields Value)) :
      Keyed (.lambda identity params body scopes)

attribute [simp] Keyed.undefined Keyed.null Keyed.boolean Keyed.number Keyed.string Keyed.lambda

@[simp] theorem keyed_array {items : List Value} : (array items).Keyed ↔ ∀ item ∈ items, item.Keyed :=
  ⟨fun (.array each) => each, .array⟩

@[simp] theorem keyed_object {entries : Fields Value} :
    (object entries).Keyed ↔ entries.Distinct ∧ ∀ entry ∈ entries, entry.2.Keyed :=
  ⟨fun (.object distinct each) => ⟨distinct, each⟩, fun ⟨distinct, each⟩ => .object distinct each⟩

theorem keyed_ofJson {document : Json} (keyed : document.Keyed) : (ofJson document).Keyed := by
  induction keyed with
  | null => exact .null
  | boolean value => exact .boolean value
  | integer value => exact .number _
  | double value => exact .number value
  | string value => exact .string value
  | array _ ih =>
      rw [ofJson_array]
      exact .array (List.forall_mem_map.mpr ih)
  | object distinct _ ih =>
      rw [ofJson_object]
      exact .object (distinct.map ofJson) (List.forall_mem_map.mpr ih)

/-! Both equalities of arrays and objects, told by their parts. -/

section Parts
variable {items others : List Value} {entries entries' : Fields Value}

theorem looselyEquals_array : (array items).looselyEquals (array others) = true ↔
    List.Forall₂ (fun a b => a.looselyEquals b = true) items others := by
  rw [looselyEquals]
  exact List.forall₂_iff_of rfl fun _ _ _ _ => rfl

theorem equals_array : (array items).equals (array others) = true ↔
    List.Forall₂ (fun a b => a.equals b = true) items others := by
  rw [equals]
  exact List.forall₂_iff_of rfl fun _ _ _ _ => rfl

theorem looselyEquals_object : (object entries).looselyEquals (object entries') = true ↔
    entries.length = entries'.length ∧ entries.Finds (fun a b => a.looselyEquals b = true) entries' := by
  rw [looselyEquals, Bool.and_eq_true, beq_iff_eq]
  refine and_congr_right fun _ => Fields.finds_iff_of (f := (looselyEquals.entries · entries')) rfl fun key _ _ => ?_
  dsimp only [looselyEquals.entries]
  cases Fields.get? entries' key <;> rfl

theorem equals_object : (object entries).equals (object entries') = true ↔
    entries.length = entries'.length ∧ entries.Finds (fun a b => a.equals b = true) entries' := by
  rw [equals, Bool.and_eq_true, beq_iff_eq]
  refine and_congr_right fun _ => Fields.finds_iff_of (f := (equals.entries · entries')) rfl fun key _ _ => ?_
  dsimp only [equals.entries]
  cases Fields.get? entries' key <;> rfl

end Parts

-- By induction on the left value, whose form tells that of the right one.
theorem looselyEquals_symm {a b : Value} (keyed : a.Keyed) (equal : a.looselyEquals b = true) :
    b.looselyEquals a = true := by
  induction keyed generalizing b with
  | undefined | null =>
      cases b with
      | undefined | null => rfl
      | _ => cases equal
  | boolean value =>
      cases b with
      | boolean => exact BEq.comm.trans equal
      | number => exact Binary64.beq_symm equal
      | _ => cases equal
  | number value =>
      cases b with
      | boolean | number | string => exact Binary64.beq_symm equal
      | _ => cases equal
  | string value =>
      cases b with
      | string => exact BEq.comm.trans equal
      | number => exact Binary64.beq_symm equal
      | _ => cases equal
  | array _ ih =>
      cases b with
      | array others =>
          have turned := (List.forall₂_and_left _ others).mpr ⟨ih, looselyEquals_array.mp equal⟩
          exact looselyEquals_array.mpr (turned.imp fun item other ⟨turn, equal⟩ => turn equal).flip
      | _ => cases equal
  | object distinct _ ih =>
      cases b with
      | object entries' =>
          obtain ⟨size, finds⟩ := looselyEquals_object.mp equal
          exact looselyEquals_object.mpr ⟨size.symm, finds.symm distinct size fun entry member _ => ih entry member⟩
      | _ => cases equal
  | lambda identity params body scopes =>
      cases b with
      | lambda => exact BEq.comm.trans equal
      | _ => cases equal

-- By induction on the left value. Equal values have one form, and but for arrays and objects it is the same test.
theorem looselyEquals_of_equals {a b : Value} (equal : a.equals b = true) : a.looselyEquals b = true := by
  induction a using Value.induction generalizing b with
  | undefined | null =>
      cases b with
      | undefined | null => rfl
      | _ => cases equal
  | boolean =>
      cases b with
      | boolean => exact equal
      | _ => cases equal
  | number =>
      cases b with
      | number => exact equal
      | _ => cases equal
  | string =>
      cases b with
      | string => exact equal
      | _ => cases equal
  | lambda =>
      cases b with
      | lambda => exact equal
      | _ => cases equal
  | array items ih =>
      cases b with
      | array others =>
          have looser := (List.forall₂_and_left items others).mpr ⟨ih, equals_array.mp equal⟩
          exact looselyEquals_array.mpr (looser.imp fun item other ⟨loosen, equal⟩ => loosen equal)
      | _ => cases equal
  | object entries ih =>
      cases b with
      | object entries' =>
          obtain ⟨size, finds⟩ := equals_object.mp equal
          exact looselyEquals_object.mpr ⟨size, finds.imp fun entry member _ => ih entry member⟩
      | _ => cases equal

-- Loose equality is the same from either side, and contains equality.
theorem loose_equality_symmetric {a b : Value} (keyed : a.Keyed) (keyed' : b.Keyed) :
    a.looselyEquals b = b.looselyEquals a ∧ (a.equals b = true → a.looselyEquals b = true) :=
  ⟨Bool.eq_iff_iff.mpr ⟨looselyEquals_symm keyed, looselyEquals_symm keyed'⟩, looselyEquals_of_equals⟩

-- Two orders with their keys the other way round; the one has a text for the number and `undefined` for null.
def twoPens : Value :=
  .object [("count", .number 2), ("pens", .array [.string "red", .null, .lambda 7 [] (.identifier "x") []])]

def twoPensTurned : Value :=
  .object [("pens", .array [.string "red", .undefined, .lambda 7 [] (.identifier "x") []]), ("count", .string " 2 ")]

theorem two_pens_either_way : twoPens.Keyed ∧ twoPensTurned.Keyed ∧ twoPens.looselyEquals twoPensTurned = true ∧
    twoPensTurned.looselyEquals twoPens = true ∧ twoPens.equals twoPensTurned = false := by
  have keyed : twoPens.Keyed := by simp [twoPens]
  have keyed' : twoPensTurned.Keyed := by simp [twoPensTurned]
  have equal : twoPens.looselyEquals twoPensTurned = true := by decide +kernel
  exact ⟨keyed, keyed', equal, (loose_equality_symmetric keyed keyed').1.symm.trans equal, by decide +kernel⟩

end Value

-- Writes compare what is stored with what comes in one direction only, which is as good as the other.
theorem Json.looselyEquals_comm {a b : Json} (keyed : a.Keyed) (keyed' : b.Keyed) :
    a.looselyEquals b = b.looselyEquals a :=
  Bool.eq_iff_iff.mpr ⟨Value.looselyEquals_symm (Value.keyed_ofJson keyed),
    Value.looselyEquals_symm (Value.keyed_ofJson keyed')⟩

end Charter

import Charter.Ir.Export
import Charter.Proofs.Fields
import Charter.Proofs.Itemwise
import Charter.Proofs.JsonText

/-!
When documents have one canonical form. Lists do if their elements do, and objects if they read alike, in
whatever order their keys stand.
-/

namespace Charter

namespace Fields
variable {α β : Type}

-- The fields of a record that it has.
def present (fields : Fields (Option α)) : Fields α := fields.filterMap fun (key, value) => value.map (key, ·)

theorem mem_present {fields : Fields (Option α)} {key : String} {value : α} :
    (key, value) ∈ present fields ↔ (key, some value) ∈ fields := by
  unfold present
  rw [List.mem_filterMap]
  constructor
  · rintro ⟨⟨name, found⟩, member, same⟩
    obtain ⟨held, rfl, pair⟩ := Option.map_eq_some_iff.mp same
    cases pair
    exact member
  · intro member
    exact ⟨_, member, rfl⟩

theorem Distinct.present {fields : Fields (Option α)} (distinct : fields.Distinct) : Distinct (present fields) := by
  induction fields with
  | nil => exact distinct
  | cons head rest ih =>
      obtain ⟨key, value⟩ := head
      obtain ⟨fresh, others⟩ := List.nodup_cons.mp distinct
      cases value with
      | none => exact ih others
      | some value =>
          refine List.nodup_cons.mpr ⟨fun again => ?_, ih others⟩
          obtain ⟨⟨name, found⟩, member, rfl⟩ := List.mem_map.mp again
          exact fresh (List.mem_map.mpr ⟨_, mem_present.mp member, rfl⟩)

theorem Distinct.get?_present {fields : Fields (Option α)} (distinct : fields.Distinct) (key : String) :
    (Fields.present fields).get? key = (fields.get? key).join := by
  cases found : fields.get? key with
  | none =>
      cases there : (Fields.present fields).get? key with
      | none => rfl
      | some value =>
          have member := mem_present.mp (mem_of_get? there)
          rw [distinct.get?_of_mem member] at found
          cases found
  | some value =>
      cases value with
      | some value => exact distinct.present.get?_of_mem (mem_present.mpr (mem_of_get? found))
      | none =>
          cases there : (Fields.present fields).get? key with
          | none => rfl
          | some value =>
              have member := mem_present.mp (mem_of_get? there)
              rw [distinct.get?_of_mem member] at found
              cases found

-- Maps with the same keys in the same places read alike if their values are the same in each place.
theorem Distinct.alike_iff {fields others : Fields α} (distinct : fields.Distinct) (keys : fields.keys = others.keys)
    (shown : Option α → β) : (∀ key, shown (fields.get? key) = shown (others.get? key)) ↔
      fields.map (fun field => shown (some field.2)) = others.map (fun field => shown (some field.2)) := by
  induction fields generalizing others with
  | nil =>
      obtain rfl : others = [] := List.map_eq_nil_iff.mp keys.symm
      exact ⟨fun _ => rfl, fun _ _ => rfl⟩
  | cons head rest ih =>
      obtain ⟨key, value⟩ := head
      cases others with
      | nil => cases keys
      | cons other others =>
          obtain ⟨name, found⟩ := other
          obtain ⟨rfl, later⟩ := List.cons.inj keys
          obtain ⟨fresh, distinct⟩ := List.nodup_cons.mp distinct
          rw [List.map_cons, List.map_cons, List.cons.injEq, ← ih distinct later]
          constructor
          · intro alike
            refine ⟨by simpa [get?] using alike key, fun wanted => ?_⟩
            by_cases same : key = wanted
            · subst same
              have fresh' : key ∉ Fields.keys others := fun again => fresh (later.symm ▸ again)
              rw [get?_of_not_mem fresh, get?_of_not_mem fresh']
            · simpa [get?, same] using alike wanted
          · rintro ⟨first, alike⟩ wanted
            by_cases same : key = wanted
            · simpa [get?, same] using first
            · simpa [get?, same] using alike wanted

end Fields

namespace Json

@[simp] theorem canonical_string (value : String) : canonical (.string value) = .string value := rfl

@[simp] theorem canonical_boolean (value : Bool) : canonical (.boolean value) = .boolean value := rfl

@[simp] theorem canonical_double (value : Float) : canonical (.double value) = .double value := rfl

theorem canonical_array (items : List Json) : canonical (.array items) = .array (items.map canonical) :=
  congrArg Json.array (List.eq_map_of rfl (fun _ _ => rfl) items)

theorem get?_canonical_members {fields : List (String × Json)} (distinct : Fields.Distinct fields) (key : String) :
    Fields.get? (canonical.members fields) key = (Fields.get? fields key).map canonical := by
  induction fields generalizing key with
  | nil => rfl
  | cons head rest ih =>
      obtain ⟨name, value⟩ := head
      obtain ⟨fresh, others⟩ := List.nodup_cons.mp distinct
      have absent : Fields.has (canonical.members rest) name = false := by
        rw [Fields.has, ih others, Fields.get?_of_not_mem fresh]
        rfl
      simp only [canonical.members, absent, Bool.false_eq_true, if_false, Fields.get?_place, Fields.get?, ih others]
      split <;> rfl

theorem ascending_canonical_members (fields : List (String × Json)) : Fields.Ascending (canonical.members fields) := by
  induction fields with
  | nil => exact List.Pairwise.nil
  | cons head rest ih =>
      obtain ⟨name, value⟩ := head
      simp only [canonical.members]
      split
      · exact ih
      · exact ih.place name _

-- Objects have one canonical form if they read alike.
theorem canonical_object_iff {fields others : List (String × Json)} (distinct : Fields.Distinct fields)
    (distinct' : Fields.Distinct others) :
    canonical (.object fields) = canonical (.object others) ↔
      ∀ key, (Fields.get? fields key).map canonical = (Fields.get? others key).map canonical := by
  change Json.object (canonical.members fields) = .object (canonical.members others) ↔ _
  rw [Json.object.injEq]
  constructor
  · intro same key
    rw [← get?_canonical_members distinct, same, get?_canonical_members distinct']
  · intro alike
    refine (ascending_canonical_members fields).ext (ascending_canonical_members others) fun key => ?_
    rw [get?_canonical_members distinct, alike, get?_canonical_members distinct']

-- What holds of the canonical forms of the values holds of the values in the canonical form.
theorem forall_canonical_members {P : Json → Prop} {fields : List (String × Json)}
    (each : ∀ field ∈ fields, P field.2.canonical) : ∀ field ∈ canonical.members fields, P field.2 := by
  induction fields with
  | nil => nofun
  | cons head rest ih =>
      obtain ⟨name, value⟩ := head
      obtain ⟨first, others⟩ := List.forall_mem_cons.mp each
      simp only [canonical.members]
      split
      · exact ih others
      · intro field member
        rcases Fields.mem_place member with rfl | old
        · exact first
        · exact ih others field old

theorem Plain.canonical {document : Json} (plain : document.Plain) : document.canonical.Plain := by
  induction plain with
  | null => exact .null
  | boolean value => exact .boolean value
  | double finite => exact .double finite
  | string value => exact .string value
  | @array items _ ih =>
      rw [canonical_array]
      refine .array fun item member => ?_
      obtain ⟨origin, within, rfl⟩ := List.mem_map.mp member
      exact ih origin within
  | object _ ih => exact .object (forall_canonical_members ih)

end Json

instance {α : Type} (fields : Fields α) : Decidable fields.Distinct := inferInstanceAs (Decidable fields.keys.Nodup)

namespace Ir
open Json

-- Objects with the same keys in the same places.
theorem canonical_fields_iff {fields others : List (String × Json)} (distinct : Fields.Distinct fields)
    (keys : Fields.keys fields = Fields.keys others) :
    canonical (.object fields) = canonical (.object others) ↔
      fields.map (fun field => some field.2.canonical) = others.map (fun field => some field.2.canonical) := by
  have distinct' : Fields.Distinct others := by
    unfold Fields.Distinct
    rwa [← keys]
  rw [Json.canonical_object_iff distinct distinct', distinct.alike_iff keys (Option.map canonical)]
  rfl

theorem canonical_record_iff {entries others : List Entry} (distinct : Fields.Distinct entries)
    (keys : Fields.keys entries = Fields.keys others) :
    canonical (record entries) = canonical (record others) ↔
      entries.map (·.2.map canonical) = others.map (·.2.map canonical) := by
  have distinct' : Fields.Distinct others := by
    unfold Fields.Distinct
    rwa [← keys]
  change canonical (.object (Fields.present entries)) = canonical (.object (Fields.present others)) ↔ _
  rw [Json.canonical_object_iff distinct.present distinct'.present]
  simp only [distinct.get?_present, distinct'.get?_present]
  exact distinct.alike_iff keys fun value => value.join.map canonical

section Documents
variable {α β : Type} {write : α → Json} {view : α → β}

-- The documents of two things have one canonical form exactly if the things are seen alike.
def Tells (write : α → Json) (view : α → β) (x y : α) : Prop :=
  (write x).canonical = (write y).canonical ↔ view x = view y

theorem Tells.iff {x y : α} (tells : Tells write view x y) :
    (write x).canonical = (write y).canonical ↔ view x = view y := tells

-- The documents tell of all things that pass a check what the view shows of them.
def Faithful (check : α → Bool) (write : α → Json) (view : α → β) : Prop :=
  ∀ x y, check x = true → check y = true → Tells write view x y

theorem map_eq_map_iff {γ : Type} {f : α → β} {g : α → γ} {items others : List α}
    (each : ∀ item ∈ items, ∀ other ∈ others, f item = f other ↔ g item = g other) :
    items.map f = others.map f ↔ items.map g = others.map g := by
  induction items generalizing others with
  | nil => cases others <;> simp
  | cons item rest ih =>
      cases others with
      | nil => simp
      | cons other others =>
          rw [List.map_cons, List.map_cons, List.map_cons, List.map_cons, List.cons.injEq, List.cons.injEq,
            each item List.mem_cons_self other List.mem_cons_self,
            ih fun one here two there => each one (List.mem_cons_of_mem _ here) two (List.mem_cons_of_mem _ there)]

theorem tells_list {items others : List α} (each : ∀ item ∈ items, ∀ other ∈ others, Tells write view item other) :
    Tells (listJson write) (List.map view) items others := by
  unfold Tells listJson
  rw [canonical_array, canonical_array, Json.array.injEq, List.map_map, List.map_map]
  exact map_eq_map_iff each

theorem list_iff (each : ∀ x y, Tells write id x y) {items others : List α} :
    (listJson write items).canonical = (listJson write others).canonical ↔ items = others := by
  have lists : Tells (listJson write) (List.map id) items others := tells_list fun x _ y _ => each x y
  rwa [Tells, List.map_id, List.map_id] at lists

theorem names_iff {names others : List String} :
    (namesJson names).canonical = (namesJson others).canonical ↔ names = others := by
  have texts (x y : String) : Tells Json.string id x y := ⟨Json.string.inj, congrArg Json.string⟩
  exact list_iff texts

def arrange (view : α → β) (fields : Fields α) : Fields β :=
  Fields.sorted (fields.map fun (key, value) => (key, view value))

theorem tells_fields {fields others : Fields α} (distinct : fields.Distinct) (distinct' : others.Distinct)
    (each : ∀ field ∈ fields, ∀ other ∈ others, Tells write view field.2 other.2) :
    Tells (fun fields => .object (fields.map fun (key, value) => (key, write value))) (arrange view) fields others := by
  unfold Tells arrange
  rw [Json.canonical_object_iff (distinct.map write) (distinct'.map write),
    (distinct.map view).sorted_inj (distinct'.map view)]
  refine forall_congr' fun key => ?_
  rw [Fields.get?_map, Fields.get?_map, Fields.get?_map, Fields.get?_map]
  cases here : fields.get? key <;> cases there : others.get? key
  case some.some value found =>
    simpa [Tells] using each _ (Fields.mem_of_get? here) _ (Fields.mem_of_get? there)
  all_goals simp

theorem tells_option {value other : Option α} (each : ∀ x ∈ value, ∀ y ∈ other, Tells write view x y) :
    (value.map write).map canonical = (other.map write).map canonical ↔ value.map view = other.map view := by
  cases value <;> cases other
  case some.some x y => simpa [Tells] using each x rfl y rfl
  all_goals simp

theorem tells_unlessEmpty {write : List α → Json} {view : List α → β} {items others : List α}
    (whole : Tells write view items others) (empty : view items = view others → (items = [] ↔ others = [])) :
    (unlessEmpty write items).map canonical = (unlessEmpty write others).map canonical ↔ view items = view others := by
  cases items <;> cases others
  case nil.nil => simp [unlessEmpty]
  case cons.cons => simpa [unlessEmpty, Tells] using whole
  all_goals simpa [unlessEmpty] using empty

-- Things of two kinds are told apart where their documents say the kind.
theorem tells_of_kind {view : α → α} {kind : α → String}
    (written : ∀ x, (write x).canonical.get? "kind" = some (.string (kind x))) (seen : ∀ x, kind (view x) = kind x)
    {x y : α} (other : kind x ≠ kind y) : Tells write view x y := by
  constructor
  · intro same
    have kinds := congrArg (Json.get? · "kind") same
    rw [written, written] at kinds
    exact absurd (Json.string.inj (Option.some.inj kinds)) other
  · intro same
    rw [← seen x, same, seen] at other
    exact absurd rfl other

-- Maps with distinct keys, whose values pass a check.
def isProperMap (check : α → Bool) (fields : Fields α) : Bool := decide fields.Distinct && fields.all (check ·.2)

namespace Faithful
variable {check : α → Bool}

theorem iff (faithful : Faithful check write view) {x y : α} (proper : check x = true) (proper' : check y = true) :
    (write x).canonical = (write y).canonical ↔ view x = view y := (faithful x y proper proper').iff

theorem list (faithful : Faithful check write view) : Faithful (·.all check) (listJson write) (List.map view) :=
  fun _ _ proper proper' => tells_list fun x member y member' =>
    faithful x y (List.all_eq_true.mp proper x member) (List.all_eq_true.mp proper' y member')

theorem map (faithful : Faithful check write view) : Faithful (isProperMap check)
    (fun fields => .object (fields.map fun (key, value) => (key, write value))) (arrange view) := by
  intro fields others proper proper'
  obtain ⟨distinct, each⟩ := Bool.and_eq_true_iff.mp proper
  obtain ⟨distinct', each'⟩ := Bool.and_eq_true_iff.mp proper'
  exact tells_fields (of_decide_eq_true distinct) (of_decide_eq_true distinct') fun field member other member' =>
    faithful field.2 other.2 (List.all_eq_true.mp each field member) (List.all_eq_true.mp each' other member')

theorem option (faithful : Faithful check write view) {value other : Option α} (proper : value.all check = true)
    (proper' : other.all check = true) :
    (value.map write).map canonical = (other.map write).map canonical ↔ value.map view = other.map view :=
  tells_option fun x here y there =>
    faithful x y ((Option.all_eq_true _ _).mp proper x here) ((Option.all_eq_true _ _).mp proper' y there)

theorem nonemptyList (faithful : Faithful check write view) {items others : List α}
    (proper : items.all check = true) (proper' : others.all check = true) :
    (unlessEmpty (listJson write) items).map canonical = (unlessEmpty (listJson write) others).map canonical ↔
      items.map view = others.map view :=
  tells_unlessEmpty (faithful.list items others proper proper') fun same => by
    rw [← List.map_eq_nil_iff, same, List.map_eq_nil_iff]

theorem nonemptyMap (faithful : Faithful check write view) {fields others : Fields α}
    (proper : isProperMap check fields = true) (proper' : isProperMap check others = true) :
    (unlessEmpty (fun fields => .object (fields.map fun (key, value) => (key, write value))) fields).map canonical =
      (unlessEmpty (fun fields => .object (fields.map fun (key, value) => (key, write value))) others).map canonical ↔
      arrange view fields = arrange view others := by
  have distinct := of_decide_eq_true (Bool.and_eq_true_iff.mp proper).1
  have distinct' := of_decide_eq_true (Bool.and_eq_true_iff.mp proper').1
  refine tells_unlessEmpty (faithful.map fields others proper proper') fun same => ?_
  rw [← List.map_eq_nil_iff, ← (distinct.map view).sorted_eq_nil]
  unfold arrange at same
  rw [same, (distinct'.map view).sorted_eq_nil, List.map_eq_nil_iff]

end Faithful

theorem plain_list (each : ∀ item, (write item).Plain) (items : List α) : (listJson write items).Plain := by
  refine .array fun document member => ?_
  obtain ⟨item, _, rfl⟩ := List.mem_map.mp member
  exact each item

theorem plain_names (names : List String) : (namesJson names).Plain := plain_list .string names

theorem plain_map (each : ∀ item, (write item).Plain) (fields : Fields α) :
    Plain (.object (fields.map fun (key, value) => (key, write value))) := by
  refine .object fun entry member => ?_
  obtain ⟨field, _, rfl⟩ := List.mem_map.mp member
  exact each field.2

theorem plain_unlessEmpty {write : List α → Json} (whole : ∀ items, (write items).Plain) (items : List α) :
    ∀ document ∈ unlessEmpty write items, document.Plain := by
  intro document present
  unfold unlessEmpty at present
  split at present
  · cases present
  · cases present
    exact whole items

theorem plain_record {entries : List Entry} (each : ∀ entry ∈ entries, ∀ document ∈ entry.2, document.Plain) :
    (record entries).Plain := by
  refine .object fun field member => ?_
  exact each _ (Fields.mem_present.mp (show (field.1, field.2) ∈ Fields.present entries from member)) _ rfl

end Documents

end Ir
end Charter

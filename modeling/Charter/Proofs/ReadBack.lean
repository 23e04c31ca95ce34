import Charter.Ir.Import
import Charter.Proofs.Canonical
import Charter.Proofs.Parts

/-!
Reading documents back. What a reader finds in a document does not depend on the order of the keys in its objects,
as long as no key stands twice in one of them.
-/

namespace Charter

namespace Json

-- No key stands twice in an object.
inductive Keyed : Json → Prop where
  | null : Keyed .null
  | boolean (value : Bool) : Keyed (.boolean value)
  | integer (value : Int) : Keyed (.integer value)
  | double (value : Float) : Keyed (.double value)
  | string (value : String) : Keyed (.string value)
  | array {items : List Json} (each : ∀ item ∈ items, Keyed item) : Keyed (.array items)
  | object {fields : List (String × Json)} (distinct : Fields.Distinct fields)
      (each : ∀ field ∈ fields, Keyed field.2) : Keyed (.object fields)

attribute [simp] Keyed.boolean Keyed.double Keyed.string

theorem keyed_canonical (document : Json) : document.canonical.Keyed := by
  induction document using Json.induction with
  | null => exact .null
  | boolean value => exact .boolean value
  | integer value => exact .integer value
  | double value => exact .double value
  | string value => exact .string value
  | array items ih =>
      rw [canonical_array]
      refine .array fun item member => ?_
      obtain ⟨origin, within, rfl⟩ := List.mem_map.mp member
      exact ih origin within
  | object fields ih => exact .object (ascending_canonical_members fields).distinct (forall_canonical_members ih)

theorem canonical_canonical (document : Json) : document.canonical.canonical = document.canonical := by
  induction document using Json.induction with
  | array items ih =>
      rw [canonical_array, canonical_array, List.map_map]
      exact congrArg Json.array (List.map_congr_left ih)
  | object fields ih =>
      have ascending := ascending_canonical_members fields
      have fixed : ∀ field ∈ canonical.members fields, field.2.canonical = field.2 :=
        forall_canonical_members (P := fun value => value.canonical = value) ih
      refine congrArg Json.object ((ascending_canonical_members _).ext ascending fun key => ?_)
      rw [get?_canonical_members ascending.distinct]
      cases found : Fields.get? (canonical.members fields) key with
      | none => rfl
      | some value => exact congrArg some (fixed _ (Fields.mem_of_get? found))
  | _ => rfl

/-! A document with the canonical form of another one has its shape. -/

section Shape
variable {document : Json}

@[simp] theorem canonical_eq_string {value : String} :
    document.canonical = .string value ↔ document = .string value := by
  cases document <;> simp [canonical]

@[simp] theorem canonical_eq_boolean {value : Bool} :
    document.canonical = .boolean value ↔ document = .boolean value := by
  cases document <;> simp [canonical]

@[simp] theorem canonical_eq_double {value : Float} :
    document.canonical = .double value ↔ document = .double value := by
  cases document <;> simp [canonical]

theorem array_of_canonical {items : List Json} (same : document.canonical = canonical (.array items)) :
    ∃ others, document = .array others ∧ others.map canonical = items.map canonical := by
  rw [canonical_array] at same
  cases document with
  | array others =>
      rw [canonical_array] at same
      exact ⟨others, rfl, Json.array.inj same⟩
  | _ => cases same

theorem object_of_canonical {fields : List (String × Json)} (keyed : document.Keyed) (distinct : Fields.Distinct fields)
    (same : document.canonical = canonical (.object fields)) :
    ∃ others, document = .object others ∧ Fields.Distinct others ∧ (∀ field ∈ others, field.2.Keyed) ∧
      ∀ key, (Fields.get? others key).map canonical = (Fields.get? fields key).map canonical := by
  cases document with
  | object others =>
      cases keyed with
      | object distinct' each => exact ⟨others, rfl, distinct', each, (canonical_object_iff distinct' distinct).mp same⟩
  | _ => cases same

end Shape

/-! Readers that go down into a document, as readers of its fields and items. -/

theorem field?_object (names : List String) (fields : List (String × Json)) (key : String) :
    field? names (.object fields) key = Fields.get? fields key := by
  change (member? (.object fields) key).map _ = _
  unfold member?
  dsimp only
  split
  · next found => exact found.symm
  · next missing => exact missing.symm

theorem tag?_object (fields : List (String × Json)) (key : String) :
    (tag? (.object fields) key).map (·.1) = Fields.get? fields key := field?_object [] fields key

theorem items?_mapM {α : Type} (read : Json → Option α) (document : Json) :
    (document.items?.bind fun items => items.mapM fun item => read item.1) = list? read document := by
  cases document with
  | array items =>
      change List.mapM _ (items.attach.map _) = items.mapM read
      rw [List.mapM_map]
      conv => rhs; rw [← List.attach_map_subtype_val items, List.mapM_map]
      rfl
  | _ => rfl

theorem members?_mapM {α : Type} (read : Json → Option α) (document : Json) :
    (document.members?.bind fun members => members.mapM fun member => (read member.2.1).map (member.1, ·)) =
      map? read document := by
  cases document with
  | object fields =>
      change List.mapM _ (fields.attach.map _) = fields.mapM _
      rw [List.mapM_map]
      conv => rhs; rw [← List.attach_map_subtype_val fields, List.mapM_map]
      rfl
  | _ => rfl

end Json

namespace Ir
open Json

section Records
variable {α β γ δ : Type} {check : α → Bool} {read : Json → Option α} {write : α → Json} {view : α → β}

-- What was found reads as what was written.
def Shows (found written : Option Json) : Prop :=
  found.map canonical = written.map canonical ∧ ∀ document ∈ found, document.Keyed

theorem shows_object {document : Json} {fields : List (String × Json)} (keyed : document.Keyed)
    (same : document.canonical = canonical (.object fields)) (distinct : Fields.Distinct fields) (names : List String)
    (key : String) : Shows (document.field? names key) (Fields.get? fields key) := by
  obtain ⟨others, rfl, _, each, alike⟩ := object_of_canonical keyed distinct same
  rw [field?_object]
  exact ⟨alike key, fun found member => each _ (Fields.mem_of_get? member)⟩

theorem shows_tag {document : Json} {fields : List (String × Json)} (keyed : document.Keyed)
    (same : document.canonical = canonical (.object fields)) (distinct : Fields.Distinct fields) (key : String) :
    Shows ((document.tag? key).map (·.1)) (Fields.get? fields key) := by
  have shows := shows_object keyed same distinct [] key
  obtain ⟨others, rfl, _⟩ := object_of_canonical keyed distinct same
  rwa [tag?_object, ← field?_object [] others key]

theorem shows_record {document : Json} {entries : List Entry} (keyed : document.Keyed)
    (same : document.canonical = canonical (record entries)) (distinct : Fields.Distinct entries) (names : List String)
    (key : String) : Shows (document.field? names key) (Fields.get? entries key).join := by
  rw [← distinct.get?_present]
  exact shows_object keyed same distinct.present names key

theorem Shows.text {found : Option Json} {text : String} (shows : Shows found (some (.string text))) :
    found = some (.string text) := by
  obtain ⟨document, rfl, same⟩ := Option.map_eq_some_iff.mp shows.1
  rw [canonical_eq_string.mp same]

-- The result is a thing that passes the check and is seen as the one that was written.
def Recovers (check : α → Bool) (view : α → β) (x : α) (result : Option α) : Prop :=
  ∃ y, result = some y ∧ check y = true ∧ view y = view x

-- A thing is read back from its document, in whatever order keys stand there.
def ReadsAt (check : α → Bool) (read : Json → Option α) (write : α → Json) (view : α → β) (x : α) : Prop :=
  ∀ document : Json, document.Keyed → document.canonical = (write x).canonical → Recovers check view x (read document)

-- All things that pass the check are.
def ReadsBack (check : α → Bool) (read : Json → Option α) (write : α → Json) (view : α → β) : Prop :=
  ∀ x, check x = true → ReadsAt check read write view x

-- Reading goes on with whatever was recovered.
theorem Recovers.bind {x : α} {z : γ} {result : Option α} {next : α → Option γ} {check' : γ → Bool} {view' : γ → δ}
    (first : Recovers check view x result)
    (behind : ∀ y, check y = true → view y = view x → Recovers check' view' z (next y)) :
    Recovers check' view' z (result >>= next) := by
  obtain ⟨y, rfl, proper, same⟩ := first
  exact behind y proper same

-- Each value is read as one that is seen as the key tells.
theorem map?_seen {documents : Fields Json} (seen : String → Option β)
    (each : ∀ field ∈ documents, ∃ y, read field.2 = some y ∧ check y = true ∧ some (view y) = seen field.1) :
    ∃ ys, map? read (.object documents) = some ys ∧ ys.keys = documents.keys ∧ ys.all (check ·.2) = true ∧
      ∀ key, (ys.get? key).map view = (documents.get? key).bind fun _ => seen key := by
  unfold map?
  dsimp only
  induction documents with
  | nil => exact ⟨[], rfl, rfl, rfl, fun _ => rfl⟩
  | cons field documents ih =>
      obtain ⟨key, document⟩ := field
      obtain ⟨⟨y, read', proper, seen'⟩, others⟩ := List.forall_mem_cons.mp each
      obtain ⟨ys, reads, keys, propers, seens⟩ := ih others
      refine ⟨(key, y) :: ys, ?_, congrArg (key :: ·) keys, Bool.and_eq_true_iff.mpr ⟨proper, propers⟩, fun name => ?_⟩
      · rw [List.mapM_cons, reads]
        dsimp only
        rw [read']
        rfl
      · rw [Fields.get?, Fields.get?]
        split
        · next same => exact same ▸ seen'
        · exact seens name

namespace ReadsAt

theorem list {items : List α} (each : ∀ item ∈ items, ReadsAt check read write view item) :
    ReadsAt (·.all check) (list? read) (listJson write) (List.map view) items := by
  intro document keyed same
  obtain ⟨documents, rfl, alike⟩ := array_of_canonical same
  cases keyed with
  | array keyed =>
  change Recovers _ _ _ (documents.mapM read)
  clear same
  induction items generalizing documents with
  | nil =>
      obtain rfl := List.map_eq_nil_iff.mp alike
      exact ⟨[], rfl, rfl, rfl⟩
  | cons item items ih =>
      obtain ⟨document, documents, rfl, first, others⟩ := List.map_eq_cons_iff.mp alike
      obtain ⟨one, rest⟩ := List.forall_mem_cons.mp keyed
      obtain ⟨recover, recovers⟩ := List.forall_mem_cons.mp each
      obtain ⟨y, read', proper, seen⟩ := recover document one first
      obtain ⟨ys, reads, propers, seens⟩ := ih recovers documents others rest
      refine ⟨y :: ys, ?_, Bool.and_eq_true_iff.mpr ⟨proper, propers⟩, ?_⟩
      · rw [List.mapM_cons, read', reads]
        rfl
      · rw [List.map_cons, List.map_cons, seen, seens]

theorem map {fields : Fields α} (distinct : fields.Distinct)
    (each : ∀ field ∈ fields, ReadsAt check read write view field.2) :
    ReadsAt (isProperMap check) (map? read) (fun fields => .object (fields.map fun (key, value) => (key, write value)))
      (arrange view) fields := by
  intro document keyed same
  obtain ⟨documents, rfl, distinct', keyed', alike⟩ := object_of_canonical keyed (distinct.map write) same
  simp only [Fields.get?_map, Option.map_map] at alike
  have found : ∀ field ∈ documents, ∃ y, read field.2 = some y ∧ check y = true ∧
      some (view y) = (fields.get? field.1).map view := by
    intro field member
    have written := alike field.1
    rw [distinct'.get?_of_mem member] at written
    obtain ⟨value, present, same⟩ := Option.map_eq_some_iff.mp written.symm
    obtain ⟨y, read', proper, seen⟩ :=
      each (field.1, value) (Fields.mem_of_get? present) field.2 (keyed' field member) same.symm
    exact ⟨y, read', proper, by rw [present, Option.map_some, seen]⟩
  obtain ⟨ys, reads, keys, propers, seen⟩ := map?_seen (fun key => (fields.get? key).map view) found
  have distinctKeys : Fields.Distinct ys := by
    unfold Fields.Distinct
    rwa [keys]
  refine ⟨ys, reads, Bool.and_eq_true_iff.mpr ⟨decide_eq_true distinctKeys, propers⟩, ?_⟩
  refine ((distinctKeys.map view).sorted_inj (distinct.map view)).mpr fun key => ?_
  rw [Fields.get?_map, Fields.get?_map, seen]
  have here := alike key
  cases held : fields.get? key with
  | none =>
      rw [held] at here
      rw [Option.map_eq_none_iff.mp here]
      rfl
  | some value =>
      rw [held] at here
      obtain ⟨document, present, _⟩ := Option.map_eq_some_iff.mp here
      rw [present]
      rfl

section Fields
variable {x : α} {z : γ} {found : Option Json} {check' : γ → Bool} {view' : γ → δ}

theorem present (reads : ReadsAt check read write view x) (shows : Shows found (some (write x))) :
    ∃ document, found = some document ∧ Recovers check view x (read document) := by
  obtain ⟨same, keyed⟩ := shows
  obtain ⟨document, rfl, alike⟩ := Option.map_eq_some_iff.mp same
  exact ⟨document, rfl, reads document (keyed document rfl) alike⟩

-- A field that every record has.
theorem required {next : α → Option γ} (reads : ReadsAt check read write view x) (shows : Shows found (some (write x)))
    (behind : ∀ y, check y = true → view y = view x → Recovers check' view' z (next y)) :
    Recovers check' view' z (found >>= fun document => read document >>= next) := by
  obtain ⟨document, rfl, recovers⟩ := reads.present shows
  exact recovers.bind behind

-- A field whose value is all there is.
theorem wrapped {make : α → γ} (reads : ReadsAt check read write view x) (shows : Shows found (some (write x)))
    (behind : ∀ y, check y = true → view y = view x → check' (make y) = true ∧ view' (make y) = view' z) :
    Recovers check' view' z (found >>= fun document => (read document).map make) := by
  obtain ⟨document, rfl, y, read', proper, seen⟩ := reads.present shows
  exact ⟨make y, congrArg (·.map make) read', behind y proper seen⟩

-- A field that may be left out or null; what is written there is not null.
theorem optional {x : Option α} (reads : ∀ y ∈ x, ReadsAt check read write view y)
    (some : ∀ x, (write x).canonical ≠ .null) (shows : Shows found (x.map write)) :
    Recovers (·.all check) (·.map view) x (optional? read found) := by
  obtain ⟨same, keyed⟩ := shows
  cases x with
  | none =>
      obtain rfl := Option.map_eq_none_iff.mp same
      exact ⟨none, rfl, rfl, rfl⟩
  | some x =>
      obtain ⟨document, rfl, alike⟩ := Option.map_eq_some_iff.mp same
      obtain ⟨y, read', proper, seen⟩ := reads x rfl document (keyed document rfl) alike
      refine ⟨.some y, ?_, proper, congrArg Option.some seen⟩
      unfold optional?
      split
      · next none => cases none
      · next null =>
        cases null
        exact absurd alike.symm (some x)
      · next value present =>
        cases present
        rw [read']
        rfl

-- A list or map that is left out when it is empty.
theorem orEmpty {items : List α} {check : List α → Bool} {read : Json → Option (List α)} {write : List α → Json}
    {view : List α → β} (proper : check items = true) (reads : ReadsAt check read write view items)
    (shows : Shows found (unlessEmpty write items)) : Recovers check view items (orEmpty? read found) := by
  obtain ⟨same, keyed⟩ := shows
  cases items with
  | nil =>
      obtain rfl := Option.map_eq_none_iff.mp same
      exact ⟨[], rfl, proper, rfl⟩
  | cons item items =>
      obtain ⟨document, rfl, alike⟩ := Option.map_eq_some_iff.mp same
      exact reads document (keyed document rfl) alike

end Fields
end ReadsAt

namespace ReadsBack

theorem list (reads : ReadsBack check read write view) :
    ReadsBack (·.all check) (list? read) (listJson write) (List.map view) :=
  fun _ proper => .list fun item member => reads item (List.all_eq_true.mp proper item member)

theorem map (reads : ReadsBack check read write view) :
    ReadsBack (isProperMap check) (map? read)
      (fun fields => .object (fields.map fun (key, value) => (key, write value))) (arrange view) := by
  intro fields proper
  obtain ⟨distinct, each⟩ := Bool.and_eq_true_iff.mp proper
  exact .map (of_decide_eq_true distinct) fun field member => reads field.2 (List.all_eq_true.mp each field member)

theorem optional (reads : ReadsBack check read write view) {x : Option α} (proper : x.all check = true)
    (some : ∀ x, (write x).canonical ≠ .null) {found : Option Json} (shows : Shows found (x.map write)) :
    Recovers (·.all check) (·.map view) x (optional? read found) :=
  ReadsAt.optional (fun y present => reads y ((Option.all_eq_true _ _).mp proper y present)) some shows

end ReadsBack

/-! What has no map in it is read back as it is. -/

abbrev ReadsSame (read : Json → Option α) (write : α → Json) : Prop := ReadsBack (fun _ => true) read write id

namespace ReadsSame
variable {x : α} {z : γ} {found : Option Json} {check' : γ → Bool} {view' : γ → δ}

theorem required {next : α → Option γ} (reads : ReadsSame read write) (shows : Shows found (some (write x)))
    (behind : Recovers check' view' z (next x)) :
    Recovers check' view' z (found >>= fun document => read document >>= next) :=
  ReadsAt.required (reads x rfl) shows fun y _ same => by
    rw [id, id] at same
    exact same ▸ behind

theorem wrapped {make : α → γ} (reads : ReadsSame read write) (shows : Shows found (some (write x)))
    (proper : check' (make x) = true) (same : view' (make x) = view' z) :
    Recovers check' view' z (found >>= fun document => (read document).map make) :=
  ReadsAt.wrapped (reads x rfl) shows fun y _ seen => by
    rw [id, id] at seen
    exact seen ▸ ⟨proper, same⟩

theorem optional {x : Option α} {next : Option α → Option γ} (reads : ReadsSame read write)
    (some : ∀ x, (write x).canonical ≠ .null) (shows : Shows found (x.map write))
    (behind : Recovers check' view' z (next x)) : Recovers check' view' z (optional? read found >>= next) := by
  have recovers := ReadsAt.optional (fun y _ => reads y rfl) some shows
  refine recovers.bind fun y _ same => ?_
  rw [Option.map_id_fun, id, id] at same
  exact same ▸ behind

theorem list (reads : ReadsSame read write) : ReadsSame (list? read) (listJson write) := by
  intro items _ document keyed same
  obtain ⟨ys, read', _, seen⟩ := ReadsAt.list (fun item _ => reads item rfl) document keyed same
  rw [List.map_id, List.map_id] at seen
  exact ⟨ys, read', rfl, seen⟩

end ReadsSame

theorem text_reads : ReadsSame string? Json.string := by
  intro text _ document _ same
  obtain rfl := canonical_eq_string.mp same
  exact ⟨text, rfl, rfl, rfl⟩

theorem flag_reads : ReadsSame boolean? Json.boolean := by
  intro flag _ document _ same
  obtain rfl := canonical_eq_boolean.mp same
  exact ⟨flag, rfl, rfl, rfl⟩

theorem number_reads : ReadsSame number? Json.double := by
  intro number _ document _ same
  obtain rfl := canonical_eq_double.mp same
  exact ⟨number, rfl, rfl, rfl⟩

-- A kind, which may be more than a text elsewhere.
theorem kind_reads (lenient : Bool) : ReadsSame (word? lenient) Json.string := by
  intro text _ document _ same
  obtain rfl := canonical_eq_string.mp same
  exact ⟨text, rfl, rfl, rfl⟩

theorem word_reads {ofWord? : String → Option α} {word : α → String} (known : ∀ x, ofWord? (word x) = some x) :
    ReadsSame (choice? ofWord?) (fun x => Json.string (word x)) := by
  intro x _ document _ same
  obtain rfl := canonical_eq_string.mp same
  exact ⟨x, known x, rfl, rfl⟩

theorem names_read : ReadsSame names? namesJson := text_reads.list

theorem text_ne_null (text : String) : (Json.string text).canonical ≠ .null := nofun

/-! In what is written no key stands twice, as long as none does in a map. -/

def WritesKeyed (check : α → Bool) (write : α → Json) : Prop := ∀ x, check x = true → (write x).Keyed

namespace WritesKeyed
variable {entries : List Entry}

theorem list (keyed : WritesKeyed check write) : WritesKeyed (·.all check) (listJson write) := by
  intro items proper
  refine .array fun document member => ?_
  obtain ⟨item, within, rfl⟩ := List.mem_map.mp member
  exact keyed item (List.all_eq_true.mp proper item within)

theorem map (keyed : WritesKeyed check write) :
    WritesKeyed (isProperMap check) (fun fields => .object (fields.map fun (key, value) => (key, write value))) := by
  intro fields proper
  obtain ⟨distinct, each⟩ := Bool.and_eq_true_iff.mp proper
  refine .object ((of_decide_eq_true distinct).map write) fun entry member => ?_
  obtain ⟨field, within, rfl⟩ := List.mem_map.mp member
  exact keyed field.2 (List.all_eq_true.mp each field within)

theorem optional (keyed : WritesKeyed check write) {x : Option α} (proper : x.all check = true) :
    ∀ document ∈ x.map write, document.Keyed := by
  intro document present
  obtain ⟨y, rfl, rfl⟩ := Option.map_eq_some_iff.mp present
  exact keyed y proper

theorem unlessEmpty {check : List α → Bool} {write : List α → Json} (keyed : WritesKeyed check write) {items : List α}
    (proper : check items = true) : ∀ document ∈ unlessEmpty write items, document.Keyed := by
  intro document present
  unfold Ir.unlessEmpty at present
  split at present
  · cases present
  · cases present
    exact keyed items proper

end WritesKeyed

theorem keyed_list (each : ∀ item, (write item).Keyed) (items : List α) : (listJson write items).Keyed := by
  refine .array fun document member => ?_
  obtain ⟨item, _, rfl⟩ := List.mem_map.mp member
  exact each item

@[simp] theorem keyed_names (names : List String) : (namesJson names).Keyed := keyed_list .string names

theorem keyed_record {entries : List Entry} (distinct : Fields.Distinct entries)
    (each : ∀ entry ∈ entries, ∀ document ∈ entry.2, document.Keyed) : (record entries).Keyed := by
  refine .object distinct.present fun field member => ?_
  exact each _ (Fields.mem_present.mp (show (field.1, field.2) ∈ Fields.present entries from member)) _ rfl

end Records
end Ir
end Charter

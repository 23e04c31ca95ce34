import Charter.Proofs.Record
import Charter.Proofs.Transaction
import Mathlib.Data.List.Induction
import Mathlib.Data.List.Nodup

/-!
What a store keeps. No id stands twice on a shelf, every record stands under its own id, and the ids stand in
the order in which they came, each counted from the last time that it was missing.
-/

namespace Charter

namespace Shelf

-- The ids of a shelf, in its order.
def ids (shelf : Shelf) : List String := Fields.keys shelf.records

-- No id stands twice, and every record stands under its own.
structure Keyed (shelf : Shelf) : Prop where
  distinct : shelf.ids.Nodup
  named : ∀ entry ∈ shelf.records, Record.id? entry.2 = some entry.1

variable {shelf : Shelf} {id : String} {record patch : Record}

namespace Keyed

theorem empty : Keyed {} := ⟨.nil, nofun⟩

theorem id?_of_get? (keyed : shelf.Keyed) (found : shelf.get? id = some record) : Record.id? record = some id :=
  keyed.named (id, record) (Fields.mem_of_get? found)

theorem insert (keyed : shelf.Keyed) (named : Record.id? record = some id) : (shelf.insert id record).Keyed := by
  refine ⟨Fields.Distinct.put keyed.distinct id record, fun entry member => ?_⟩
  rcases Fields.mem_put member with rfl | old
  · exact named
  · exact keyed.named entry old

theorem patched (keyed : shelf.Keyed) (found : shelf.get? id = some record) :
    (shelf.insert id (Record.patched record patch)).Keyed :=
  keyed.insert ((Record.id?_patched record patch).trans (keyed.id?_of_get? found))

theorem erase (keyed : shelf.Keyed) (id : String) : (shelf.erase id).Keyed :=
  ⟨Fields.Distinct.erase keyed.distinct id, fun entry member => keyed.named entry (Fields.mem_of_mem_erase member)⟩

theorem fill (around : Surroundings) (records : List Record) (usage : Usage) :
    (Shelf.fill around records usage).1.Keyed := by
  unfold Shelf.fill
  generalize ready : (({}, usage) : Shelf × Usage) = start
  have keyed : start.1.Keyed := ready ▸ empty
  clear ready
  induction records generalizing start with
  | nil => exact keyed
  | cons record rest ih => exact ih _ (keyed.insert (Record.id?_identified rfl))

-- The ids that the records have are those that they stand under.
theorem map_id?_all (keyed : shelf.Keyed) : shelf.all.map Record.id? = shelf.ids.map some := by
  unfold all ids Fields.keys
  rw [List.map_map, List.map_map]
  exact List.map_congr_left keyed.named

-- At most one record has an id: the one that is found by it.
theorem filter_all (keyed : shelf.Keyed) (id : String) :
    shelf.all.filter (Record.id? · == some id) = (shelf.get? id).toList := by
  obtain ⟨records⟩ := shelf
  unfold all get?
  induction records with
  | nil => rfl
  | cons head rest ih =>
      obtain ⟨key, record⟩ := head
      obtain ⟨distinct, named⟩ := keyed
      obtain ⟨fresh, others⟩ := Fields.distinct_cons.mp distinct
      obtain ⟨first, behind⟩ := List.forall_mem_cons.mp named
      have below := ih ⟨others, behind⟩
      rw [List.map_cons, List.filter_cons, first, Fields.get?]
      by_cases same : key = id
      · subst same
        rw [Fields.get?_of_not_mem fresh] at below
        rw [if_pos BEq.rfl, below, if_pos rfl]
        rfl
      · rw [if_neg (by simpa using same), below, if_neg same]

theorem get?_of_mem_all (keyed : shelf.Keyed) (member : record ∈ shelf.all) (named : Record.id? record = some id) :
    shelf.get? id = some record := by
  have found : record ∈ shelf.all.filter (Record.id? · == some id) :=
    List.mem_filter.mpr ⟨member, beq_iff_eq.mpr named⟩
  rwa [keyed.filter_all, Option.mem_toList] at found

theorem nodup_all (keyed : shelf.Keyed) : shelf.all.Nodup := by
  have ids : (shelf.all.map Record.id?).Nodup := by
    rw [keyed.map_id?_all]
    exact keyed.distinct.map fun _ _ => Option.some.inj
  exact ids.of_map _

end Keyed

theorem ids_insert (shelf : Shelf) (id : String) (record : Record) :
    (shelf.insert id record).ids = if id ∈ shelf.ids then shelf.ids else shelf.ids ++ [id] := Fields.keys_put ..

-- One change keeps the order of the ids that stay, and puts one that comes behind them.
structure Follows (before after : Shelf) : Prop where
  keyed : after.Keyed
  order : after.ids.Sublist before.ids ∨ ∃ id, id ∉ before.ids ∧ after.ids = before.ids ++ [id]

namespace Follows

theorem refl (keyed : shelf.Keyed) : shelf.Follows shelf := ⟨keyed, .inl (.refl _)⟩

theorem of_insert (inserted : (shelf.insert id record).Keyed) : shelf.Follows (shelf.insert id record) := by
  refine ⟨inserted, ?_⟩
  rw [ids_insert]
  split
  · exact .inl (.refl _)
  · next fresh => exact .inr ⟨id, fresh, rfl⟩

theorem of_erase (keyed : shelf.Keyed) (id : String) : shelf.Follows (shelf.erase id) :=
  ⟨keyed.erase id, .inl (Fields.keys_erase_sublist ..)⟩

theorem of_clear (shelf : Shelf) : shelf.Follows {} := ⟨.empty, .inl (List.nil_sublist _)⟩

end Follows
end Shelf

-- A request that changes what a store keeps.
inductive StoreChange where
  | create (record : Record)
  | update (id : String) (patch : Record)
  | delete (id : String)
  | clear

namespace EngineState

section Changes
variable (around : Surroundings) (name : String)

-- The state after a change was asked of the store of an entity.
def change (state : EngineState) : StoreChange → EngineState
  | .create record => (Transaction.insertRecord around name record state).2
  | .update id patch => (Transaction.updateRecord name id patch state).2
  | .delete id => (Transaction.deleteRecord name id state).2
  | .clear => (Transaction.clearRecords name state).2

def changeAll (state : EngineState) (changes : List StoreChange) : EngineState :=
  changes.foldl (change around name) state

-- The ids in the store of an entity, in its order.
def ids (state : EngineState) : List String := ((Fields.get? state.stores name).map (·.shelf.ids)).getD []

-- The change of this number, counted from zero, brought in an id that was missing before, and since then it has
-- never been missing.
structure Arrives (start : EngineState) (changes : List StoreChange) (turn : Nat) (id : String) : Prop where
  within : turn < changes.length
  missing : id ∉ (start.changeAll around name (changes.take turn)).ids name
  kept : ∀ later, turn < later → later ≤ changes.length →
    id ∈ (start.changeAll around name (changes.take later)).ids name

end Changes

variable {around : Surroundings} {name id : String} {state start : EngineState} {shelf : Shelf}
  {changes : List StoreChange} {last : StoreChange} {turn : Nat}

theorem ids_of (opened : Fields.get? state.stores name = some { shelf }) : state.ids name = shelf.ids := by
  unfold ids
  rw [opened]
  rfl

theorem change_follows (opened : Fields.get? state.stores name = some { shelf }) (keyed : shelf.Keyed)
    (change : StoreChange) :
    ∃ after, Fields.get? (state.change around name change).stores name = some { shelf := after } ∧
      shelf.Follows after := by
  have stored : ∀ after : Shelf, Fields.get? (Fields.put state.stores name { shelf := after }) name =
      some { shelf := after } := fun after => by rw [Fields.get?_put, if_pos rfl]
  have moved : ∀ {t u : EngineState}, t = u → Fields.get? t.stores name = Fields.get? u.stores name :=
    fun same => by rw [same]
  cases change with
  | create record =>
      obtain ⟨same, _⟩ | ⟨store, id, kept, usage, found, _, identified, _, wrote⟩ :=
        Transaction.insertRecord_cases (rfl : Transaction.insertRecord around name record state = _)
      · exact ⟨shelf, (moved same).trans opened, .refl keyed⟩
      · cases opened.symm.trans found
        have inserted := keyed.insert (Record.id?_identified identified)
        exact ⟨_, (moved wrote).trans (stored _), .of_insert inserted⟩
  | update id patch =>
      obtain ⟨same, _⟩ | ⟨store, existing, found, _, present, _, wrote⟩ :=
        Transaction.updateRecord_cases (rfl : Transaction.updateRecord name id patch state = _)
      · exact ⟨shelf, (moved same).trans opened, .refl keyed⟩
      · cases opened.symm.trans found
        exact ⟨_, (moved wrote).trans (stored _), .of_insert (keyed.patched present)⟩
  | delete id =>
      obtain same | ⟨store, found, wrote⟩ :=
        Transaction.deleteRecord_cases (rfl : Transaction.deleteRecord name id state = _)
      · exact ⟨shelf, (moved same).trans opened, .refl keyed⟩
      · cases opened.symm.trans found
        exact ⟨_, (moved wrote).trans (stored _), .of_erase keyed id⟩
  | clear =>
      obtain same | ⟨store, found, wrote⟩ :=
        Transaction.clearRecords_cases (rfl : Transaction.clearRecords name state = _)
      · exact ⟨shelf, (moved same).trans opened, .refl keyed⟩
      · cases opened.symm.trans found
        exact ⟨_, (moved wrote).trans (stored _), .of_clear shelf⟩

theorem changeAll_append : start.changeAll around name (changes ++ [last]) =
    (start.changeAll around name changes).change around name last := by
  unfold changeAll
  rw [List.foldl_append]
  rfl

-- With one more change, an id that is there has come as before, or with that change.
theorem arrives_append : start.Arrives around name (changes ++ [last]) turn id ↔
    id ∈ (start.changeAll around name (changes ++ [last])).ids name ∧
      (start.Arrives around name changes turn id ∨
        turn = changes.length ∧ id ∉ (start.changeAll around name changes).ids name) := by
  have whole : (changes ++ [last]).take (changes.length + 1) = changes ++ [last] :=
    List.take_of_length_le (by simp)
  have early : ∀ {count}, count ≤ changes.length → (changes ++ [last]).take count = changes.take count :=
    fun bound => List.take_append_of_le_length bound
  constructor
  · rintro ⟨within, missing, kept⟩
    rw [List.length_append, List.length_singleton] at within kept
    have present := kept (changes.length + 1) within (Nat.le_refl _)
    rw [whole] at present
    rw [early (Nat.le_of_lt_succ within)] at missing
    refine ⟨present, ?_⟩
    rcases Nat.lt_succ_iff_lt_or_eq.mp within with before | rfl
    · refine .inl ⟨before, missing, fun later behind bound => ?_⟩
      rw [← early bound]
      exact kept later behind (Nat.le_succ_of_le bound)
    · rw [List.take_length] at missing
      exact .inr ⟨rfl, missing⟩
  · rintro ⟨present, ⟨within, missing, kept⟩ | ⟨rfl, missing⟩⟩
    · refine ⟨by simp; omega, by rwa [early (Nat.le_of_lt within)], fun later behind bound => ?_⟩
      rw [List.length_append, List.length_singleton] at bound
      rcases Nat.le_succ_iff.mp bound with before | rfl
      · rw [early before]
        exact kept later behind before
      · rwa [whole]
    · refine ⟨by simp, by rwa [early (Nat.le_refl _), List.take_length], fun later behind bound => ?_⟩
      rw [List.length_append, List.length_singleton] at bound
      rwa [Nat.le_antisymm bound behind, whole]

-- The ids are those that have arrived, in the order of their arrivals.
structure ByArrival (around : Surroundings) (name : String) (start : EngineState) (changes : List StoreChange)
    (ids : List String) : Prop where
  arrived : ∀ id, id ∈ ids ↔ ∃ turn, start.Arrives around name changes turn id
  ordered : ids.Pairwise fun first second => ∀ turn turn', start.Arrives around name changes turn first →
    start.Arrives around name changes turn' second → turn < turn'

theorem ByArrival.nil : ByArrival around name start [] [] :=
  ⟨fun _ => ⟨nofun, fun ⟨_, arrives⟩ => absurd arrives.within (Nat.not_lt_zero _)⟩, .nil⟩

-- `before` and `after` are the shelves around one more change.
theorem ByArrival.append {before after : Shelf} (listed : start.ByArrival around name changes before.ids)
    (opened : Fields.get? (start.changeAll around name changes).stores name = some { shelf := before })
    (changed : Fields.get? (start.changeAll around name (changes ++ [last])).stores name = some { shelf := after })
    (follows : before.Follows after) : start.ByArrival around name (changes ++ [last]) after.ids := by
  have arrives : ∀ {id turn}, start.Arrives around name (changes ++ [last]) turn id ↔
      id ∈ after.ids ∧ (start.Arrives around name changes turn id ∨ turn = changes.length ∧ id ∉ before.ids) := by
    intro id turn
    rw [arrives_append, ids_of opened, ids_of changed]
  constructor
  · intro id
    simp only [arrives]
    refine ⟨fun present => ?_, fun ⟨_, present, _⟩ => present⟩
    by_cases old : id ∈ before.ids
    · obtain ⟨turn, arrived⟩ := (listed.arrived id).mp old
      exact ⟨turn, present, .inl arrived⟩
    · exact ⟨changes.length, present, .inr ⟨rfl, old⟩⟩
  -- What stood there before has arrived as before, and what is new has arrived last.
  have early : ∀ {id turn}, id ∈ before.ids → start.Arrives around name (changes ++ [last]) turn id →
      start.Arrives around name changes turn id := by
    intro id turn old arrived
    rcases (arrives.mp arrived).2 with earlier | ⟨_, missing⟩
    · exact earlier
    · exact absurd old missing
  have kept : before.ids.Pairwise fun first second => ∀ turn turn',
      start.Arrives around name (changes ++ [last]) turn first →
      start.Arrives around name (changes ++ [last]) turn' second → turn < turn' := by
    refine listed.ordered.imp_of_mem fun one two less turn turn' arrived arrived' => ?_
    exact less turn turn' (early one arrived) (early two arrived')
  rcases follows.order with sublist | ⟨id, fresh, same⟩
  · exact kept.sublist sublist
  · rw [same]
    refine List.pairwise_append.mpr ⟨kept, List.pairwise_singleton _ _, fun first old second new turn turn' => ?_⟩
    cases List.mem_singleton.mp new
    intro arrived arrived'
    rcases (arrives.mp arrived').2 with earlier | ⟨rfl, _⟩
    · exact absurd ((listed.arrived id).mpr ⟨turn', earlier⟩) fresh
    · exact (early old arrived).within

theorem changeAll_represents (empty : Fields.get? start.stores name = some {}) (changes : List StoreChange) :
    ∃ shelf, Fields.get? (start.changeAll around name changes).stores name = some { shelf } ∧ shelf.Keyed ∧
      start.ByArrival around name changes shelf.ids := by
  induction changes using List.reverseRecOn with
  | nil => exact ⟨{}, empty, .empty, .nil⟩
  | append_singleton changes last ih =>
      obtain ⟨before, opened, keyed, listed⟩ := ih
      obtain ⟨after, changed, follows⟩ := @change_follows around _ _ _ opened keyed last
      rw [← changeAll_append] at changed
      exact ⟨after, changed, follows.keyed, listed.append opened changed follows⟩

end EngineState

-- Whatever changes are asked of an empty store: no id stands twice, every record stands under its own id, a
-- record is found by an id exactly if it is the only one that has it, and all are listed in the order in which
-- their ids came, each counted from the last time that it was missing.
theorem records_listed_by_arrival {around : Surroundings} {name : String} {start : EngineState}
    (empty : Fields.get? start.stores name = some {}) (changes : List StoreChange) :
    let last := start.changeAll around name changes
    ∃ shelf : Shelf, Fields.get? last.stores name = some { shelf } ∧
      Transaction.records name last = (.ok shelf.all, last) ∧
      (∀ id, Transaction.record? name id last = (.ok (shelf.get? id), last)) ∧
      shelf.Keyed ∧
      (∀ id record, shelf.get? id = some record ↔ shelf.all.filter (Record.id? · == some id) = [record]) ∧
      shelf.all.map Record.id? = shelf.ids.map some ∧
      start.ByArrival around name changes shelf.ids := by
  intro last
  obtain ⟨shelf, opened, keyed, listed⟩ := EngineState.changeAll_represents empty changes
  refine ⟨shelf, opened, Transaction.records_of opened rfl, fun id => Transaction.record?_of opened rfl, keyed,
    fun id record => ?_, keyed.map_id?_all, listed⟩
  rw [keyed.filter_all, Option.toList_eq_singleton_iff]

-- The number and the text of the id are one, so the last record takes the place of the third. The id of a patch
-- moves nothing, and what was deleted comes back behind all others.
theorem notes_listed_by_arrival :
    let around : Surroundings := ⟨fun _ => 0, fun _ => "fresh"⟩
    let start : EngineState := { stores := [("Note", {})] }
    let changes : List StoreChange := [
      .create [("id", .string "b")], .create [("text", .string "plain")], .create [("id", .integer 7)],
      .update "b" [("id", .string "moved")], .delete "b", .create [("id", .string "b")],
      .create [("id", .string "7")]]
    let last := start.changeAll around "Note" changes
    Fields.get? start.stores "Note" = some {} ∧ last.ids "Note" = ["fresh", "7", "b"] ∧
    ∃ shelf : Shelf, Transaction.records "Note" last = (.ok shelf.all, last) ∧
      shelf.all.map Record.id? = [some "fresh", some "7", some "b"] ∧
      start.ByArrival around "Note" changes ["fresh", "7", "b"] := by
  intro around start changes last
  have empty : Fields.get? start.stores "Note" = some {} := rfl
  have ids : last.ids "Note" = ["fresh", "7", "b"] := by decide +kernel
  obtain ⟨shelf, opened, listed, _, _, _, all, arrived⟩ :=
    @records_listed_by_arrival around _ _ empty changes
  rw [← EngineState.ids_of opened, ids] at all arrived
  exact ⟨empty, ids, shelf, listed, all, arrived⟩

end Charter

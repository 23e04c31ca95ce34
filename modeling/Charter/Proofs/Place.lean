import Charter.Proofs.Relationship

/-!
Places: an id in the store of an entity. A record that is kept in a place leaves every other place as it was. A
record that stood there is rewritten where it stands in the order of its store, and a new one comes last.
-/

namespace Charter

namespace Stores
variable {stores : Fields Store} {owner id owner' id' : String} {store : Store} {record record' : Record}

-- The record in a place, if there is one.
def held? (stores : Fields Store) (owner id : String) : Option Record :=
  (Fields.get? stores owner).bind (·.shelf.get? id)

-- The stores with another record in a place.
def replaced (stores : Fields Store) (owner id : String) (record : Record) : Fields Store :=
  match Fields.get? stores owner with
  | some store => Fields.put stores owner { store with shelf := store.shelf.insert id record }
  | none => stores

-- There is a record in the place, and its store serves requests.
inductive Serves (stores : Fields Store) (owner id : String) (record : Record) : Prop where
  | intro {store : Store} (opened : Fields.get? stores owner = some store) (serving : store.conduct = .serving)
      (found : store.shelf.get? id = some record)

theorem get?_put_other (other : owner' ≠ owner) :
    Fields.get? (Fields.put stores owner store) owner' = Fields.get? stores owner' := by
  rw [Fields.get?_put, if_neg other.symm]

theorem get?_put_self : Fields.get? (Fields.put stores owner store) owner = some store := by
  rw [Fields.get?_put, if_pos rfl]

theorem replaced_of (opened : Fields.get? stores owner = some store) :
    replaced stores owner id record = Fields.put stores owner { store with shelf := store.shelf.insert id record } := by
  unfold replaced
  rw [opened]

theorem Serves.of_held? (inMemory : StoresInMemory stores) (held : held? stores owner id = some record) :
    Serves stores owner id record := by
  obtain ⟨store, opened, found⟩ := Option.bind_eq_some_iff.mp held
  exact ⟨opened, (inMemory _ _ opened).serving, found⟩

theorem serves_put (serving : store.conduct = .serving) :
    Serves (Fields.put stores owner { store with shelf := store.shelf.insert id record }) owner id record :=
  ⟨get?_put_self, serving, (Fields.get?_put ..).trans (if_pos rfl)⟩

theorem Serves.replaced (serves : Serves stores owner id record) (record' : Record) :
    Serves (replaced stores owner id record') owner id record' := by
  obtain ⟨opened, serving, _⟩ := serves
  rw [replaced_of opened]
  exact serves_put serving

theorem Serves.replaced_self (serves : Serves stores owner id record) :
    Stores.replaced stores owner id record = stores := by
  obtain ⟨opened, _, found⟩ := serves
  rw [replaced_of opened, Shelf.insert, Fields.put_of_get? found]
  exact Fields.put_of_get? opened

theorem Serves.replaced_replaced (serves : Serves stores owner id record) (one other : Record) :
    Stores.replaced (Stores.replaced stores owner id one) owner id other = Stores.replaced stores owner id other := by
  obtain ⟨opened, _, _⟩ := serves
  rw [replaced_of opened, replaced_of get?_put_self, replaced_of opened, Fields.put_put]
  simp only [Shelf.insert, Fields.put_put]

theorem Serves.record? {s : EngineState} (serves : Serves s.stores owner id record) :
    Transaction.record? owner id s = (.ok (some record), s) := by
  obtain ⟨opened, serving, found⟩ := serves
  exact Transaction.record?_of opened (Store.get?_of_serving serving found)

theorem mem_ids (found : store.shelf.get? id = some record) : id ∈ Fields.keys store.shelf.records :=
  List.mem_map_of_mem (Fields.mem_of_get? found)

-- A change in one place is not seen in another.
theorem Serves.held?_replaced (serves : Serves stores owner id record) (apart : (owner, id) ≠ (owner', id'))
    (record' : Record) :
    Stores.held? (Stores.replaced stores owner id record') owner' id' = Stores.held? stores owner' id' := by
  obtain ⟨opened, _, _⟩ := serves
  rw [replaced_of opened]
  unfold Stores.held?
  rw [Fields.get?_put]
  by_cases same : owner = owner'
  · subst same
    rw [if_pos rfl, opened]
    exact (Fields.get?_put ..).trans (if_neg fun equal => apart (congrArg _ equal))
  · rw [if_neg same]

-- Records in different places may be replaced in either order.
theorem Serves.replaced_comm (serves : Serves stores owner id record) (serves' : Serves stores owner' id' record')
    (apart : (owner, id) ≠ (owner', id')) (one other : Record) :
    Stores.replaced (Stores.replaced stores owner id one) owner' id' other =
      Stores.replaced (Stores.replaced stores owner' id' other) owner id one := by
  obtain ⟨opened, _, found⟩ := serves
  obtain ⟨opened', _, found'⟩ := serves'
  rw [replaced_of opened, replaced_of opened']
  by_cases same : owner = owner'
  · subst same
    cases opened.symm.trans opened'
    have ids : id ≠ id' := fun equal => apart (congrArg _ equal)
    rw [replaced_of get?_put_self, replaced_of get?_put_self, Fields.put_put, Fields.put_put]
    simp only [Shelf.insert, Fields.put_comm ids (mem_ids found) (mem_ids found')]
  · rw [replaced_of ((get?_put_other (Ne.symm same)).trans opened'), replaced_of ((get?_put_other same).trans opened)]
    exact Fields.put_comm same (List.mem_map_of_mem (Fields.mem_of_get? opened))
      (List.mem_map_of_mem (Fields.mem_of_get? opened')) _ _

/-! What changes when a record is kept in a place. -/

-- One record took the place of another, in a store that answers. All else stands as it stood.
inductive Rewritten (before after : Fields Store) (owner id : String) (record record' : Record) : Prop where
  | intro {conduct : StoreConduct} {front back : Fields Record} (answers : conduct ≠ .refusing)
      (elsewhere : ∀ other, other ≠ owner → Fields.get? after other = Fields.get? before other)
      (first : id ∉ Fields.keys front)
      (stood : Fields.get? before owner = some ⟨conduct, ⟨front ++ (id, record) :: back⟩⟩)
      (stands : Fields.get? after owner = some ⟨conduct, ⟨front ++ (id, record') :: back⟩⟩)

-- A record came into a place that was free, behind all others of a store that answers. All else stands as it stood.
inductive Extended (before after : Fields Store) (owner id : String) (record : Record) : Prop where
  | intro {conduct : StoreConduct} {records : Fields Record} (answers : conduct ≠ .refusing)
      (elsewhere : ∀ other, other ≠ owner → Fields.get? after other = Fields.get? before other)
      (free : id ∉ Fields.keys records)
      (stood : Fields.get? before owner = some ⟨conduct, ⟨records⟩⟩)
      (stands : Fields.get? after owner = some ⟨conduct, ⟨records ++ [(id, record)]⟩⟩)

section Changes
variable {before after : Fields Store} {s t : EngineState}

theorem rewritten_put (opened : Fields.get? stores owner = some store) (answers : store.conduct ≠ .refusing)
    (found : store.shelf.get? id = some record) (record' : Record) :
    Rewritten stores (Fields.put stores owner { store with shelf := store.shelf.insert id record' }) owner id record
      record' := by
  obtain ⟨conduct, ⟨records⟩⟩ := store
  obtain ⟨front, back, first, rfl, put⟩ := Fields.put_present found record'
  refine .intro answers (fun _ => get?_put_other) first opened (get?_put_self.trans ?_)
  rw [put]
  rfl

theorem extended_put (opened : Fields.get? stores owner = some store) (answers : store.conduct ≠ .refusing)
    (free : store.shelf.get? id = none) (record : Record) :
    Extended stores (Fields.put stores owner { store with shelf := store.shelf.insert id record }) owner id record := by
  obtain ⟨conduct, ⟨records⟩⟩ := store
  have absent : id ∉ Fields.keys records := fun present => by
    obtain ⟨_, found⟩ := Fields.get?_of_mem_keys present
    cases found.symm.trans free
  refine .intro answers (fun _ => get?_put_other) absent opened (get?_put_self.trans ?_)
  rw [← Fields.put_absent absent]
  rfl

theorem held?_of {shelf : Shelf} {conduct : StoreConduct} (stands : Fields.get? stores owner = some ⟨conduct, shelf⟩) :
    held? stores owner id = shelf.get? id := by
  unfold held?
  rw [stands]
  rfl

-- Shelves that differ under one id alone show the same in every other place.
theorem held?_apart {conduct : StoreConduct} {one other : Shelf}
    (elsewhere : ∀ other, other ≠ owner → Fields.get? after other = Fields.get? before other)
    (stood : Fields.get? before owner = some ⟨conduct, one⟩) (stands : Fields.get? after owner = some ⟨conduct, other⟩)
    (alike : ∀ key, key ≠ id → other.get? key = one.get? key) (apart : (owner', id') ≠ (owner, id)) :
    held? after owner' id' = held? before owner' id' := by
  by_cases same : owner' = owner
  · subst same
    rw [held?_of stood, held?_of stands]
    exact alike id' fun equal => apart (congrArg _ equal)
  · unfold held?
    rw [elsewhere owner' same]

theorem records_of_answers {shelf : Shelf} {conduct : StoreConduct} (answers : conduct ≠ .refusing)
    (stands : Fields.get? s.stores owner = some ⟨conduct, shelf⟩) :
    Transaction.records owner s = (.ok (shelf.records.map (·.2)), s) :=
  Transaction.records_of stands (Store.all_of_answers answers)

namespace Rewritten

theorem held? (rewritten : Rewritten before after owner id record record') :
    Stores.held? before owner id = some record ∧ Stores.held? after owner id = some record' := by
  obtain ⟨_, _, first, stood, stands⟩ := rewritten
  rw [held?_of stood, held?_of stands]
  simp [Shelf.get?, Fields.get?_append, Fields.get?_of_not_mem first, Fields.get?]

theorem held?_other (rewritten : Rewritten before after owner id record record')
    (apart : (owner', id') ≠ (owner, id)) : Stores.held? after owner' id' = Stores.held? before owner' id' := by
  obtain ⟨_, elsewhere, _, stood, stands⟩ := rewritten
  refine held?_apart elsewhere stood stands (fun key other => ?_) apart
  simp [Shelf.get?, Fields.get?_append, Fields.get?, other.symm]

theorem records (rewritten : Rewritten s.stores t.stores owner id record record') :
    ∃ front back, Transaction.records owner s = (.ok (front ++ record :: back), s) ∧
      Transaction.records owner t = (.ok (front ++ record' :: back), t) := by
  obtain ⟨answers, _, _, stood, stands⟩ := rewritten
  rw [records_of_answers answers stood, records_of_answers answers stands, List.map_append, List.map_append]
  exact ⟨_, _, rfl, rfl⟩

end Rewritten

namespace Extended

theorem held?_other (extended : Extended before after owner id record) (apart : (owner', id') ≠ (owner, id)) :
    Stores.held? after owner' id' = Stores.held? before owner' id' := by
  obtain ⟨_, elsewhere, _, stood, stands⟩ := extended
  refine held?_apart elsewhere stood stands (fun key other => ?_) apart
  simp [Shelf.get?, Fields.get?_append, Fields.get?, other.symm]

theorem records (extended : Extended s.stores t.stores owner id record) :
    ∃ all, Transaction.records owner s = (.ok all, s) ∧ Transaction.records owner t = (.ok (all ++ [record]), t) := by
  obtain ⟨answers, _, _, stood, stands⟩ := extended
  rw [records_of_answers answers stood, records_of_answers answers stands, List.map_append]
  exact ⟨_, rfl, rfl⟩

end Extended
end Changes

end Stores
end Charter

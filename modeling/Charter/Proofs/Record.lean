import Charter.Engine.Write
import Charter.Proofs.Fields

/-!
Records that differ in their id at most, and what a record holds after a patch.
-/

namespace Charter

namespace Record

def SameButId (record other : Record) : Prop :=
  ∀ key, key ≠ "id" → Fields.get? record key = Fields.get? other key

theorem SameButId.refl (record : Record) : record.SameButId record := fun _ _ => rfl

theorem sameButId_place (record : Record) (value : Json) :
    record.SameButId (Fields.place record "id" value) := by
  intro key other
  rw [Fields.get?_place, if_neg other.symm]

theorem SameButId.symm {record other : Record} (same : record.SameButId other) : other.SameButId record :=
  fun key notId => (same key notId).symm

theorem SameButId.trans {first second third : Record} (one : first.SameButId second)
    (two : second.SameButId third) : first.SameButId third :=
  fun key notId => (one key notId).trans (two key notId)

theorem SameButId.place {record other : Record} (same : record.SameButId other) (name : String) (value : Json) :
    SameButId (Fields.place record name value) (Fields.place other name value) := by
  intro key notId
  rw [Fields.get?_place, Fields.get?_place, same key notId]

theorem SameButId.field {record other : Record} (same : record.SameButId other) {name : String}
    (notId : name ≠ "id") : Record.field record name = Record.field other name := by
  rw [Record.field, Record.field, same name notId]

-- Judged is the record under the whole patch, stored the one under the patch without its id.
theorem sameButId_patched (record patch : Record) :
    SameButId (Fields.overlay record patch) (Record.patched record patch) := by
  suffices ∀ other : Record, record.SameButId other →
      SameButId (Fields.overlay record patch) (Record.patched other patch) from this record (.refl record)
  unfold Record.patched
  induction patch generalizing record with
  | nil => exact fun _ same => same
  | cons pair rest ih =>
      intro other same
      obtain ⟨name, value⟩ := pair
      rw [Fields.overlay_cons]
      by_cases isId : name = "id"
      · subst isId
        exact ih _ other ((sameButId_place record value).symm.trans same)
      · rw [List.filter_cons_of_pos (by simpa using isId), Fields.overlay_cons]
        exact ih _ _ (same.place name value)

theorem sameButId_identified {around : Surroundings} {record kept : Record} {id : String} {start last : Usage}
    (identified : Record.identified around record start = ((id, kept), last)) : record.SameButId kept := by
  unfold Record.identified at identified
  split at identified
  · cases identified
    exact .refl record
  · cases identified
    exact sameButId_place record _

-- What is kept has the id that it is kept under.
theorem id?_identified {around : Surroundings} {record kept : Record} {id : String} {start last : Usage}
    (identified : Record.identified around record start = ((id, kept), last)) : Record.id? kept = some id := by
  unfold Record.identified at identified
  split at identified
  · next named =>
    cases identified
    exact named
  · cases identified
    rw [Record.id?, Fields.get?_place, if_pos rfl]
    rfl

-- A record is kept as it is exactly if it has an id.
theorem eq_identified_iff {around : Surroundings} {record kept : Record} {id : String} {start last : Usage}
    (identified : Record.identified around record start = ((id, kept), last)) :
    record = kept ↔ ∃ own, Record.id? record = some own := by
  constructor
  · intro same
    exact ⟨id, same ▸ id?_identified identified⟩
  · rintro ⟨own, named⟩
    simp only [Record.identified, named] at identified
    cases identified
    rfl

theorem get?_id_patched (record patch : Record) :
    Fields.get? (Record.patched record patch) "id" = Fields.get? record "id" := by
  unfold Record.patched
  obtain ⟨_, member, _⟩ | kept := Fields.get?_overlay record (patch.filter fun field => field.1 != "id") "id"
  · exact absurd rfl (bne_iff_ne.mp (List.mem_filter.mp member).2)
  · exact kept

theorem id?_patched (record patch : Record) : Record.id? (Record.patched record patch) = Record.id? record := by
  rw [Record.id?, get?_id_patched]
  rfl

theorem get?_patched {patch : Record} (distinct : Fields.Distinct patch) (record : Record) {key : String}
    (notId : key ≠ "id") :
    Fields.get? (Record.patched record patch) key = (Fields.get? patch key).or (Fields.get? record key) := by
  rw [← sameButId_patched record patch key notId, distinct.get?_overlay_or]

-- A stored value came from the patch or stood there before.
theorem field_patched (record patch : Record) (name : String) :
    (name, Record.field (Record.patched record patch) name) ∈ patch ∨
      Record.field (Record.patched record patch) name = Record.field record name := by
  unfold Record.field Record.patched
  obtain ⟨value, member, found⟩ | kept := Fields.get?_overlay record (patch.filter fun pair => pair.1 != "id") name
  · rw [found]
    exact .inl (List.mem_filter.mp member).1
  · exact .inr (by rw [kept])

theorem field_patched_of_get? {record patch : Record} {name : String} {value : Json} (distinct : Fields.Distinct patch)
    (notId : name ≠ "id") (found : Fields.get? patch name = some value) :
    Record.field (Record.patched record patch) name = value := by
  rw [Record.field, get?_patched distinct record notId, found]
  rfl

end Record
end Charter

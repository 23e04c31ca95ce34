import Charter.Proofs.Record
import Charter.Proofs.WholeNumber
import Charter.Proofs.Write

/-!
The version of a record. A create gives the first one, an update the next one, and an update that claims a
version must claim the one that the record has. No claim below `2 ^ 53` is met by the version that
follows it.
-/

namespace Charter

-- A property is the version of an entity's records, and neither the id nor the time of a write replaces it.
structure Ir.Entity.Versions (entity : Ir.Entity) (version : String) : Prop where
  declared : entity.versionProperty = some version
  notId : version ≠ "id"
  notStamp : entity.versionAtProperty ≠ some version

-- An engine keeps versions of the records of an entity.
structure Engine.KeepsVersions (engine : Engine) (name version : String) (entity : Ir.Entity) : Prop where
  enforced : engine.options.enforceVersions = true
  declared : engine.ir.entity? name = some entity
  versions : entity.Versions version

theorem Value.beq_of_looselyEquals {x : Float} {value : Value} (equal : (number x).looselyEquals value = true) :
    (x == value.toNumber) = true := by
  cases value with
  | string | boolean | number => exact equal
  | _ => cases equal

theorem Json.integer_looselyEquals {claimed : Int} {n : Nat} (positive : 0 < n) (small : n < 2 ^ 53) :
    Json.looselyEquals (.integer claimed) (.integer n) = decide (claimed = n) :=
  Binary64.ofInt_beq positive (.inl small)

namespace Write
variable {entity : Ir.Entity} {existing patch plan : Record} {version : String}

theorem numberJson_ofInt {n : Nat} (positive : 0 < n) (small : n < 2 ^ 53) :
    Value.numberJson (Binary64.ofInt n) = .integer n := by
  unfold Value.numberJson
  rw [Binary64.safeInteger?_ofInt positive small]

theorem nextVersion_eq {current : Json} (number : current ≠ .null) :
    nextVersion current = Value.numberJson ((if Binary64.ofInt 0 < (Value.ofJson current).toNumber
      then (Value.ofJson current).toNumber else Binary64.ofInt 0) + Binary64.ofInt 1) := by
  cases current with
  | null => exact absurd rfl number
  | _ => rfl

theorem nextVersion_of_pos {current : Json} (number : current ≠ .null)
    (positive : Binary64.ofInt 0 < (Value.ofJson current).toNumber) :
    nextVersion current = Value.numberJson ((Value.ofJson current).toNumber + Binary64.ofInt 1) := by
  rw [nextVersion_eq number, if_pos positive]

theorem nextVersion_integer {n : Nat} (positive : 0 < n) (small : n + 1 < 2 ^ 53) :
    nextVersion (.integer n) = .integer (n + 1 : Nat) := by
  have next : nextVersion (.integer n) = Value.numberJson (Binary64.ofInt n + Binary64.ofInt 1) :=
    nextVersion_of_pos nofun (Binary64.ofInt_pos_iff.mpr (by omega))
  rw [next, Binary64.ofInt_add_one positive small, numberJson_ofInt (Nat.succ_pos n) small]

theorem nextVersion_of_looselyEquals {claimed : Int} {current : Json}
    (equal : Json.looselyEquals (.integer claimed) current = true) :
    nextVersion current = if 0 < claimed then Value.numberJson (Binary64.ofInt claimed + Binary64.ofInt 1)
      else .integer 1 := by
  have same := Value.beq_of_looselyEquals equal
  rw [nextVersion_eq (by rintro rfl; cases equal)]
  by_cases positive : 0 < claimed
  · rw [if_pos positive, (Binary64.ofInt_beq_iff positive.ne').mp same, if_pos (Binary64.ofInt_pos_iff.mpr positive)]
  · rw [if_neg positive, if_neg (mt (Binary64.ofInt_zero_lt_iff same).mp positive)]
    have one : Binary64.safeInteger? (Binary64.ofInt 0 + Binary64.ofInt 1) = some 1 := by decide +kernel
    rw [Value.numberJson, one]

-- The greatest claim is for the last version that is exact; behind it comes one that is not an integer.
theorem nextVersion_moves {claimed : Int} {current : Json} (small : claimed < 2 ^ 53)
    (equal : Json.looselyEquals (.integer claimed) current = true) :
    Json.looselyEquals (.integer claimed) (nextVersion current) = false := by
  rw [nextVersion_of_looselyEquals equal]
  by_cases positive : 0 < claimed
  · obtain ⟨n, rfl⟩ := Int.eq_ofNat_of_zero_le positive.le
    rw [if_pos positive]
    by_cases last : n + 1 < 2 ^ 53
    · rw [Binary64.ofInt_add_one (by omega) last, numberJson_ofInt (Nat.succ_pos n) last,
        Json.integer_looselyEquals (Nat.succ_pos n) last, decide_eq_false_iff_not]
      omega
    · obtain rfl : n = 2 ^ 53 - 1 := by omega
      decide +kernel
  · rw [if_neg positive]
    refine (Json.integer_looselyEquals (n := 1) (by omega) (by omega)).trans ?_
    rw [decide_eq_false_iff_not]
    omega

-- The version of a record after some updates. Behind the integers that are exact as doubles it does not grow.
def versionAfter (updates : Nat) : Json :=
  if updates + 1 < 2 ^ 53 then .integer (updates + 1 : Nat) else .double (Binary64.ofInt (2 ^ 53 : Nat))

theorem versionAfter_of_lt {updates : Nat} (small : updates + 1 < 2 ^ 53) :
    versionAfter updates = .integer (updates + 1 : Nat) := if_pos small

theorem numberJson_last : Value.numberJson (Binary64.ofInt (2 ^ 53 : Nat)) = .double (Binary64.ofInt (2 ^ 53 : Nat)) := by
  have inexact : Binary64.safeInteger? (Binary64.ofInt (2 ^ 53 : Nat)) = none := by decide +kernel
  have finite : Binary64.isFinite (Binary64.ofInt (2 ^ 53 : Nat)) = true := by decide +kernel
  rw [Value.numberJson, inexact, Json.ofNumber, if_pos finite]

theorem nextVersion_versionAfter (updates : Nat) : nextVersion (versionAfter updates) = versionAfter (updates + 1) := by
  unfold versionAfter
  by_cases small : updates + 1 + 1 < 2 ^ 53
  · rw [if_pos (by omega), if_pos small, nextVersion_integer (Nat.succ_pos _) small]
  rw [if_neg small]
  by_cases last : updates + 1 < 2 ^ 53
  · have next : nextVersion (.integer (updates + 1 : Nat)) =
        Value.numberJson (Binary64.ofInt (updates + 1 : Nat) + Binary64.ofInt 1) :=
      nextVersion_of_pos nofun (Binary64.ofInt_pos_iff.mpr (by omega))
    have sum : Binary64.ofInt (updates + 1 : Nat) + Binary64.ofInt 1 = Binary64.ofInt (2 ^ 53 : Nat) := by
      rw [show updates + 1 = 2 ^ 53 - 1 by omega]
      decide +kernel
    rw [if_pos last, next, sum, numberJson_last]
  · have next : nextVersion (.double (Binary64.ofInt (2 ^ 53 : Nat))) =
        Value.numberJson (Binary64.ofInt (2 ^ 53 : Nat) + Binary64.ofInt 1) :=
      nextVersion_of_pos nofun (Binary64.ofInt_pos_iff.mpr (by positivity))
    have sum : Binary64.ofInt (2 ^ 53 : Nat) + Binary64.ofInt 1 = Binary64.ofInt (2 ^ 53 : Nat) := by decide +kernel
    rw [if_neg last, next, sum, numberJson_last]

theorem integer_looselyEquals_versionAfter {claimed : Int} (small : claimed < 2 ^ 53) (updates : Nat) :
    Json.looselyEquals (.integer claimed) (versionAfter updates) = decide (claimed = updates + 1) := by
  unfold versionAfter
  split
  · next exact => exact Json.integer_looselyEquals (Nat.succ_pos _) exact
  · next inexact =>
    have last : (Binary64.ofInt claimed == Binary64.ofInt (2 ^ 53 : Nat)) = decide (claimed = (2 ^ 53 : Nat)) :=
      Binary64.ofInt_beq (by positivity) (.inr small)
    refine Eq.trans (b := Binary64.ofInt claimed == Binary64.ofInt (2 ^ 53 : Nat)) rfl (last.trans ?_)
    rw [decide_eq_false (by omega), decide_eq_false (by omega)]

-- A claim of another version is refused; otherwise the patch gets the next version.
theorem versioned_cases (versions : entity.Versions version) (existing patch : Record) :
    (∃ claimed, Fields.get? patch version = some claimed ∧
      claimed.looselyEquals (Record.field existing version) = false ∧
      versioned entity existing patch = .error (.versionConflict claimed (Record.field existing version))) ∨
    ((∀ claimed, Fields.get? patch version = some claimed →
      claimed.looselyEquals (Record.field existing version) = true) ∧
      versioned entity existing patch =
        .ok (Fields.place patch version (nextVersion (Record.field existing version)))) := by
  unfold versioned
  simp only [versions.declared]
  cases Fields.get? patch version with
  | none => exact .inr ⟨fun _ => nofun, rfl⟩
  | some claimed =>
      cases equal : claimed.looselyEquals (Record.field existing version) with
      | false => exact .inl ⟨claimed, rfl, equal, if_neg (by simp [equal])⟩
      | true => exact .inr ⟨fun _ same => Option.some.inj same ▸ equal, if_pos equal⟩

-- A claim that is met leaves the patch as it is, but for the version.
theorem of_versioned (met : versioned entity existing patch = .ok plan) :
    plan = patch ∨ ∃ version value, entity.versionProperty = some version ∧ plan = Fields.place patch version value := by
  cases declared : entity.versionProperty with
  | none =>
      simp only [versioned, declared] at met
      cases met
      exact .inl rfl
  | some version =>
      refine .inr ⟨version, nextVersion (Record.field existing version), rfl, ?_⟩
      simp only [versioned, declared] at met
      split at met
      · split at met <;> cases met
        rfl
      · cases met
        rfl

end Write

namespace Engine
variable {engine : Engine} {entity : Ir.Entity} {existing patch plan fields stamped : Record} {version : String}
  {name id : String} {violations : List ConstraintOutcome} {start last : Usage} {s t : EngineState}

theorem stamped_cases (ran : engine.stamped entity fields start = (.ok stamped, last)) :
    stamped = fields ∨ ∃ stamp time, entity.versionAtProperty = some stamp ∧
      stamped = Fields.place fields stamp (.integer time) := by
  unfold Engine.stamped at ran
  cases kept : entity.versionAtProperty with
  | none =>
      rw [kept] at ran
      cases ran
      exact .inl rfl
  | some stamp =>
      rw [kept] at ran
      obtain ⟨time, _, _, ended⟩ := Step.bind_eq_ok.mp ran
      cases ended
      exact .inr ⟨stamp, time, rfl, rfl⟩

theorem get?_stamped {key : String} (notStamp : entity.versionAtProperty ≠ some key)
    (ran : engine.stamped entity fields start = (.ok stamped, last)) :
    Fields.get? stamped key = Fields.get? fields key := by
  obtain rfl | ⟨stamp, time, kept, rfl⟩ := stamped_cases ran
  · rfl
  · rw [Fields.get?_place, if_neg fun same => notStamp (kept.trans (congrArg some same))]

theorem ascending_stamped (ascending : Fields.Ascending fields)
    (ran : engine.stamped entity fields start = (.ok stamped, last)) : Fields.Ascending stamped := by
  obtain rfl | ⟨stamp, time, _, rfl⟩ := stamped_cases ran
  · exact ascending
  · exact ascending.place stamp _

theorem firstVersion_field (versions : entity.Versions version) (enforced : engine.options.enforceVersions = true)
    (completed : engine.firstVersion entity fields start = (.ok plan, last)) :
    Record.field plan version = .integer 1 := by
  unfold firstVersion at completed
  simp only [enforced, versions.declared] at completed
  rw [Record.field, get?_stamped versions.notStamp completed, Fields.get?_place, if_pos rfl]
  rfl

-- A patch gets neither version nor stamp, or the next version and then the stamp.
theorem nextVersion_cases (completed : engine.nextVersion entity existing patch start = (.ok (.ok plan), last)) :
    engine.options.enforceVersions = false ∧ plan = patch ∨
      ∃ versioned, Write.versioned entity existing patch = .ok versioned ∧
        engine.stamped entity versioned start = (.ok plan, last) := by
  unfold Engine.nextVersion at completed
  cases enforced : engine.options.enforceVersions with
  | false =>
      simp only [enforced] at completed
      cases completed
      exact .inl ⟨rfl, rfl⟩
  | true =>
      simp only [enforced] at completed
      cases met : Write.versioned entity existing patch with
      | error rejection =>
          rw [met] at completed
          cases completed
      | ok versioned =>
          rw [met] at completed
          obtain ⟨stamped, _, ran, ended⟩ := Step.bind_eq_ok.mp completed
          cases ended
          exact .inr ⟨versioned, rfl, ran⟩

theorem nextVersion_plan (versions : entity.Versions version) (enforced : engine.options.enforceVersions = true)
    (ascending : Fields.Ascending patch)
    (completed : engine.nextVersion entity existing patch start = (.ok (.ok plan), last)) :
    Fields.Ascending plan ∧
      Fields.get? plan version = some (Write.nextVersion (Record.field existing version)) ∧
      ∀ claimed, Fields.get? patch version = some claimed →
        claimed.looselyEquals (Record.field existing version) = true := by
  obtain ⟨unversioned, _⟩ | ⟨versioned, met, ran⟩ := nextVersion_cases completed
  · cases enforced.symm.trans unversioned
  obtain ⟨_, _, _, refused⟩ | ⟨claims, planned⟩ := Write.versioned_cases versions existing patch
  · cases met.symm.trans refused
  · cases met.symm.trans planned
    refine ⟨ascending_stamped (ascending.place version _) ran, ?_, claims⟩
    rw [get?_stamped versions.notStamp ran, Fields.get?_place, if_pos rfl]

-- A stale claim is refused before anything is taken from the surroundings.
theorem planUpdate_stale (versions : entity.Versions version) (enforced : engine.options.enforceVersions = true)
    {claimed : Json} (claim : Fields.get? patch version = some claimed)
    (stale : claimed.looselyEquals (Record.field existing version) = false) :
    engine.planUpdate entity existing patch start =
      (.ok (.error (.rejected (.versionConflict claimed (Record.field existing version)) [])), start) := by
  have refused : engine.nextVersion entity existing patch start =
      (.ok (.error (.versionConflict claimed (Record.field existing version))), start) := by
    unfold Engine.nextVersion
    simp only [enforced]
    obtain ⟨_, same, _, refused⟩ | ⟨claims, _⟩ := Write.versioned_cases versions existing patch
    · cases claim.symm.trans same
      rw [refused]
      rfl
    · rw [claims claimed claim] at stale
      cases stale
  unfold planUpdate
  rw [Step.bind_of_ok refused]
  rfl

-- What a create stores has the first version.
theorem Created.field_version {data kept : Record} (created : engine.Created name data s kept violations t)
    (keeps : engine.KeepsVersions name version entity) : Record.field kept version = .integer 1 := by
  cases created with
  | intro again _ _ completed _ _ identified =>
      cases keeps.declared.symm.trans again
      rw [← (Record.sameButId_identified identified).field keeps.versions.notId]
      exact firstVersion_field keeps.versions keeps.enforced completed

-- What an update stores has the version after the one that it met, and that was the version it claimed.
theorem Updated.field_version {record : Record} (updated : engine.Updated name id patch s record violations t)
    (keeps : engine.KeepsVersions name version entity) (ascending : Fields.Ascending patch) :
    ∃ store existing, Fields.get? s.stores name = some store ∧ store.conduct = .serving ∧
      store.shelf.get? id = some existing ∧
      t.stores = Fields.put s.stores name { store with shelf := store.shelf.insert id record } ∧
      Record.field record version = Write.nextVersion (Record.field existing version) ∧
      ∀ claimed, Fields.get? patch version = some claimed →
        claimed.looselyEquals (Record.field existing version) = true := by
  cases updated with
  | intro again opened serving found admitted =>
      cases keeps.declared.symm.trans again
      obtain ⟨_, _, impossible⟩ | ⟨_, _, _, same, completed, _, _, _⟩ := planUpdate_cases admitted
      · cases impossible
      cases same
      obtain ⟨ascending, next, claims⟩ := nextVersion_plan keeps.versions keeps.enforced ascending completed
      exact ⟨_, _, opened, serving, found, rfl,
        Record.field_patched_of_get? ascending.distinct keeps.versions.notId next, claims⟩

-- An update that claims another version than the stored one ends at its first request, without a trace.
theorem prepare_stale {store : Store} (keeps : engine.KeepsVersions name version entity)
    (opened : Fields.get? s.stores name = some store) (replied : store.get? id = .ok (some existing))
    {claimed : Json} (claim : Fields.get? patch version = some claimed)
    (stale : claimed.looselyEquals (Record.field existing version) = false) :
    engine.prepare name id patch s =
      (.ok (.error (.rejected (.versionConflict claimed (Record.field existing version)) [])), s) := by
  unfold prepare
  rw [Step.bind_of_ok (Transaction.entity_of keeps.declared), Step.bind_of_ok (Transaction.record?_of opened replied)]
  exact Transaction.evaluate_of_ok (planUpdate_stale keeps.versions keeps.enforced claim stale)

theorem update_stale {store : Store} (keeps : engine.KeepsVersions name version entity)
    (opened : Fields.get? s.stores name = some store) (replied : store.get? id = .ok (some existing))
    {claimed : Json} (claim : Fields.get? patch version = some claimed)
    (stale : claimed.looselyEquals (Record.field existing version) = false) :
    engine.update name id patch s =
      (.ok (.rejected (.versionConflict claimed (Record.field existing version)) []), s) := by
  rw [update_eq_prepare, Step.bind_of_ok (prepare_stale keeps opened replied claim stale)]
  rfl

end Engine
end Charter

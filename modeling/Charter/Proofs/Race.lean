import Charter.Proofs.Version

/-!
Two updates of one record that take turns. An update asks its store twice: first it reads the record that it
plans on, then it writes the plan over whatever is stored by then. The version that it claims is checked
against what it read. So an update that reads behind the write of another one cannot claim the same version;
of two updates that have both read before either writes, each writes what it planned.
-/

namespace Charter

-- How far an update has come: it has its patch, or its plan, or its result.
inductive Call where
  | asked (patch : Record)
  | planned (plan : Record) (violations : List ConstraintOutcome)
  | ended (result : Except EngineError WriteOutcome)

namespace Call

def ofPlan : Except EngineError (Except WriteOutcome (Record × List ConstraintOutcome)) → Call
  | .ok (.ok (plan, violations)) => planned plan violations
  | .ok (.error outcome) => ended (.ok outcome)
  | .error error => ended (.error error)

def succeeded : Call → Bool
  | ended (.ok (.written ..)) => true
  | _ => false

theorem succeeded_iff {call : Call} :
    call.succeeded = true ↔ ∃ record violations, call = ended (.ok (.written record violations)) := by
  unfold succeeded
  split
  · exact iff_of_true rfl ⟨_, _, rfl⟩
  · next other => exact iff_of_false nofun fun ⟨record, violations, same⟩ => other record violations same

theorem ofPlan_ne_asked (answer : Except EngineError (Except WriteOutcome (Record × List ConstraintOutcome)))
    (patch : Record) : ofPlan answer ≠ asked patch := by
  unfold ofPlan
  split <;> nofun

theorem ofPlan_eq_planned {answer : Except EngineError (Except WriteOutcome (Record × List ConstraintOutcome))}
    {plan : Record} {violations : List ConstraintOutcome} (same : ofPlan answer = planned plan violations) :
    answer = .ok (.ok (plan, violations)) := by
  unfold ofPlan at same
  split at same <;> cases same
  rfl

-- A turn is one request to the store, with all that follows up to the next one.
def turn (engine : Engine) (name id : String) (call : Call) (state : EngineState) : Call × EngineState :=
  match call with
  | asked patch =>
    let answered := engine.prepare name id patch state
    (ofPlan answered.1, answered.2)
  | planned plan violations =>
    let answered := Engine.commitUpdate name id plan violations state
    (ended answered.1, answered.2)
  | ended result => (ended result, state)

end Call

inductive Side where
  | left
  | right
  deriving DecidableEq

def Side.other : Side → Side
  | left => right
  | right => left

-- Two updates of the same record, and the state that they share.
structure Race where
  calls : Side → Call
  state : EngineState

namespace Race

def start (patches : Side → Record) (state : EngineState) : Race := ⟨fun side => .asked (patches side), state⟩

def turn (engine : Engine) (name id : String) (race : Race) (mover : Side) : Race :=
  let moved := (race.calls mover).turn engine name id race.state
  ⟨fun side => if side = mover then moved.1 else race.calls side, moved.2⟩

def play (engine : Engine) (name id : String) (race : Race) (turns : List Side) : Race :=
  turns.foldl (turn engine name id) race

end Race

variable {engine : Engine} {name id version : String} {entity : Ir.Entity} {patch plan : Record}
  {patches : Side → Record} {violations : List ConstraintOutcome} {race : Race} {mover side : Side} {s t : EngineState}

-- An update without a break is one turn after the other.
theorem Call.turn_asked : ((Call.asked patch).turn engine name id s).1.turn engine name id
    ((Call.asked patch).turn engine name id s).2 =
      (.ended (engine.update name id patch s).1, (engine.update name id patch s).2) := by
  rw [Engine.update_eq_prepare]
  cases prepared : engine.prepare name id patch s with
  | mk answer middle =>
      have first : (Call.asked patch).turn engine name id s = (.ofPlan answer, middle) := by
        simp only [turn, prepared]
      rw [first]
      cases answer with
      | error error => rw [Step.bind_of_error prepared]; rfl
      | ok outcome =>
          rw [Step.bind_of_ok prepared]
          cases outcome with
          | error outcome => rfl
          | ok plan => rfl

namespace Race

theorem calls_turn : (race.turn engine name id mover).calls mover =
    ((race.calls mover).turn engine name id race.state).1 := if_pos rfl

theorem calls_turn_other (other : side ≠ mover) : (race.turn engine name id mover).calls side = race.calls side :=
  if_neg other

theorem state_turn : (race.turn engine name id mover).state =
    ((race.calls mover).turn engine name id race.state).2 := rfl

theorem turn_of_ended {result : Except EngineError WriteOutcome} (ended : race.calls mover = .ended result) :
    race.turn engine name id mover = race := by
  have still : (race.calls mover).turn engine name id race.state = (race.calls mover, race.state) := by
    rw [ended]
    rfl
  unfold turn
  rw [still]
  refine congrArg (Race.mk · race.state) (funext fun side => ?_)
  split
  · next same => rw [same]
  · rfl

theorem play_of_ended {result : Except EngineError WriteOutcome} (ended : race.calls side = .ended result)
    (turns : List Side) : (race.play engine name id turns).calls side = .ended result := by
  induction turns generalizing race with
  | nil => exact ended
  | cons mover rest ih =>
      refine ih ?_
      by_cases same : side = mover
      · subst same
        rw [turn_of_ended ended, ended]
      · rw [calls_turn_other same, ended]

end Race

-- A record stands where updates are served.
def EngineState.Holds (state : EngineState) (name id : String) : Prop :=
  ∃ store existing, Fields.get? state.stores name = some store ∧ store.conduct = .serving ∧
    store.shelf.get? id = some existing

-- What was planned is written over whatever the record is by then.
theorem EngineState.Holds.commit (held : s.Holds name id) (plan : Record) (violations : List ConstraintOutcome) :
    ∃ record t, Engine.commitUpdate name id plan violations s = (.ok (.written record violations), t) ∧
      t.Holds name id := by
  obtain ⟨store, existing, opened, serving, found⟩ := held
  have written := Transaction.updateRecord_of opened serving found plan
  refine ⟨_, _, Step.bind_of_ok written, { store with shelf := store.shelf.insert id (Record.patched existing plan) },
    Record.patched existing plan, ?_, serving, ?_⟩
  · exact (Fields.get?_put ..).trans (if_pos rfl)
  · exact (Fields.get?_put ..).trans (if_pos rfl)

theorem Side.eq_other (different : side ≠ mover) : side = mover.other := by
  cases side <;> cases mover <;> first | rfl | exact absurd rfl different

theorem Side.other_ne : side.other ≠ side := by cases side <;> nofun

namespace Race
variable {first : Side} {claimed : Int} {record : Record}

-- One update was written; the other one has yet to read.
theorem play_behind_write {store : Store} (keeps : engine.KeepsVersions name version entity)
    (opened : Fields.get? race.state.stores name = some store) (replied : store.get? id = .ok (some record))
    (claim : Fields.get? patch version = some (.integer claimed))
    (stale : Json.looselyEquals (.integer claimed) (Record.field record version) = false)
    {result : Except EngineError WriteOutcome} (written : race.calls first = .ended result)
    (waiting : race.calls first.other = .asked patch) (turns : List Side) :
    (race.play engine name id turns).calls first.other = if first.other ∈ turns
      then .ended (.ok (.rejected (.versionConflict (.integer claimed) (Record.field record version)) []))
      else .asked patch := by
  induction turns with
  | nil => exact waiting
  | cons mover rest ih =>
      change ((race.turn engine name id mover).play engine name id rest).calls _ = _
      by_cases same : mover = first
      · subst same
        rw [turn_of_ended written, ih]
        simp only [List.mem_cons, Side.other_ne, false_or]
      · obtain rfl := Side.eq_other same
        rw [if_pos List.mem_cons_self]
        refine play_of_ended ?_ rest
        rw [calls_turn, waiting]
        simp only [Call.turn, Engine.prepare_stale keeps opened replied claim stale]
        rfl

-- Both updates have read; one has a plan.
theorem play_with_plans (held : race.state.Holds name id) (read : ∀ side patch, race.calls side ≠ .asked patch)
    (planned : race.calls side = .planned plan violations) {turns : List Side} (moves : side ∈ turns) :
    ∃ record, (race.play engine name id turns).calls side = .ended (.ok (.written record violations)) := by
  induction turns generalizing race with
  | nil => cases moves
  | cons mover rest ih =>
      change ∃ record, ((race.turn engine name id mover).play engine name id rest).calls _ = _
      by_cases same : side = mover
      · subst same
        obtain ⟨record, after, written, _⟩ := held.commit plan violations
        refine ⟨record, play_of_ended ?_ rest⟩
        rw [calls_turn, planned]
        simp only [Call.turn, written]
      · have later : side ∈ rest := (List.mem_cons.mp moves).resolve_left same
        cases call : race.calls mover with
        | asked patch => exact absurd call (read mover patch)
        | ended result =>
            rw [turn_of_ended call]
            exact ih held read planned later
        | planned other found =>
            obtain ⟨record, after, written, still⟩ := held.commit other found
            refine ih ?_ (fun at_ patch asked => ?_) ((calls_turn_other same).trans planned) later
            · rw [state_turn, call]
              simp only [Call.turn, written]
              exact still
            · by_cases moved : at_ = mover
              · subst moved
                rw [calls_turn, call] at asked
                cases asked
              · rw [calls_turn_other moved] at asked
                exact read at_ patch asked

variable (engine name id) in
theorem play_twice (waiting : race.calls mover = .asked patch) :
    (race.play engine name id [mover, mover]).calls mover = .ended (engine.update name id patch race.state).1 ∧
      (race.play engine name id [mover, mover]).state = (engine.update name id patch race.state).2 := by
  have ended : ((race.turn engine name id mover).calls mover).turn engine name id
      (race.turn engine name id mover).state =
      (.ended (engine.update name id patch race.state).1, (engine.update name id patch race.state).2) := by
    rw [calls_turn, state_turn, waiting, Call.turn_asked]
  exact ⟨calls_turn.trans (congrArg Prod.fst ended), state_turn.trans (congrArg Prod.snd ended)⟩

variable (engine name id) in
-- A first turn only reads.
theorem turn_reads (waiting : race.calls mover = .asked patch) :
    race.state.Still (race.turn engine name id mover).state ∧
      (∀ patch, (race.turn engine name id mover).calls mover ≠ .asked patch) ∧
      ∀ plan violations, (race.turn engine name id mover).calls mover = .planned plan violations →
        ∃ store existing, Fields.get? race.state.stores name = some store ∧ store.get? id = .ok (some existing) := by
  rw [calls_turn, state_turn, waiting]
  cases prepared : engine.prepare name id patch race.state with
  | mk answer after =>
      obtain ⟨still, found⟩ := Engine.prepare_cases prepared
      simp only [Call.turn, prepared]
      exact ⟨still, Call.ofPlan_ne_asked answer, fun plan violations same => found _ (Call.ofPlan_eq_planned same)⟩

variable (engine name id first) in
-- Both updates have had their first turns, one after the other.
theorem play_reads (waiting : ∀ side, race.calls side = .asked (patches side))
    (serving : ∀ store, Fields.get? race.state.stores name = some store → store.conduct = .serving) :
    let read := race.play engine name id [first, first.other]
    (∀ side patch, read.calls side ≠ .asked patch) ∧
      ∀ side plan violations, read.calls side = .planned plan violations → read.state.Holds name id := by
  obtain ⟨still, unasked, found⟩ := turn_reads engine name id (waiting first)
  have waits : (race.turn engine name id first).calls first.other = .asked (patches first.other) :=
    (calls_turn_other Side.other_ne).trans (waiting first.other)
  obtain ⟨still', unasked', found'⟩ := turn_reads engine name id waits
  have kept : ((race.turn engine name id first).turn engine name id first.other).calls first =
      (race.turn engine name id first).calls first := calls_turn_other Side.other_ne.symm
  have both : race.state.Still ((race.turn engine name id first).turn engine name id first.other).state :=
    still.trans still'
  have holds {store : Store} {existing : Record} (opened : Fields.get? race.state.stores name = some store)
      (replied : store.get? id = .ok (some existing)) :
      ((race.turn engine name id first).turn engine name id first.other).state.Holds name id :=
    ⟨store, existing, both.stores ▸ opened, serving store opened, Store.get?_shelf replied⟩
  constructor
  · intro side patch
    by_cases same : side = first
    · subst same
      exact kept ▸ unasked patch
    · obtain rfl := Side.eq_other same
      exact unasked' patch
  · intro side plan violations planned
    by_cases same : side = first
    · subst same
      obtain ⟨store, existing, opened, replied⟩ := found plan violations (kept ▸ planned)
      exact holds opened replied
    · obtain rfl := Side.eq_other same
      obtain ⟨store, existing, opened, replied⟩ := found' plan violations planned
      exact holds (still.stores ▸ opened) replied

end Race

-- What an update wrote is behind every claim that it met.
theorem Engine.update_outdates {claimed : Int} {record : Record} (keeps : engine.KeepsVersions name version entity)
    (ascending : Fields.Ascending patch) (claim : Fields.get? patch version = some (.integer claimed))
    (small : claimed < 2 ^ 53) (written : engine.update name id patch s = (.ok (.written record violations), t)) :
    ∃ store, Fields.get? t.stores name = some store ∧ store.get? id = .ok (some record) ∧
      Json.looselyEquals (.integer claimed) (Record.field record version) = false := by
  obtain ⟨store, existing, opened, serving, found, stored, next, claims⟩ :=
    (Engine.updated_of_written written).field_version keeps ascending
  refine ⟨{ store with shelf := store.shelf.insert id record }, ?_, Store.get?_of_serving serving ?_, ?_⟩
  · rw [stored, Fields.get?_put, if_pos rfl]
  · exact (Fields.get?_put ..).trans (if_pos rfl)
  · rw [next]
    exact Write.nextVersion_moves small (claims _ claim)

-- The first update has both its turns, or the other one reads before the second of them.
theorem claims_race {claimed : Int} (keeps : engine.KeepsVersions name version entity)
    (serving : ∀ store, Fields.get? s.stores name = some store → store.conduct = .serving)
    (ascending : ∀ side, Fields.Ascending (patches side))
    (claims : ∀ side, Fields.get? (patches side) version = some (.integer claimed)) (small : claimed < 2 ^ 53)
    (first : Side) (rest : List Side) :
    let race := Race.start patches s
    let serial := race.play engine name id (first :: first :: rest)
    let read := race.play engine name id [first, first.other]
    let overlapping := race.play engine name id (first :: first.other :: rest)
    ((serial.calls first).succeeded = true → (serial.calls first.other).succeeded = false) ∧
    (∀ record violations, serial.calls first = .ended (.ok (.written record violations)) → first.other ∈ rest →
      serial.calls first.other =
        .ended (.ok (.rejected (.versionConflict (.integer claimed) (Record.field record version)) []))) ∧
    ∀ side plan violations, read.calls side = .planned plan violations → side ∈ rest →
      ∃ record, overlapping.calls side = .ended (.ok (.written record violations)) := by
  intro race serial read overlapping
  have behind (record : Record) (violations : List ConstraintOutcome)
      (wrote : serial.calls first = .ended (.ok (.written record violations))) :
      serial.calls first.other = if first.other ∈ rest
        then .ended (.ok (.rejected (.versionConflict (.integer claimed) (Record.field record version)) []))
        else .asked (patches first.other) := by
    obtain ⟨ended, state⟩ := Race.play_twice engine name id
      (show race.calls first = .asked (patches first) from rfl)
    have result : Call.ended (engine.update name id (patches first) s).1 = .ended (.ok (.written record violations)) :=
      (Race.play_of_ended ended rest).symm.trans wrote
    have written : engine.update name id (patches first) s = (.ok (.written record violations),
        (race.play engine name id [first, first]).state) := Prod.ext (Call.ended.inj result) state.symm
    obtain ⟨store, opened, replied, stale⟩ :=
      Engine.update_outdates keeps (ascending first) (claims first) small written
    refine Race.play_behind_write keeps opened replied (claims first.other) stale ended ?_ rest
    exact (Race.calls_turn_other Side.other_ne).trans (Race.calls_turn_other Side.other_ne)
  refine ⟨fun succeeded => ?_, fun record violations wrote moves => ?_, fun side plan violations planned moves => ?_⟩
  · obtain ⟨record, violations, wrote⟩ := Call.succeeded_iff.mp succeeded
    rw [behind record violations wrote]
    split <;> rfl
  · rw [behind record violations wrote, if_pos moves]
  · obtain ⟨unasked, holds⟩ := Race.play_reads engine name id first
      (show ∀ side, race.calls side = .asked (patches side) from fun _ => rfl) serving
    exact Race.play_with_plans (holds side plan violations planned) unasked planned moves

-- Two updates that claim the stored version, one after the other: the second of them is refused.
theorem second_claim_refused :
    let document : Ir.Entity := ⟨"Document", none, [], [], [], [], [], [], some "version", none, []⟩
    let engine : Engine :=
      { ir := { version := "1.0", provenance := ⟨"", "", "", "", ""⟩, entities := [document] }
        around := ⟨fun _ => 0, fun _ => "fresh"⟩ }
    let stored : Record := [("id", .string "d"), ("version", .integer 1)]
    let state : EngineState := { stores := [("Document", { shelf := ⟨[("d", stored)]⟩ })] }
    let patches : Side → Record := fun _ => [("version", .integer 1)]
    let serial := (Race.start patches state).play engine "Document" "d" [.left, .left, .right]
    engine.KeepsVersions "Document" "version" document ∧
    (∀ store, Fields.get? state.stores "Document" = some store → store.conduct = .serving) ∧
    (∀ side, Fields.Ascending (patches side)) ∧
    (∀ side, Fields.get? (patches side) "version" = some (.integer 1)) ∧
    ∃ record violations, serial.calls .left = .ended (.ok (.written record violations)) ∧
      serial.calls .right =
        .ended (.ok (.rejected (.versionConflict (.integer 1) (Record.field record "version")) [])) := by
  intro document engine stored state patches serial
  have keeps : engine.KeepsVersions "Document" "version" document := ⟨rfl, rfl, rfl, by decide, nofun⟩
  have serving : ∀ store, Fields.get? state.stores "Document" = some store → store.conduct = .serving := by
    intro store opened
    cases opened
    rfl
  have ascending : ∀ side, Fields.Ascending (patches side) := fun _ => List.pairwise_singleton _ _
  have claims : ∀ side, Fields.get? (patches side) "version" = some (.integer 1) := fun _ => rfl
  have succeeded : (serial.calls .left).succeeded = true := by decide +kernel
  obtain ⟨record, violations, wrote⟩ := Call.succeeded_iff.mp succeeded
  obtain ⟨_, refused, _⟩ := claims_race keeps serving ascending claims (by omega) .left [.right]
  exact ⟨keeps, serving, ascending, claims, record, violations, wrote,
    refused record violations wrote List.mem_cons_self⟩

-- Both updates succeed where both read before either writes, and one after the other where the version that
-- they claim is the first that is not exact as a double.
theorem updates_lost :
    let document : Ir.Entity := ⟨"Document", none, [], [], [], [], [], [], some "version", none, []⟩
    let engine : Engine :=
      { ir := { version := "1.0", provenance := ⟨"", "", "", "", ""⟩, entities := [document] }
        around := ⟨fun _ => 0, fun _ => "fresh"⟩ }
    let race (claimed : Int) : Race := .start
      (fun | .left => [("body", .string "one"), ("version", .integer claimed)]
           | .right => [("body", .string "two"), ("version", .integer claimed)])
      { stores := [("Document", { shelf := ⟨[("d", [("id", .string "d"), ("version", .integer claimed)])]⟩ })] }
    let overlapping := (race 1).play engine "Document" "d" [.left, .right, .left, .right]
    let serial := (race 9007199254740992).play engine "Document" "d" [.left, .left, .right, .right]
    engine.KeepsVersions "Document" "version" document ∧
    (overlapping.calls .left).succeeded = true ∧ (overlapping.calls .right).succeeded = true ∧
    (serial.calls .left).succeeded = true ∧ (serial.calls .right).succeeded = true :=
  ⟨⟨rfl, rfl, rfl, by decide, nofun⟩, by decide +kernel, by decide +kernel, by decide +kernel, by decide +kernel⟩

end Charter

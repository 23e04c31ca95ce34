import Charter.Journal
import Mathlib.Data.List.DropRight
import Mathlib.Data.List.Forall2

/-!
Who hears of which event. A listener is called once for each event that is published between its registration and its
end, in the order of publication, and what the others make of an event does not matter. The log holds what was
published since it was last cleared.
-/

namespace Charter

-- Two calls are the same, but for how a listener of one number took the event.
def Delivery.SameBut (number : Nat) (call other : Delivery) : Prop :=
  call.listener = other.listener ∧ call.event = other.event ∧ (call.listener ≠ number → call = other)

namespace Journal

-- What a journal is asked to do.
inductive Action where
  | subscribe (receive : Event → Reception)
  | unsubscribe (number : Nat)
  | publish (event : Event)
  | clear

namespace Action

def registers : Action → Bool
  | subscribe _ => true
  | _ => false

def ends (number : Nat) : Action → Bool
  | unsubscribe other => other == number
  | _ => false

def isClear : Action → Bool
  | clear => true
  | _ => false

def event? : Action → Option Event
  | publish event => some event
  | _ => none

end Action

def act (journal : Journal) : Action → Journal
  | .subscribe receive => (journal.subscribe receive).2
  | .unsubscribe number => journal.unsubscribe number
  | .publish event => journal.publish event
  | .clear => journal.clearLog

def run (journal : Journal) (actions : List Action) : Journal := actions.foldl act journal

-- What a history tells: how many listeners it registers, and the events that it publishes.

def registrations (history : List Action) : Nat := history.countP Action.registers

def published (history : List Action) : List Event := history.filterMap Action.event?

-- The calls of one listener.
def calls (journal : Journal) (number : Nat) : List Delivery := journal.deliveries.filter (·.listener == number)

-- The listeners of one number; there is none, or one.
def listening (journal : Journal) (number : Nat) : List Listener := journal.listeners.filter (·.number == number)

-- The calls that an event gives rise to.
def heard (journal : Journal) (event : Event) : List Delivery :=
  journal.listeners.map fun listener => ⟨listener.number, event, listener.receive event⟩

variable {journal other : Journal} {number : Nat}

/-! What one action does. -/

theorem registered_act (journal : Journal) (action : Action) :
    (journal.act action).registered = journal.registered + registrations [action] := by
  cases action <;> rfl

theorem deliveries_act (journal : Journal) (action : Action) :
    (journal.act action).deliveries = journal.deliveries ++ action.event?.toList.flatMap journal.heard := by
  cases action with
  | publish event => exact congrArg (journal.deliveries ++ ·) (List.append_nil _).symm
  | subscribe | unsubscribe | clear => exact (List.append_nil _).symm

theorem log_act (journal : Journal) (action : Action) :
    (journal.act action).log = if action.isClear then [] else journal.log ++ action.event?.toList := by
  cases action with
  | publish | clear => rfl
  | subscribe | unsubscribe => exact (List.append_nil _).symm

-- No number is given twice, so a listener that was registered before stays as it is until its end.
theorem listening_act (known : number < journal.registered) (action : Action) :
    (journal.act action).listening number = if action.ends number then [] else journal.listening number := by
  cases action with
  | subscribe receive =>
      have fresh : (journal.registered == number) = false := by simp; omega
      simp [act, subscribe, listening, Action.ends, fresh]
  | unsubscribe ended =>
      by_cases same : ended = number
      · subst same
        simp [act, unsubscribe, listening, Action.ends, List.filter_filter]
      · have kept : ∀ listener : Listener, (listener.number == number && listener.number != ended) =
            (listener.number == number) := by
          intro listener
          by_cases is : listener.number = number
          · simp [is, Ne.symm same]
          · simp [is]
        simp [act, unsubscribe, listening, Action.ends, same, List.filter_filter, kept]
  | publish | clear => rfl

theorem calls_act (journal : Journal) (action : Action) (number : Nat) :
    (journal.act action).calls number = journal.calls number ++ action.event?.toList.flatMap fun event =>
      (journal.listening number).map fun listener => ⟨listener.number, event, listener.receive event⟩ := by
  rw [calls, deliveries_act, List.filter_append, calls, List.filter_flatMap]
  simp only [heard, listening, List.filter_map]
  rfl

/-! Listeners stand in the order of their numbers, and no call is made to one that is not yet registered. -/

structure Ordered (journal : Journal) : Prop where
  ascending : journal.listeners.Pairwise (·.number < ·.number)
  known : ∀ listener ∈ journal.listeners, listener.number < journal.registered
  called : ∀ call ∈ journal.deliveries, call.listener < journal.registered

namespace Ordered

theorem empty : Ordered {} := ⟨.nil, nofun, nofun⟩

theorem act (ordered : journal.Ordered) (action : Action) : (journal.act action).Ordered := by
  obtain ⟨ascending, known, called⟩ := ordered
  cases action with
  | subscribe receive =>
      refine ⟨List.pairwise_append.mpr ⟨ascending, List.pairwise_singleton _ _, ?_⟩, ?_, ?_⟩
      · exact fun listener member last is => List.mem_singleton.mp is ▸ known listener member
      · refine List.forall_mem_append.mpr ⟨?_, List.forall_mem_singleton.mpr (Nat.lt_succ_self _)⟩
        exact fun listener member => Nat.lt_succ_of_lt (known listener member)
      · exact fun call member => Nat.lt_succ_of_lt (called call member)
  | unsubscribe number =>
      refine ⟨ascending.sublist List.filter_sublist, fun listener member => ?_, called⟩
      exact known listener (List.mem_of_mem_filter member)
  | publish event =>
      refine ⟨ascending, known, List.forall_mem_append.mpr ⟨called, List.forall_mem_map.mpr known⟩⟩
  | clear => exact ⟨ascending, known, called⟩

theorem run (ordered : journal.Ordered) (actions : List Action) : (journal.run actions).Ordered := by
  induction actions generalizing journal with
  | nil => exact ordered
  | cons action rest ih => exact ih (ordered.act action)

-- One event calls each listener at most once, in the order of registration.
theorem heard (ordered : journal.Ordered) (event : Event) : (journal.heard event).Pairwise (·.listener < ·.listener) :=
  List.pairwise_map.mpr ordered.ascending

theorem calls_eq_nil (ordered : journal.Ordered) (unknown : journal.registered ≤ number) :
    journal.calls number = [] := by
  refine List.filter_eq_nil_iff.mpr fun call member => ?_
  have earlier := ordered.called call member
  simp
  omega

-- A new listener is the only one of its number.
theorem listening_new (ordered : journal.Ordered) (receive : Event → Reception) :
    (journal.act (.subscribe receive)).listening journal.registered = [⟨journal.registered, receive⟩] := by
  have others : journal.listening journal.registered = [] := by
    refine List.filter_eq_nil_iff.mpr fun listener member => ?_
    have earlier := ordered.known listener member
    simp
    omega
  have split : (journal.act (.subscribe receive)).listening journal.registered =
      journal.listening journal.registered ++ _ := List.filter_append journal.listeners _
  rw [split, others]
  simp

end Ordered

/-! What a run does. -/

theorem run_append (journal : Journal) (before after : List Action) :
    journal.run (before ++ after) = (journal.run before).run after := List.foldl_append

theorem registered_run (journal : Journal) (actions : List Action) :
    (journal.run actions).registered = journal.registered + registrations actions := by
  induction actions generalizing journal with
  | nil => rfl
  | cons action rest ih =>
      have split : registrations ([action] ++ rest) = registrations [action] + registrations rest := List.countP_append
      rw [← List.singleton_append, split, ← Nat.add_assoc, ← registered_act]
      exact ih _

theorem deliveries_run (journal : Journal) (actions : List Action) :
    journal.deliveries <+: (journal.run actions).deliveries := by
  induction actions generalizing journal with
  | nil => exact List.prefix_refl _
  | cons action rest ih =>
      have first : journal.deliveries <+: (journal.act action).deliveries :=
        deliveries_act journal action ▸ List.prefix_append _ _
      exact first.trans (ih _)

theorem published_concat (history : List Action) (action : Action) :
    published (history ++ [action]) = published history ++ action.event?.toList := by
  rw [published, List.filterMap_append]
  cases action <;> rfl

-- By induction from the end: the last action clears the log, or adds what it publishes.
theorem log_run (history : List Action) :
    (run {} history).log = published (history.rtakeWhile fun action => !action.isClear) := by
  induction history using List.reverseRecOn with
  | nil => rfl
  | append_singleton before action ih =>
      have last : run {} (before ++ [action]) = (run {} before).act action := run_append _ _ _
      rw [last, log_act, ih, List.rtakeWhile_concat]
      cases action.isClear with
      | true => rfl
      | false => exact (published_concat _ _).symm

theorem calls_run_ended (known : number < journal.registered) (gone : journal.listening number = [])
    (actions : List Action) : (journal.run actions).calls number = journal.calls number := by
  induction actions generalizing journal with
  | nil => rfl
  | cons action rest ih =>
      have known' : number < (journal.act action).registered := registered_act journal action ▸ Nat.lt_add_right _ known
      have gone' : (journal.act action).listening number = [] := by rw [listening_act known, gone, ite_self]
      have silent : (journal.act action).calls number = journal.calls number := by
        rw [calls_act, gone]
        simp
      exact (ih known' gone').trans silent

-- By induction on the actions, as long as none of them ends the listener.
theorem calls_run {receive : Event → Reception} (known : number < journal.registered)
    (present : journal.listening number = [⟨number, receive⟩]) (actions : List Action) :
    (journal.run actions).calls number = journal.calls number ++
      (published (actions.takeWhile fun action => !action.ends number)).map fun event =>
        ⟨number, event, receive event⟩ := by
  induction actions generalizing journal with
  | nil => exact (List.append_nil _).symm
  | cons action rest ih =>
      have known' : number < (journal.act action).registered := registered_act journal action ▸ Nat.lt_add_right _ known
      have still := listening_act known action
      cases ending : action.ends number with
      | true =>
          rw [ending] at still
          have silent : (journal.act action).calls number = journal.calls number := by
            cases action with
            | unsubscribe => rfl
            | subscribe | publish | clear => cases ending
          rw [List.takeWhile_cons_of_neg (by simp [ending])]
          exact (calls_run_ended known' still rest).trans (silent.trans (List.append_nil _).symm)
      | false =>
          rw [ending] at still
          have called := calls_act journal action number
          rw [present] at still called
          rw [List.takeWhile_cons_of_pos (by simp [ending])]
          refine (ih known' still).trans ?_
          rw [called, List.append_assoc]
          cases action <;> rfl

/-! What a listener makes of an event matters to nobody else. -/

structure SameBut (number : Nat) (journal other : Journal) : Prop where
  registered : journal.registered = other.registered
  listeners : List.Forall₂ (fun listener twin => listener.number = twin.number ∧
    (listener.number ≠ number → listener = twin)) journal.listeners other.listeners
  deliveries : List.Forall₂ (Delivery.SameBut number) journal.deliveries other.deliveries

namespace SameBut

theorem subscribe (same : SameBut number journal other) {receive receive' : Event → Reception}
    (told : journal.registered ≠ number → receive = receive') :
    SameBut number (journal.act (.subscribe receive)) (other.act (.subscribe receive')) := by
  obtain ⟨registered, listeners, deliveries⟩ := same
  refine ⟨congrArg (· + 1) registered, List.rel_append listeners (.cons ⟨registered, fun apart => ?_⟩ .nil), deliveries⟩
  rw [told apart, registered]

theorem unsubscribe (same : SameBut number journal other) (ended : Nat) :
    SameBut number (journal.act (.unsubscribe ended)) (other.act (.unsubscribe ended)) := by
  obtain ⟨registered, listeners, deliveries⟩ := same
  refine ⟨registered, List.rel_filter ?_ listeners, deliveries⟩
  rintro listener twin ⟨numbered, _⟩
  dsimp only
  rw [numbered]

theorem publish (same : SameBut number journal other) (event : Event) :
    SameBut number (journal.act (.publish event)) (other.act (.publish event)) := by
  obtain ⟨registered, listeners, deliveries⟩ := same
  refine ⟨registered, listeners, List.rel_append deliveries (List.rel_map ?_ listeners)⟩
  rintro listener twin ⟨numbered, told⟩
  exact ⟨numbered, rfl, fun apart => by rw [told apart]⟩

theorem act (same : SameBut number journal other) (action : Action) :
    SameBut number (journal.act action) (other.act action) := by
  cases action with
  | subscribe receive => exact same.subscribe fun _ => rfl
  | unsubscribe ended => exact same.unsubscribe ended
  | publish event => exact same.publish event
  | clear => exact ⟨same.registered, same.listeners, same.deliveries⟩

theorem run (same : SameBut number journal other) (actions : List Action) :
    SameBut number (journal.run actions) (other.run actions) := by
  induction actions generalizing journal other with
  | nil => exact same
  | cons action rest ih => exact ih (same.act action)

theorem refl (journal : Journal) (number : Nat) : SameBut number journal journal :=
  ⟨rfl, List.forall₂_same.mpr fun _ _ => ⟨rfl, fun _ => rfl⟩, List.forall₂_same.mpr fun _ _ => ⟨rfl, rfl, fun _ => rfl⟩⟩

end SameBut

-- Listeners are numbered by registration. Behind every history, the calls of one are those of the events that were
-- published behind its registration and before its end, one call for each and in their order, and nobody else is
-- called; calls are never unmade, and an event calls its listeners in the order of registration. If a listener takes
-- events in another way, failing or crashing where it did not, all calls are made all the same, and taken the same way
-- by the others. The log holds what was published since it was last cleared.
theorem events_delivered :
    (∀ before receive after, let number := registrations before
      ((run {} before).subscribe receive).1 = number ∧
      (run {} (before ++ .subscribe receive :: after)).calls number =
        (published (after.takeWhile fun action => !action.ends number)).map fun event =>
          ⟨number, event, receive event⟩) ∧
    (∀ history more, (run {} history).calls (registrations history + more) = []) ∧
    (∀ before after, (run {} before).deliveries <+: (run {} (before ++ after)).deliveries) ∧
    (∀ before event, ∃ calls, (run {} (before ++ [.publish event])).deliveries = (run {} before).deliveries ++ calls ∧
      (∀ call ∈ calls, call.event = event) ∧ calls.Pairwise (·.listener < ·.listener)) ∧
    (∀ before receive receive' after, List.Forall₂ (Delivery.SameBut (registrations before))
      (run {} (before ++ .subscribe receive :: after)).deliveries
      (run {} (before ++ .subscribe receive' :: after)).deliveries) ∧
    ∀ history, (run {} history).log = published (history.rtakeWhile fun action => !action.isClear) := by
  have numbered (history : List Action) : (run {} history).registered = registrations history :=
    (registered_run {} history).trans (Nat.zero_add _)
  refine ⟨fun before receive after => ⟨numbered before, ?_⟩, fun history more => ?_, fun before after => ?_,
    fun before event => ?_, fun before receive receive' after => ?_, log_run⟩
  · have ordered := Ordered.empty.run before
    have calls := calls_run (Nat.lt_succ_self _) (ordered.listening_new receive) after
    have silent : ((run {} before).act (.subscribe receive)).calls (run {} before).registered = [] :=
      ordered.calls_eq_nil (Nat.le_refl _)
    rw [silent, List.nil_append, numbered] at calls
    exact run_append {} before _ ▸ calls
  · exact (Ordered.empty.run history).calls_eq_nil (numbered history ▸ Nat.le_add_right _ more)
  · exact run_append {} before after ▸ deliveries_run _ after
  · refine ⟨(run {} before).heard event, run_append {} before _ ▸ rfl, ?_, (Ordered.empty.run before).heard event⟩
    exact List.forall_mem_map.mpr fun _ _ => rfl
  · have apart : SameBut (registrations before) ((run {} before).act (.subscribe receive))
        ((run {} before).act (.subscribe receive')) :=
      (SameBut.refl _ _).subscribe fun apart => absurd (numbered before) apart
    rw [run_append, run_append]
    exact (apart.run after).deliveries

-- The first listener crashes at every event until its end. The second one, which fails, hears of what comes behind its
-- registration, and of nothing any more behind its end.
theorem notes_delivered :
    let note (name : String) : Event := ⟨name, "notes", .null, 0, none⟩
    let before : List Action := [.subscribe fun _ => .crashed, .publish (note "a")]
    let after : List Action := [.publish (note "b"), .unsubscribe 0, .clear, .publish (note "c"), .unsubscribe 1,
      .publish (note "d")]
    let journal := run {} (before ++ .subscribe (fun _ => .failed) :: after)
    journal.calls 1 = [⟨1, note "b", .failed⟩, ⟨1, note "c", .failed⟩] ∧
    journal.deliveries.map (fun call => (call.listener, call.event.name)) = [(0, "a"), (0, "b"), (1, "b"), (1, "c")] ∧
    journal.log = [note "c", note "d"] := by
  intro note before after journal
  obtain ⟨delivered, _, _, _, _, logged⟩ := events_delivered
  exact ⟨(delivered before _ after).2, rfl, logged _⟩

end Journal
end Charter

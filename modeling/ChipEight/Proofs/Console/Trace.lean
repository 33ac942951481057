import ChipEight.Proofs.Console.Step
import ChipEight.Proofs.Machine.Classification
import ChipEight.Proofs.Machine.Word
import ChipEight.Proofs.Trace.Delivery

/-!
# What the observers of a step are told

Of an attempted step the observers of a console are told the instruction, if one was fetched and
the console is traced; then the draw, if the instruction drew and the console is traced; then the
fault, if there was one. `Attempt.events` says so in terms of the machine before and behind the
step and of its result.

`Told` says that a console has passed on certain events on the way to another one. It adds up, so
the events of a step are those of its start and of its end.

## Main results

* `Console.told_step` — the events of an attempted step.
* `Console.kind_eventsOfStep` — a console that is not traced tells of faults only.
-/

namespace ChipEight

open Trace

namespace Console

/-! ## Attempts -/

/-- The attempt of a step. -/
structure Attempt where
  before : Machine
  after : Machine
  result : Except Failure StepReport

def attempt (c : Console) (keys : Keyboard) : Attempt where
  before := c.machine
  after := (c.step keys).1.machine
  result := (c.step keys).2

namespace Attempt

/-- The instruction that was fetched. -/
def fetchEvents (a : Attempt) (debug : Bool) : List Event :=
  match debug, a.before.fetch with
  | true, .ok w =>
    [{ kind := .instruction, pc := some a.before.pc, opcode := some w.toNat
       message := w.describe, payload := [] }]
  | _, _ => []

/-- The picture that was drawn. Of a sprite the flag register tells whether a lit pixel went
out. -/
def drawEvents (a : Attempt) (debug : Bool) : List Event :=
  match debug, a.result with
  | true, .ok r =>
    let drawn (payload : List (String × JsonValue)) : Event :=
      { kind := .draw, pc := some a.before.pc, opcode := some r.word.toNat
        message := "display redraw", payload }
    if r.word = 0x00E0 then [drawn []]
    else if r.word.family.val = 0xD then
      [drawn [("collision", .bool (a.after.reg flagRegister == 1))]]
    else []
  | _, _ => []

/-- The fault that was raised, with the word if one was fetched. -/
def faultEvents (a : Attempt) (dumpMemory : Bool) : List Event :=
  match a.result with
  | .error (.fault f) =>
    [{ kind := .fault, pc := some a.before.pc
       opcode := a.before.fetch.toOption.map fun w => (w.toNat : Int)
       message := "panic: " ++ f.text
       payload := [("dump", .str (a.before.snapshot.dump dumpMemory))] }]
  | _ => []

/-- What the observers are told of an attempt. -/
def events (a : Attempt) (debug dumpMemory : Bool) : List Event :=
  a.fetchEvents debug ++ a.drawEvents debug ++ a.faultEvents dumpMemory

end Attempt

/-- What the observers of a console are told when it attempts a step. -/
def eventsOfStep (c : Console) (keys : Keyboard) : List Event :=
  (c.attempt keys).events c.config.debug c.config.dumpMemoryOnFault

/-! ## What observers are told -/

/-- On the way from one console to another the observers were told the events `es`, and nothing
but what they made of that was logged. -/
structure Told (c : Console) (es : List Event) (d : Console) : Prop where
  trace : d.trace = (c.trace.emitAll es).1
  log : d.log = c.log ++ (c.trace.emitAll es).2

variable {c d d' : Console} {es es' : List Event} {keys : Keyboard}

/-- The observers are told nothing. -/
theorem told_nil (htrace : d.trace = c.trace) (hlog : d.log = c.log) : Told c [] d :=
  ⟨htrace, hlog.trans Array.appendList_nil.symm⟩

theorem Told.trans (h : Told c es d) (h' : Told d es' d') : Told c (es ++ es') d' := by
  constructor
  · rw [h'.trace, h.trace, Dispatcher.emitAll_append]
  · rw [h'.log, h.log, h.trace, Dispatcher.emitAll_append]
    apply Array.ext'
    simp only [Array.toList_appendList, List.append_assoc]

theorem told_emit (c : Console) (e : Event) : Told c [e] (c.emit e) := by
  constructor
  · rfl
  · show c.log ++ (c.trace.emit e).2 = c.log ++ ((c.trace.emit e).2 ++ [])
    rw [List.append_nil]

/-! ## Steps that succeed -/

/-- The start of a step. -/
theorem told_traceFetch (c : Console) (keys : Keyboard) :
    Told c ((c.attempt keys).fetchEvents c.config.debug) c.traceFetch := by
  unfold traceFetch Attempt.fetchEvents
  show Told c (match c.config.debug, c.machine.fetch with | true, .ok w => _ | _, _ => []) _
  cases c.config.debug with
  | false => exact told_nil rfl rfl
  | true =>
      cases c.machine.fetch with
      | error cause => exact told_nil rfl rfl
      | ok w => exact c.told_emit _

/-- What the observers are told of an executed instruction. -/
def eventsOfAccept (c : Console) (s : Machine.Step) : List Event :=
  if c.config.debug then s.redraw.toList.map fun r => .draw s.pc s.word.toNat (collisionOf r)
  else []

theorem told_accept (c : Console) (s : Machine.Step) :
    Told c (c.eventsOfAccept s) (c.accept s) := by
  unfold eventsOfAccept accept takeOver
  cases s.redraw with
  | none =>
      cases c.config.debug with
      | false => exact told_nil rfl rfl
      | true => exact told_nil rfl rfl
  | some r =>
      -- The observers do not notice that the machine is taken over and the picture is shown.
      have hshown : ({ c with machine := s.next, draws := c.draws + 1 } : Console).redraw.config =
          c.config := rfl
      simp only [showDraw, traceDraw, hshown]
      cases c.config.debug with
      | false => exact told_nil rfl rfl
      | true =>
          have htold := told_emit
            ({ c with machine := s.next, draws := c.draws + 1 } : Console).redraw
            (.draw s.pc s.word.toNat (collisionOf r))
          exact ⟨htold.trace, htold.log⟩

/-- The report of an executed instruction, and the machine behind it, tell of the draw. -/
theorem eventsOfStep_of_executes {s : Machine.Step} {i : Instruction}
    (hexec : c.machine.Executes c.config.timerDivider keys s i) :
    c.eventsOfStep keys =
      (c.attempt keys).fetchEvents c.config.debug ++ c.eventsOfAccept s := by
  have hstep := step_eq_accept hexec
  have hresult : (c.attempt keys).result = .ok (c.answerOf s) := congrArg Prod.snd hstep
  have hafter : (c.attempt keys).after = s.next := by
    show (c.step keys).1.machine = s.next
    rw [hstep, machine_of_bare (bare_accept _ s), machine_behind]
  have hfault : (c.attempt keys).faultEvents c.config.dumpMemoryOnFault = [] := by
    unfold Attempt.faultEvents
    rw [hresult]
  have hdraw : (c.attempt keys).drawEvents c.config.debug = c.eventsOfAccept s := by
    unfold Attempt.drawEvents eventsOfAccept
    rw [hresult, hafter, hexec.redraw_eq, hexec.pc]
    cases c.config.debug with
    | false => rfl
    | true =>
        show (if s.word = 0x00E0 then _ else if s.word.family.val = 0xD then _ else _) = _
        split
        · rfl
        · split
          · rfl
          · rfl
  unfold eventsOfStep Attempt.events
  rw [hdraw, hfault, List.append_nil]

/-! ## Steps that fail -/

/-- Nobody is told of a fault that nobody observes, which makes no difference. -/
theorem told_traceFault (c : Console) {f : Fault} {pc : Int} {state : Snapshot}
    (hpc : f.pc = some pc) (hstate : f.snapshot = some state) :
    Told c [.fault pc f.opcode f.text (state.dump c.config.dumpMemoryOnFault)]
      (c.traceFault f) := by
  unfold traceFault
  rw [hpc, hstate]
  cases hobserved : c.trace.hasObservers with
  | true => exact c.told_emit _
  | false =>
      have hsilent := Dispatcher.emit_of_not_hasObservers hobserved
      constructor
      · simp only [Dispatcher.emitAll, hsilent]
      · simp only [Dispatcher.emitAll, hsilent, List.append_nil, Array.appendList_nil]

/-- What the observers are told of a step that was given up for a reason, after the word `w` was
fetched, if one was. -/
def eventsOfRefuse (c : Console) (w : Option Word) : Halt → List Event
  | .fault cause =>
    [.fault c.machine.pc (w.map fun w => (w.toNat : Int))
      (c.machine.report c.machine.pc w cause).text
      (c.machine.snapshot.dump c.config.dumpMemoryOnFault)]
  | .notAByte => []

theorem told_refuse (c : Console) (w : Option Word) (h : Halt) :
    Told c (c.eventsOfRefuse w h)
      (c.refuse c.machine.pc (Machine.stop c.machine.pc w { machine := c.machine } h)) := by
  have htake : c.takeOver c.machine.pc w { machine := c.machine } = c := by
    unfold takeOver
    cases w <;> rfl
  unfold refuse
  cases h with
  | notAByte =>
      show Told c [] (c.takeOver c.machine.pc w { machine := c.machine })
      rw [htake]
      exact told_nil rfl rfl
  | fault cause =>
      have hpc : (c.machine.report c.machine.pc w cause).pc = some c.machine.pc := rfl
      have hstate : (c.machine.report c.machine.pc w cause).snapshot = some c.machine.snapshot :=
        rfl
      show Told c _ ((c.takeOver c.machine.pc w { machine := c.machine }).traceFault _)
      rw [htake]
      exact c.told_traceFault hpc hstate

/-- The result of a step that failed tells of the fault. -/
theorem eventsOfStep_of_blocked {w : Option Word} {h : Halt}
    (hblocked : c.machine.Blocked keys w h) :
    c.eventsOfStep keys =
      (c.attempt keys).fetchEvents c.config.debug ++ c.eventsOfRefuse w h := by
  have hresult : (c.attempt keys).result = .error (c.machine.failure c.machine.pc w h) :=
    congrArg Prod.snd (step_eq_refuse hblocked)
  have hdraw : (c.attempt keys).drawEvents c.config.debug = [] := by
    unfold Attempt.drawEvents
    rw [hresult]
    cases c.config.debug <;> rfl
  have hfault : (c.attempt keys).faultEvents c.config.dumpMemoryOnFault =
      c.eventsOfRefuse w h := by
    unfold Attempt.faultEvents
    rw [hresult]
    cases h with
    | notAByte => rfl
    | fault cause =>
        have hword : w = (c.attempt keys).before.fetch.toOption := hblocked.word
        rw [← hword]
        rfl
  unfold eventsOfStep Attempt.events
  rw [hdraw, hfault, List.append_nil]

/-! ## Steps -/

/-- What the observers are told of an attempted step. -/
theorem told_step (c : Console) (keys : Keyboard) :
    Told c (c.eventsOfStep keys) (c.step keys).1 := by
  have hfetch := c.told_traceFetch keys
  have hbare := bare_traceFetch c
  rcases Machine.executes_or_blocked c.machine c.config.timerDivider keys with
    ⟨s, i, hexec⟩ | ⟨w, h, hblocked⟩
  · have haccept := c.traceFetch.told_accept s
    unfold eventsOfAccept at haccept
    rw [config_of_bare hbare] at haccept
    rw [eventsOfStep_of_executes hexec, step_eq_accept hexec]
    exact hfetch.trans haccept
  · have hrefuse := c.traceFetch.told_refuse w h
    have hsame : c.traceFetch.eventsOfRefuse w h = c.eventsOfRefuse w h := by
      unfold eventsOfRefuse
      rw [config_of_bare hbare, machine_of_bare hbare]
    rw [hsame, machine_of_bare hbare] at hrefuse
    rw [eventsOfStep_of_blocked hblocked, step_eq_refuse hblocked]
    exact hfetch.trans hrefuse

/-- Only faults are traced of a console that is not traced otherwise. -/
theorem kind_eventsOfStep (hdebug : c.config.debug = false) {e : Event}
    (he : e ∈ c.eventsOfStep keys) : e.kind = .fault := by
  unfold eventsOfStep Attempt.events at he
  rw [hdebug] at he
  have hfault : e ∈ (c.attempt keys).faultEvents c.config.dumpMemoryOnFault := he
  unfold Attempt.faultEvents at hfault
  split at hfault
  · rw [List.mem_singleton.mp hfault]
  · cases hfault

/-- A step fails with a fault, unless it reads a delay timer that is no byte. -/
theorem failure_cases {e : Failure} (hstep : (c.step keys).2 = .error e) :
    (∃ f, e = .fault f) ∨
      e = .notAByte ∧ ¬(0 ≤ c.machine.delayTimer ∧ c.machine.delayTimer < 256) := by
  obtain ⟨w, h, hblocked, rfl, -⟩ := step_error_inv (Prod.ext (Eq.refl (c.step keys).1) hstep)
  cases h with
  | fault cause => exact .inl ⟨_, rfl⟩
  | notAByte =>
      cases hblocked with
      | check _ _ hcheck => exact .inr ⟨rfl, Machine.delayTimer_of_refusal hcheck⟩

end Console

end ChipEight

import ChipEight.Proofs.Console.Alike
import ChipEight.Proofs.Session.Course

/-!
# Sessions with alike consoles

Two sessions that differ in their consoles only, and whose consoles are alike, go on alike:
their keys, queues and clocks stay the same, their consoles stay alike, and they give the same
answers. The second session is written as `s.withConsole d`, so what stays the same need not be
listed.

`Session.answer` is all that the caller of an operation gets back. Of a traced step the answer
has the instruction in words, and `Answer.plain` leaves that out.

## Main results

* `Session.alike_cruise` — the loop of a drive.
* `Session.alike_perform`, `Session.alike_performAll` — operations lead to alike consoles.
* `Session.answer_alike` — operations are answered alike.
-/

namespace ChipEight

namespace Session

/-! ## Answers -/

/-- What the caller of an operation gets back. -/
inductive Answer
  /-- Nothing: the operation always succeeds. -/
  | done
  | load (result : Except Failure Unit)
  | step (result : Except Failure StepReport)
  | run (result : Except Failure Int)
  | key (result : Except Fault.Cause Unit)
  | drive (result : Except Failure DriveReport)
  /-- A drive that goes on for ever does not answer. -/
  | driveOn (result : Option (Except Failure DriveReport))

/-- The answer without what depends on whether instructions are traced. -/
def Answer.plain : Answer → Answer
  | .step result => .step (result.map StepReport.plain)
  | answer => answer

/-- What an operation answers. -/
def answer (s : Session) : Op → Answer
  | .load program => .load (s.console.load program).2
  | .step => .step s.step.2
  | .run n => .run (s.run n).2
  | .press code => .key ((s.keypad.press code).map fun _ => ())
  | .release code => .key ((s.keypad.release code).map fun _ => ())
  | .drive limit options => .drive (s.drive limit options).2
  | .driveOn options => .driveOn ((s.driveOn options).map (·.2))
  | .reset | .post _ | .plug _ | .reseed _ => .done

variable {drawn shown : Nat} {s : Session} {c d : Console}

theorem withConsole_withConsole (s : Session) (c d : Console) :
    (s.withConsole c).withConsole d = s.withConsole d := rfl

/-! ## Steps -/

theorem alike_step (h : Console.Alike drawn shown s.console d) :
    (∃ s' d' r r', s.step = (s', .ok r) ∧ (s.withConsole d).step = (s'.withConsole d', .ok r') ∧
      Console.Alike drawn shown s'.console d' ∧ r.plain = r'.plain ∧
      (s.console.config.debug = d.config.debug → r = r')) ∨
    (∃ s' d' e, s.step = (s', .error e) ∧ (s.withConsole d).step = (s'.withConsole d', .error e) ∧
      Console.Alike drawn shown s'.console d') := by
  have hstep : (s.withConsole d).step =
      (s.withConsole (d.step s.keyboard).1, (d.step s.keyboard).2) := rfl
  rcases h.step s.keyboard with ⟨c, e, r, r', hc, he, hnext, hreport⟩ | ⟨c, e, f, hc, he, hnext⟩
  · left
    refine ⟨s.withConsole c, e, r, r', ?_, ?_, hnext, hreport⟩
    · rw [Session.step, hc]
    · rw [hstep, he]
      rfl
  · right
    refine ⟨s.withConsole c, e, f, ?_, ?_, hnext⟩
    · rw [Session.step, hc]
    · rw [hstep, he]
      rfl

/-! ## Drives -/

/-- The events that a caller has after a step depend on the machine only. -/
theorem afterStep_withConsole (h : s.console.machine = d.machine) (o : DriveOptions)
    (interval : Float) :
    (s.withConsole d).afterStep o interval = (s.afterStep o interval).withConsole d := by
  unfold afterStep
  rw [h]
  split
  · rfl
  · rfl

/-- Both loops drain the same queue and take a step of the same machine, over and over. -/
theorem alike_cruise (o : DriveOptions) (interval : Float) :
    ∀ (limit : Nat) {s : Session} {d : Console} (t : Tally),
      Console.Alike drawn shown s.console d →
      ∃ d', cruise o interval limit (s.withConsole d) t =
          ((cruise o interval limit s t).1.withConsole d', (cruise o interval limit s t).2) ∧
        Console.Alike drawn shown (cruise o interval limit s t).1.console d' := by
  intro limit
  induction limit with
  | zero =>
      intro s d t h
      exact ⟨d, rfl, h⟩
  | succ limit ih =>
      intro s d t h
      -- No console is asked while the queue is worked off, so both loops leave it at the same
      -- event, and both step or neither does.
      have hdrain : (s.withConsole d).drain = (s.drain.1.withConsole d, s.drain.2) := rfl
      rw [← s.console_drain] at h
      rcases hresult : s.drain with ⟨s', _ | _ | cause⟩
      · rw [hresult] at hdrain h
        rcases alike_step h with
          ⟨s'', e, r, r', hs, he, hnext, hplain, -⟩ | ⟨s'', e, f, hs, he, hnext⟩
        · -- A tally looks at the mark only, and so not at what tells the reports apart.
          have hcount : t.count r' = t.count r := by
            have hdraw : r.plain.redrawn = r'.plain.redrawn := congrArg (·.redrawn) hplain
            unfold Tally.count
            rw [show r.redrawn = r'.redrawn from hdraw]
          have hafter := afterStep_withConsole hnext.machine o interval
          rw [← console_afterStep s'' o interval] at hnext
          simp only [cruise, hdrain, hresult, hs, he, hcount, hafter]
          exact ih (t.count r) hnext
        · simp only [cruise, hdrain, hresult, hs, he]
          exact ⟨e, rfl, hnext⟩
      · rw [hresult] at hdrain h
        simp only [cruise, hdrain, hresult]
        exact ⟨d, rfl, h⟩
      · rw [hresult] at hdrain h
        simp only [cruise, hdrain, hresult]
        exact ⟨d, rfl, h⟩

/-- Both loops execute the same, and report it in the same way if both are traced or neither
is. -/
theorem alike_cruised (o : DriveOptions) (interval : Float) :
    ∀ (limit : Nat) {s : Session} {d : Console}, Console.Alike drawn shown s.console d →
      s.console.config.debug = d.config.debug →
      cruised o interval limit (s.withConsole d) = cruised o interval limit s := by
  intro limit
  induction limit with
  | zero =>
      intro s d _ _
      rfl
  | succ limit ih =>
      intro s d h hdebug
      have hdrain : (s.withConsole d).drain = (s.drain.1.withConsole d, s.drain.2) := rfl
      rw [← s.console_drain] at h hdebug
      rcases hresult : s.drain with ⟨s', _ | _ | cause⟩
      · rw [hresult] at hdrain h hdebug
        rcases alike_step h with
          ⟨s'', e, r, r', hs, he, hnext, -, hreport⟩ | ⟨s'', e, f, hs, he, -⟩
        · have hafter := afterStep_withConsole hnext.machine o interval
          have hsame : s''.console.config.debug = e.config.debug := by
            have hc := (Console.settings_step s'.console s'.keyboard).1
            have hd := (Console.settings_step d (s'.withConsole d).keyboard).1
            rw [(console_step hs).1] at hc
            rw [show d.step (s'.withConsole d).keyboard = (e, .ok r') from
              (console_step he).1] at hd
            rw [hc, hd]
            exact hdebug
          rw [← console_afterStep s'' o interval] at hnext hsame
          simp only [cruised, hdrain, hresult, hs, he, hafter, hreport hdebug, ih hnext hsame]
        · simp only [cruised, hdrain, hresult, hs, he]
      · rw [hresult] at hdrain
        simp only [cruised, hdrain, hresult]
      · rw [hresult] at hdrain
        simp only [cruised, hdrain, hresult]

theorem alike_drive (h : Console.Alike drawn shown s.console d) (limit : Int)
    (o : DriveOptions) :
    ∃ d', (s.withConsole d).drive limit o =
        ((s.drive limit o).1.withConsole d', (s.drive limit o).2) ∧
      Console.Alike drawn shown (s.drive limit o).1.console d' := by
  cases hpace : s.pacing.stepInterval? with
  | none =>
      have hpace' : (s.withConsole d).pacing.stepInterval? = none := hpace
      simp only [drive, hpace, hpace']
      exact ⟨d, rfl, h⟩
  | some interval =>
      have hpace' : (s.withConsole d).pacing.stepInterval? = some interval := hpace
      obtain ⟨d', hcruise, halike⟩ := alike_cruise o interval limit.toNat {} h
      simp only [drive, hpace, hpace', hcruise]
      exact ⟨_, rfl, halike.of_bare rfl rfl⟩

/-- Drives without a limit end alike, or both go on for ever. -/
theorem alike_driveOn (h : Console.Alike drawn shown s.console d) (o : DriveOptions) :
    s.driveOn o = none ∧ (s.withConsole d).driveOn o = none ∨
      ∃ (x : Session × Except Failure DriveReport) (d' : Console), s.driveOn o = some x ∧
        (s.withConsole d).driveOn o = some (x.1.withConsole d', x.2) ∧
        Console.Alike drawn shown x.1.console d' := by
  cases hdriven : s.driveOn o with
  | some x =>
      obtain ⟨n, rfl, hend⟩ := driveOn_eq_some_iff.mp hdriven
      obtain ⟨d', hdrive, halike⟩ := alike_drive h n o
      exact .inr ⟨_, d', rfl, driveOn_eq_some_iff.mpr ⟨n, hdrive, hend⟩, halike⟩
  | none =>
      refine .inl ⟨rfl, Option.eq_none_iff_forall_ne_some.mpr fun y hother => ?_⟩
      obtain ⟨n, rfl, hend⟩ := driveOn_eq_some_iff.mp hother
      obtain ⟨d', hdrive, -⟩ := alike_drive h n o
      rw [hdrive] at hend
      cases hdriven.symm.trans (driveOn_eq_some_iff.mpr ⟨n, rfl, hend⟩)

/-! ## Operations -/

theorem withKeypad_withConsole (s : Session) (d : Console)
    (keypad : Except Fault.Cause Keypad) :
    (s.withConsole d).withKeypad keypad = (s.withKeypad keypad).withConsole d := by
  cases keypad <;> rfl

theorem alike_perform (h : Console.Alike drawn shown s.console d) (o : Op) :
    ∃ d', (s.withConsole d).perform o = (s.perform o).withConsole d' ∧
      Console.Alike drawn shown (s.perform o).console d' := by
  cases o with
  | load program => exact ⟨_, rfl, (h.load program).1⟩
  | step =>
      rcases alike_step h with ⟨s', d', r, r', hs, hd, hnext, -⟩ | ⟨s', d', e, hs, hd, hnext⟩
      · simp only [perform, hs, hd]
        exact ⟨d', rfl, hnext⟩
      · simp only [perform, hs, hd]
        exact ⟨d', rfl, hnext⟩
  | run n => exact ⟨_, rfl, (h.run s.keyboard n).1⟩
  | reset => exact ⟨_, rfl, h.reset⟩
  | press code | release code =>
      exact ⟨d, withKeypad_withConsole s d _, (console_withKeypad s _).symm ▸ h⟩
  | post events | plug device => exact ⟨d, rfl, h⟩
  | drive limit options =>
      obtain ⟨d', hdrive, halike⟩ := alike_drive h limit options
      exact ⟨d', congrArg Prod.fst hdrive, halike⟩
  | driveOn options =>
      rcases alike_driveOn h options with ⟨hs, hd⟩ | ⟨x, d', hs, hd, halike⟩
      · simp only [perform, hs, hd]
        exact ⟨d, rfl, h⟩
      · simp only [perform, hs, hd]
        exact ⟨d', rfl, halike⟩
  | reseed random => exact ⟨_, rfl, h.reseed random⟩

theorem alike_performAll (ops : List Op) :
    ∀ {s : Session} {d : Console}, Console.Alike drawn shown s.console d →
      ∃ d', (s.withConsole d).performAll ops = (s.performAll ops).withConsole d' ∧
        Console.Alike drawn shown (s.performAll ops).console d' := by
  induction ops with
  | nil =>
      intro s d h
      exact ⟨d, rfl, h⟩
  | cons o ops ih =>
      intro s d h
      obtain ⟨e, hperform, hnext⟩ := alike_perform h o
      obtain ⟨d', hrest, halike⟩ := ih hnext
      refine ⟨d', ?_, halike⟩
      show ((s.withConsole d).perform o).performAll ops = _
      rw [hperform]
      exact hrest

/-! ## What is answered -/

/-- The answers are the same, except that only one of the steps may have been traced. -/
theorem answer_alike (h : Console.Alike drawn shown s.console d) (o : Op) :
    (s.answer o).plain = ((s.withConsole d).answer o).plain ∧
      (s.console.config.debug = d.config.debug → s.answer o = (s.withConsole d).answer o) := by
  cases o with
  | step =>
      rcases alike_step h with ⟨s', d', r, r', hs, hd, -, hplain, hreport⟩ | ⟨s', d', e, hs, hd, -⟩
      · simp only [answer, hs, hd, Answer.plain, Except.map, hplain, true_and]
        intro hdebug
        rw [hreport hdebug]
      · simp only [answer, hs, hd, implies_true, and_self]
  | load program =>
      have hanswer : s.answer (.load program) = (s.withConsole d).answer (.load program) :=
        congrArg Answer.load (h.load program).2
      exact ⟨congrArg Answer.plain hanswer, fun _ => hanswer⟩
  | run n =>
      have hanswer : s.answer (.run n) = (s.withConsole d).answer (.run n) :=
        congrArg Answer.run (h.run s.keyboard n).2
      exact ⟨congrArg Answer.plain hanswer, fun _ => hanswer⟩
  | drive limit options =>
      obtain ⟨d', hdrive, -⟩ := alike_drive h limit options
      have hanswer : s.answer (.drive limit options) =
          (s.withConsole d).answer (.drive limit options) :=
        congrArg Answer.drive (congrArg Prod.snd hdrive).symm
      exact ⟨congrArg Answer.plain hanswer, fun _ => hanswer⟩
  | driveOn options =>
      have hanswer : s.answer (.driveOn options) =
          (s.withConsole d).answer (.driveOn options) := by
        rcases alike_driveOn h options with ⟨hs, hd⟩ | ⟨x, d', hs, hd, -⟩
        · simp only [answer, hs, hd]
        · simp only [answer, hs, hd, Option.map_some]
      exact ⟨congrArg Answer.plain hanswer, fun _ => hanswer⟩
  | press | release | reset | post | plug | reseed => exact ⟨rfl, fun _ => rfl⟩

/-- What follows any operations is answered the same, too. -/
theorem answer_performAll (h : Console.Alike drawn shown s.console d) (ops : List Op) (o : Op) :
    ((s.performAll ops).answer o).plain = (((s.withConsole d).performAll ops).answer o).plain ∧
      (s.console.config.debug = d.config.debug →
        (s.performAll ops).answer o = ((s.withConsole d).performAll ops).answer o) := by
  obtain ⟨d', hperform, hnext⟩ := alike_performAll ops h
  obtain ⟨hconfig, -⟩ := s.settings_performAll ops
  obtain ⟨hconfig', -⟩ := (s.withConsole d).settings_performAll ops
  rw [hperform] at hconfig' ⊢
  obtain ⟨hplain, hanswer⟩ := answer_alike hnext o
  refine ⟨hplain, ?_⟩
  intro hdebug
  apply hanswer
  rw [hconfig, show d'.config = d.config from hconfig']
  exact hdebug

/-! ## Tracing -/

/-- Let two consoles be made with the same random source, and with settings that differ in
whether and how much is traced, and let anyone observe them. Under the same operations and with
the same keys both have the same machine and show the same picture, drawn as often; and
every operation is answered the same, faults included, up to the words for a traced
instruction. -/
theorem tracing_unobservable {config : Config} {random : Option Generator}
    {trace trace' : Trace.Dispatcher} {debug : Bool} {traceHistory : Int}
    {dumpMemoryOnFault : Bool} (hs : Console.create config random trace = .ok s.console)
    (hd : Console.create { config with debug, traceHistory, dumpMemoryOnFault } random trace' =
      .ok d) (ops : List Op) :
    let t := s.performAll ops
    let u := (s.withConsole d).performAll ops
    t.console.machine = u.console.machine ∧
    t.console.screen.frame = u.console.screen.frame ∧
    t.console.screen.drawCount = u.console.screen.drawCount ∧
    t.console.draws = u.console.draws ∧
    ∀ o, (t.answer o).plain = (u.answer o).plain := by
  intro t u
  have halike := Console.alike_create hs hd rfl rfl
  obtain ⟨d', hperform, hnext⟩ := alike_performAll ops halike
  have hanswers : ∀ o, (t.answer o).plain = (u.answer o).plain :=
    fun o => (answer_performAll halike ops o).1
  rw [show u = t.withConsole d' from hperform] at hanswers ⊢
  exact ⟨hnext.machine, hnext.frame, hnext.drawCount, hnext.draws, hanswers⟩

/-- The console of a fresh session, with a recorder of the caller's and one of its own. -/
def watched : Console := Console.redraw
  { config := { debug := true, traceHistory := 2, dumpMemoryOnFault := false }
    ownsRandom := false
    machine := .powerOn ⟨Vector.replicate generatorSize 0, 0⟩
    screen := {}
    trace :=
      { observers := [.recorder (.empty (some 1)), .recorder (.empty (some 2))]
        registered := [0, 1] }
    history := some 1
    log := #[] }

theorem create_watched :
    Console.create { debug := true, traceHistory := 2, dumpMemoryOnFault := false }
      (some ⟨Vector.replicate generatorSize 0, 0⟩)
      { observers := [.recorder (.empty (some 1))], registered := [0] } = .ok watched := by
  rfl

/-- A program that takes a random byte, blanks the display and returns without a call, and a
run up to the return. -/
def stumbling : List Op := [.load [0xC0, 0xFF, 0x00, 0xE0, 0x00, 0xEE], .run 2]

/-- The recorder has seen the run, and the fault that comes next is the same without it. -/
theorem fresh_watched :
    ((fresh.withConsole watched).performAll stumbling).console.historyEvents.map List.length =
      some 2 ∧
    (fresh.performAll stumbling).console.machine =
      ((fresh.withConsole watched).performAll stumbling).console.machine ∧
    ((fresh.performAll stumbling).answer .step).plain =
      (((fresh.withConsole watched).performAll stumbling).answer .step).plain := by
  have hseen : ((fresh.withConsole watched).performAll stumbling).console.historyEvents.map
      List.length = some 2 := by
    decide +kernel
  obtain ⟨hmachine, -, -, -, hanswers⟩ :=
    tracing_unobservable create_fresh create_watched stumbling
  exact ⟨hseen, hmachine, hanswers .step⟩

/-! ## Resets -/

/-- A new console in place of one that was reset. -/
theorem withConsole_reset (s : Session) (d : Console) :
    (s.perform .reset).withConsole d = s.withConsole d :=
  s.withConsole_withConsole s.console.reset d

/-- After any operations, a reset goes back to the seed, or leaves a random source of the
caller where it is. From then on the session goes on like one with the same keys and a new
console with the same settings, whoever observes that: every operation leads to the same
machine and the same picture, and is answered the same. -/
theorem reset_like_new {config : Config} {random : Option Generator} {trace : Trace.Dispatcher}
    (hcreate : Console.create config random trace = .ok s.console) (history : List Op) :
    let t := s.performAll history
    (t.perform .reset).console.machine.random =
      (if random.isNone then Console.randomOf config.seed else t.console.machine.random) ∧
    ∀ trace', ∃ d,
      Console.create config (random.map fun _ => t.console.machine.random) trace' = .ok d ∧
      ∀ ops,
        let u := (t.perform .reset).performAll ops
        let v := (t.withConsole d).performAll ops
        u.console.machine = v.console.machine ∧
        u.console.screen.frame = v.console.screen.frame ∧
        ∀ o, u.answer o = v.answer o := by
  intro t
  obtain ⟨hconfig, howns⟩ := s.settings_performAll history
  obtain ⟨hconfigNew, hownsNew⟩ := Console.settings_create hcreate
  rw [hconfigNew] at hconfig
  rw [hownsNew] at howns
  constructor
  · show t.console.randomAfterReset = _
    unfold Console.randomAfterReset
    rw [howns, hconfig]
  · intro trace'
    obtain ⟨d, hd⟩ := Console.create_again hcreate
      (random.map fun _ => t.console.machine.random) trace'
    refine ⟨d, hd, ?_⟩
    -- What the reset console has kept of its past is how often it has drawn.
    have halike : Console.Alike t.console.draws t.console.screen.drawCount t.console.reset d := by
      apply Console.alike_reset_create _ _ (hconfig ▸ hd)
      · rw [howns, Option.isNone_map]
      · intro g hg
        obtain ⟨_, -, rfl⟩ := Option.map_eq_some_iff.mp hg
        rfl
    have hdebug : t.console.reset.config.debug = d.config.debug := by
      rw [t.console.settings_reset.1, hconfig, (Console.settings_create hd).1]
    intro ops u v
    obtain ⟨d', hperform, hnext⟩ := alike_performAll (s := t.perform .reset) ops halike
    have hanswers := fun o => (answer_performAll (s := t.perform .reset) halike ops o).2 hdebug
    rw [withConsole_reset] at hperform hanswers
    refine ⟨?_, ?_, hanswers⟩
    · rw [show v = u.withConsole d' from hperform]
      exact hnext.machine
    · rw [show v = u.withConsole d' from hperform]
      exact hnext.frame

/-- Behind a run that took a random byte and drew, a reset brings back the seed, and the same
run has the same fault ahead that it has on a new console. -/
theorem seeded_reset :
    ((seeded.performAll stumbling).perform .reset).console.machine.random =
      Console.randomOf (some 7) ∧
    (((seeded.performAll stumbling).perform .reset).performAll stumbling).answer .step =
      (((seeded.performAll stumbling).withConsole seeded.console).performAll stumbling).answer
        .step := by
  obtain ⟨hrandom, hnew⟩ := reset_like_new create_seeded stumbling
  obtain ⟨d, hd, hlike⟩ := hnew {}
  obtain rfl : seeded.console = d := Except.ok.inj (create_seeded.symm.trans hd)
  exact ⟨hrandom, (hlike stumbling).2.2 .step⟩

end Session

end ChipEight

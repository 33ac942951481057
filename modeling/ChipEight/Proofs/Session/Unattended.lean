import ChipEight.Proofs.Session.Limit
import ChipEight.Proofs.Session.Screen

/-!
# Drives that nobody attends to

When no event is queued and the caller has none, a drive is a run: its loop finds an empty queue
before every step, so it attempts the steps of the run with the same keys, and ends where the run
ends. What it adds is a count of the steps and draws, a sleep behind every step if it is paced,
and an entry in the log.

## Main results

* `Session.drive_eq_run` — a drive without events against a run.
-/

namespace ChipEight

namespace Session

variable {s : Session}

/-- The session behind a step of a drive without events. -/
structure Onward (realtime : Bool) (s : Session) (c : Console) (t : Session) : Prop where
  console : t.console = c
  keyboard : t.keyboard = s.keyboard
  keypad : t.keypad = s.keypad
  pending : t.pending = []
  sleeps : t.sleeps = s.sleeps + realtime.toNat

theorem onward_afterStep (hpending : s.pending = []) (realtime : Bool) (interval : Float)
    (c : Console) :
    Onward realtime s c ((s.withConsole c).afterStep { realtime } interval) := by
  have hqueue : (s.withConsole c).pending ++ [] = [] := by
    rw [List.append_nil]
    exact hpending
  cases realtime with
  | false => exact ⟨rfl, rfl, rfl, hqueue, rfl⟩
  | true => exact ⟨rfl, rfl, rfl, hqueue, rfl⟩

/-- The loop of a drive without events attempts the steps of a run. -/
theorem cruise_unattended (realtime : Bool) (interval : Float) :
    ∀ (n : Nat) {s : Session} (t : Tally), s.pending = [] →
      cruised { realtime } interval n s = s.console.executed s.keyboard n ∧
      let x := cruise { realtime } interval n s t
      x.1.console = (s.console.steps s.keyboard n).1 ∧
      x.2.2 = (s.console.steps s.keyboard n).2.map (fun _ => false) ∧
      x.1.keypad = s.keypad ∧ x.1.pending = [] ∧
      x.1.sleeps = s.sleeps + realtime.toNat * (s.console.executed s.keyboard n).length := by
  intro n
  induction n with
  | zero =>
      intro s t hpending
      exact ⟨rfl, rfl, rfl, rfl, hpending, rfl⟩
  | succ n ih =>
      intro s t hpending
      have hdrain := drain_nil hpending
      rcases hstep : s.console.step s.keyboard with ⟨c, e | r⟩
      · simp only [cruised, cruise, hdrain, Session.step, hstep, Console.steps, Console.executed]
        exact ⟨trivial, rfl, rfl, rfl, hpending, rfl⟩
      · have honward := onward_afterStep hpending realtime interval c
        obtain ⟨hexecuted, hconsole, hresult, hkeypad, hqueue, hsleeps⟩ :=
          ih (t.count r) honward.pending
        rw [honward.console, honward.keyboard] at hexecuted hconsole hresult hsleeps
        rw [honward.keypad] at hkeypad
        rw [honward.sleeps] at hsleeps
        simp only [cruised, cruise, hdrain, Session.step, hstep, Console.steps, Console.executed]
        refine ⟨by rw [hexecuted], hconsole, hresult, hkeypad, hqueue, ?_⟩
        rw [hsleeps, List.length_cons, Nat.mul_succ]
        omega

theorem run_eq_steps (s : Session) (n : Int) :
    s.run n = (s.withConsole (s.console.steps s.keyboard n.toNat).1,
      (s.console.steps s.keyboard n.toNat).2.map fun _ => n) := by
  show (s.withConsole (s.console.run s.keyboard n).1, (s.console.run s.keyboard n).2) = _
  rw [Console.run_eq]

/-- A whole drive without events. -/
theorem drive_unattended {interval : Float} (hpending : s.pending = [])
    (hpace : s.pacing.stepInterval? = some interval) (n : Int) (realtime : Bool) :
    let executed := s.executed (.run n)
    ∃ t, s.drive n { realtime } = arrive s.clock (t, ⟨executed.length, drawsIn executed⟩,
        (s.console.steps s.keyboard n.toNat).2.map fun _ => false) ∧
      t.console = (s.console.steps s.keyboard n.toNat).1 ∧ t.keypad = s.keypad ∧
      t.pending = [] ∧ t.sleeps = s.sleeps + if realtime then executed.length else 0 := by
  intro executed
  obtain ⟨hexecuted, hconsole, hresult, hkeypad, hqueue, hsleeps⟩ :=
    cruise_unattended realtime interval n.toNat {} hpending
  obtain ⟨hsteps, hdraws⟩ := tally_cruise { realtime } interval n.toNat s {}
  have hdrawn : executed.countP (·.redrawn) = drawsIn executed :=
    (Console.course_steps s.keyboard n.toNat s.console).countP_redrawn
  rw [hexecuted, show ({} : Tally).steps = 0 from rfl, Nat.zero_add] at hsteps
  rw [hexecuted, show ({} : Tally).draws = 0 from rfl, Nat.zero_add] at hdraws
  rw [drive_of_pace hpace]
  generalize cruise { realtime } interval n.toNat s {} = x at *
  obtain ⟨t, ⟨steps, draws⟩, result⟩ := x
  simp only at hsteps hdraws hresult
  refine ⟨t, ?_, hconsole, hkeypad, hqueue, hsleeps.trans ?_⟩
  · rw [hsteps, hdraws, hresult, ← hdrawn]
    rfl
  · cases realtime with
    | false => exact congrArg (s.sleeps + ·) (Nat.zero_mul _)
    | true => exact congrArg (s.sleeps + ·) (Nat.one_mul _)

/-- Let no event be queued, and let the pace be in range. Then a drive whose caller has no events
either is a run, paced or not: the consoles are the same but for the entry in the log that ends
the drive, keys and queue are what they were, and both end in the same fault if they end in one.
The drive sleeps once for every instruction that was executed if it is paced, and never if it is
not. Its answer counts the instructions and how many of them were `00E0` or `Dxyn`. -/
theorem drive_eq_run (hpending : s.pending = []) (hpace : s.pacing.stepInterval?.isSome)
    (n : Int) (realtime : Bool) :
    let driven := s.drive n { realtime }
    let ran := s.run n
    let executed := s.executed (.run n)
    (∃ elapsed, driven.1.console = ran.1.console.logged .debug
      (stoppedMessage ⟨executed.length, drawsIn executed⟩ elapsed)) ∧
    driven.1.keypad = s.keypad ∧ driven.1.pending = [] ∧
    driven.1.sleeps = s.sleeps + (if realtime then executed.length else 0) ∧
    (∀ f, driven.2 = .error f ↔ ran.2 = .error f) ∧
    (∀ report, driven.2 = .ok report → ran.2 = .ok n ∧ (report.steps : Int) = max n 0 ∧
      report.quit = false ∧ report.draws = drawsIn executed) := by
  intro driven ran executed
  obtain ⟨interval, hinterval⟩ := Option.isSome_iff_exists.mp hpace
  obtain ⟨t, hdriven, hconsole, hkeypad, hqueue, hsleeps⟩ :=
    drive_unattended hpending hinterval n realtime
  have hran : ran = _ := s.run_eq_steps n
  rw [show driven = _ from hdriven, hran]
  refine ⟨⟨t.clock - s.clock, ?_⟩, hkeypad, hqueue, hsleeps, ?_, ?_⟩
  · show t.console.logged _ _ = _
    rw [hconsole]
    rfl
  · intro f
    cases (s.console.steps s.keyboard n.toNat).2 <;> simp [arrive, Except.map]
  · intro report hok
    cases hall : (s.console.steps s.keyboard n.toNat).2 with
    | error e =>
        rw [hall] at hok
        cases hok
    | ok done =>
        rw [hall] at hok
        cases hok
        have hcount : executed.length = n.toNat := Console.length_executed s.keyboard n.toNat hall
        refine ⟨rfl, ?_, rfl, rfl⟩
        show (executed.length : Int) = max n 0
        rw [hcount]
        exact Int.toNat_eq_max n

/-- A program that blanks the display and returns without a call. -/
def blankAndReturn : List UInt8 := [0x00, 0xE0, 0x00, 0xEE]

/-- One instruction is executed before the fault, so a paced drive sleeps once. -/
theorem fresh_drive_eq_run :
    let s := fresh.perform (.load blankAndReturn)
    (s.drive 5 {}).1.sleeps = 1 ∧
    (s.drive 5 {}).1.console.machine = (s.run 5).1.console.machine ∧
    ∃ f, (s.drive 5 {}).2 = .error f ∧ (s.run 5).2 = .error f := by
  intro s
  have hexecuted : (s.executed (.run 5)).length = 1 := by
    decide +kernel
  have hfails : (s.run 5).2.toOption = none := by
    decide +kernel
  have hpace : s.pacing.stepInterval?.isSome = true := by
    decide +kernel
  obtain ⟨⟨elapsed, hconsole⟩, -, -, hsleeps, hfault, -⟩ :=
    drive_eq_run (s := s) rfl hpace 5 true
  refine ⟨?_, ?_, ?_⟩
  · rw [hsleeps, hexecuted]
    rfl
  · rw [hconsole]
    rfl
  · cases hran : (s.run 5).2 with
    | error f => exact ⟨f, (hfault f).mpr hran, rfl⟩
    | ok count =>
        rw [hran] at hfails
        cases hfails

end Session

end ChipEight

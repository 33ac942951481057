import ChipEight.Proofs.Machine.Word
import ChipEight.Proofs.Session.Course

/-!
# The display is up to date

Between two operations of a session the display shows the picture of the machine. It was drawn
once at power-on, once for every reset and once for every instruction `00E0` or `Dxyn` that was
executed, and never else. So whoever looks at the display need not ask the machine, and a
draw that changes no pixel is still seen.

The invariant is `Console.Shows`, with the count of draws as a parameter. A step adds to the
count what its word says, and a course adds what its reports say.

## Main results

* `Session.screen_upToDate` — the picture, and the three counts of draws: that of the display,
  the marks on the reports of steps, and the sum that a drive answers with.
-/

namespace ChipEight

/-- How many of the executed instructions draw. -/
def drawsIn (rs : List StepReport) : Nat := rs.countP fun r => r.word.IsDraw

theorem drawsIn_cons (r : StepReport) (rs : List StepReport) :
    drawsIn (r :: rs) = (if r.word.IsDraw then 1 else 0) + drawsIn rs := by
  unfold drawsIn
  rw [List.countP_cons, Nat.add_comm]
  simp only [decide_eq_true_eq]

theorem drawsIn_append (rs rs' : List StepReport) :
    drawsIn (rs ++ rs') = drawsIn rs + drawsIn rs' := List.countP_append

/-! ## Consoles -/

namespace Console

/-- The display shows the picture of the machine, which was drawn `n` times. -/
structure Shows (c : Console) (n : Nat) : Prop where
  frame : c.screen.frame = c.machine.display.rows
  drawCount : c.screen.drawCount = n

variable {c c' d : Console} {keys : Keyboard} {r : StepReport} {rs : List StepReport} {n : Nat}

theorem Shows.of_bare (h : Shows c n) (hbare : d.bare = c.bare) : Shows d n := by
  constructor
  · rw [screen_of_bare hbare, machine_of_bare hbare]
    exact h.frame
  · rw [screen_of_bare hbare]
    exact h.drawCount

/-- Whatever was shown before, the picture that is drawn now is that of the machine. -/
theorem shows_redraw (hcount : c.screen.drawCount = n) : Shows c.redraw (n + 1) :=
  ⟨rfl, congrArg (· + 1) hcount⟩

/-- A report is marked as drawn iff the instruction was `00E0` or `Dxyn`. -/
theorem redrawn_iff (hstep : c.step keys = (c', .ok r)) : r.redrawn = true ↔ r.word.IsDraw := by
  obtain ⟨s, i, hexec, rfl, -⟩ := step_ok_behind hstep
  exact hexec.redraw_isSome_iff

theorem Shows.step_ok (h : Shows c n) (hstep : c.step keys = (c', .ok r)) :
    Shows c' (n + if r.word.IsDraw then 1 else 0) := by
  have hredrawn := redrawn_iff hstep
  obtain ⟨s, i, hexec, rfl, hbare⟩ := step_ok_behind hstep
  refine Shows.of_bare ?_ hbare
  by_cases hdraw : (c.answerOf s).word.IsDraw
  · have hshown : s.redraw.isSome = true := hredrawn.mpr hdraw
    rw [if_pos hdraw, behind, if_pos hshown]
    exact shows_redraw h.drawCount
  · -- Nothing is shown, so what was shown before has to be still the picture.
    have hquiet : s.redraw.isSome = false :=
      Bool.eq_false_iff.mpr fun hshown => hdraw (hredrawn.mp hshown)
    rw [if_neg hdraw, behind, hquiet, if_neg Bool.false_ne_true]
    refine ⟨?_, h.drawCount⟩
    show c.screen.frame = s.next.display.rows
    rw [hexec.display_eq hquiet]
    exact h.frame

theorem Shows.step_error (h : Shows c n) {e : Failure} (hstep : c.step keys = (c', .error e)) :
    Shows c' n := by
  obtain ⟨-, -, -, -, hbare⟩ := step_error_inv hstep
  exact h.of_bare hbare

namespace Course

/-- Every course keeps the display up to date. -/
theorem shows (h : Course c rs d) : ∀ {n}, Shows c n → Shows d (n + drawsIn rs) := by
  induction h with
  | refl c =>
      intro n hshows
      exact hshows
  | ok hstep _ ih =>
      intro n hshows
      rw [drawsIn_cons, ← Nat.add_assoc]
      exact ih (hshows.step_ok hstep)
  | error hstep _ ih =>
      intro n hshows
      exact ih (hshows.step_error hstep)

theorem countP_redrawn (h : Course c rs d) : rs.countP (·.redrawn) = drawsIn rs := by
  induction h with
  | refl c => rfl
  | ok hstep _ ih =>
      rw [drawsIn_cons, List.countP_cons, ih, Nat.add_comm]
      simp only [redrawn_iff hstep]
  | error _ _ ih => exact ih

end Course

theorem shows_create {config : Config} {random : Option Generator} {trace : Trace.Dispatcher}
    (hcreate : create config random trace = .ok c) : Shows c 1 := by
  obtain ⟨_, _, rfl⟩ := create_inv hcreate
  exact shows_redraw rfl

end Console

/-! ## Sessions -/

namespace Session

/-- The operation is a reset. -/
def Op.isReset : Op → Bool
  | .reset => true
  | _ => false

variable {s : Session} {n : Nat}

/-- One operation keeps the display up to date. -/
theorem shows_perform (h : s.console.Shows n) (o : Op) :
    (s.perform o).console.Shows (n + (if o.isReset then 1 else 0) + drawsIn (s.executed o)) := by
  rcases o.onlySteps_or with honly | ⟨program, rfl⟩ | rfl | ⟨random, rfl⟩
  · have hreset : o.isReset = false := by
      cases o with
      | reset => cases honly
      | _ => rfl
    obtain ⟨c, hcourse, hbare⟩ := s.course_perform honly
    rw [hreset, if_neg Bool.false_ne_true, Nat.add_zero]
    exact (hcourse.shows h).of_bare hbare
  · obtain ⟨memory, log, hload⟩ := s.console.load_eq program
    show (s.console.load program).1.Shows n
    rw [hload]
    exact ⟨h.frame, h.drawCount⟩
  · show s.console.reset.Shows (n + 1)
    rw [Console.reset_eq]
    exact Console.shows_redraw h.drawCount
  · exact ⟨h.frame, h.drawCount⟩

theorem shows_performAll (ops : List Op) :
    ∀ {s : Session} {n : Nat}, s.console.Shows n →
      (s.performAll ops).console.Shows
        (n + ops.countP Op.isReset + drawsIn (s.executedAll ops)) := by
  induction ops with
  | nil =>
      intro s n h
      exact h
  | cons o ops ih =>
      intro s n h
      have hrest := ih (shows_perform h o)
      have hcount : n + (if o.isReset then 1 else 0) + drawsIn (s.executed o) +
          ops.countP Op.isReset + drawsIn ((s.perform o).executedAll ops) =
          n + (o :: ops).countP Op.isReset + drawsIn (s.executedAll (o :: ops)) := by
        rw [List.countP_cons, executedAll, drawsIn_append]
        omega
      exact hcount ▸ hrest

/-- A drive that ends well answers with the draws by which the count of the display has
grown. -/
theorem drawCount_drive (h : s.console.Shows n) {limit : Int} {o : DriveOptions}
    {s' : Session} {report : DriveReport} (hdrive : s.drive limit o = (s', .ok report)) :
    s'.console.screen.drawCount = n + report.draws := by
  cases hpace : s.pacing.stepInterval? with
  | none =>
      rw [drive_of_no_pace hpace] at hdrive
      cases hdrive
  | some interval =>
      have hcourse := course_cruise o interval limit.toNat s {}
      have htally := (tally_cruise o interval limit.toNat s {}).2
      have hshows := hcourse.shows h
      rw [hcourse.countP_redrawn] at htally
      rw [drive_of_pace hpace] at hdrive
      rcases hcruise : cruise o interval limit.toNat s {} with ⟨s'', t, e | quit⟩
      · rw [hcruise] at hdrive
        cases hdrive
      · rw [hcruise] at hdrive hshows htally
        cases hdrive
        show s''.console.screen.drawCount = n + t.draws
        rw [hshows.drawCount, htally]
        exact congrArg (n + ·) (Nat.zero_add _).symm

/-- After any operations, ones that failed included, the display shows the picture of the
machine; and it was drawn once at power-on, once for every reset and once for every executed
`00E0` and `Dxyn`. Those are the steps whose report says that they drew, and their number is
what a drive answers with that ends well, with or without a limit. -/
theorem screen_upToDate {config : Config} {random : Option Generator} {trace : Trace.Dispatcher}
    (hcreate : Console.create config random trace = .ok s.console) (ops : List Op) :
    let t := s.performAll ops
    t.console.screen.frame = t.console.machine.display.rows ∧
    t.console.screen.drawCount =
      1 + ops.countP Op.isReset + drawsIn (s.executedAll ops) ∧
    (∀ t' r, t.step = (t', .ok r) →
      (r.redrawn = true ↔ r.word = 0x00E0 ∨ r.word.family.val = 0xD)) ∧
    (∀ limit options t' report, t.drive limit options = (t', .ok report) →
      t'.console.screen.drawCount = t.console.screen.drawCount + report.draws) ∧
    (∀ options t' report, t.driveOn options = some (t', .ok report) →
      t'.console.screen.drawCount = t.console.screen.drawCount + report.draws) := by
  intro t
  have hshows := shows_performAll ops (Console.shows_create hcreate)
  refine ⟨hshows.frame, hshows.drawCount, ?_, ?_, ?_⟩
  · intro t' r hstep
    rcases hconsole : t.console.step t.keyboard with ⟨c, result⟩
    simp only [Session.step, hconsole, Prod.mk.injEq] at hstep
    obtain ⟨-, rfl⟩ := hstep
    exact Console.redrawn_iff hconsole
  · intro limit options t' report hdrive
    exact drawCount_drive ⟨hshows.frame, rfl⟩ hdrive
  · intro options t' report hdriven
    obtain ⟨n, hdrive, -⟩ := driveOn_eq_some_iff.mp hdriven
    exact drawCount_drive ⟨hshows.frame, rfl⟩ hdrive

/-- A program that blanks the display, draws a glyph and then jumps to where it is. -/
def drawGlyph : List UInt8 := [0x00, 0xE0, 0xF0, 0x29, 0xD0, 0x05, 0x12, 0x06]

/-- The program in a run, behind a reset, without it, and in a drive. -/
def drawing : List Op :=
  [.load drawGlyph, .run 4, .reset, .step, .load drawGlyph, .drive 7 {}]

/-- A caller that asks to quit after the third step. -/
def thrice : DriveOptions where
  onStep m := if m.cycle = 3 then [.quit] else []

/-- Two draws in the run, one at the reset, none at the step that fails, two in the drive. A drive
without a limit that the caller ends has drawn twice, too. -/
theorem fresh_screen_upToDate :
    (fresh.performAll drawing).console.screen.frame =
        (fresh.performAll drawing).console.machine.display.rows ∧
      (fresh.performAll drawing).console.screen.drawCount = 6 ∧
      ∃ t' report, (fresh.performAll [.load drawGlyph]).driveOn thrice = some (t', .ok report) ∧
        report.draws = 2 ∧ t'.console.screen.drawCount = 3 := by
  have hexecuted : 1 + drawing.countP Op.isReset + drawsIn (fresh.executedAll drawing) = 6 := by
    decide +kernel
  obtain ⟨hframe, hcount, -⟩ := screen_upToDate create_fresh drawing
  refine ⟨hframe, hcount.trans hexecuted, ?_⟩
  obtain ⟨-, hloaded, -, -, hdraws⟩ := screen_upToDate create_fresh [.load drawGlyph]
  have hanswer : (((fresh.performAll [.load drawGlyph]).drive (9 : Nat) thrice).2.toOption.map
      fun report => (report.quit, report.draws)) = some (true, 2) := by
    decide +kernel
  rcases hdrive : (fresh.performAll [.load drawGlyph]).drive (9 : Nat) thrice with ⟨t', e | report⟩
  · rw [hdrive] at hanswer
    cases hanswer
  · rw [hdrive] at hanswer
    obtain ⟨hquit, htwice⟩ := Prod.mk.inj (Option.some.inj hanswer)
    have hdriven : (fresh.performAll [.load drawGlyph]).driveOn thrice = some (t', .ok report) := by
      refine driveOn_eq_some_iff.mpr ⟨9, hdrive, ?_⟩
      rintro _ ⟨⟩
      exact hquit
    refine ⟨t', report, hdriven, htwice, ?_⟩
    rw [hdraws _ _ _ hdriven, hloaded, htwice]
    rfl

end Session

end ChipEight

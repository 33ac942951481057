import ChipEight.Proofs.Console.Course
import ChipEight.Proofs.Console.PowerOn
import ChipEight.Proofs.Session.Queue
import ChipEight.Proofs.Session.Reachable

/-!
# What sessions execute

A session executes instructions one by one, in runs and in drives. `Session.executed` lists
what an operation executes, and `course_perform` says that the console went there by these
steps. What is known of courses therefore holds of every operation that steps. A drive without a
limit is one whose limit is large enough, or it goes on for ever and leads nowhere.

## Main results

* `Session.tally_cruise` — the counts of a drive are those of the instructions it executes.
* `Session.driveOn_cases` — drives without a limit.
* `Session.course_perform` — an operation that only steps follows a course.
* `Session.settings_performAll` — no operation changes a setting.
-/

namespace ChipEight

namespace Session

/-- The session behind a sequence of operations. -/
def performAll (s : Session) (ops : List Op) : Session := ops.foldl perform s

/-- The reports of the instructions that `cruise` executes. -/
def cruised (o : DriveOptions) (interval : Float) : Nat → Session → List StepReport
  | 0, _ => []
  | limit + 1, s =>
    match s.drain with
    | (s, .done) =>
      match s.step with
      | (_, .error _) => []
      | (s, .ok r) => r :: cruised o interval limit (s.afterStep o interval)
    | _ => []

/-- The reports of the instructions that an operation executes. -/
def executed (s : Session) : Op → List StepReport
  | .step => s.console.executed s.keyboard 1
  | .run n => s.console.executed s.keyboard n.toNat
  | .drive limit o =>
    match s.pacing.stepInterval? with
    | none => []
    | some interval => cruised o interval limit.toNat s
  | .driveOn o =>
    match s.pacing.stepInterval? with
    | none => []
    | some interval =>
      -- the counts tell how many instructions the loop came to
      (cruiseOn o interval s {}).elim [] fun x => cruised o interval x.2.1.steps s
  | _ => []

/-- The reports of the instructions that a sequence of operations executes. -/
def executedAll (s : Session) : List Op → List StepReport
  | [] => []
  | o :: ops => s.executed o ++ (s.perform o).executedAll ops

variable {s : Session} {o : DriveOptions} {interval : Float}

/-! ## Drives -/

/-- One turn of the loop of a drive. The queue is worked off, and unless that stops the drive, a
step is attempted; only if the step succeeds does the loop go on. -/
inductive Turn (o : DriveOptions) (interval : Float) (s : Session) : Prop
  | stopped (hdrain : s.drain.2 ≠ .done)
    (hcruise : ∀ n t, cruise o interval (n + 1) s t = (s.drain.1, t, s.drain.2.outcome))
    (hcruised : ∀ n, cruised o interval (n + 1) s = [])
  | failed {s' : Session} {e : Failure} (hdrain : s.drain.2 = .done)
    (hstep : s.drain.1.step = (s', .error e))
    (hcruise : ∀ n t, cruise o interval (n + 1) s t = (s', t, .error e))
    (hcruised : ∀ n, cruised o interval (n + 1) s = [])
  | stepped {s' : Session} {r : StepReport} (hdrain : s.drain.2 = .done)
    (hstep : s.drain.1.step = (s', .ok r))
    (hcruise : ∀ n t, cruise o interval (n + 1) s t =
      cruise o interval n (s'.afterStep o interval) (t.count r))
    (hcruised : ∀ n, cruised o interval (n + 1) s =
      r :: cruised o interval n (s'.afterStep o interval))

theorem turn (o : DriveOptions) (interval : Float) (s : Session) : Turn o interval s := by
  rcases hdrain : s.drain with ⟨s', _ | _ | cause⟩
  · rcases hstep : s'.step with ⟨s'', e | r⟩
    · refine .failed (by rw [hdrain]) (by rw [hdrain, hstep]) ?_ ?_
      · intro n t
        simp only [cruise, hdrain, hstep]
      · intro n
        simp only [cruised, hdrain, hstep]
    · refine .stepped (by rw [hdrain]) (by rw [hdrain, hstep]) ?_ ?_
      · intro n t
        simp only [cruise, hdrain, hstep]
      · intro n
        simp only [cruised, hdrain, hstep]
  all_goals
    refine .stopped (by rw [hdrain]; exact Drained.noConfusion) ?_ ?_
    · intro n t
      simp only [cruise, hdrain, Drained.outcome]
    · intro n
      simp only [cruised, hdrain]

theorem console_drain (s : Session) : s.drain.1.console = s.console := rfl

/-- A step of a session is one of its console. -/
theorem console_step {s' : Session} {result : Except Failure StepReport}
    (hstep : s.step = (s', result)) :
    s.console.step s.keyboard = (s'.console, result) ∧ s' = s.withConsole s'.console := by
  have hpair : s.step =
      (s.withConsole (s.console.step s.keyboard).1, (s.console.step s.keyboard).2) := rfl
  rw [hpair] at hstep
  cases hstep
  exact ⟨rfl, rfl⟩

theorem course_cruise (o : DriveOptions) (interval : Float) :
    ∀ (limit : Nat) (s : Session) (t : Tally),
      Console.Course s.console (cruised o interval limit s)
        (cruise o interval limit s t).1.console := by
  intro limit
  induction limit with
  | zero =>
      intro s t
      exact .refl s.console
  | succ limit ih =>
      intro s t
      -- Events change keys and queue only, so the step is one of the console `s.console`.
      cases turn o interval s with
      | stopped _ hcruise hcruised =>
          rw [hcruise, hcruised]
          exact .refl s.console
      | @failed s' _ _ hstep hcruise hcruised =>
          rw [hcruise, hcruised]
          exact .error (console_step hstep).1 (.refl s'.console)
      | @stepped s' r _ hstep hcruise hcruised =>
          have hrest := ih (s'.afterStep o interval) (t.count r)
          rw [console_afterStep] at hrest
          rw [hcruise, hcruised]
          exact .ok (console_step hstep).1 hrest

/-- The counts of a drive. -/
theorem tally_cruise (o : DriveOptions) (interval : Float) :
    ∀ (limit : Nat) (s : Session) (t : Tally),
      (cruise o interval limit s t).2.1.steps =
          t.steps + (cruised o interval limit s).length ∧
        (cruise o interval limit s t).2.1.draws =
          t.draws + (cruised o interval limit s).countP (·.redrawn) := by
  intro limit
  induction limit with
  | zero =>
      intro s t
      exact ⟨rfl, rfl⟩
  | succ limit ih =>
      intro s t
      cases turn o interval s with
      | stopped _ hcruise hcruised | failed _ _ hcruise hcruised =>
          rw [hcruise, hcruised]
          exact ⟨rfl, rfl⟩
      | @stepped s' r _ _ hcruise hcruised =>
          obtain ⟨hsteps, hdraws⟩ := ih (s'.afterStep o interval) (t.count r)
          rw [hcruise, hcruised, List.length_cons, List.countP_cons]
          refine ⟨hsteps.trans ?_, hdraws.trans ?_⟩
          · simp only [Tally.count]
            omega
          · simp only [Tally.count]
            split
            · omega
            · omega

/-! ## Drives without a limit -/

/-- What is executed under a limit is executed under its number as a limit. -/
theorem cruised_length (o : DriveOptions) (interval : Float) :
    ∀ (limit : Nat) (s : Session),
      cruised o interval (cruised o interval limit s).length s = cruised o interval limit s := by
  intro limit
  induction limit with
  | zero =>
      intro s
      rfl
  | succ limit ih =>
      intro s
      cases turn o interval s with
      | stopped _ _ hcruised | failed _ _ _ hcruised =>
          rw [hcruised]
          rfl
      | stepped _ _ _ hcruised => rw [hcruised, List.length_cons, hcruised, ih]

theorem drive_of_pace (hpace : s.pacing.stepInterval? = some interval) (limit : Int)
    (o : DriveOptions) :
    s.drive limit o = arrive s.clock (cruise o interval limit.toNat s {}) := by
  unfold drive
  rw [hpace]
  rfl

theorem drive_of_no_pace (hpace : s.pacing.stepInterval? = none) (limit : Int)
    (o : DriveOptions) : s.drive limit o = (s, .error .rateTooLarge) := by
  unfold drive
  rw [hpace]

theorem cruiseOn_eq_some_iff {t : Tally} {x : Session × Tally × Except Failure Bool} :
    cruiseOn o interval s t = some x ↔
      ∃ n, cruise o interval n s t = x ∧ x.2.2 ≠ .ok false := by
  constructor
  · apply cruiseOn.partial_correctness o interval
      fun s t x => ∃ n, cruise o interval n s t = x ∧ x.2.2 ≠ .ok false
    intro loop ih s t x h
    rcases hdrain : s.drain with ⟨s', _ | _ | cause⟩
    · rcases hstep : s'.step with ⟨s'', e | r⟩
      · simp only [hdrain, hstep] at h
        cases h
        exact ⟨1, by simp only [cruise, hdrain, hstep], by simp⟩
      · simp only [hdrain, hstep] at h
        obtain ⟨n, hcruise, hstopped⟩ := ih _ _ _ h
        exact ⟨n + 1, by simp only [cruise, hdrain, hstep, hcruise], hstopped⟩
    · simp only [hdrain] at h
      cases h
      exact ⟨1, by simp only [cruise, hdrain], by simp⟩
    · simp only [hdrain] at h
      cases h
      exact ⟨1, by simp only [cruise, hdrain], by simp⟩
  · rintro ⟨n, hcruise, hstopped⟩
    induction n generalizing s t with
    | zero =>
        cases hcruise
        exact absurd rfl hstopped
    | succ n ih =>
        rw [cruiseOn]
        rcases hdrain : s.drain with ⟨s', _ | _ | cause⟩
        · rcases hstep : s'.step with ⟨s'', e | r⟩
          · simp only [cruise, hdrain, hstep] at hcruise ⊢
            rw [hcruise]
          · simp only [cruise, hdrain, hstep] at hcruise ⊢
            exact ih hcruise
        · simp only [cruise, hdrain] at hcruise ⊢
          rw [hcruise]
        · simp only [cruise, hdrain] at hcruise ⊢
          rw [hcruise]

/-- A drive without a limit ends as one whose limit is large enough, and goes on for ever if
there is none that large. -/
theorem driveOn_eq_some_iff {x : Session × Except Failure DriveReport} :
    s.driveOn o = some x ↔
      ∃ n : Nat, s.drive n o = x ∧ ∀ report, x.2 = .ok report → report.quit = true := by
  cases hpace : s.pacing.stepInterval? with
  | none =>
      simp only [driveOn, hpace, drive_of_no_pace hpace, Option.some.injEq, exists_const]
      constructor
      · rintro rfl
        exact ⟨rfl, fun report h => by cases h⟩
      · exact And.left
  | some interval =>
      have hquit : ∀ y : Session × Tally × Except Failure Bool, y.2.2 ≠ .ok false ↔
          ∀ report, (arrive s.clock y).2 = .ok report → report.quit = true := by
        rintro ⟨u, t, e | _ | _⟩ <;> simp [arrive, Except.map]
      simp only [driveOn, hpace, drive_of_pace hpace, Option.map_eq_some_iff,
        cruiseOn_eq_some_iff, Int.toNat_natCast]
      constructor
      · rintro ⟨y, ⟨n, hcruise, hstopped⟩, rfl⟩
        exact ⟨n, by rw [hcruise], (hquit y).mp hstopped⟩
      · rintro ⟨n, rfl, hstopped⟩
        exact ⟨_, ⟨n, rfl, (hquit _).mpr hstopped⟩, rfl⟩

/-- A drive without a limit is one with a limit, or it goes on for ever. -/
theorem driveOn_cases (s : Session) (o : DriveOptions) :
    (∃ n : Nat, s.driveOn o = some (s.drive n o) ∧
      s.perform (.driveOn o) = s.perform (.drive n o) ∧
      s.executed (.driveOn o) = s.executed (.drive n o)) ∨
    s.driveOn o = none ∧ s.perform (.driveOn o) = s ∧ s.executed (.driveOn o) = [] := by
  have hperform : s.perform (.driveOn o) = (s.driveOn o).elim s (·.1) := rfl
  rw [hperform]
  cases hpace : s.pacing.stepInterval? with
  | none =>
      refine .inl ⟨0, ?_, ?_, ?_⟩
      · simp only [driveOn, hpace, drive_of_no_pace hpace]
      · simp only [driveOn, hpace, perform, drive_of_no_pace hpace, Option.elim_some]
      · simp only [executed, hpace]
  | some interval =>
      cases hloop : cruiseOn o interval s {} with
      | none => exact .inr ⟨by simp [driveOn, hpace, hloop], by simp [driveOn, hpace, hloop],
          by simp [executed, hpace, hloop]⟩
      | some x =>
          obtain ⟨n, rfl, -⟩ := cruiseOn_eq_some_iff.mp hloop
          have hdriven : s.driveOn o = some (s.drive n o) := by
            simp only [driveOn, hpace, hloop, Option.map_some, drive_of_pace hpace,
              Int.toNat_natCast]
          have hsteps : (cruise o interval n s {}).2.1.steps = (cruised o interval n s).length :=
            (tally_cruise o interval n s {}).1.trans (Nat.zero_add _)
          refine .inl ⟨n, hdriven, ?_, ?_⟩
          · rw [hdriven]
            rfl
          · simp only [executed, hpace, hloop, Option.elim_some, hsteps, cruised_length,
              Int.toNat_natCast]

/-! ## Operations -/

/-- The operations that do nothing to the machine, or nothing but steps. -/
def Op.OnlySteps : Op → Prop
  | .load _ | .reset | .reseed _ => False
  | _ => True

/-- The other operations are three. -/
theorem Op.onlySteps_or (o : Op) : o.OnlySteps ∨ (∃ program, o = .load program) ∨ o = .reset ∨
    ∃ random, o = .reseed random := by
  cases o with
  | load program => exact .inr (.inl ⟨program, rfl⟩)
  | reset => exact .inr (.inr (.inl rfl))
  | reseed random => exact .inr (.inr (.inr ⟨random, rfl⟩))
  | _ => exact .inl trivial

/-- The end of a drive is logged, which no step takes notice of. -/
theorem course_drive (s : Session) (limit : Int) (o : DriveOptions) :
    ∃ c, Console.Course s.console (s.executed (.drive limit o)) c ∧
      (s.perform (.drive limit o)).console.bare = c.bare := by
  simp only [executed, perform, drive]
  cases s.pacing.stepInterval? with
  | none => exact ⟨s.console, .refl _, rfl⟩
  | some interval => exact ⟨_, course_cruise o interval limit.toNat s {}, rfl⟩

/-- An operation that only steps follows the course of the instructions that it executes. -/
theorem course_perform (s : Session) {o : Op} (honly : o.OnlySteps) :
    ∃ c, Console.Course s.console (s.executed o) c ∧ (s.perform o).console.bare = c.bare := by
  cases o with
  | load program | reset | reseed random => cases honly
  | step =>
      refine ⟨_, s.console.course_steps s.keyboard 1, ?_⟩
      show (s.console.step s.keyboard).1.bare = _
      rcases hstep : s.console.step s.keyboard with ⟨c, e | r⟩
      · simp only [Console.steps, hstep]
      · simp only [Console.steps, hstep]
  | run n =>
      refine ⟨_, s.console.course_steps s.keyboard n.toNat, ?_⟩
      show (s.console.run s.keyboard n).1.bare = _
      rw [Console.run_eq]
  | press code | release code =>
      refine ⟨s.console, .refl _, ?_⟩
      show (s.withKeypad _).console.bare = _
      rw [console_withKeypad]
  | post events | plug device => exact ⟨s.console, .refl _, rfl⟩
  | drive limit o => exact s.course_drive limit o
  | driveOn o =>
      rcases s.driveOn_cases o with ⟨n, -, hperform, hexecuted⟩ | ⟨-, hperform, hexecuted⟩
      · rw [hperform, hexecuted]
        exact s.course_drive n o
      · rw [hperform, hexecuted]
        exact ⟨s.console, .refl _, rfl⟩

/-! ## Settings -/

theorem settings_perform (s : Session) (o : Op) :
    (s.perform o).console.config = s.console.config ∧
      (s.perform o).console.ownsRandom = s.console.ownsRandom := by
  rcases o.onlySteps_or with honly | ⟨program, rfl⟩ | rfl | ⟨random, rfl⟩
  · obtain ⟨c, hcourse, hbare⟩ := s.course_perform honly
    obtain ⟨hconfig, howns⟩ := hcourse.settings
    exact ⟨(Console.config_of_bare hbare).trans hconfig,
      (Console.ownsRandom_of_bare hbare).trans howns⟩
  · obtain ⟨memory, log, hload⟩ := s.console.load_eq program
    show (s.console.load program).1.config = _ ∧ (s.console.load program).1.ownsRandom = _
    rw [hload]
    exact ⟨rfl, rfl⟩
  · exact s.console.settings_reset
  · exact ⟨rfl, rfl⟩

/-- No operation changes a setting. -/
theorem settings_performAll (ops : List Op) :
    ∀ s : Session, (s.performAll ops).console.config = s.console.config ∧
      (s.performAll ops).console.ownsRandom = s.console.ownsRandom := by
  induction ops with
  | nil =>
      intro s
      exact ⟨rfl, rfl⟩
  | cons o ops ih =>
      intro s
      obtain ⟨hconfig, howns⟩ := s.settings_perform o
      obtain ⟨hconfigs, hownss⟩ := ih (s.perform o)
      exact ⟨hconfigs.trans hconfig, hownss.trans howns⟩

end Session

end ChipEight

import ChipEight.Proofs.Session.Alike

/-!
# Limits of drives

A drive with a limit of `a + b` instructions is a drive with the limit `a` and, if nothing but
that limit has ended it, another one with the limit `b`. The loop carries nothing from one
instruction to the next but the session itself, and a loop that reaches its limit leaves the
queue alone; so what the caller has queued after the last instruction is found by whatever drive
comes next. This is read off `cruise_add`, the law for the loop.

## Main results

* `Session.drive_add` — two drives are one.
-/

namespace ChipEight

namespace Session

variable {o : DriveOptions} {interval : Float} {s : Session}

/-! ## The loop -/

/-- Goes on with a loop, unless it was stopped. -/
def resume (o : DriveOptions) (interval : Float) (limit : Nat) :
    Session × Tally × Except Failure Bool → Session × Tally × Except Failure Bool
  | (s, t, .ok false) => cruise o interval limit s t
  | stopped => stopped

theorem resume_of_stopped {limit : Nat} {x : Session × Tally × Except Failure Bool}
    (h : x.2.2 ≠ .ok false) : resume o interval limit x = x := by
  rcases x with ⟨s, t, e | _ | _⟩
  · rfl
  · exact absurd rfl h
  · rfl

/-- A drive that is stopped while it works off the queue takes no step. -/
theorem cruise_of_stopped (hdrain : s.drain.2 ≠ .done) (o : DriveOptions) (interval : Float)
    (n : Nat) :
    (∀ t, cruise o interval (n + 1) s t = (s.drain.1, t, s.drain.2.outcome)) ∧
      cruised o interval (n + 1) s = [] := by
  cases turn o interval s with
  | stopped _ hcruise hcruised => exact ⟨hcruise n, hcruised n⟩
  | failed hdone | stepped hdone => exact absurd hdone hdrain

theorem cruise_add (o : DriveOptions) (interval : Float) (b : Nat) :
    ∀ (a : Nat) (s : Session) (t : Tally),
      cruise o interval (a + b) s t = resume o interval b (cruise o interval a s t) := by
  intro a
  induction a with
  | zero =>
      intro s t
      rw [Nat.zero_add]
      rfl
  | succ a ih =>
      intro s t
      rw [Nat.succ_add]
      cases turn o interval s with
      | stopped hdrain hcruise _ =>
          rw [hcruise, hcruise, resume_of_stopped (Drained.outcome_ne_of_ne_done hdrain)]
      | failed _ _ hcruise _ =>
          rw [hcruise, hcruise]
          rfl
      | stepped _ _ hcruise _ =>
          rw [hcruise, hcruise]
          exact ih _ _

/-- A loop that reaches its limit, and not at once, has worked off the queue and taken a step. -/
theorem cruise_going_inv {n : Nat} {t t' : Tally} {s' : Session}
    (h : cruise o interval (n + 1) s t = (s', t', .ok false)) :
    ∃ u r, s.drain.2 = .done ∧ s.drain.1.step = (u, .ok r) ∧
      cruise o interval n (u.afterStep o interval) (t.count r) = (s', t', .ok false) ∧
      ∀ m, cruised o interval (m + 1) s = r :: cruised o interval m (u.afterStep o interval) := by
  cases turn o interval s with
  | stopped hdrain hcruise _ =>
      rw [hcruise] at h
      have houtcome : s.drain.2.outcome = .ok false := congrArg (·.2.2) h
      exact absurd houtcome (Drained.outcome_ne_of_ne_done hdrain)
  | failed _ _ hcruise _ =>
      rw [hcruise] at h
      cases h
  | stepped hdrain hstep hcruise hcruised =>
      rw [hcruise] at h
      exact ⟨_, _, hdrain, hstep, h, hcruised⟩

/-- What is executed under a limit of `a + b`. -/
theorem cruised_add (o : DriveOptions) (interval : Float) (b : Nat) :
    ∀ (a : Nat) (s : Session) (t : Tally) {s' : Session} {t' : Tally},
      cruise o interval a s t = (s', t', .ok false) →
      cruised o interval (a + b) s = cruised o interval a s ++ cruised o interval b s' := by
  intro a
  induction a with
  | zero =>
      intro s t s' t' h
      cases h
      rw [Nat.zero_add]
      rfl
  | succ a ih =>
      intro s t s' t' h
      obtain ⟨u, r, -, -, hrest, hcruised⟩ := cruise_going_inv h
      rw [Nat.succ_add, hcruised, hcruised, List.cons_append, ih _ _ hrest]

/-- The loop does not look at its counts. -/
theorem cruise_tally (o : DriveOptions) (interval : Float) :
    ∀ (n : Nat) (s : Session) (t u : Tally),
      (cruise o interval n s t).1 = (cruise o interval n s u).1 ∧
        (cruise o interval n s t).2.2 = (cruise o interval n s u).2.2 := by
  intro n
  induction n with
  | zero =>
      intro s t u
      exact ⟨rfl, rfl⟩
  | succ n ih =>
      intro s t u
      cases turn o interval s with
      | stopped _ hcruise _ | failed _ _ hcruise _ =>
          rw [hcruise, hcruise]
          exact ⟨rfl, rfl⟩
      | stepped _ _ hcruise _ =>
          rw [hcruise, hcruise]
          exact ih _ _ _

theorem pacing_afterStep (s : Session) (o : DriveOptions) (interval : Float) :
    (s.afterStep o interval).pacing = s.pacing := by
  unfold afterStep
  split <;> rfl

/-- A drive keeps its pace. -/
theorem pacing_cruise (o : DriveOptions) (interval : Float) :
    ∀ (n : Nat) (s : Session) (t : Tally), (cruise o interval n s t).1.pacing = s.pacing := by
  intro n
  induction n with
  | zero =>
      intro s t
      rfl
  | succ n ih =>
      intro s t
      cases turn o interval s with
      | stopped _ hcruise _ =>
          rw [hcruise]
          rfl
      | failed _ hstep hcruise _ =>
          rw [hcruise, (console_step hstep).2]
          rfl
      | stepped _ hstep hcruise _ =>
          rw [hcruise, ih, pacing_afterStep, (console_step hstep).2]
          rfl

/-- What is queued when a loop reaches its limit is what the caller had after the last step. -/
theorem pending_cruise (o : DriveOptions) (interval : Float) :
    ∀ (n : Nat) (s : Session) (t : Tally) {s' : Session} {t' : Tally},
      cruise o interval (n + 1) s t = (s', t', .ok false) →
      s'.pending = o.onStep s'.console.machine := by
  intro n
  induction n with
  | zero =>
      intro s t s' t' h
      obtain ⟨u, r, hdrain, hstep, hrest, -⟩ := cruise_going_inv h
      cases hrest
      have hqueue : u.pending = [] := by
        rw [(console_step hstep).2]
        exact pending_drain_of_done s.pending rfl hdrain
      have hposted : (u.afterStep o interval).pending =
          u.pending ++ o.onStep u.console.machine := by
        unfold afterStep
        split <;> rfl
      rw [hposted, hqueue, console_afterStep]
      rfl
  | succ n ih =>
      intro s t s' t' h
      obtain ⟨u, r, -, -, hrest, -⟩ := cruise_going_inv h
      exact ih _ _ hrest

/-- A loop that finds a request to quit takes no step. -/
theorem cruised_of_quit_mem (hquit : .quit ∈ s.pending) (o : DriveOptions) (interval : Float)
    (n : Nat) : cruised o interval (n + 1) s = [] :=
  (cruise_of_stopped (drain_of_quit_mem s.pending rfl hquit) o interval n).2

/-- With nothing but keys of the pad in front of the request, the loop answers that the user has
asked to stop. -/
theorem cruise_of_quit {front behind : List InputEvent}
    (hpending : s.pending = front ++ .quit :: behind) (hfront : ∀ e ∈ front, e.stops = false)
    (o : DriveOptions) (interval : Float) (n : Nat) (t : Tally) :
    (cruise o interval (n + 1) s t).2.2 = .ok true := by
  have hquit : .quit ∈ s.pending := by
    rw [hpending]
    exact List.mem_append_right front List.mem_cons_self
  rw [(cruise_of_stopped (drain_of_quit_mem s.pending rfl hquit) o interval n).1]
  exact drain_of_quit front hpending hfront

/-! ## Drives -/

/-- A drive that ends well, and what its loop has come to. -/
theorem drive_ok_inv {limit : Int} {s' : Session} {report : DriveReport}
    (hdrive : s.drive limit o = (s', .ok report)) :
    ∃ interval t u, s.pacing.stepInterval? = some interval ∧
      cruise o interval limit.toNat s {} = (u, t, .ok report.quit) ∧
      s' = u.withConsole (u.console.logged .debug (stoppedMessage t (u.clock - s.clock))) ∧
      report.steps = t.steps ∧ report.draws = t.draws := by
  cases hpace : s.pacing.stepInterval? with
  | none =>
      rw [drive_of_no_pace hpace] at hdrive
      cases hdrive
  | some interval =>
      rw [drive_of_pace hpace] at hdrive
      rcases hcruise : cruise o interval limit.toNat s {} with ⟨u, t, e | quit⟩
      · rw [hcruise] at hdrive
        cases hdrive
      · rw [hcruise] at hdrive
        cases hdrive
        exact ⟨interval, t, u, rfl, hcruise, rfl, rfl, rfl⟩

/-! ## Two drives in one -/

/-- The sessions hold the same machine and show the same picture, they have the same keys and
the same queue, and they have slept as often and as long. -/
structure SameState (s t : Session) : Prop where
  machine : s.console.machine = t.console.machine
  frame : s.console.screen.frame = t.console.screen.frame
  drawCount : s.console.screen.drawCount = t.console.screen.drawCount
  keypad : s.keypad = t.keypad
  pending : s.pending = t.pending
  clock : s.clock = t.clock
  sleeps : s.sleeps = t.sleeps

/-- The second part of a loop does not notice that the first part was logged as a drive of its
own. -/
theorem cruise_add_withConsole {a b : Nat} {u : Session} {t : Tally} {d : Console}
    (hfirst : cruise o interval a s {} = (u, t, .ok false))
    (halike : Console.Alike 0 0 u.console d) :
    let one := cruise o interval (a + b) s {}
    ∃ d' t', cruise o interval b (u.withConsole d) {} = (one.1.withConsole d', t', one.2.2) ∧
      Console.Alike 0 0 one.1.console d' ∧
      one.2.1.steps = t.steps + t'.steps ∧ one.2.1.draws = t.draws + t'.draws := by
  intro one
  have hone : one = cruise o interval b u t := by
    show cruise o interval (a + b) s {} = _
    rw [cruise_add, hfirst]
    rfl
  obtain ⟨d', hsecond, hnext⟩ := alike_cruise o interval b {} halike
  obtain ⟨hsession, hresult⟩ := cruise_tally o interval b u t {}
  obtain ⟨hsteps, hdraws⟩ := tally_cruise o interval b u t
  obtain ⟨hsteps', hdraws'⟩ := tally_cruise o interval b u {}
  refine ⟨d', (cruise o interval b u {}).2.1, ?_, ?_, ?_, ?_⟩
  · rw [hsecond, hone, hsession, hresult]
  · rw [hone, hsession]
    exact hnext
  · rw [hone, hsteps, hsteps']
    exact congrArg (t.steps + ·) (Nat.zero_add _).symm
  · rw [hone, hdraws, hdraws']
    exact congrArg (t.draws + ·) (Nat.zero_add _).symm

/-- The end of a drive is nothing but logged. -/
theorem sameState_arrive {x y : Session × Tally × Except Failure Bool} (h : SameState x.1 y.1)
    (start start' : Float) : SameState (arrive start x).1 (arrive start' y).1 :=
  ⟨h.machine, h.frame, h.drawCount, h.keypad, h.pending, h.clock, h.sleeps⟩

theorem map_quit_arrive (start : Float) (x : Session × Tally × Except Failure Bool) :
    (arrive start x).2.map (·.quit) = x.2.2 := by
  rcases x with ⟨u, t, e | quit⟩
  · rfl
  · rfl

section Boundary

variable {a : Nat} {s₁ : Session} {first : DriveReport}

/-- A drive that has ended by its limit, and the loop that it was. The next drive finds the
session that the loop has left, with one entry more in the log. -/
theorem drive_going_inv (hfirst : s.drive a o = (s₁, .ok first)) (hgoing : first.quit = false) :
    ∃ interval t u, s.pacing.stepInterval? = some interval ∧
      s₁.pacing.stepInterval? = some interval ∧ cruise o interval a s {} = (u, t, .ok false) ∧
      s₁ = u.withConsole s₁.console ∧ Console.Alike 0 0 u.console s₁.console ∧
      u.console.config.debug = s₁.console.config.debug ∧
      first.steps = t.steps ∧ first.draws = t.draws := by
  obtain ⟨interval, t, u, hpace, hcruise, rfl, hsteps, hdraws⟩ := drive_ok_inv hfirst
  rw [hgoing, Int.toNat_natCast] at hcruise
  have hkept := pacing_cruise o interval a s {}
  rw [hcruise] at hkept
  refine ⟨interval, t, u, hpace, ?_, hcruise, rfl, ?_, rfl, hsteps, hdraws⟩
  · show u.pacing.stepInterval? = some interval
    rw [hkept, hpace]
  · exact ⟨rfl, rfl, rfl, rfl, rfl, rfl, rfl⟩

/-- The instructions that two drives execute. -/
theorem executed_add (hfirst : s.drive a o = (s₁, .ok first)) (hgoing : first.quit = false)
    (b : Nat) :
    s.executed (.drive (a + b : Nat) o) =
      s.executed (.drive a o) ++ s₁.executed (.drive b o) := by
  obtain ⟨interval, t, u, hpace, hpacing, hcruise, hsame, halike, hdebug, -⟩ :=
    drive_going_inv hfirst hgoing
  have hsecond : cruised o interval b s₁ = cruised o interval b u := by
    rw [hsame]
    exact alike_cruised o interval b halike hdebug
  simp only [executed, hpace, hpacing, Int.toNat_natCast]
  rw [cruised_add o interval b a s {} hcruise, hsecond]

/-- What is queued between two drives is what the caller had after the last step. -/
theorem pending_drive (hfirst : s.drive a o = (s₁, .ok first)) (hgoing : first.quit = false)
    (ha : 1 ≤ a) : s₁.pending = o.onStep s₁.console.machine := by
  obtain ⟨interval, t, u, -, -, hcruise, hsame, halike, -⟩ := drive_going_inv hfirst hgoing
  obtain ⟨n, rfl⟩ := Nat.exists_eq_add_of_le' ha
  rw [hsame]
  show u.pending = o.onStep s₁.console.machine
  rw [pending_cruise o interval n s {} hcruise, halike.machine]

/-- The ends of the second drive and of a single one. -/
theorem drive_add_arrive (hfirst : s.drive a o = (s₁, .ok first)) (hgoing : first.quit = false)
    (b : Nat) :
    ∃ x d t, s.drive (a + b : Nat) o = arrive s.clock x ∧
      s₁.drive b o = arrive s₁.clock (x.1.withConsole d, t, x.2.2) ∧
      Console.Alike 0 0 x.1.console d ∧ x.2.1.steps = first.steps + t.steps ∧
      x.2.1.draws = first.draws + t.draws := by
  obtain ⟨interval, t, u, hpace, hpacing, hcruise, hsame, halike, -, hsteps, hdraws⟩ :=
    drive_going_inv hfirst hgoing
  obtain ⟨d, t', hsecond, hnext, hstepsAll, hdrawsAll⟩ :=
    cruise_add_withConsole (b := b) hcruise halike
  rw [← hsame] at hsecond
  rw [drive_of_pace hpace, drive_of_pace hpacing, Int.toNat_natCast, Int.toNat_natCast, hsecond,
    hsteps, hdraws]
  exact ⟨_, d, t', rfl, rfl, hnext, hstepsAll, hdrawsAll⟩

/-- A drive that finds a request to quit executes nothing. -/
theorem executed_of_quit_mem (hquit : .quit ∈ s.pending) (o : DriveOptions) {b : Nat}
    (hb : 1 ≤ b) : s.executed (.drive b o) = [] := by
  obtain ⟨n, rfl⟩ := Nat.exists_eq_add_of_le' hb
  unfold executed
  cases s.pacing.stepInterval? with
  | none => rfl
  | some interval => exact cruised_of_quit_mem hquit o interval n

/-- It answers that the user has asked to stop, if only keys of the pad stand in front of the
request. -/
theorem quit_drive {front behind : List InputEvent} (hpace : s.pacing.stepInterval? = some interval)
    (hpending : s.pending = front ++ .quit :: behind) (hfront : ∀ e ∈ front, e.stops = false)
    (o : DriveOptions) {b : Nat} (hb : 1 ≤ b) : (s.drive b o).2.map (·.quit) = .ok true := by
  obtain ⟨n, rfl⟩ := Nat.exists_eq_add_of_le' hb
  rw [drive_of_pace hpace, map_quit_arrive]
  exact cruise_of_quit hpending hfront o interval n {}

end Boundary

/-- Let a drive with the limit `a` have ended by its limit. Then another one with the limit `b`
leads where a single one with the limit `a + b` leads: to the same machine and picture, the same
keys and the same queue, after the same sleeps. Both ways execute the same instructions, end in
the same fault if they end in one, and otherwise answer with the same counts in total. If the
caller asks to quit after step `a`, then no way leads to step `a + 1`; and unless a bad key
stands in front of that event, both answer that the user has asked to stop. -/
theorem drive_add {a b : Nat} {s₁ : Session} {first : DriveReport}
    (hfirst : s.drive a o = (s₁, .ok first)) (hgoing : first.quit = false) :
    let one := s.drive (a + b : Nat) o
    let two := s₁.drive b o
    SameState one.1 two.1 ∧
    s.executed (.drive (a + b : Nat) o) =
      s.executed (.drive a o) ++ s₁.executed (.drive b o) ∧
    (∀ f, one.2 = .error f ↔ two.2 = .error f) ∧
    (∀ second, two.2 = .ok second → ∃ whole, one.2 = .ok whole ∧
      whole.steps = first.steps + second.steps ∧ whole.draws = first.draws + second.draws ∧
      whole.quit = second.quit) ∧
    (1 ≤ a → 1 ≤ b →
      (.quit ∈ o.onStep s₁.console.machine → s₁.executed (.drive b o) = []) ∧
      ∀ front behind, o.onStep s₁.console.machine = front ++ .quit :: behind →
        (∀ e ∈ front, e.stops = false) →
        one.2.map (·.quit) = .ok true ∧ two.2.map (·.quit) = .ok true) := by
  intro one two
  obtain ⟨x, d, t, hone, htwo, halike, hsteps, hdraws⟩ := drive_add_arrive hfirst hgoing b
  have hquitOne : one.2.map (·.quit) = x.2.2 := by
    rw [show one = _ from hone, map_quit_arrive]
  have hquitTwo : two.2.map (·.quit) = x.2.2 := by
    rw [show two = _ from htwo, map_quit_arrive]
  refine ⟨?_, executed_add hfirst hgoing b, ?_, ?_, ?_⟩
  · rw [show one = _ from hone, show two = _ from htwo]
    apply sameState_arrive
    exact ⟨halike.machine, halike.frame, halike.drawCount, rfl, rfl, rfl, rfl⟩
  · intro f
    rw [show one = _ from hone, show two = _ from htwo]
    rcases x with ⟨v, w, e | quit⟩ <;> simp [arrive, Except.map]
  · intro second hok
    rw [show one = _ from hone]
    rw [show two = _ from htwo] at hok
    rcases x with ⟨v, w, e | quit⟩
    · cases hok
    · cases hok
      exact ⟨_, rfl, hsteps, hdraws, rfl⟩
  · intro ha hb
    obtain ⟨interval, -, -, -, hpacing, -⟩ := drive_going_inv hfirst hgoing
    rw [← pending_drive hfirst hgoing ha]
    constructor
    · intro hquit
      exact executed_of_quit_mem hquit o hb
    · intro front behind hsplit hfront
      have hheard := quit_drive hpacing hsplit hfront o hb
      exact ⟨hquitOne.trans (hquitTwo.symm.trans hheard), hheard⟩

/-- A session whose program jumps to where it is. -/
def circling : Session := fresh.perform (.load [0x12, 0x00])

/-- A caller that presses a key, asks to quit and presses another key, all after the second
step. -/
def secondThoughts : DriveOptions where
  onStep m := if m.cycle = 2 then [.key 5 true, .quit, .key 6 true] else []

/-- The request comes with the last step of the first drive, and is found by the second one. -/
theorem circling_drive_add :
    ∃ s₁ first, circling.drive 2 secondThoughts = (s₁, .ok first) ∧ first.quit = false ∧
      SameState (circling.drive 5 secondThoughts).1 (s₁.drive 3 secondThoughts).1 ∧
      s₁.executed (.drive 3 secondThoughts) = [] ∧
      (circling.drive 5 secondThoughts).2.map (·.quit) = .ok true ∧
      (s₁.drive 3 secondThoughts).2.map (·.quit) = .ok true := by
  have hanswer : (circling.drive 2 secondThoughts).2.toOption.map (·.quit) = some false := by
    decide +kernel
  have hevents : secondThoughts.onStep (circling.drive 2 secondThoughts).1.console.machine =
      [.key 5 true, .quit, .key 6 true] := by
    decide +kernel
  rcases hfirst : circling.drive 2 secondThoughts with ⟨s₁, e | first⟩
  · rw [hfirst] at hanswer
    cases hanswer
  · rw [hfirst] at hanswer hevents
    have hgoing : first.quit = false := Option.some.inj hanswer
    obtain ⟨hsame, -, -, -, hquits⟩ := drive_add (a := 2) (b := 3) hfirst hgoing
    obtain ⟨hnothing, hheard⟩ := hquits (by decide) (by decide)
    refine ⟨s₁, first, rfl, hgoing, hsame, hnothing ?_, ?_⟩
    · rw [hevents]
      decide
    · exact hheard [.key 5 true] [.key 6 true] hevents (by decide)

end Session

end ChipEight

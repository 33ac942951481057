import ChipEight.Proofs.Session.Limit

/-!
# Histories of sessions

A history lists what happens to the queue of a session while its user queues events and drives
the console: moment by moment, so that it also tells how the session stands in the middle of a
drive. `Lawful` says which moments may follow which, with how the drive stands as its index.
Histories are lawful by induction on their loops, and what is known of them is read off that.

A drive without a limit may never end, so a history looks at the first `n` steps of it, for any
`n`.

## Main results

* `Session.lawful_history` — the histories of all calls are lawful.
-/

namespace ChipEight

namespace Session

/-! ## Moments -/

/-- What happens to the queue of a session. -/
inductive Happening
  /-- Events were queued. -/
  | posted (events : List InputEvent)
  /-- The oldest event left the queue. -/
  | taken (event : InputEvent)
  /-- A step was attempted. -/
  | stepped (result : Except Failure StepReport)
  /-- A drive ended. -/
  | ended (result : Except Failure DriveReport)

/-- Something that has happened, and the session behind it. -/
structure Moment where
  what : Happening
  session : Session

def Happening.posted? : Happening → Option (List InputEvent)
  | .posted events => some events
  | _ => none

def Happening.taken? : Happening → Option InputEvent
  | .taken event => some event
  | _ => none

/-- What was queued at each occasion. -/
def postsIn (ms : List Moment) : List (List InputEvent) := ms.filterMap (·.what.posted?)

/-- All events that were queued, in order. -/
def postedIn (ms : List Moment) : List InputEvent := (postsIn ms).flatten

/-- All events that have left the queue, in order. -/
def takenIn (ms : List Moment) : List InputEvent := ms.filterMap (·.what.taken?)

/-- The session behind the last of the moments. -/
def behind (s : Session) (ms : List Moment) : Session := ms.foldl (fun _ m => m.session) s

/-! ## Histories -/

/-- The moments while the queue is worked off. -/
def drainMoments (s : Session) : List InputEvent → List Moment
  | [] => []
  | e :: rest =>
    ⟨.taken e, s.take e⟩ :: if e.stops then [] else (s.take e).drainMoments rest

/-- The moments of the first `limit` steps of a drive. -/
def cruiseMoments (o : DriveOptions) (interval : Float) : Nat → Session → List Moment
  | 0, _ => []
  | limit + 1, s =>
    s.drainMoments s.pending ++
      match s.drain with
      | (s, .done) =>
        match s.step with
        | (s, .error e) => [⟨.stepped (.error e), s⟩]
        | (s, .ok r) =>
          ⟨.stepped (.ok r), s⟩ ::
          ⟨.posted (o.onStep s.console.machine), s.afterStep o interval⟩ ::
          cruiseMoments o interval limit (s.afterStep o interval)
      | _ => []

/-- What the user of a drive does. -/
inductive Call
  /-- Queues events. -/
  | post (events : List InputEvent)
  /-- Drives the console, with or without a limit. -/
  | drive (limit : Option Int) (options : DriveOptions)

/-- The end of a drive. One without a limit may not have come to its end within `n` steps. -/
def driven? (s : Session) (n : Nat) (limit : Option Int) (o : DriveOptions) :
    Option (Session × Except Failure DriveReport) :=
  match limit with
  | some limit => some (s.drive limit o)
  | none => some (s.drive n o) |>.filter fun x => x.2.toOption.all (·.quit)

/-- The session behind a call that has come to its end. -/
def called? (s : Session) (n : Nat) : Call → Option Session
  | .post events => some (s.post events)
  | .drive limit o => (s.driven? n limit o).map (·.1)

/-- The moments of a call. A drive whose pace is out of range does not begin. -/
def moments (s : Session) (n : Nat) : Call → List Moment
  | .post events => [⟨.posted events, s.post events⟩]
  | .drive limit o =>
    match s.pacing.stepInterval? with
    | none => []
    | some interval =>
      cruiseMoments o interval (limit.getD n).toNat s ++
        ((s.driven? n limit o).map fun x => ⟨.ended x.2, x.1⟩).toList

/-- The moments of one call after another. Nothing follows a drive that has not come to its
end. -/
def history (s : Session) (n : Nat) : List Call → List Moment
  | [] => []
  | call :: calls => s.moments n call ++ (s.called? n call).elim [] fun t => t.history n calls

/-! ## Lawful sequences of moments -/

/-- The moments may follow each other from a session on, in which a drive stands as given.
Something else than the end of the drive may come only as long as nothing has stopped it, and a
step only when nothing is queued. -/
inductive Lawful : Except Failure Bool → Session → List Moment → Prop
  | nil {s : Session} : Lawful (.ok false) s []
  | posted {s t : Session} {events : List InputEvent} {ms : List Moment}
    (hpending : t.pending = s.pending ++ events) (hkeypad : t.keypad = s.keypad)
    (hconsole : t.console.bare = s.console.bare) (hrest : Lawful (.ok false) t ms) :
    Lawful (.ok false) s (⟨.posted events, t⟩ :: ms)
  | taken {s : Session} {e : InputEvent} {rest : List InputEvent} {ms : List Moment}
    (hpending : s.pending = e :: rest) (hrest : Lawful e.outcome (s.take e) ms) :
    Lawful (.ok false) s (⟨.taken e, s.take e⟩ :: ms)
  | stepped {s t : Session} {result : Except Failure StepReport} {ms : List Moment}
    (hpending : s.pending = []) (hstep : s.step = (t, result))
    (hrest : Lawful (result.map fun _ => false) t ms) :
    Lawful (.ok false) s (⟨.stepped result, t⟩ :: ms)
  | ended {standing : Except Failure Bool} {s t : Session}
    {result : Except Failure DriveReport} {ms : List Moment}
    (hresult : result.map (·.quit) = standing) (hpending : t.pending = s.pending)
    (hkeypad : t.keypad = s.keypad) (hconsole : t.console.bare = s.console.bare)
    (hrest : Lawful (.ok false) t ms) : Lawful standing s (⟨.ended result, t⟩ :: ms)

variable {o : DriveOptions} {interval : Float} {s t : Session} {ms : List Moment}

/-- Working off the queue. -/
theorem lawful_drain : ∀ (events : List InputEvent) {s : Session}, s.pending = events →
    Lawful s.drain.2.outcome s.drain.1 ms → Lawful (.ok false) s (s.drainMoments events ++ ms) := by
  intro events
  induction events with
  | nil =>
      intro s hpending h
      rw [drain_nil hpending] at h
      exact h
  | cons e rest ih =>
      intro s hpending h
      apply Lawful.taken hpending
      rcases drain_cons hpending with ⟨hgoes, hdrain⟩ | ⟨hstops, htake, -, houtcome⟩
      · rw [hdrain] at h
        rw [InputEvent.stops_eq_false_iff.mp hgoes, hgoes, if_neg Bool.false_ne_true]
        exact ih (pending_take hpending) h
      · rw [houtcome, htake] at h
        rw [hstops, if_pos rfl]
        exact h

/-- A step, and the events of the caller behind it. -/
theorem lawful_afterStep {r : StepReport} (hpending : s.pending = []) (hstep : s.step = (t, .ok r))
    (hrest : Lawful (.ok false) (t.afterStep o interval) ms) :
    Lawful (.ok false) s (⟨.stepped (.ok r), t⟩ ::
      ⟨.posted (o.onStep t.console.machine), t.afterStep o interval⟩ :: ms) := by
  apply Lawful.stepped hpending hstep
  refine Lawful.posted ?_ ?_ ?_ hrest
  · unfold afterStep
    split <;> rfl
  · unfold afterStep
    split <;> rfl
  · rw [console_afterStep]

/-- The moments of one turn of the loop, if that is the last one. -/
theorem cruiseMoments_of_stopped (hdrain : s.drain.2 ≠ .done) (n : Nat) :
    cruiseMoments o interval (n + 1) s = s.drainMoments s.pending := by
  rw [cruiseMoments]
  rcases hresult : s.drain with ⟨s', _ | _ | cause⟩
  · rw [hresult] at hdrain
    exact absurd rfl hdrain
  · exact List.append_nil _
  · exact List.append_nil _

theorem cruiseMoments_of_done (hdrain : s.drain.2 = .done) (n : Nat) :
    cruiseMoments o interval (n + 1) s = s.drainMoments s.pending ++
      match s.drain.1.step with
      | (t, .error e) => [⟨.stepped (.error e), t⟩]
      | (t, .ok r) =>
        ⟨.stepped (.ok r), t⟩ :: ⟨.posted (o.onStep t.console.machine), t.afterStep o interval⟩ ::
          cruiseMoments o interval n (t.afterStep o interval) := by
  have hpair : s.drain = (s.drain.1, .done) := Prod.ext rfl hdrain
  rw [cruiseMoments, hpair]

/-- The loop of a drive. -/
theorem lawful_cruise (o : DriveOptions) (interval : Float) :
    ∀ (n : Nat) (s : Session) (t : Tally),
      Lawful (cruise o interval n s t).2.2 (cruise o interval n s t).1 ms →
      Lawful (.ok false) s (cruiseMoments o interval n s ++ ms) := by
  intro n
  induction n with
  | zero =>
      intro s t h
      exact h
  | succ n ih =>
      intro s t h
      cases turn o interval s with
      | stopped hdrain hcruise _ =>
          rw [hcruise] at h
          rw [cruiseMoments_of_stopped hdrain]
          exact lawful_drain s.pending rfl h
      | failed hdrain hstep hcruise _ =>
          have hempty := pending_drain_of_done s.pending rfl hdrain
          rw [hcruise] at h
          rw [cruiseMoments_of_done hdrain, hstep, List.append_assoc]
          apply lawful_drain s.pending rfl
          rw [hdrain]
          exact .stepped hempty hstep h
      | stepped hdrain hstep hcruise _ =>
          have hempty := pending_drain_of_done s.pending rfl hdrain
          rw [hcruise] at h
          rw [cruiseMoments_of_done hdrain, hstep, List.append_assoc]
          apply lawful_drain s.pending rfl
          rw [hdrain]
          exact lawful_afterStep hempty hstep (ih _ _ h)

theorem driven?_eq_some {n : Nat} {limit : Option Int}
    {x : Session × Except Failure DriveReport} (h : s.driven? n limit o = some x) :
    s.drive (limit.getD n) o = x := by
  cases limit with
  | none =>
      simp only [driven?, Option.filter_eq_some_iff] at h
      exact Option.some.inj h.1
  | some limit => exact Option.some.inj h

theorem driven?_eq_none {n : Nat} {limit : Option Int} (h : s.driven? n limit o = none) :
    (s.drive (limit.getD n) o).2.map (·.quit) = .ok false := by
  cases limit with
  | none =>
      simp only [driven?, Option.filter_eq_none_iff] at h
      have hgoing := h _ rfl
      rw [Option.getD_none]
      rcases hresult : (s.drive n o).2 with e | report
      · rw [hresult] at hgoing
        exact absurd rfl hgoing
      · rw [hresult] at hgoing
        have hquit : report.quit = false := by simpa [Except.toOption] using hgoing
        exact congrArg Except.ok hquit
  | some limit => cases h

/-- The moments of a drive, and whatever is lawful behind its end if it has come to that. -/
theorem lawful_drive {n : Nat} {limit : Option Int}
    (hrest : ∀ x, s.driven? n limit o = some x → Lawful (.ok false) x.1 ms)
    (hnone : s.driven? n limit o = none → ms = []) :
    Lawful (.ok false) s (s.moments n (.drive limit o) ++ ms) := by
  unfold moments
  cases hpace : s.pacing.stepInterval? with
  | none =>
      have hrefused := drive_of_no_pace hpace (limit.getD n) o
      cases hdriven : s.driven? n limit o with
      | none =>
          have hgoing := driven?_eq_none hdriven
          rw [hrefused] at hgoing
          cases hgoing
      | some x =>
          have hlast := hrest x hdriven
          rw [← driven?_eq_some hdriven, hrefused] at hlast
          exact hlast
  | some interval =>
      have hloop := drive_of_pace hpace (limit.getD n) o
      rw [List.append_assoc]
      apply lawful_cruise o interval _ s {}
      generalize cruise o interval (limit.getD n).toNat s {} = y at hloop ⊢
      cases hdriven : s.driven? n limit o with
      | none =>
          have hgoing := driven?_eq_none hdriven
          rw [hloop, map_quit_arrive] at hgoing
          rw [hgoing, hnone hdriven]
          exact .nil
      | some x =>
          have hend := driven?_eq_some hdriven
          rw [hloop] at hend
          subst hend
          exact .ended (map_quit_arrive s.clock y) rfl rfl rfl (hrest _ hdriven)

/-- All histories are lawful. -/
theorem lawful_history (n : Nat) (calls : List Call) :
    ∀ s : Session, Lawful (.ok false) s (s.history n calls) := by
  induction calls with
  | nil =>
      intro s
      exact .nil
  | cons call calls ih =>
      intro s
      rw [history]
      cases call with
      | post events => exact .posted rfl rfl rfl (ih _)
      | drive limit o =>
          rw [called?]
          apply lawful_drive
          · intro x hdriven
            rw [hdriven]
            exact ih x.1
          · intro hdriven
            rw [hdriven]
            rfl

end Session

end ChipEight

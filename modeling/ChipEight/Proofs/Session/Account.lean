import ChipEight.Proofs.Session.History

/-!
# The account of the events

Events come into the queue of a session when the user posts them and when the caller of a drive
answers with them; they leave it one by one, in the order in which they came. At every moment of
a history the events that were posted are those that were taken, followed by those that are still
queued, and the keys are those of the taken events.

A caller may answer with anything: a function of the machine can tell all steps of a drive
apart by the count of executed instructions.

## Main results

* `Session.Lawful.accounted` — the account of the events, at every moment of a lawful history.
* `Session.events_once_in_order` — the account for the histories of all calls.
-/

namespace ChipEight

namespace Session

variable {s t : Session} {ms : List Moment} {o : DriveOptions} {interval : Float}

/-! ## What was posted and what was taken -/

theorem postsIn_append (ms ms' : List Moment) : postsIn (ms ++ ms') = postsIn ms ++ postsIn ms' :=
  List.filterMap_append

theorem postedIn_cons (m : Moment) (ms : List Moment) :
    postedIn (m :: ms) = m.what.posted?.getD [] ++ postedIn ms := by
  unfold postedIn postsIn
  cases hposted : m.what.posted? <;> simp [hposted]

theorem takenIn_cons (m : Moment) (ms : List Moment) :
    takenIn (m :: ms) = m.what.taken?.toList ++ takenIn ms := by
  unfold takenIn
  cases htaken : m.what.taken? <;> simp [htaken]

/-- What is true when the moments `past` are over and the moments `ahead` are to come. -/
structure Accounted (s : Session) (past ahead : List Moment) : Prop where
  /-- No event is lost, none is taken twice, and they are taken in order. -/
  events : s.pending ++ postedIn past = takenIn past ++ (behind s past).pending
  /-- Every event that was taken is applied to the keys, once and in order. -/
  keys : (behind s past).keypad = (takenIn past).foldl InputEvent.applyTo s.keypad
  /-- A step is taken when nothing is queued, so with the keys of all events that were posted. -/
  step : ∀ result t rest, ahead = ⟨.stepped result, t⟩ :: rest →
    (behind s past).pending = [] ∧ (behind s past).step = (t, result)
  /-- Nothing but a step changes the machine and what is shown of it. -/
  idle : ∀ m rest, ahead = m :: rest → (∀ result, m.what ≠ .stepped result) →
    m.session.console.bare = (behind s past).console.bare
  /-- An event that stops the drive changes no key. The drive ends at once, as that event says,
  and what is queued stays queued. -/
  stop : ∀ e t rest, ahead = ⟨.taken e, t⟩ :: rest → e.stops →
    t.keypad = (behind s past).keypad ∧
    ∃ result u rest', rest = ⟨.ended result, u⟩ :: rest' ∧
      result.map (·.quit) = e.outcome ∧ u.pending = t.pending ∧ u.keypad = t.keypad

namespace Lawful

variable {standing : Except Failure Bool}

/-- Once something has stopped the drive, its end comes next. -/
theorem ended_of_ne (h : Lawful standing s ms) (hstopped : standing ≠ .ok false) :
    ∃ result t rest, ms = ⟨.ended result, t⟩ :: rest ∧ result.map (·.quit) = standing ∧
      t.pending = s.pending ∧ t.keypad = s.keypad := by
  cases h with
  | ended hresult hpending hkeypad _ _ => exact ⟨_, _, _, rfl, hresult, hpending, hkeypad⟩
  | nil | posted | taken | stepped => exact absurd rfl hstopped

/-- The events are accounted for over a part of the moments, and what follows is lawful. -/
theorem split : ∀ (past : List Moment) {ahead : List Moment} {standing : Except Failure Bool}
    {s : Session}, Lawful standing s (past ++ ahead) →
    s.pending ++ postedIn past = takenIn past ++ (behind s past).pending ∧
    (behind s past).keypad = (takenIn past).foldl InputEvent.applyTo s.keypad ∧
    ∃ standing', Lawful standing' (behind s past) ahead := by
  intro past
  induction past with
  | nil =>
      intro ahead standing s h
      exact ⟨List.append_nil s.pending, rfl, standing, h⟩
  | cons m past ih =>
      intro ahead standing s h
      rw [postedIn_cons, takenIn_cons]
      cases h with
      | posted hpending hkeypad _ hrest =>
          obtain ⟨hevents, hkeys, hahead⟩ := ih hrest
          refine ⟨?_, hkeypad ▸ hkeys, hahead⟩
          rw [hpending, List.append_assoc] at hevents
          exact hevents
      | @taken s e rest _ hpending hrest =>
          obtain ⟨hevents, hkeys, hahead⟩ := ih hrest
          refine ⟨?_, hkeys, hahead⟩
          rw [pending_take hpending] at hevents
          rw [hpending]
          exact congrArg (e :: ·) hevents
      | @stepped s t _ _ _ hstep hrest =>
          obtain ⟨hevents, hkeys, hahead⟩ := ih hrest
          have hpending : t.pending = s.pending := by
            rw [(console_step hstep).2]
            rfl
          have hkeypad : t.keypad = s.keypad := by
            rw [(console_step hstep).2]
            rfl
          exact ⟨hpending ▸ hevents, hkeypad ▸ hkeys, hahead⟩
      | ended _ hpending hkeypad _ hrest =>
          obtain ⟨hevents, hkeys, hahead⟩ := ih hrest
          exact ⟨hpending ▸ hevents, hkeypad ▸ hkeys, hahead⟩

/-- The account of the events, at every moment. -/
theorem accounted {past ahead : List Moment} (h : Lawful standing s (past ++ ahead)) :
    Accounted s past ahead := by
  obtain ⟨hevents, hkeys, standing', hahead⟩ := h.split past
  refine ⟨hevents, hkeys, ?_, ?_, ?_⟩
  · rintro result t rest rfl
    cases hahead with
    | stepped hpending hstep _ => exact ⟨hpending, hstep⟩
  · rintro m rest rfl hother
    cases hahead with
    | posted _ _ hconsole _ | ended _ _ _ hconsole _ => exact hconsole
    | taken => rfl
    | stepped => exact absurd rfl (hother _)
  · rintro e t rest rfl hstops
    cases hahead with
    | taken _ hrest =>
        refine ⟨e.applyTo_of_stops hstops _, hrest.ended_of_ne ?_⟩
        intro hgoes
        rw [InputEvent.stops_eq_false_iff.mpr hgoes] at hstops
        cases hstops

end Lawful

/-! ## Callers -/

/-- A caller that has prepared an answer for every step of a drive: the step that follows on `k`
others is answered with `answers k`. -/
def prepared (start : Int) (answers : Nat → List InputEvent) (m : Machine) : List InputEvent :=
  answers (m.cycle - start - 1).toNat

/-- Nothing is posted while the queue is worked off. -/
theorem postsIn_drainMoments (events : List InputEvent) :
    ∀ s : Session, postsIn (s.drainMoments events) = [] := by
  induction events with
  | nil =>
      intro s
      rfl
  | cons e rest ih =>
      intro s
      rw [drainMoments]
      split
      · rfl
      · exact ih (s.take e)

/-- The answers of such a caller are all given, one after another. -/
theorem postsIn_cruiseMoments (realtime : Bool) (start : Int) (answers : Nat → List InputEvent)
    (interval : Float) : ∀ (n k : Nat) (s : Session), s.console.machine.cycle = start + k →
      ∃ j, postsIn (cruiseMoments { realtime, onStep := prepared start answers } interval n s) =
        (List.range' k j).map answers := by
  intro n
  induction n with
  | zero =>
      intro k s _
      exact ⟨0, rfl⟩
  | succ n ih =>
      intro k s hcycle
      by_cases hdrain : s.drain.2 = .done
      · rw [cruiseMoments_of_done hdrain, postsIn_append, postsIn_drainMoments]
        rcases hstep : s.drain.1.step with ⟨t, e | r⟩
        · exact ⟨0, rfl⟩
        · have hnext : t.console.machine.cycle = start + (k + 1 : Nat) := by
            rw [Console.cycle_step (console_step hstep).1]
            show s.console.machine.cycle + 1 = _
            rw [hcycle]
            omega
          have hanswer : prepared start answers t.console.machine = answers k := by
            unfold prepared
            rw [hnext]
            congr 1
            omega
          rw [← console_afterStep t { realtime, onStep := prepared start answers } interval]
            at hnext
          obtain ⟨j, hrest⟩ := ih (k + 1) _ hnext
          refine ⟨j + 1, ?_⟩
          rw [List.range'_succ, List.map_cons, ← hrest, ← hanswer]
          rfl
      · rw [cruiseMoments_of_stopped hdrain, postsIn_drainMoments]
        exact ⟨0, rfl⟩

theorem postsIn_moments (s : Session) (n : Nat) (answers : Nat → List InputEvent)
    (realtime : Bool) (limit : Option Int) :
    ∃ k, postsIn (s.moments n (.drive limit
        { realtime, onStep := prepared s.console.machine.cycle answers })) =
      (List.range k).map answers := by
  unfold moments
  cases s.pacing.stepInterval? with
  | none => exact ⟨0, rfl⟩
  | some interval =>
      obtain ⟨k, hposts⟩ := postsIn_cruiseMoments realtime s.console.machine.cycle answers interval
        (limit.getD n).toNat 0 s (Int.add_zero _).symm
      refine ⟨k, ?_⟩
      rw [List.range_eq_range', ← hposts, postsIn_append]
      cases s.driven? n limit _ <;> exact List.append_nil _

/-! ## Calls -/

/-- A drive without a limit ends iff one of its histories comes to that. -/
theorem driveOn_eq_driven? {x : Session × Except Failure DriveReport} :
    s.driveOn o = some x ↔ ∃ n : Nat, s.driven? n none o = some x := by
  have hquit : (∀ report, x.2 = .ok report → report.quit = true) ↔
      x.2.toOption.all (·.quit) = true := by
    rcases x with ⟨u, e | report⟩ <;> simp [Except.toOption]
  rw [driveOn_eq_some_iff, hquit]
  simp only [driven?, Option.filter_eq_some_iff, Option.some.injEq]

/-- A drive that is not allowed a single step takes no event. -/
theorem takenIn_moments_of_nonpos {limit : Int} (h : limit ≤ 0) (n : Nat) :
    takenIn (s.moments n (.drive (some limit) o)) = [] := by
  unfold moments
  cases s.pacing.stepInterval? with
  | none => rfl
  | some interval =>
      simp only [Option.getD_some, Int.toNat_of_nonpos h]
      rfl

theorem drive_of_nonpos {limit : Int} (h : limit ≤ 0) :
    (s.drive limit o).1.pending = s.pending ∧ (s.drive limit o).1.keypad = s.keypad := by
  cases hpace : s.pacing.stepInterval? with
  | none =>
      rw [drive_of_no_pace hpace]
      exact ⟨rfl, rfl⟩
  | some interval =>
      rw [drive_of_pace hpace, Int.toNat_of_nonpos h]
      exact ⟨rfl, rfl⟩

/-- Let a user queue events and drive the console, in any order, with any limits or without one
and with any answers after the steps. At every moment the events are accounted for. A drive that
is not allowed a single step takes no event; any answers can be given to the steps of a drive;
and a drive without a limit ends iff one of its histories does. -/
theorem events_once_in_order (s : Session) (n : Nat) (calls : List Call) :
    (∀ past ahead, s.history n calls = past ++ ahead → Accounted s past ahead) ∧
    (∀ (limit : Int) o, limit ≤ 0 → takenIn (s.moments n (.drive (some limit) o)) = [] ∧
      (s.drive limit o).1.pending = s.pending ∧ (s.drive limit o).1.keypad = s.keypad) ∧
    (∀ answers, ∃ onStep, ∀ realtime limit, ∃ k,
      postsIn (s.moments n (.drive limit { realtime, onStep })) = (List.range k).map answers) ∧
    (∀ o x, s.driveOn o = some x ↔ ∃ m : Nat, s.driven? m none o = some x) := by
  refine ⟨?_, ?_, ?_, ?_⟩
  · intro past ahead hsplit
    have hlawful := lawful_history n calls s
    rw [hsplit] at hlawful
    exact hlawful.accounted
  · intro limit o hlimit
    exact ⟨takenIn_moments_of_nonpos hlimit n, drive_of_nonpos hlimit⟩
  · intro answers
    exact ⟨_, fun realtime limit => s.postsIn_moments n answers realtime limit⟩
  · intro o x
    exact driveOn_eq_driven?

/-- A drive that the user quits, one that a bad key ends, and one that the caller quits after the
second step. -/
def talking : List Call :=
  [ .post [.key 5 true, .quit, .key 6 true], .drive (some 3) {}
  , .post [.key 99 true, .key 5 false], .drive (some 4) {}
  , .drive none { onStep := prepared 0 fun k => if k = 1 then [.key 7 true, .quit] else [] } ]

/-- When the bad key has been taken, the release behind it is still queued, and its key is still
held. In the end the release has been applied, and so has the press behind it, but not the bad
key. -/
theorem circling_accounted :
    let hindsight := (circling.history 3 talking).take 7
    (takenIn (circling.history 3 talking) =
      [ .key 5 true, .quit, .key 6 true, .key 99 true, .key 5 false, .key 7 true, .quit ] ∧
    (behind circling hindsight).pending = [.key 5 false] ∧
    (behind circling hindsight).keypad.heldKeys = [5, 6] ∧
    (behind circling (circling.history 3 talking)).keypad.heldKeys = [6, 7]) ∧
    Accounted circling hindsight ((circling.history 3 talking).drop 7) ∧
    Accounted circling (circling.history 3 talking) [] ∧
    (circling.drive (-1) {}).1.pending = [] := by
  intro hindsight
  obtain ⟨haccount, hnone, -⟩ := events_once_in_order circling 3 talking
  refine ⟨?_, haccount _ _ (List.take_append_drop 7 _).symm,
    haccount _ _ (List.append_nil _).symm, ?_⟩
  · decide +kernel
  · exact (hnone (-1) {} (by decide)).2.1

end Session

end ChipEight

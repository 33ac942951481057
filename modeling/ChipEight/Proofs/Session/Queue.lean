import ChipEight.Session

/-!
# Working off the queue

A drive works off the queue before every step. This module says what becomes of one event at a
time: the oldest one leaves the queue and is applied to the keys. `InputEvent.outcome` tells how
a drive stands that has just taken the event, and the next event is looked at only if nothing
has stopped the drive.

## Main results

* `Session.drain_nil`, `Session.drain_cons` — working off the queue is taking its events one by
  one, up to one that stops the drive.
* `Session.drain_of_quit`, `Session.drain_of_quit_mem` — no step is taken ahead of a request to
  quit.
-/

namespace ChipEight

/-! ## Events -/

namespace Key

/-- The code names a key. -/
def IsCode (code : Int) : Prop := 0 ≤ code ∧ code < keyCount

instance (code : Int) : Decidable (IsCode code) :=
  inferInstanceAs (Decidable (0 ≤ code ∧ code < keyCount))

theorem IsCode.toNat_lt {code : Int} (h : IsCode code) : code.toNat < keyCount := by
  have hlow := h.1
  have hhigh := h.2
  omega

end Key

namespace InputEvent

/-- The keys behind an event. A code that names no key changes none. -/
def applyTo (keypad : Keypad) : InputEvent → Keypad
  | .key code isDown =>
    if h : Key.IsCode code then keypad.mark ⟨code.toNat, h.toNat_lt⟩ isDown else keypad
  | .quit => keypad

/-- How a drive stands that has taken the event: the user has asked to stop or has not, or the
event was a fault. -/
def outcome : InputEvent → Except Failure Bool
  | .key code _ =>
    if Key.IsCode code then .ok false else .error (.fault (.ofCause (.noSuchKey code)))
  | .quit => .ok true

/-- A drive that takes the event goes no further. -/
def stops : InputEvent → Bool
  | .key code _ => !decide (Key.IsCode code)
  | .quit => true

variable {e : InputEvent}

theorem stops_eq_false_iff : e.stops = false ↔ e.outcome = .ok false := by
  cases e with
  | quit => simp [stops, outcome]
  | key code isDown => by_cases h : Key.IsCode code <;> simp [stops, outcome, h]

/-- An event that stops a drive changes no key. -/
theorem applyTo_of_stops (h : e.stops = true) (keypad : Keypad) : e.applyTo keypad = keypad := by
  cases e with
  | quit => rfl
  | key code isDown =>
      have hbad : ¬Key.IsCode code := by simpa [stops] using h
      exact dif_neg hbad

/-- The keypad takes over an event about one of its keys, and refuses any other. -/
theorem press_or_release (keypad : Keypad) (code : Int) (isDown : Bool) :
    (if isDown then keypad.press code else keypad.release code) =
      if Key.IsCode code then .ok ((key code isDown).applyTo keypad)
      else .error (.noSuchKey code) := by
  have hmark : (if isDown then keypad.press code else keypad.release code) =
      (Key.ofInt? code).map fun k => keypad.mark k isDown := by
    cases isDown <;> rfl
  rw [hmark]
  by_cases h : Key.IsCode code
  · have hkey : Key.ofInt? code = .ok ⟨code.toNat, h.toNat_lt⟩ := dif_pos h
    simp only [hkey, Except.map, applyTo, h, if_true, dite_true]
  · have hkey : Key.ofInt? code = .error (.noSuchKey code) := dif_neg h
    simp only [hkey, Except.map, h, if_false]

end InputEvent

namespace Session

/-- How a drive stands that has worked off the queue. -/
def Drained.outcome : Drained → Except Failure Bool
  | .done => .ok false
  | .quit => .ok true
  | .badKey cause => .error (.fault (.ofCause cause))

theorem Drained.outcome_ne_of_ne_done {d : Drained} (h : d ≠ .done) :
    d.outcome ≠ .ok false := by
  cases d with
  | done => exact absurd rfl h
  | quit => simp [outcome]
  | badKey cause => simp [outcome]

/-- The session behind an event that has left the queue. -/
def take (s : Session) (e : InputEvent) : Session :=
  { s with keypad := e.applyTo s.keypad, pending := s.pending.tail }

variable {s : Session} {e : InputEvent} {rest : List InputEvent}

/-! ## One event at a time -/

/-- What is left in the queue when its oldest event is taken. -/
theorem pending_take (h : s.pending = e :: rest) : (s.take e).pending = rest := by
  show s.pending.tail = rest
  rw [h]
  rfl

theorem drain_nil (h : s.pending = []) : s.drain = (s, .done) := by
  unfold drain
  rw [h, drainEvents, ← h]

/-- The oldest event is taken, and then the rest of the queue is worked off unless that event
stops the drive. -/
theorem drain_cons (h : s.pending = e :: rest) :
    (e.stops = false ∧ s.drain = (s.take e).drain) ∨
    (e.stops = true ∧ s.drain.1 = s.take e ∧ s.drain.2 ≠ .done ∧
      s.drain.2.outcome = e.outcome) := by
  have hrest := pending_take h
  cases e with
  | quit =>
      right
      have hdrain : s.drain = (s.take .quit, .quit) := by
        simp only [drain, h, drainEvents, take, InputEvent.applyTo, List.tail_cons]
      rw [hdrain]
      exact ⟨rfl, rfl, Drained.noConfusion, rfl⟩
  | key code isDown =>
      have hkey := InputEvent.press_or_release s.keypad code isDown
      by_cases hcode : Key.IsCode code
      · left
        rw [if_pos hcode] at hkey
        refine ⟨by simp [InputEvent.stops, hcode], ?_⟩
        simp only [drain, h, drainEvents, hkey, hrest]
        rfl
      · right
        rw [if_neg hcode] at hkey
        have hsame : (InputEvent.key code isDown).applyTo s.keypad = s.keypad := dif_neg hcode
        have hdrain : s.drain = (s.take (.key code isDown), .badKey (.noSuchKey code)) := by
          simp only [drain, h, drainEvents, hkey, take, hsame, List.tail_cons]
        rw [hdrain]
        refine ⟨by simp [InputEvent.stops, hcode], rfl, Drained.noConfusion, ?_⟩
        exact (if_neg hcode).symm

/-- Nothing is left in a queue that was worked off. -/
theorem pending_drain_of_done : ∀ (events : List InputEvent) {s : Session},
    s.pending = events → s.drain.2 = .done → s.drain.1.pending = [] := by
  intro events
  induction events with
  | nil =>
      intro s h _
      rw [drain_nil h]
      exact h
  | cons e rest ih =>
      intro s h hdone
      rcases drain_cons h with ⟨-, hdrain⟩ | ⟨-, -, hstopped, -⟩
      · rw [hdrain] at hdone ⊢
        exact ih (pending_take h) hdone
      · exact absurd hdone hstopped

/-! ## Requests to quit -/

/-- A request to quit is never passed over, whatever stands in front of it. -/
theorem drain_of_quit_mem : ∀ (events : List InputEvent) {s : Session},
    s.pending = events → .quit ∈ events → s.drain.2 ≠ .done := by
  intro events
  induction events with
  | nil =>
      intro s _ hquit
      cases hquit
  | cons e rest ih =>
      intro s h hquit
      rcases drain_cons h with ⟨hgoes, hdrain⟩ | ⟨-, -, hstopped, -⟩
      · rw [hdrain]
        apply ih (pending_take h)
        rcases List.mem_cons.mp hquit with rfl | hrest
        · cases hgoes
        · exact hrest
      · exact hstopped

/-- A request to quit with nothing but keys of the pad in front of it is heard. -/
theorem drain_of_quit : ∀ (front : List InputEvent) {s : Session} {behind : List InputEvent},
    s.pending = front ++ .quit :: behind → (∀ e ∈ front, e.stops = false) →
    s.drain.2.outcome = .ok true := by
  intro front
  induction front with
  | nil =>
      intro s behind h _
      rcases drain_cons h with ⟨hgoes, -⟩ | ⟨-, -, -, houtcome⟩
      · cases hgoes
      · exact houtcome
  | cons e front ih =>
      intro s behind h hfront
      have hgoes := hfront e List.mem_cons_self
      rcases drain_cons h with ⟨-, hdrain⟩ | ⟨hstops, -⟩
      · rw [hdrain]
        exact ih (pending_take h) fun e' he' => hfront e' (List.mem_cons_of_mem e he')
      · rw [hgoes] at hstops
        cases hstops

end Session

end ChipEight

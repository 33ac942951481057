import ChipEight.Proofs.Keypad.Operation
import ChipEight.Proofs.Machine.KeyWait
import ChipEight.Proofs.Session.Course

/-!
# Sessions that wait for a key

A session that stands at `Fx0A` is stepped, and its keypad is changed in between, in any order. As
long as no key is held when a step is taken, the steps are those of `Machine.waited`: they do not
fail, and count and timers are all that moves. The first step that finds keys held takes the least
of them. It leaves the keypad alone, so an `Fy0A` right behind takes the same key at once.

## Main results

* `Session.takes_of_held` — a step that finds a key.
* `Session.idles` — any number of steps that find none.
* `Session.key_wait` — keys that are held, and programs that wait for them.
-/

namespace ChipEight

/-- Consoles that differ in their machines only are equal with the same machine. -/
theorem Console.bare_withMachine {c c' : Console} {m : Machine}
    (h : c'.bare = ({ c with machine := m } : Console).bare) (m' : Machine) :
    ({ c' with machine := m' } : Console).bare = ({ c with machine := m' } : Console).bare :=
  congrArg (fun d : Console => { d with machine := m' }) h

namespace Session

/-! ## Steps and changes of the keypad -/

/-- What is done to a session that waits. -/
inductive Act
  /-- The keypad is changed. -/
  | keys (o : Keypad.Op)
  | step
  deriving DecidableEq

/-- The session behind it. -/
def act (s : Session) : Act → Session
  | .keys o => { s with keypad := s.keypad.perform o }
  | .step => s.step.1

/-- The session behind a sequence of acts. -/
def actAll (s : Session) (acts : List Act) : Session := acts.foldl act s

/-- The changes of the keypad among some acts. -/
def keysIn : List Act → List Keypad.Op
  | [] => []
  | .keys o :: acts => o :: keysIn acts
  | .step :: acts => keysIn acts

/-- The results of the steps among some acts. -/
def results (s : Session) : List Act → List (Except Failure StepReport)
  | [] => []
  | .keys o :: acts => (s.act (.keys o)).results acts
  | .step :: acts => s.step.2 :: s.step.1.results acts

/-- No key is held whenever a step is taken. -/
def Unanswered (p : Keypad) : List Act → Prop
  | [] => True
  | .keys o :: acts => Unanswered (p.perform o) acts
  | .step :: acts => (∀ k, p.isHeld k = false) ∧ Unanswered p acts

instance decidableUnanswered : ∀ (p : Keypad) (acts : List Act), Decidable (Unanswered p acts)
  | _, [] => isTrue trivial
  | p, .keys o :: acts => decidableUnanswered (p.perform o) acts
  | p, .step :: acts =>
    have := decidableUnanswered p acts
    inferInstanceAs (Decidable ((∀ k, p.isHeld k = false) ∧ _))

/-- The machine of the session stands at the word `w`, which is `Fx0A`, and polls the keypad. -/
structure Stands (s : Session) (w : Word) : Prop where
  device : s.device = none
  config : s.console.config.Valid
  fetched : s.console.machine.fetch = .ok w
  waits : w.Waits

/-- A step of a session that stands at `w` succeeds, shows nothing, and goes on at `pc`. -/
def Goes (s : Session) (w : Word) (pc : Int) (result : Except Failure StepReport) : Prop :=
  ∃ r, result = .ok r ∧ r.pc = s.console.machine.pc ∧ r.word = w ∧ r.nextPc = pc ∧
    r.redrawn = false

/-- The next step puts the key `k` into the register of the word `w` and goes on behind it. Count
and timers run on; keys, picture and everything else stay. -/
structure Takes (s : Session) (w : Word) (k : Key) : Prop where
  result : s.Goes w (s.console.machine.pc + wordSize) s.step.2
  keypad : s.step.1.keypad = s.keypad
  console : s.step.1.console.bare = ({ s.console with
    machine := (s.console.machine.waited s.console.config.timerDivider 1).answered w.x k } :
      Console).bare

/-- The session goes through some acts without getting further than the word `w`. Count and timers
run on, the keypad changes as it is changed; picture and everything else stay. -/
structure Idles (s : Session) (w : Word) (acts : List Act) : Prop where
  results : ∀ result ∈ s.results acts, s.Goes w s.console.machine.pc result
  count : (s.results acts).length = acts.count .step
  keypad : (s.actAll acts).keypad = s.keypad.performAll (keysIn acts)
  console : (s.actAll acts).console.bare = ({ s.console with
    machine := s.console.machine.waited s.console.config.timerDivider (acts.count .step) } :
      Console).bare

variable {s : Session} {w w' : Word} {k : Key} {acts : List Act}

/-! ## Single steps -/

/-- What the machine polls. -/
theorem pressedKey_keyboard (hdevice : s.device = none) :
    s.keyboard.pressedKey = s.keypad.pressedKey.map fun k => (k.val : Int) := by
  unfold keyboard
  rw [hdevice]
  rfl

/-- A step that executes an instruction which shows nothing. -/
theorem step_of_executes {m : Machine} {i : Instruction}
    (hexec : s.console.machine.Executes s.console.config.timerDivider s.keyboard
      ⟨s.console.machine.pc, w, m, none⟩ i) :
    s.Goes w m.pc s.step.2 ∧ s.step.1.keypad = s.keypad ∧ s.step.1.device = s.device ∧
      s.step.1.console.bare = ({ s.console with machine := m } : Console).bare := by
  obtain ⟨c, hstep, hbare⟩ := Console.step_of_executes hexec
  have hpair : s.step = (s.withConsole c,
      .ok (s.console.answerOf ⟨s.console.machine.pc, w, m, none⟩)) := by
    unfold step
    rw [hstep]
  rw [hpair]
  exact ⟨⟨_, rfl, rfl, rfl, rfl, rfl⟩, rfl, rfl, hbare⟩

/-- A step that finds a key takes it. -/
theorem takes_of_held (h : s.Stands w) (hkey : s.keypad.pressedKey = some k) : s.Takes w k := by
  have hkeys : s.keyboard.pressedKey = some (k.val : Int) := by
    rw [pressedKey_keyboard h.device, hkey]
    rfl
  have hexec := Machine.executes_answered h.config.1 h.fetched h.waits hkeys
  obtain ⟨hresult, hkeypad, -, hconsole⟩ := step_of_executes hexec
  rw [Machine.pc_answered, Machine.pc_waited] at hresult
  exact ⟨hresult, hkeypad, hconsole⟩

/-- A step that finds no key leaves the session where it stands. -/
theorem stays_of_free (h : s.Stands w) (hfree : ∀ k, s.keypad.isHeld k = false) :
    s.Goes w s.console.machine.pc s.step.2 ∧ s.step.1.keypad = s.keypad ∧ s.step.1.Stands w ∧
      s.step.1.console.bare = ({ s.console with
        machine := s.console.machine.waited s.console.config.timerDivider 1 } : Console).bare := by
  have hkeys : s.keyboard.pressedKey = none := by
    rw [pressedKey_keyboard h.device, Keypad.pressedKey_eq_none_iff.mpr hfree]
    rfl
  have hexec := Machine.executes_unanswered h.config.1 h.fetched h.waits hkeys
  obtain ⟨hresult, hkeypad, hdevice, hconsole⟩ := step_of_executes hexec
  rw [Machine.pc_waited] at hresult
  refine ⟨hresult, hkeypad, ⟨hdevice.trans h.device, ?_, ?_, h.waits⟩, hconsole⟩
  · rw [Console.config_of_bare hconsole]
    exact h.config
  · rw [Console.machine_of_bare hconsole, Machine.fetch_waited]
    exact h.fetched

/-- Behind the key that was taken, a word that waits as well finds it held still. -/
theorem takes_again (h : s.Stands w) (hkey : s.keypad.pressedKey = some k)
    (hfetch : s.step.1.console.machine.fetch = .ok w') (hwaits : w'.Waits) :
    s.step.1.Takes w' k := by
  have htakes := takes_of_held h hkey
  refine takes_of_held ⟨h.device, ?_, hfetch, hwaits⟩ (htakes.keypad ▸ hkey)
  rw [Console.config_of_bare htakes.console]
  exact h.config

/-! ## Any number of steps -/

/-- As long as no key is held, a session that stands at `Fx0A` idles, and stands there still. -/
theorem idles (h : s.Stands w) (hfree : Unanswered s.keypad acts) :
    s.Idles w acts ∧ (s.actAll acts).Stands w := by
  induction acts generalizing s with
  | nil =>
      refine ⟨⟨fun _ hmem => absurd hmem List.not_mem_nil, rfl, rfl, ?_⟩, h⟩
      rw [List.count_nil, Machine.waited_zero]
      rfl
  | cons a acts ih =>
      cases a with
      | keys o =>
          have hstands : (s.act (.keys o)).Stands w := ⟨h.device, h.config, h.fetched, h.waits⟩
          obtain ⟨hidles, hend⟩ := ih hstands hfree
          have hcount : (Act.keys o :: acts).count .step = acts.count .step :=
            List.count_cons_of_ne (show Act.keys o ≠ .step from nofun)
          refine ⟨⟨hidles.results, ?_, hidles.keypad, ?_⟩, hend⟩
          · rw [hcount]
            exact hidles.count
          · rw [hcount]
            exact hidles.console
      | step =>
          obtain ⟨hresult, hkeypad, hstands, hconsole⟩ := stays_of_free h hfree.1
          have hrest : Unanswered s.step.1.keypad acts := by
            rw [hkeypad]
            exact hfree.2
          obtain ⟨hidles, hend⟩ := ih hstands hrest
          have hcount : (Act.step :: acts).count .step = 1 + acts.count .step := by
            rw [List.count_cons_self, Nat.add_comm]
          have hmachine := Console.machine_of_bare hconsole
          have hconfig := Console.config_of_bare hconsole
          refine ⟨⟨?_, ?_, ?_, ?_⟩, hend⟩
          · intro result hmem
            rcases List.mem_cons.mp hmem with rfl | hlater
            · exact hresult
            · have hgoes := hidles.results result hlater
              unfold Goes at hgoes ⊢
              rwa [hmachine] at hgoes
          · rw [hcount, Nat.add_comm]
            exact congrArg (· + 1) hidles.count
          · show (s.step.1.actAll acts).keypad = _
            rw [hidles.keypad, hkeypad]
            rfl
          · show (s.step.1.actAll acts).console.bare = _
            rw [hidles.console, hmachine, hconfig, Machine.waited_waited h.config.1, ← hcount]
            exact Console.bare_withMachine hconsole _

/-- A key of a keypad is held iff the last operation that concerned it was a press; an operation
that does not succeed concerns no key and changes nothing, operations that concern no key in common
commute, and the key that is reported is the least of those held. A session that stands at `Fx0A`
and polls its keypad stays there, whatever is done to the keypad, as long as no key is held when it
is stepped: no step fails, and nothing but count and timers changes. The first step that finds keys
held takes the least of them and goes on, and a word `Fy0A` behind takes the same key. -/
theorem key_wait :
    (∀ ops k, (Keypad.released.performAll ops).isHeld k = true ↔
      ∃ before o after, ops = before ++ o :: after ∧ o.about k = some true ∧
        ∀ o' ∈ after, o'.about k = none) ∧
    (∀ (p : Keypad) (o : Keypad.Op), ¬p.Succeeds o →
      (∀ k, o.about k = none) ∧ p.perform o = p) ∧
    (∀ (p : Keypad) (o o' : Keypad.Op), (∀ k, o.about k = none ∨ o'.about k = none) →
      (p.perform o).perform o' = (p.perform o').perform o) ∧
    (∀ p : Keypad, (p.pressedKey = none ↔ ∀ k, p.isHeld k = false) ∧
      ∀ k, p.pressedKey = some k ↔ p.isHeld k = true ∧ ∀ j, p.isHeld j = true → k ≤ j) ∧
    ∀ (s : Session) (w : Word), s.Stands w → ∀ acts, Unanswered s.keypad acts →
      s.Idles w acts ∧ ∀ k, (s.actAll acts).keypad.pressedKey = some k →
        (s.actAll acts).Takes w k ∧
          ∀ w', (s.actAll acts).step.1.console.machine.fetch = .ok w' → w'.Waits →
            (s.actAll acts).step.1.Takes w' k := by
  refine ⟨Keypad.held_iff, ?_, fun _ _ _ => Keypad.perform_comm, ?_, ?_⟩
  · intro p o hfails
    have hnone := Keypad.about_of_not_succeeds hfails
    exact ⟨hnone, Keypad.perform_of_about_eq_none hnone⟩
  · exact fun p => ⟨Keypad.pressedKey_eq_none_iff, fun k => Keypad.pressedKey_eq_some_iff⟩
  · intro s w hstands acts hfree
    obtain ⟨hidles, hend⟩ := idles hstands hfree
    exact ⟨hidles, fun k hkey => ⟨takes_of_held hend hkey, fun w' => takes_again hend hkey⟩⟩

/-- A session that waits for a key and then for another one. -/
def asking : Session := fresh.perform (.load [0xF0, 0x0A, 0xF1, 0x0A])

/-- A code that names no key, a key that is gone when the session is stepped again, and two keys
that are held. -/
def fumbling : List Act :=
  [.keys (.press 20), .step, .keys (.pressHost " Q"), .keys (.release 4), .step, .keys (.press 9),
    .keys (.pressHost "w"), .keys (.releaseHost "no such key")]

/-- The session idles twice and takes the lower key for both of its words. -/
theorem asking_key_wait :
    asking.Stands 0xF00A ∧ asking.Idles 0xF00A fumbling ∧
      (asking.actAll fumbling).Takes 0xF00A 5 ∧ (asking.actAll fumbling).step.1.Takes 0xF10A 5 := by
  have hstands : asking.Stands 0xF00A :=
    ⟨rfl, by decide +kernel, Machine.fetch_eq_ok_iff.mpr (by decide +kernel), by decide +kernel⟩
  have hfree : Unanswered asking.keypad fumbling := by decide +kernel
  obtain ⟨-, -, -, -, hsessions⟩ := key_wait
  obtain ⟨hidles, htakes⟩ := hsessions asking 0xF00A hstands fumbling hfree
  obtain ⟨htake, hagain⟩ := htakes 5 (by decide +kernel)
  have hfetch : (asking.actAll fumbling).step.1.console.machine.fetch = .ok 0xF10A :=
    Machine.fetch_eq_ok_iff.mpr (by decide +kernel)
  exact ⟨hstands, hidles, htake, hagain 0xF10A hfetch (by decide +kernel)⟩

end Session

end ChipEight

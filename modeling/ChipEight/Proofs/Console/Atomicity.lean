import ChipEight.Proofs.Console.Step
import ChipEight.Proofs.Session.Reachable

/-!
# Faults are atomic

A step that ends in a fault has done nothing. The fault tells where the step stood, which
word it had fetched and what the machine looked like before the step; and since the machine
is still the same, the step fails in the same way whenever it is tried again. A run that
ends in a fault therefore stops in the state behind the steps that succeeded.

## Main results

* `Console.step_fault_atomic` — all of this, for every console and every keyboard.
-/

namespace ChipEight

namespace Machine

variable {m : Machine} {keys : Keyboard}

/-- A fault reports the word that was fetched, where it was, and the machine in which the
step stopped. -/
theorem failure_eq_fault {w : Option Word} {h : Halt} {f : Fault} (hblocked : m.Blocked keys w h)
    (hfault : m.failure m.pc w h = .fault f) :
    f.pc = some m.pc ∧ f.opcode = m.fetch.toOption.map (fun w => (w.toNat : Int)) ∧
      f.snapshot = some m.snapshot := by
  cases h with
  | notAByte => cases hfault
  | fault cause =>
      cases hfault
      refine ⟨rfl, ?_, rfl⟩
      show w.map (fun w => (w.toNat : Int)) = _
      rw [hblocked.word]

end Machine

namespace Console

/-- The consoles hold the same machine and show the same picture, drawn as often. -/
structure SameState (c d : Console) : Prop where
  machine : c.machine = d.machine
  screen : c.screen = d.screen
  draws : c.draws = d.draws

theorem sameState_of_bare {c d : Console} (h : c.bare = d.bare) : SameState c d :=
  ⟨machine_of_bare h, screen_of_bare h, draws_of_bare h⟩

/-! ## Trying again -/

/-- The console after `n` attempts at a step, whatever came of them. -/
def attempts (c : Console) (keys : Keyboard) : Nat → Console
  | 0 => c
  | n + 1 => ((c.attempts keys n).step keys).1

variable {c c' : Console} {keys : Keyboard} {e : Failure}

/-- A step that fails also fails on every console that differs in its observers only. -/
theorem step_error_again {d : Console} (hstep : c.step keys = (c', .error e))
    (hbare : d.bare = c.bare) : ∃ d', d.step keys = (d', .error e) ∧ d'.bare = c.bare := by
  obtain ⟨w, h, hblocked, rfl, -⟩ := step_error_inv hstep
  have hmachine := machine_of_bare hbare
  rw [← hmachine] at hblocked
  obtain ⟨d', hd, hd'⟩ := step_of_blocked hblocked
  rw [hmachine] at hd
  exact ⟨d', hd, hd'.trans hbare⟩

theorem bare_attempts {d : Console} (hstep : c.step keys = (c', .error e))
    (hbare : d.bare = c.bare) : ∀ n, (d.attempts keys n).bare = c.bare := by
  intro n
  induction n with
  | zero => exact hbare
  | succ n ih =>
      obtain ⟨d', hd, hd'⟩ := step_error_again hstep ih
      show ((d.attempts keys n).step keys).1.bare = c.bare
      rw [hd]
      exact hd'

/-! ## Runs that fail -/

/-- A sequence of steps that fails consists of steps that succeed and one that fails. -/
theorem steps_error_inv : ∀ (n : Nat) (c : Console), c.steps keys n = (c', .error e) →
    ∃ k before, k < n ∧ c.steps keys k = (before, .ok ()) ∧
      before.step keys = (c', .error e) := by
  intro n
  induction n with
  | zero =>
      intro c h
      cases h
  | succ n ih =>
      intro c h
      rcases hstep : c.step keys with ⟨d, e' | r⟩
      · simp only [steps, hstep] at h
        cases h
        exact ⟨0, c, Nat.succ_pos n, rfl, hstep⟩
      · simp only [steps, hstep] at h
        obtain ⟨k, before, hk, hsteps, hlast⟩ := ih d h
        refine ⟨k + 1, before, Nat.succ_lt_succ hk, ?_, hlast⟩
        simp only [steps, hstep, hsteps]

theorem run_error_inv {n : Int} (hrun : c.run keys n = (c', .error e)) :
    ∃ (k : Nat) (before : Console), (k : Int) < n ∧ c.steps keys k = (before, .ok ()) ∧
      before.step keys = (c', .error e) := by
  rcases hsteps : c.steps keys n.toNat with ⟨d, e' | _⟩
  · simp only [run, hsteps] at hrun
    cases hrun
    obtain ⟨k, before, hk, hprefix, hlast⟩ := steps_error_inv n.toNat c hsteps
    exact ⟨k, before, by omega, hprefix, hlast⟩
  · simp only [run, hsteps] at hrun
    cases hrun

/-! ## Atomicity -/

/-- A step that ends in a fault leaves the machine, the display and the count of draws as
they were. The fault carries the program counter, the fetched word and a snapshot of the
machine, all from before the step, and any number of further attempts end in the same fault
and change as little. A run that ends in a fault leaves the state behind the steps that
succeeded. -/
theorem step_fault_atomic (c : Console) (keys : Keyboard) :
    (∀ c' f, c.step keys = (c', .error (.fault f)) →
      SameState c' c ∧
      f.pc = some c.machine.pc ∧
      f.opcode = c.machine.fetch.toOption.map (fun w => (w.toNat : Int)) ∧
      f.snapshot = some c.machine.snapshot ∧
      ∀ n, SameState (c'.attempts keys n) c ∧
        ((c'.attempts keys n).step keys).2 = .error (.fault f)) ∧
    (∀ n c' f, c.run keys n = (c', .error (.fault f)) →
      ∃ (k : Nat) (before : Console), (k : Int) < n ∧ c.steps keys k = (before, .ok ()) ∧
        (before.step keys).2 = .error (.fault f) ∧ SameState c' before) := by
  constructor
  · intro c' f hstep
    obtain ⟨w, h, hblocked, hfailure, hbare⟩ := step_error_inv hstep
    obtain ⟨hpc, hopcode, hsnapshot⟩ := Machine.failure_eq_fault hblocked hfailure.symm
    refine ⟨sameState_of_bare hbare, hpc, hopcode, hsnapshot, ?_⟩
    intro n
    have hattempts := bare_attempts hstep hbare n
    obtain ⟨d', hd, -⟩ := step_error_again hstep hattempts
    refine ⟨sameState_of_bare hattempts, ?_⟩
    rw [hd]
  · intro n c' f hrun
    obtain ⟨k, before, hk, hsteps, hlast⟩ := run_error_inv hrun
    obtain ⟨-, -, -, -, hbare⟩ := step_error_inv hlast
    refine ⟨k, before, hk, hsteps, ?_, sameState_of_bare hbare⟩
    rw [hlast]

/-- A program that stores three registers where only two bytes of memory are left. -/
def spill : List UInt8 := [0x60, 0x03, 0xAF, 0xFE, 0xF2, 0x55]

/-- A console that has loaded it. -/
def spilling : Console := (Session.fresh.console.load spill).1

/-- The console behind the first two of the three instructions. -/
def brimful : Console := ((spilling.step noKeys).1.step noKeys).1

/-- What the first two instructions answer, and what the third one finds. -/
theorem spilling_facts :
    (spilling.step noKeys).2.toOption = some ⟨0x200, 0x6003, 0x202, false, none⟩ ∧
    ((spilling.step noKeys).1.step noKeys).2.toOption =
      some ⟨0x202, 0xAFFE, 0x204, false, none⟩ ∧
    (Memory.InRange brimful.machine.pc 2 ∧
      brimful.machine.memory.word brimful.machine.pc.toNat = 0xF255) ∧
    brimful.machine.refusal? noKeys (.storeRegs 2) = some (.fault (.outOfBounds 3 0xFFE)) ∧
    brimful.machine.pc = 0x204 ∧ brimful.machine.reg 0 = 3 ∧
    brimful.machine.memory.byte 0xFFE = 0 := by
  decide +kernel

/-- The third instruction could have stored two of its three bytes, and has stored none. A run
stops behind the instructions that succeeded, and a thousand attempts later the third one is
still refused, with the same report. -/
theorem spilling_fault_atomic :
    ∃ c' f, spilling.run noKeys 5 = (c', .error (.fault f)) ∧ f.kind = .outOfBounds ∧
      brimful.step noKeys = (c', .error (.fault f)) ∧ SameState c' brimful ∧
      c'.machine.reg 0 = 3 ∧ c'.machine.memory.byte 0xFFE = 0 ∧
      f.pc = some 0x204 ∧ f.opcode = some 0xF255 ∧
      f.snapshot = some brimful.machine.snapshot ∧
      ((c'.attempts noKeys 1000).step noKeys).2 = .error (.fault f) ∧
      ∃ (k : Nat) (before : Console), (k : Int) < 5 ∧
        spilling.steps noKeys k = (before, .ok ()) ∧ SameState c' before := by
  obtain ⟨hfirst, hsecond, hword, hrefused, hpc, hreg, hbyte⟩ := spilling_facts
  have hfetch := Machine.fetch_eq_ok_iff.mpr hword
  have hblocked : brimful.machine.Blocked noKeys (some 0xF255)
      (.fault (.outOfBounds 3 0xFFE)) := .check hfetch rfl hrefused
  obtain ⟨c', hstep, -⟩ := step_of_blocked hblocked
  have hthird : ((spilling.step noKeys).1.step noKeys).1.step noKeys = _ := hstep
  have hrun : spilling.run noKeys 5 = (c', .error (brimful.machine.failure brimful.machine.pc
      (some 0xF255) (.fault (.outOfBounds 3 0xFFE)))) := by
    simp only [run, steps, Int.reduceToNat]
    rw [step_eq_of_toOption hfirst]
    dsimp only
    rw [step_eq_of_toOption hsecond]
    dsimp only
    rw [hthird]
  obtain ⟨hsame, hat, hopcode, hsnapshot, hagain⟩ :=
    (step_fault_atomic brimful noKeys).1 c' _ hstep
  obtain ⟨k, before, hk, hsteps, -, hbefore⟩ := (step_fault_atomic spilling noKeys).2 5 c' _ hrun
  rw [hfetch] at hopcode
  refine ⟨c', _, hrun, rfl, hstep, hsame, ?_, ?_, ?_, hopcode, hsnapshot, (hagain 1000).2, k,
    before, hk, hsteps, hbefore⟩
  · rw [hsame.machine, hreg]
  · rw [hsame.machine, hbyte]
  · rw [hat, hpc]

end Console

end ChipEight

import ChipEight.Proofs.Console.CallStack
import ChipEight.Proofs.Machine.Frame
import ChipEight.Proofs.Session.Invariant

/-!
# What a step of a session leaves alone

The step of a reachable session changes what the word of it may change, and nothing else. The log
of stores is the one component with a bound on its size, which every machine has had since
power-on; so what a store adds to it is what is kept of all entries together.

## Main results

* `Session.reachable_step_framed` — the frame of a step.
-/

namespace ChipEight

/-! ## The bound of the log -/

theorem Machine.invariant_logLimit :
    Invariant fun m => m.memory.log.capacity = some Memory.defaultLogLimit where
  powerOn := fun _ => rfl
  load := by
    intro m m' program hlimit hload
    unfold Machine.load Memory.load at hload
    split at hload
    · cases hload
      exact hlimit
    · cases hload
  step := by
    intro m divider keys s hlimit hstep
    obtain ⟨i, hexec⟩ := step_eq_ok_iff.mp hstep
    rw [hexec.log_framed, Recent.capacity_foldl_push]
    exact hlimit
  reseed := fun _ hlimit => hlimit

namespace Session

/-- Whatever step of a reachable session succeeds, it changes only what its word `w` may change.
The log keeps the latest 256 stores, and it gains three entries by `Fx33`, one more than `x` by
`Fx55`, and none by any other word. -/
theorem reachable_step_framed {s : Session} (h : Reachable s) {keys : Keyboard} {c : Console}
    {r : StepReport} (hstep : s.console.step keys = (c, .ok r)) :
    let m := s.console.machine
    m.Framed s.console.config.timerDivider r.word c.machine ∧
    c.machine.memory.log.toList =
      Recent.rear (some 256) (m.memory.log.toList ++ m.stores r.word) ∧
    (m.stores r.word).length =
      if r.word.family.val = 0xF ∧ r.word.byte = 0x33 then 3
      else if r.word.family.val = 0xF ∧ r.word.byte = 0x55 then r.word.x.val + 1
      else 0 := by
  intro m
  have hlimit : m.memory.log.capacity = some 256 :=
    h.machine_of_invariant Machine.invariant_logLimit
  obtain ⟨u, i, hexec, -, -, hmachine, -, hword, -⟩ := Console.step_ok_inv hstep
  have hframed : m.Framed s.console.config.timerDivider r.word c.machine := by
    rw [hmachine, hword]
    exact hexec.framed
  refine ⟨hframed, ?_, ?_⟩
  · rw [hframed.log, Recent.toList_foldl_push, hlimit]
  · rw [m.length_stores, m.length_bytesStored]

/-- A program that loads the index and a register and then stores the digits of the latter. -/
def digits : List UInt8 := [0xA3, 0x00, 0x60, 0x7B, 0xF0, 0x33]

/-- The session that is about to store them. -/
def counting : Session := (fresh.perform (.load digits)).perform (.run 2)

/-- Storing the digits leaves the byte behind them, the index and the register alone. -/
theorem counting_step_framed :
    ∃ c r, counting.console.step Console.noKeys = (c, .ok r) ∧
      c.machine.memory.byte 0x303 = counting.console.machine.memory.byte 0x303 ∧
      c.machine.index = counting.console.machine.index ∧
      c.machine.reg 0 = counting.console.machine.reg 0 ∧
      c.machine.memory.log.toList = counting.console.machine.stores 0xF033 := by
  have hbegin : (counting.console.step Console.noKeys).2.toOption =
        some ⟨0x204, 0xF033, 0x206, false, none⟩ ∧
      ¬counting.console.machine.StoresAt 0xF033 0x303 ∧
      counting.console.machine.memory.log.toList = [] := by
    decide +kernel
  obtain ⟨hstep, houtside, hempty⟩ := hbegin
  have hreachable : Reachable counting := (reachable_fresh.perform _).perform _
  obtain ⟨hframed, hlog, hlength⟩ :=
    reachable_step_framed hreachable (Console.step_eq_of_toOption hstep)
  refine ⟨_, _, Console.step_eq_of_toOption hstep, hframed.bytes _ houtside, ?_, ?_, ?_⟩
  · exact hframed.index (by decide)
  · exact hframed.registers _ (by decide)
  · rw [hlog, hempty, List.nil_append, Recent.rear, hlength]
    rfl

end Session

end ChipEight

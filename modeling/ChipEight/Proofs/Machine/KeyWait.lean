import ChipEight.Proofs.Machine.Timers

/-!
# Waiting for a key

A machine that stands at `Fx0A` while no key is reported executes the instruction again and again.
All that changes is the count of instructions and, by that, the timers: `Machine.waited` is the
machine after any number of such steps. The step that finds a key puts it into the register and goes
on behind the instruction; count and timers run on as before.

## Main results

* `Machine.executes_unanswered`, `Machine.executes_answered` — the two things that `Fx0A` can do.
* `Machine.waited_waited` — steps without a key add up.
-/

namespace ChipEight

/-- The word is `Fx0A`. -/
def Word.Waits (w : Word) : Prop := w.family.val = 0xF ∧ w.byte = 0x0A

instance : DecidablePred Word.Waits := fun w =>
  inferInstanceAs (Decidable (w.family.val = 0xF ∧ w.byte = 0x0A))

namespace Machine

/-! ## Timers that run -/

/-- A timer that has lost one for a number of times; it stops at zero. -/
def lessBy (timer n : Int) : Int := if n = 0 then timer else max 0 (timer - n)

theorem lessBy_lessBy {timer n n' : Int} (hn : 0 ≤ n) (hn' : 0 ≤ n') :
    lessBy (lessBy timer n) n' = lessBy timer (n + n') := by
  unfold lessBy
  omega

/-- How often the timers run in `n` instructions from a count on, with the divider `d`: as often as
there are multiples of `d` among the counts. -/
def ticks (count d : Int) (n : Nat) : Int := divUp (count + n) d - divUp count d

/-- The machine after `n` instructions that leave everything to the timers and the count. -/
def waited (m : Machine) (d : Int) (n : Nat) : Machine :=
  { m with
    cycle := m.cycle + n
    delayTimer := lessBy m.delayTimer (ticks m.cycle d n)
    soundTimer := lessBy m.soundTimer (ticks m.cycle d n) }

/-- The machine with a key put into a register, behind the instruction. -/
def answered (m : Machine) (x : Reg) (k : Key) : Machine :=
  { m.setReg x (UInt8.ofNat k.val) with pc := m.pc + wordSize }

variable {m : Machine} {d : Int} {w : Word} {keys : Keyboard}

@[simp] theorem pc_waited (m : Machine) (d : Int) (n : Nat) : (m.waited d n).pc = m.pc := rfl

@[simp] theorem fetch_waited (m : Machine) (d : Int) (n : Nat) :
    (m.waited d n).fetch = m.fetch := rfl

@[simp] theorem pc_answered (m : Machine) (x : Reg) (k : Key) :
    (m.answered x k).pc = m.pc + wordSize := rfl

theorem ticks_zero (count d : Int) : ticks count d 0 = 0 := by
  show divUp (count + 0) d - divUp count d = 0
  rw [Int.add_zero, Int.sub_self]

theorem ticks_one (hd : 0 < d) (count : Int) :
    ticks count d 1 = if count % d = 0 then 1 else 0 := by
  show divUp (count + 1) d - divUp count d = _
  rw [divUp_succ hd]
  omega

theorem ticks_nonneg (hd : 0 < d) (count : Int) (n : Nat) : 0 ≤ ticks count d n :=
  Int.sub_nonneg_of_le (divUp_mono hd (by omega))

theorem ticks_add (count d : Int) (n n' : Nat) :
    ticks count d n + ticks (count + n) d n' = ticks count d (n + n') := by
  have hcount : count + n + n' = count + ((n + n' : Nat) : Int) := by omega
  unfold ticks
  rw [hcount]
  omega

theorem waited_zero (m : Machine) (d : Int) : m.waited d 0 = m := by
  have hcycle : m.cycle + ((0 : Nat) : Int) = m.cycle := Int.add_zero _
  unfold waited lessBy
  rw [ticks_zero, hcycle, if_pos rfl, if_pos rfl]

/-- Instructions that leave everything to the timers and the count add up. -/
theorem waited_waited (hd : 0 < d) (m : Machine) (n n' : Nat) :
    (m.waited d n).waited d n' = m.waited d (n + n') := by
  have hcycle : m.cycle + n + n' = m.cycle + ((n + n' : Nat) : Int) := by omega
  have hruns : ∀ timer, lessBy (lessBy timer (ticks m.cycle d n)) (ticks (m.cycle + n) d n') =
      lessBy timer (ticks m.cycle d (n + n')) := by
    intro timer
    rw [lessBy_lessBy (ticks_nonneg hd _ _) (ticks_nonneg hd _ _), ticks_add]
  unfold waited
  simp only [hruns, hcycle]

/-- What follows an instruction is that count and timers run on, and the program counter if the
instruction has not set it. -/
theorem finish_eq_waited (hd : 0 < d) (m : Machine) (setsPc : Bool) :
    m.finish setsPc d =
      { m.waited d 1 with pc := if setsPc then m.pc else m.pc + wordSize } := by
  unfold finish decay waited
  rw [ticks_one hd]
  split <;> rfl

/-! ## The instruction -/

theorem ofWord?_of_waits (hw : w.Waits) : Instruction.ofWord? w = some (.waitKey w.x) := by
  rw [Instruction.ofWord?_of_family_misc hw.1, hw.2]
  rfl

/-- As long as no key is reported, `Fx0A` leaves everything to the timers and the count. -/
theorem executes_unanswered (hd : 0 < d) (hfetch : m.fetch = .ok w) (hw : w.Waits)
    (hkeys : keys.pressedKey = none) :
    Executes m d keys ⟨m.pc, w, m.waited d 1, none⟩ (.waitKey w.x) := by
  have heffect : m.effect keys (.waitKey w.x) = { machine := m, setsPc := true } := by
    unfold effect
    rw [hkeys]
  have hallowed : m.refusal? keys (.waitKey w.x) = none := by
    unfold refusal?
    rw [hkeys]
  refine ⟨hfetch, ofWord?_of_waits hw, hallowed, rfl, ?_, ?_⟩
  · rw [heffect, finish_eq_waited hd]
    rfl
  · rw [heffect]

/-- A key that is reported is put into the register, and the machine goes on. -/
theorem executes_answered (hd : 0 < d) (hfetch : m.fetch = .ok w) (hw : w.Waits) {k : Key}
    (hkeys : keys.pressedKey = some (k.val : Int)) :
    Executes m d keys ⟨m.pc, w, (m.waited d 1).answered w.x k, none⟩ (.waitKey w.x) := by
  have hbyte : UInt8.ofInt (k.val : Int) = UInt8.ofNat k.val := by
    have hall : ∀ j : Key, UInt8.ofInt (j.val : Int) = UInt8.ofNat j.val := by decide
    exact hall k
  have hk : (0 : Int) ≤ k.val ∧ (k.val : Int) < keyCount := by
    have hlt := k.isLt
    omega
  have heffect : m.effect keys (.waitKey w.x) =
      { machine := m.setReg w.x (UInt8.ofInt (k.val : Int)) } := by
    unfold effect
    rw [hkeys]
  have hallowed : m.refusal? keys (.waitKey w.x) = none := by
    unfold refusal?
    rw [hkeys]
    exact if_pos hk
  refine ⟨hfetch, ofWord?_of_waits hw, hallowed, rfl, ?_, ?_⟩
  · rw [heffect, finish_eq_waited hd, hbyte]
    rfl
  · rw [heffect]

end Machine

end ChipEight

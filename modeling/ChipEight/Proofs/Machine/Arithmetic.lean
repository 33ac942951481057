import ChipEight.Proofs.Machine.Frame

/-!
# Arithmetic in registers

What `8xyn` and `7xkk` compute, in numbers and not in bytes. The sum of two registers is the
result and 256 times the carry; a difference is the result, short of 256 if there was a borrow; a
shift moves one bit of a register between result and flag. `Arith.Exact` states this for each of
the nine operations, and it leaves no choice of a result or of a flag.

Registers may coincide. Both operands are read before anything is written, and the flag is written
before the result: so the flag is lost if the result goes to the flag register, and only then.

## Main results

* `Arith.exact_eval`, `Arith.Exact.unique` — what is computed is what `Arith.Exact` admits, and
  nothing else.
* `Machine.arithmetic_exact` — the registers behind `8xyn` and `7xkk`.
-/

namespace ChipEight

namespace Arith

/-- The result `v` and the flag `flag` of an operation on the values `a` and `b`, where the flag
was `old`. Operations on single bits leave the flag as it was. -/
def Exact (op : Arith) (a b old v flag : UInt8) : Prop :=
  match op with
  | .copy => v = b ∧ flag = old
  | .or => v.toNat = a.toNat ||| b.toNat ∧ flag = old
  | .and => v.toNat = a.toNat &&& b.toNat ∧ flag = old
  | .xor => v.toNat = a.toNat ^^^ b.toNat ∧ flag = old
  | .add => flag.toNat ≤ 1 ∧ 256 * flag.toNat + v.toNat = a.toNat + b.toNat
  | .sub => flag.toNat ≤ 1 ∧ (v.toNat : Int) = a.toNat - b.toNat + 256 * (1 - flag.toNat)
  | .shr => flag.toNat ≤ 1 ∧ 2 * v.toNat + flag.toNat = b.toNat
  | .subn => flag.toNat ≤ 1 ∧ (v.toNat : Int) = b.toNat - a.toNat + 256 * (1 - flag.toNat)
  | .shl => flag.toNat ≤ 1 ∧ 256 * flag.toNat + v.toNat = 2 * b.toNat

instance (op : Arith) (a b old v flag : UInt8) : Decidable (op.Exact a b old v flag) := by
  cases op <;> exact inferInstanceAs (Decidable (_ ∧ _))

variable {op : Arith} {a b old v v' flag flag' : UInt8}

/-! ## Bytes -/

/-- A sum has passed its first summand iff it does not fit a byte. -/
theorem add_exact (a b : UInt8) :
    256 * (if a + b < a then 1 else 0 : UInt8).toNat + (a + b).toNat = a.toNat + b.toNat := by
  have ha := a.toNat_lt
  have hb := b.toNat_lt
  have hsum := UInt8.toNat_add a b
  by_cases h : a + b < a
  · rw [if_pos h]
    rw [UInt8.lt_iff_toNat_lt] at h
    show 256 * 1 + (a + b).toNat = a.toNat + b.toNat
    omega
  · rw [if_neg h]
    rw [UInt8.lt_iff_toNat_lt] at h
    show 256 * 0 + (a + b).toNat = a.toNat + b.toNat
    omega

/-- A difference has passed the first number iff that was the smaller one. -/
theorem sub_exact (a b : UInt8) :
    ((a - b).toNat : Int) =
      a.toNat - b.toNat + 256 * (1 - (if a < a - b then 0 else 1 : UInt8).toNat) := by
  have ha := a.toNat_lt
  have hb := b.toNat_lt
  have hdifference := UInt8.toNat_sub a b
  by_cases h : a < a - b
  · rw [if_pos h]
    rw [UInt8.lt_iff_toNat_lt] at h
    show ((a - b).toNat : Int) = a.toNat - b.toNat + 256 * (1 - 0)
    omega
  · rw [if_neg h]
    rw [UInt8.lt_iff_toNat_lt] at h
    show ((a - b).toNat : Int) = a.toNat - b.toNat + 256 * (1 - 1)
    omega

theorem toNat_half (b : UInt8) : (b >>> 1).toNat = b.toNat / 2 := by
  rw [UInt8.toNat_shiftRight]
  exact Nat.shiftRight_eq_div_pow b.toNat 1

theorem toNat_lowBit (b : UInt8) : (b &&& 1).toNat = b.toNat % 2 := by
  rw [UInt8.toNat_and]
  exact Nat.and_one_is_mod b.toNat

theorem toNat_double (b : UInt8) : (b <<< 1).toNat = b.toNat * 2 % 256 := by
  rw [UInt8.toNat_shiftLeft]
  exact congrArg (· % 256) (Nat.shiftLeft_eq b.toNat 1)

theorem toNat_highBit (b : UInt8) : (b >>> 7).toNat = b.toNat / 128 := by
  rw [UInt8.toNat_shiftRight]
  exact Nat.shiftRight_eq_div_pow b.toNat 7

/-! ## Operations -/

/-- What is computed is exact. -/
theorem exact_eval (op : Arith) (a b old : UInt8) :
    op.Exact a b old (op.eval a b).1 ((op.eval a b).2.getD old) := by
  have hb := b.toNat_lt
  have hbit : ∀ (p : Prop) [Decidable p] (u u' : UInt8), u.toNat ≤ 1 → u'.toNat ≤ 1 →
      (if p then u else u').toNat ≤ 1 := by
    intro p _ u u' hu hu'
    split
    · exact hu
    · exact hu'
  cases op with
  | copy => exact ⟨rfl, rfl⟩
  | or => exact ⟨UInt8.toNat_or a b, rfl⟩
  | and => exact ⟨UInt8.toNat_and a b, rfl⟩
  | xor => exact ⟨UInt8.toNat_xor a b, rfl⟩
  | add => exact ⟨hbit _ 1 0 (by decide) (by decide), add_exact a b⟩
  | sub => exact ⟨hbit _ 0 1 (by decide) (by decide), sub_exact a b⟩
  | subn => exact ⟨hbit _ 0 1 (by decide) (by decide), sub_exact b a⟩
  | shr =>
      show (b &&& 1).toNat ≤ 1 ∧ 2 * (b >>> 1).toNat + (b &&& 1).toNat = b.toNat
      rw [toNat_half, toNat_lowBit]
      omega
  | shl =>
      show (b >>> 7).toNat ≤ 1 ∧ 256 * (b >>> 7).toNat + (b <<< 1).toNat = 2 * b.toNat
      rw [toNat_double, toNat_highBit]
      omega

/-- No other result and no other flag is exact. -/
theorem Exact.unique (h : op.Exact a b old v flag) (h' : op.Exact a b old v' flag') :
    v' = v ∧ flag' = flag := by
  have hv := v.toNat_lt
  have hv' := v'.toNat_lt
  cases op with
  | copy => exact ⟨h'.1.trans h.1.symm, h'.2.trans h.2.symm⟩
  | or | and | xor => exact ⟨UInt8.toNat_inj.mp (h'.1.trans h.1.symm), h'.2.trans h.2.symm⟩
  | add | sub | shr | subn | shl =>
      obtain ⟨hbit, heq⟩ := h
      obtain ⟨hbit', heq'⟩ := h'
      rw [← UInt8.toNat_inj, ← UInt8.toNat_inj]
      omega

theorem exact_iff : op.Exact a b old v flag ↔
    v = (op.eval a b).1 ∧ flag = (op.eval a b).2.getD old := by
  constructor
  · exact (exact_eval op a b old).unique
  · rintro ⟨rfl, rfl⟩
    exact exact_eval op a b old

end Arith

namespace Machine

variable {m : Machine} {x : Reg}

/-! ## Registers -/

theorem reg_setReg_self (m : Machine) (x : Reg) (v : UInt8) : (m.setReg x v).reg x = v :=
  Vector.getElem_set_self _

theorem reg_combined_self (m : Machine) (op : Arith) (x y : Reg) :
    (m.combined op x y).reg x = (op.eval (m.reg x) (m.reg y)).1 := by
  unfold combined
  rcases op.eval (m.reg x) (m.reg y) with ⟨v, _ | flag⟩
  · exact m.reg_setReg_self x v
  · exact (m.setReg flagRegister flag).reg_setReg_self x v

/-- A flag stays unless the result is written over it. -/
theorem flag_combined (op : Arith) (y : Reg) (hx : x ≠ flagRegister) :
    (m.combined op x y).reg flagRegister =
      (op.eval (m.reg x) (m.reg y)).2.getD (m.reg flagRegister) := by
  unfold combined
  rcases op.eval (m.reg x) (m.reg y) with ⟨v, _ | flag⟩
  · exact reg_setReg_of_ne hx.symm v
  · exact (reg_setReg_of_ne hx.symm v).trans (m.reg_setReg_self flagRegister flag)

/-! ## Words -/

/-- Arithmetic is exact, whatever registers coincide. `8xyn` leaves the one exact result in `V[x]`,
which may be the flag register itself, and the one exact flag in the flag register if that is
another one. `7xkk` adds modulo 256 and sets no flag. No other register changes. -/
theorem arithmetic_exact (m : Machine) (x : Reg) :
    (∀ (op : Arith) (y : Reg), m.Yields (Word.ofRegs 0x8 x y op.code) fun m' =>
      ∃ v flag, (∀ v' flag', op.Exact (m.reg x) (m.reg y) (m.reg flagRegister) v' flag' ↔
          v' = v ∧ flag' = flag) ∧
        m'.reg x = v ∧ (x ≠ flagRegister → m'.reg flagRegister = flag) ∧
        ∀ r, r ≠ x → r ≠ flagRegister → m'.reg r = m.reg r) ∧
    ∀ b, m.Yields (Word.ofRegByte 0x7 x b) fun m' =>
      (m'.reg x).toNat = ((m.reg x).toNat + b.toNat) % 256 ∧
        ∀ r, r ≠ x → m'.reg r = m.reg r := by
  constructor
  · intro op y
    refine Yields.of_executes (i := .arith op x y) (fun _ => rfl) ?_
    intro divider keys s hexec
    have hreg : ∀ r, s.next.reg r = (m.combined op x y).reg r := by
      intro r
      rw [hexec.next, reg_finish]
      rfl
    refine ⟨_, _, fun v' flag' => Arith.exact_iff, ?_, ?_, ?_⟩
    · rw [hreg, reg_combined_self]
    · intro hx
      rw [hreg, flag_combined op y hx]
    · intro r hr hflag
      rw [hreg, reg_combined op y hr fun _ => hflag]
  · intro b
    refine Yields.of_executes (i := .addByte x b) (fun _ => rfl) ?_
    intro divider keys s hexec
    have hreg : ∀ r, s.next.reg r = (m.setReg x (m.reg x + b)).reg r := by
      intro r
      rw [hexec.next, reg_finish]
      rfl
    constructor
    · rw [hreg, reg_setReg_self, UInt8.toNat_add]
    · intro r hr
      rw [hreg, reg_setReg_of_ne hr]

/-- The machine that is about to execute a program, with 200 in every register and nothing else in
memory. -/
def poised (program : List UInt8) : Machine :=
  { powerOn ⟨Vector.replicate generatorSize 0, 0⟩ with
    memory := { Memory.powerOn none with
      bytes := Memory.setBytes (Vector.replicate memorySize 0) programStart program }
    registers := Vector.replicate registerCount 200 }

theorem fetch_poised (hi lo : UInt8) (rest : List UInt8) :
    (poised (hi :: lo :: rest)).fetch = .ok (Word.ofBytes hi lo) := by
  have hbytes : ∀ program, (poised program).memory.bytes =
      Memory.setBytes (Vector.replicate memorySize 0) programStart program := fun _ => rfl
  have hpc : (poised (hi :: lo :: rest)).pc = programStart := rfl
  have hbyte : ∀ k v, (hi :: lo :: rest)[k]? = some v → programStart + k < memorySize →
      (poised (hi :: lo :: rest)).memory.byte (programStart + k) = v := by
    intro k v hv hk
    have hlength := (List.getElem?_eq_some_iff.mp hv).1
    rw [Memory.byte, hbytes, Memory.getElem?_setBytes,
      if_pos ⟨Nat.le_add_right _ k, hk, by omega⟩, Nat.add_sub_cancel_left, hv]
    rfl
  have hhigh := hbyte 0 hi rfl (by decide)
  have hlow := hbyte 1 lo rfl (by decide)
  rw [Nat.add_zero] at hhigh
  rw [fetch_eq_ok_iff, hpc, Int.toNat_natCast, Memory.word, hhigh, hlow]
  exact ⟨by decide, rfl⟩

/-- `8FF4` doubles the flag register, which keeps the sum and not the carry. `7F90` adds to it
without a carry. -/
theorem poised_arithmetic :
    (∃ s, (poised [0x8F, 0xF4]).step 8 Keypad.released.keyboard = .ok s ∧
      s.next.reg flagRegister = 144) ∧
    ∃ s, (poised [0x7F, 0x90]).step 8 Keypad.released.keyboard = .ok s ∧
      (s.next.reg flagRegister).toNat = 88 := by
  constructor
  · obtain ⟨s, hstep, v, flag, hexact, hv, -⟩ :=
      (arithmetic_exact (poised [0x8F, 0xF4]) flagRegister).1 .add flagRegister
        (fetch_poised 0x8F 0xF4 []) 8 Keypad.released.keyboard
    have hsum : Arith.add.Exact 200 200 200 144 1 := by decide
    exact ⟨s, hstep, hv.trans ((hexact 144 1).mp hsum).1.symm⟩
  · obtain ⟨s, hstep, hsum, -⟩ :=
      (arithmetic_exact (poised [0x7F, 0x90]) flagRegister).2 0x90
        (fetch_poised 0x7F 0x90 []) 8 Keypad.released.keyboard
    exact ⟨s, hstep, hsum⟩

end Machine

end ChipEight

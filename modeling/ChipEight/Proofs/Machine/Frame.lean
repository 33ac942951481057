import ChipEight.Proofs.Machine.CallStack
import ChipEight.Proofs.Machine.Timers
import ChipEight.Proofs.Machine.Word

/-!
# What a step leaves alone

Most of a machine is the same before and after a step. For every component, a few words may
change it, and they are listed here: `Word.Loads` for registers, `Word.MovesIndex` for the
index, `Machine.StoresAt` for the bytes of memory, `Machine.DrawsOn` for the rows of the display.
`Machine.Framed` puts the lists together. It is shown component by component, in each case
over all instructions.

## Main results

* `Machine.Executes.framed` — whatever is executed, only what the lists admit has changed.
-/

namespace ChipEight

/-! ## Which words change what -/

/-- The register `r` may be changed: `V[x]` by `6xkk`, `7xkk`, `8xyn`, `Cxkk`, `Fx07` and `Fx0A`,
the flag by `8xyn` from the addition on and by `Dxyn`, and those up to `V[x]` by `Fx65`. -/
def Word.Loads (w : Word) (r : Reg) : Prop :=
  match w.family.val with
  | 0x6 | 0x7 | 0xC => r = w.x
  | 0x8 => r = w.x ∨ 4 ≤ w.n.val ∧ r = flagRegister
  | 0xD => r = flagRegister
  | 0xF => (w.byte = 0x07 ∨ w.byte = 0x0A) ∧ r = w.x ∨ w.byte = 0x65 ∧ r.val ≤ w.x.val
  | _ => False

instance (w : Word) (r : Reg) : Decidable (w.Loads r) := by
  unfold Word.Loads
  split <;> infer_instance

/-- The index may be changed: by `Annn`, `Fx1E`, `Fx29`, `Fx55` and `Fx65`. -/
def Word.MovesIndex (w : Word) : Prop :=
  w.family.val = 0xA ∨
    w.family.val = 0xF ∧ (w.byte = 0x1E ∨ w.byte = 0x29 ∨ w.byte = 0x55 ∨ w.byte = 0x65)

instance : DecidablePred Word.MovesIndex := fun w =>
  inferInstanceAs (Decidable (w.family.val = 0xA ∨ _ ∧ (_ ∨ _ ∨ _ ∨ _)))

/-- By how much a word moves the stack pointer: up for `2nnn`, down for `00EE`. -/
def Word.stackMove (w : Word) : Int :=
  if w.family.val = 0x2 then stackFrameSize else if w = 0x00EE then -stackFrameSize else 0

namespace Machine

/-- The byte at `a` may be changed: the next frame of the stack by `2nnn`, three bytes at the
index by `Fx33`, and one more than `x` there by `Fx55`. -/
def StoresAt (m : Machine) (w : Word) (a : Nat) : Prop :=
  w.family.val = 0x2 ∧ (a = m.memory.sp ∨ a = m.memory.sp + 1) ∨
    w.family.val = 0xF ∧ w.byte = 0x33 ∧ m.index ≤ a ∧ a ≤ m.index + 2 ∨
    w.family.val = 0xF ∧ w.byte = 0x55 ∧ m.index ≤ a ∧ a ≤ m.index + w.x.val

instance (m : Machine) (w : Word) (a : Nat) : Decidable (m.StoresAt w a) :=
  inferInstanceAs (Decidable (_ ∧ (_ ∨ _) ∨ _ ∧ _ ∧ _ ∧ _ ∨ _ ∧ _ ∧ _ ∧ _))

/-- The row may be changed: any by `00E0`, and those of the sprite by `Dxyn`. -/
def DrawsOn (m : Machine) (w : Word) (row : Fin displayHeight) : Prop :=
  w = 0x00E0 ∨ w.family.val = 0xD ∧ (m.reg w.y).toNat ≤ row.val ∧
    row.val < min displayHeight ((m.reg w.y).toNat + w.n.val)

/-- The bytes that a word stores at the index. -/
def bytesStored (m : Machine) (w : Word) : List UInt8 :=
  if w.family.val = 0xF ∧ w.byte = 0x33 then decimalDigits (m.reg w.x)
  else if w.family.val = 0xF ∧ w.byte = 0x55 then (Reg.upTo w.x).map m.reg
  else []

/-- The entries in the log for them. -/
def stores (m : Machine) (w : Word) : List ByteWrite :=
  m.memory.writesOf m.index.toNat (some m.pc) (m.bytesStored w)

/-- From `m` to `m'`, the word `w` has changed nothing but what it may change. -/
structure Framed (m : Machine) (divider : Int) (w : Word) (m' : Machine) : Prop where
  cycle : m'.cycle = m.cycle + 1
  bytes : ∀ a, ¬m.StoresAt w a → m'.memory.byte a = m.memory.byte a
  /-- Only stores are logged. -/
  log : m'.memory.log = (m.stores w).foldl Recent.push m.memory.log
  sp : (m'.memory.sp : Int) = m.memory.sp + w.stackMove
  rows : ∀ row, ¬m.DrawsOn w row → m'.display.get row = m.display.get row
  index : ¬w.MovesIndex → m'.index = m.index
  registers : ∀ r, ¬w.Loads r → m'.reg r = m.reg r
  /-- A timer that is not set only runs. -/
  timers : ∀ t, m'.timer t =
    if m.cycle % divider = 0 then lessOne (m.timerSet w t) else m.timerSet w t
  /-- Only `Cxkk` takes a random byte. -/
  random : m'.random = m.random.skip (if w.IsRandom then 1 else 0)

/-! ## The words of instructions -/

section Words

variable {m : Machine} {w : Word}

theorem length_bytesStored (m : Machine) (w : Word) :
    (m.bytesStored w).length =
      if w.family.val = 0xF ∧ w.byte = 0x33 then 3
      else if w.family.val = 0xF ∧ w.byte = 0x55 then w.x.val + 1
      else 0 := by
  unfold bytesStored
  split
  · rfl
  · split
    · rw [List.length_map, Action.length_upTo]
    · rfl

theorem length_stores (m : Machine) (w : Word) :
    (m.stores w).length = (m.bytesStored w).length :=
  m.memory.length_writesOf _ _ _

theorem bytesStored_storeDecimal (m : Machine) (x : Reg) :
    m.bytesStored (Instruction.storeDecimal x).toWord = decimalDigits (m.reg x) := by
  obtain ⟨hfamily, hx, hbyte⟩ := Word.fields_ofRegByte x 0x33 (show 0xF < 16 by decide)
  unfold bytesStored Instruction.toWord
  rw [if_pos ⟨hfamily, hbyte⟩, hx]

theorem bytesStored_storeRegs (m : Machine) (x : Reg) :
    m.bytesStored (Instruction.storeRegs x).toWord = (Reg.upTo x).map m.reg := by
  obtain ⟨hfamily, hx, hbyte⟩ := Word.fields_ofRegByte x 0x55 (show 0xF < 16 by decide)
  unfold bytesStored Instruction.toWord
  rw [if_neg, if_pos ⟨hfamily, hbyte⟩, hx]
  rintro ⟨-, hother⟩
  exact absurd (hbyte.symm.trans hother) (by decide)

/-- No other instruction stores anything at the index. -/
theorem bytesStored_of_ne {i : Instruction} (hdecode : Instruction.ofWord? w = some i)
    (hdecimal : ∀ x, i ≠ .storeDecimal x) (hregs : ∀ x, i ≠ .storeRegs x) :
    m.bytesStored w = [] := by
  unfold bytesStored
  rw [if_neg, if_neg]
  · rintro ⟨hfamily, hbyte⟩
    rw [Instruction.ofWord?_of_family_misc hfamily, hbyte] at hdecode
    cases hdecode
    exact hregs _ rfl
  · rintro ⟨hfamily, hbyte⟩
    rw [Instruction.ofWord?_of_family_misc hfamily, hbyte] at hdecode
    cases hdecode
    exact hdecimal _ rfl

end Words

variable {m : Machine} {divider : Int} {keys : Keyboard} {s : Step} {i : Instruction}
  {r x : Reg} {row : Fin displayHeight}

/-! ## Instructions -/

theorem reg_setReg_of_ne (h : r ≠ x) (v : UInt8) : (m.setReg x v).reg r = m.reg r := by
  have hne : x.val ≠ r.val := fun heq => h (Fin.ext heq.symm)
  unfold reg setReg
  rw [Fin.getElem_fin, Fin.getElem_fin, Vector.getElem_set_ne x.isLt r.isLt hne]

/-- Registers behind the last one that is loaded are left alone. -/
theorem reg_loaded_of_le {k : Nat} (h : k ≤ r.val) :
    reg { m with registers := m.loaded k } r = m.reg r := by
  unfold reg loaded
  rw [Fin.getElem_fin, Vector.getElem_ofFn]
  exact if_neg (Nat.not_lt.mpr h)

/-- The operations that set the flag are those from the addition on. -/
theorem reg_combined (op : Arith) (y : Reg) (hx : r ≠ x)
    (hflag : 4 ≤ op.code → r ≠ flagRegister) : (m.combined op x y).reg r = m.reg r := by
  cases op with
  | copy | or | and | xor => exact reg_setReg_of_ne hx _
  | add | sub | shr | subn | shl =>
      exact (reg_setReg_of_ne hx _).trans (reg_setReg_of_ne (hflag (by decide)) _)

/-- No instruction changes a register that its word does not admit. -/
theorem reg_effect (m : Machine) (keys : Keyboard) (hquiet : ¬i.toWord.Loads r) :
    (m.effect keys i).machine.reg r = m.reg r := by
  cases i with
  | loadByte x b | addByte x b | random x b | getDelay x =>
      have hx : r ≠ x := by
        rintro rfl
        simp (disch := decide) [Instruction.toWord, Word.Loads, Word.fields_ofRegByte] at hquiet
      exact reg_setReg_of_ne hx _
  | waitKey x =>
      have hx : r ≠ x := by
        rintro rfl
        simp (disch := decide) [Instruction.toWord, Word.Loads, Word.fields_ofRegByte] at hquiet
      unfold effect
      cases keys.pressedKey with
      | none => rfl
      | some k => exact reg_setReg_of_ne hx _
  | arith op x y =>
      have hfields := Word.fields_ofRegs x y (show 0x8 < 16 by decide) (Instruction.code_lt op)
      simp only [Instruction.toWord, Word.Loads, hfields, not_or, not_and] at hquiet
      exact reg_combined op y hquiet.1 hquiet.2
  | draw x y n =>
      have hflag : r ≠ flagRegister := by
        rintro rfl
        simp (disch := omega) [Instruction.toWord, Word.Loads, Word.fields_ofRegs] at hquiet
      -- The registers only, so that nothing compares the picture with the one that was drawn.
      have hregisters : (m.effect keys (.draw x y n)).machine.registers =
          m.registers.set flagRegister.val (if (m.stamped x y n).2 then 1 else 0)
            flagRegister.isLt := rfl
      unfold reg
      rw [hregisters]
      exact reg_setReg_of_ne hflag _
  | loadRegs x =>
      have hbehind : x.val + 1 ≤ r.val := by
        simp (disch := decide) [Instruction.toWord, Word.Loads, Word.fields_ofRegByte] at hquiet
        omega
      rw [effect]
      exact reg_loaded_of_le hbehind
  | skipEqByte | skipNeByte | skipEqReg | skipNeReg | skipKey | skipNoKey =>
      obtain ⟨pc, h⟩ := m.skipped_eq _
      show (m.skipped _).machine.reg r = m.reg r
      rw [h]
      rfl
  | clear | ret | jump | call | loadIndex | jumpAlt | setDelay | setSound | addIndex
  | loadGlyph | storeDecimal | storeRegs => rfl

/-- No instruction moves the index whose word does not admit it. -/
theorem index_effect (m : Machine) (keys : Keyboard) (hquiet : ¬i.toWord.MovesIndex) :
    (m.effect keys i).machine.index = m.index := by
  cases hlocal : i.isLocal with
  | true =>
      obtain ⟨registers, pc, h⟩ := m.effect_of_isLocal keys hlocal
      rw [h]
  | false =>
      cases i with
      | loadIndex t =>
          exact absurd (.inl (Word.fields_ofTarget t (by decide)).1) hquiet
      | addIndex x | loadGlyph x | storeRegs x | loadRegs x =>
          simp (disch := decide) [Instruction.toWord, Word.MovesIndex, Word.fields_ofRegByte]
            at hquiet
      | clear | ret | call | random | draw | setDelay | setSound | storeDecimal => rfl
      | _ => cases hlocal

/-! ## The rows of a sprite -/

theorem length_sprite (n : Fin 16) (hrange : Memory.InRange m.index n.val) :
    (m.memory.bytesBetween m.index.toNat (Memory.blockEnd m.index n.val)).length = n.val := by
  obtain ⟨hlow, -⟩ := hrange
  unfold Memory.bytesBetween Memory.blockEnd
  rw [List.length_map, List.length_range', if_neg (by omega)]
  omega

/-- A sprite changes no row above it or below it. -/
theorem row_stamp {b : Bitmap} {sprite : List UInt8} {column top : Nat}
    (hout : row.val < top ∨ top + sprite.length ≤ row.val) :
    (b.stamp sprite column top).1.get row = b.get row := by
  have hzero : Bitmap.layer sprite column top row = 0 := by
    unfold Bitmap.layer
    split
    · rw [List.getElem?_eq_none (by omega)]
      rfl
    · rfl
  show (b.stamp sprite column top).1[row] = b[row]
  simp only [Bitmap.stamp, Fin.getElem_fin, Vector.getElem_ofFn, hzero]
  exact BitVec.xor_zero

/-- No instruction changes a row that its word does not admit. -/
theorem row_effect (hallowed : m.refusal? keys i = none) (hquiet : ¬m.DrawsOn i.toWord row) :
    (m.effect keys i).machine.display.get row = m.display.get row := by
  cases hshows : i.shows with
  | false => rw [display_effect hshows]
  | true =>
      cases i with
      | clear => exact absurd (.inl rfl) hquiet
      | draw x y n =>
          have hrange := Memory.checkRange_eq_ok_iff.mp (denied_eq_none_iff.mp hallowed)
          obtain ⟨hfamily, -, hy, hn⟩ := Word.fields_ofRegs x y (show 0xD < 16 by decide) n.isLt
          apply row_stamp
          rw [length_sprite n hrange]
          have hout : ¬((m.reg y).toNat ≤ row.val ∧
              row.val < min displayHeight ((m.reg y).toNat + n.val)) := by
            intro hin
            refine hquiet (.inr ⟨hfamily, ?_⟩)
            rw [Instruction.toWord, hy, hn]
            exact hin
          have hrow := row.isLt
          omega
      | _ => cases hshows

/-! ## Memory -/

namespace Executes

theorem memory_of_call (hexec : Executes m divider keys s i) (hcall : s.word.family.val = 0x2) :
    m.memory.depth.val < stackDepth ∧ s.next.memory = m.memory.pushed m.pc := by
  have hdecode := hexec.decoded
  rw [Instruction.ofWord?_of_family_call hcall] at hdecode
  cases hdecode
  refine ⟨(allowed_call.mp hexec.allowed).2, ?_⟩
  rw [hexec.next, memory_finish]
  rfl

theorem memory_of_ret (hexec : Executes m divider keys s i) (hret : s.word = 0x00EE) :
    m.memory.depth.val ≠ 0 ∧ s.next.memory = m.memory.popped := by
  have hdecode := hexec.decoded
  rw [hret] at hdecode
  cases hdecode
  refine ⟨allowed_ret.mp hexec.allowed, ?_⟩
  rw [hexec.next, memory_finish]
  rfl

/-- All other instructions store bytes at the index, most of them none. -/
theorem memory_of_other (hexec : Executes m divider keys s i) (hcall : s.word.family.val ≠ 0x2)
    (hret : s.word ≠ 0x00EE) :
    s.next.memory = m.memory.storeAll m.index.toNat (some m.pc) (m.bytesStored s.word) := by
  have hword := Instruction.toWord_of_ofWord? hexec.decoded
  rw [hexec.next, memory_finish]
  by_cases hdecimal : ∃ x, i = .storeDecimal x
  · obtain ⟨x, rfl⟩ := hdecimal
    rw [← hword, bytesStored_storeDecimal]
    rfl
  · by_cases hregs : ∃ x, i = .storeRegs x
    · obtain ⟨x, rfl⟩ := hregs
      rw [← hword, bytesStored_storeRegs]
      rfl
    · have hother := not_exists.mp hdecimal
      have hother' := not_exists.mp hregs
      rw [bytesStored_of_ne hexec.decoded hother hother']
      exact memory_effect m keys (hexec.ne_call hcall) (hexec.ne_ret hret) hother hother'

/-- An index at which something is stored is no negative number. -/
theorem index_nonneg_of_stores (hexec : Executes m divider keys s i)
    (hstores : 0 < (m.bytesStored s.word).length) : 0 ≤ m.index := by
  by_cases hdecimal : ∃ x, i = .storeDecimal x
  · obtain ⟨x, rfl⟩ := hdecimal
    have hlow := (allowed_storeDecimal.mp hexec.allowed).1
    omega
  · by_cases hregs : ∃ x, i = .storeRegs x
    · obtain ⟨x, rfl⟩ := hregs
      have hlow := (allowed_storeRegs.mp hexec.allowed).1
      omega
    · rw [bytesStored_of_ne hexec.decoded (not_exists.mp hdecimal) (not_exists.mp hregs)]
        at hstores
      exact absurd hstores (Nat.lt_irrefl 0)

/-! ## Steps -/

theorem bytes_framed (hexec : Executes m divider keys s i) (a : Nat)
    (hquiet : ¬m.StoresAt s.word a) : s.next.memory.byte a = m.memory.byte a := by
  by_cases hcall : s.word.family.val = 0x2
  · have hout : a < m.memory.sp ∨ m.memory.sp + 2 ≤ a := by
      have hframe : ¬(a = m.memory.sp ∨ a = m.memory.sp + 1) :=
        fun hframe => hquiet (.inl ⟨hcall, hframe⟩)
      omega
    rw [(hexec.memory_of_call hcall).2]
    exact Memory.byte_congr (Memory.setBytes_outside hout)
  · by_cases hret : s.word = 0x00EE
    · rw [(hexec.memory_of_ret hret).2]
      rfl
    · have hout : a < m.index.toNat ∨ m.index.toNat + (m.bytesStored s.word).length ≤ a := by
        have hindex := hexec.index_nonneg_of_stores
        rw [length_bytesStored] at hindex ⊢
        by_cases hdecimal : s.word.family.val = 0xF ∧ s.word.byte = 0x33
        · have hblock : ¬(m.index ≤ a ∧ a ≤ m.index + 2) :=
            fun hblock => hquiet (.inr (.inl ⟨hdecimal.1, hdecimal.2, hblock⟩))
          rw [if_pos hdecimal] at hindex ⊢
          omega
        · by_cases hregs : s.word.family.val = 0xF ∧ s.word.byte = 0x55
          · have hblock : ¬(m.index ≤ a ∧ a ≤ m.index + s.word.x.val) :=
              fun hblock => hquiet (.inr (.inr ⟨hregs.1, hregs.2, hblock⟩))
            rw [if_neg hdecimal, if_pos hregs] at hindex ⊢
            omega
          · rw [if_neg hdecimal, if_neg hregs]
            omega
      rw [hexec.memory_of_other hcall hret]
      apply Memory.byte_congr
      rw [Memory.bytes_storeAll, Memory.setBytes_outside hout]

theorem log_framed (hexec : Executes m divider keys s i) :
    s.next.memory.log = (m.stores s.word).foldl Recent.push m.memory.log := by
  unfold stores
  by_cases hcall : s.word.family.val = 0x2
  · have hnone : m.bytesStored s.word = [] := by
      unfold bytesStored
      simp [hcall]
    rw [(hexec.memory_of_call hcall).2, hnone]
    rfl
  · by_cases hret : s.word = 0x00EE
    · have hnone : m.bytesStored s.word = [] := by
        rw [hret]
        rfl
      rw [(hexec.memory_of_ret hret).2, hnone]
      rfl
    · rw [hexec.memory_of_other hcall hret, Memory.log_storeAll]

theorem sp_framed (hexec : Executes m divider keys s i) :
    (s.next.memory.sp : Int) = m.memory.sp + s.word.stackMove := by
  simp only [Word.stackMove, Memory.sp, stackBase, stackFrameSize]
  by_cases hcall : s.word.family.val = 0x2
  · obtain ⟨hroom, hmemory⟩ := hexec.memory_of_call hcall
    have hdepth : (m.memory.pushed m.pc).depth.val = m.memory.depth.val + 1 :=
      Nat.min_eq_left hroom
    rw [if_pos hcall, hmemory, hdepth]
    omega
  · rw [if_neg hcall]
    by_cases hret : s.word = 0x00EE
    · obtain ⟨hsome, hmemory⟩ := hexec.memory_of_ret hret
      have hdepth : m.memory.popped.depth.val = m.memory.depth.val - 1 := rfl
      rw [if_pos hret, hmemory, hdepth]
      omega
    · rw [if_neg hret, hexec.memory_of_other hcall hret, Memory.depth_storeAll]
      omega

/-- Whatever is executed, nothing has changed but what the word may change. -/
theorem framed (hexec : Executes m divider keys s i) : m.Framed divider s.word s.next := by
  have hword := Instruction.toWord_of_ofWord? hexec.decoded
  obtain ⟨delayTimer, soundTimer, pc, cycle, hfinish⟩ :=
    (m.effect keys i).machine.finish_eq (m.effect keys i).setsPc divider
  have hnext := hexec.next.trans hfinish
  constructor
  · exact hexec.cycle_next
  · exact hexec.bytes_framed
  · exact hexec.log_framed
  · exact hexec.sp_framed
  · intro row hquiet
    rw [← hword] at hquiet
    rw [hnext]
    exact row_effect hexec.allowed hquiet
  · intro hquiet
    rw [← hword] at hquiet
    rw [hnext]
    exact index_effect m keys hquiet
  · intro r hquiet
    rw [← hword] at hquiet
    rw [hnext]
    exact reg_effect m keys hquiet
  · exact hexec.timer_next
  · exact hexec.random_next

end Executes

end Machine

end ChipEight

import ChipEight.Proofs.Memory.Bytes

/-!
# Memory in place

Raw memory is memory without its guarantees: an array of any size, any number for the next free
byte of the stack, and a log. An operation changes it in place, one part after another, and
nothing is taken back when it stops before its end. `Memory` foretells how every operation ends
on what it stands for: with the same answer and the same memory, or with the same fault and
nothing changed.

## Main results

* `InPlace.run_writeByte`, `InPlace.run_push`, `InPlace.run_pop`, `InPlace.run_load` —
  operations that change memory.
* `InPlace.run_readBlock`, `InPlace.run_peek`, `InPlace.run_frames` — operations that read it.
-/

namespace ChipEight

/-! ## Raw memory -/

/-- Bytes, the next free byte of the stack and the log, each on its own. -/
structure RawMemory where
  data : Array UInt8
  /-- The next free byte of the stack. -/
  sp : Int
  log : Recent ByteWrite
  deriving DecidableEq, Repr

namespace RawMemory

/-- An array with the bytes from `start` up to `stop` replaced by others. It grows or shrinks if
their numbers differ. -/
def spliced (data : Array UInt8) (start stop : Nat) (vs : List UInt8) : Array UInt8 :=
  data.extract 0 start ++ vs.toArray ++ data.extract stop data.size

/-- Zeros, into which the glyphs are copied. -/
def powerOn (logLimit : Option Nat) : RawMemory where
  data := spliced (Array.replicate memorySize 0) fontBase (fontBase + font.length) font
  sp := stackBase
  log := .empty logLimit

end RawMemory

/-- Why an operation stops before its end. -/
inductive Stop
  | fault (cause : Fault.Cause)
  /-- The array has no such position. -/
  | noSuchPosition
  deriving DecidableEq, Repr

/-- What an operation does to raw memory. -/
abbrev InPlace := EStateM Stop RawMemory

namespace InPlace

variable {α β : Type}

/-! ## Small steps -/

/-- The place of a position in an array. One below zero counts back from the end. -/
def place (size : Nat) (i : Int) : Int := if i < 0 then size + i else i

/-- The byte at a position. -/
def byteAt (i : Int) : InPlace UInt8 := fun r =>
  let k := place r.data.size i
  if 0 ≤ k ∧ k < r.data.size then .ok (r.data[k.toNat]?.getD 0) r else .error .noSuchPosition r

/-- Replaces the byte at a position. -/
def setByteAt (i : Int) (v : UInt8) : InPlace Unit := fun r =>
  let k := place r.data.size i
  if 0 ≤ k ∧ k < r.data.size then .ok () { r with data := r.data.setIfInBounds k.toNat v }
  else .error .noSuchPosition r

/-- Changes raw memory. -/
def change (f : RawMemory → RawMemory) : InPlace Unit := modify f

/-- A part of raw memory as it is now. -/
def look (f : RawMemory → α) : InPlace α := do return f (← get)

/-- Stops under a condition. -/
def refuse (c : Prop) [Decidable c] (cause : Fault.Cause) : InPlace Unit :=
  if c then throw (.fault cause) else return ()

/-- The word in two consecutive positions, the high byte first. -/
def wordAt (i : Int) : InPlace Word := do
  let hi ← byteAt i
  let lo ← byteAt (i + 1)
  return Word.ofBytes hi lo

/-! ## Operations -/

def checkRange (address length : Int) : InPlace Unit :=
  refuse (address < 0 ∨ memorySize < address + length) (.outOfBounds length address)

def readByte (address : Int) : InPlace UInt8 := do
  checkRange address 1
  byteAt address

def readWord (address : Int) : InPlace Word := do
  checkRange address 2
  wordAt address

def readBlock (address : Int) (length : Nat) : InPlace (List UInt8) := do
  checkRange address length
  look fun r => (r.data.extract address.toNat (address + length).toNat).toList

/-- The store is logged before it is made. -/
def writeByte (address value : Int) (pc : Option Int) : InPlace Unit := do
  checkRange address 1
  let v := UInt8.ofInt value
  let previous ← byteAt address
  change fun r =>
    { r with log := r.log.push { address := address.toNat, value := v, previous, pc } }
  setByteAt address v

def clearLog : InPlace Unit := change fun r => { r with log := r.log.clear }

def load (program : List UInt8) : InPlace Unit := do
  refuse (maxProgramSize < program.length) (.programTooLarge program.length)
  change fun r =>
    { r with data := RawMemory.spliced r.data programStart (programStart + program.length) program }

/-- The high byte is stored, then the low byte, and then the frame is in use. -/
def push (address : Int) : InPlace Unit := do
  refuse (stackLimit ≤ (← look (·.sp))) (.stackOverflow address)
  setByteAt (← look (·.sp)) (UInt8.ofInt (address >>> (8 : Nat)))
  setByteAt ((← look (·.sp)) + 1) (UInt8.ofInt address)
  change fun r => { r with sp := r.sp + stackFrameSize }

/-- The frame is out of use before it is read. -/
def pop : InPlace Word := do
  refuse ((← look (·.sp)) = stackBase) .stackUnderflow
  change fun r => { r with sp := r.sp - stackFrameSize }
  wordAt (← look (·.sp))

def peek : InPlace (Option Word) := do
  let sp ← look (·.sp)
  if sp = stackBase then return none else return some (← wordAt (sp - stackFrameSize))

def depth : InPlace Int := do return ((← look (·.sp)) - stackBase) / stackFrameSize

/-- How many of `start`, `start + step` and so on come before `stop`. -/
def count (start stop : Int) (step : Nat) : Nat := ((stop - start + step - 1) / step).toNat

def frames : InPlace (List Word) := do
  (List.range (count stackBase (← look (·.sp)) stackFrameSize)).mapM fun k : Nat =>
    wordAt (stackBase + stackFrameSize * k)

/-! ## What a small step does -/

section Run

variable (r : RawMemory)

@[simp] theorem run_pure (a : α) : (pure a : InPlace α).run r = .ok a r := (rfl)

theorem run_bind (x : InPlace α) (f : α → InPlace β) :
    (x >>= f).run r =
      match x.run r with
      | .ok a r' => (f a).run r'
      | .error e r' => .error e r' := by
  show EStateM.bind x f r = _
  cases h : x r <;> simp only [EStateM.bind, EStateM.run, h]

@[simp] theorem run_look (f : RawMemory → α) : (look f).run r = .ok (f r) r := (rfl)

@[simp] theorem run_change (f : RawMemory → RawMemory) : (change f).run r = .ok () (f r) := (rfl)

theorem run_refuse_of {c : Prop} [Decidable c] (cause : Fault.Cause) (h : c) :
    (refuse c cause).run r = .error (.fault cause) r := by
  rw [refuse, if_pos h]
  rfl

theorem run_refuse_of_not {c : Prop} [Decidable c] (cause : Fault.Cause) (h : ¬c) :
    (refuse c cause).run r = .ok () r := by
  rw [refuse, if_neg h]
  rfl

end Run

end InPlace

namespace Memory

/-! ## Memory as raw memory -/

/-- Memory as raw memory. -/
def raw (m : Memory) : RawMemory where
  data := m.bytes.toArray
  sp := m.sp
  log := m.log

/-- Memory with another byte at one address. -/
def withByte (m : Memory) (a : Nat) (v : UInt8) : Memory :=
  { m with bytes := m.bytes.setIfInBounds a v }

theorem size_raw (m : Memory) : m.raw.data.size = memorySize := m.bytes.size_toArray

theorem sp_raw (m : Memory) : m.raw.sp = 2 * (m.depth.val : Int) := by
  show ((stackBase + stackFrameSize * m.depth.val : Nat) : Int) = _
  simp only [stackBase, stackFrameSize]
  omega

/-- The next free byte stays in the stack or right behind it. -/
theorem sp_raw_bounds (m : Memory) : 0 ≤ m.raw.sp ∧ m.raw.sp ≤ stackLimit := by
  have hlimit : stackLimit = 2 * stackDepth := rfl
  have hdepth := m.depth.isLt
  rw [sp_raw, hlimit]
  omega

theorem sp_raw_eq_base_iff (m : Memory) : m.raw.sp = stackBase ↔ m.depth.val = 0 := by
  rw [sp_raw]
  simp only [stackBase]
  omega

theorem limit_le_sp_raw_iff (m : Memory) :
    (stackLimit : Int) ≤ m.raw.sp ↔ ¬m.depth.val < stackDepth := by
  have hlimit : stackLimit = 2 * stackDepth := rfl
  rw [sp_raw, hlimit]
  omega

theorem sp_raw_pushed {m : Memory} (address : Int) (h : m.depth.val < stackDepth) :
    m.raw.sp + stackFrameSize = (m.pushed address).raw.sp := by
  rw [sp_raw, sp_raw]
  simp only [pushed, Nat.min_eq_left (Nat.succ_le_of_lt h), stackFrameSize]
  omega

theorem sp_raw_popped {m : Memory} (h : m.depth.val ≠ 0) :
    m.raw.sp - stackFrameSize = m.popped.raw.sp := by
  rw [sp_raw, sp_raw]
  simp only [popped, stackFrameSize]
  omega

/-- How an operation ends on raw memory if `Memory` is right about it. -/
def ending {α : Type} (m : Memory) :
    Except Fault.Cause (α × Memory) → EStateM.Result Stop RawMemory α
  | .ok (a, m') => .ok a m'.raw
  | .error cause => .error (.fault cause) m.raw

/-- A block that fits takes the place of as many bytes. -/
theorem spliced_toArray (bytes : Vector UInt8 memorySize) {start : Nat} {vs : List UInt8}
    (hfits : start + vs.length ≤ memorySize) :
    RawMemory.spliced bytes.toArray start (start + vs.length) vs =
      (setBytes bytes start vs).toArray := by
  have hstart : min start memorySize = start := Nat.min_eq_left (by omega)
  unfold RawMemory.spliced
  apply Array.ext_getElem?
  intro i
  rw [Vector.getElem?_toArray, getElem?_setBytes]
  simp only [Array.getElem?_append, Array.getElem?_extract, Array.size_append, Array.size_extract,
    List.size_toArray, List.getElem?_toArray, Vector.size_toArray, Vector.getElem?_toArray, hstart,
    Nat.min_self, Nat.sub_zero, Nat.zero_add]
  by_cases hbefore : i < start
  · rw [if_pos (by omega), if_pos hbefore, if_pos hbefore, if_neg (by omega)]
  · by_cases hinside : i < start + vs.length
    · rw [if_pos hinside, if_neg hbefore, if_pos (by omega)]
    · have hback : start + vs.length + (i - (start + vs.length)) = i := by omega
      have hbehind : ¬(start ≤ i ∧ i < memorySize ∧ i - start < vs.length) := by omega
      rw [if_neg hinside, hback, if_neg hbehind]
      by_cases hmem : i < memorySize
      · rw [if_pos (Nat.sub_lt_sub_right (Nat.le_of_not_lt hinside) hmem)]
      · rw [Vector.getElem?_eq_none (Nat.le_of_not_lt hmem)]
        exact ite_self none

theorem toList_extract (m : Memory) {start stop : Nat} (h : stop ≤ memorySize) :
    (m.raw.data.extract start stop).toList = m.bytesBetween start stop := by
  have hsize : (m.raw.data.extract start stop).size = stop - start := by
    rw [Array.size_extract, size_raw, Nat.min_eq_left h]
  apply List.ext_getElem
  · rw [Array.length_toList, hsize, bytesBetween, List.length_map, List.length_range']
  · intro k hk hk'
    have hmem : start + k < memorySize := by
      rw [Array.length_toList, hsize] at hk
      omega
    simp only [bytesBetween, byte, raw, Array.getElem_toList, Array.getElem_extract,
      List.getElem_map, List.getElem_range', Nat.one_mul, Vector.getElem?_eq_getElem hmem,
      Vector.getElem_toArray, Option.getD_some]

theorem raw_powerOn (logLimit : Option Nat) :
    RawMemory.powerOn logLimit = (powerOn logLimit).raw := by
  have hfits : fontBase + font.length ≤ memorySize := by decide
  unfold RawMemory.powerOn raw powerOn powerOnBytes
  rw [← spliced_toArray _ hfits, Vector.toArray_replicate]
  rfl

end Memory

namespace InPlace

/-! ## How the operations end -/

variable {α : Type} (m : Memory) {i : Int}

/-- A position in memory is its own place. -/
theorem place_raw (hlow : 0 ≤ i) (hhigh : i < memorySize) :
    place m.raw.data.size i = i ∧
      (0 ≤ place m.raw.data.size i ∧ place m.raw.data.size i < m.raw.data.size) := by
  have hplace : place m.raw.data.size i = i := if_neg (by omega)
  rw [hplace, m.size_raw]
  exact ⟨rfl, hlow, hhigh⟩

theorem run_byteAt (hlow : 0 ≤ i) (hhigh : i < memorySize) :
    (byteAt i).run m.raw = .ok (m.byte i.toNat) m.raw := by
  show ite _ _ _ = _
  rw [if_pos (place_raw m hlow hhigh).2, (place_raw m hlow hhigh).1]
  unfold Memory.byte Memory.raw
  rw [Vector.getElem?_toArray]

theorem run_setByteAt (v : UInt8) (hlow : 0 ≤ i) (hhigh : i < memorySize) :
    (setByteAt i v).run m.raw = .ok () (m.withByte i.toNat v).raw := by
  show ite _ _ _ = _
  rw [if_pos (place_raw m hlow hhigh).2, (place_raw m hlow hhigh).1]
  rfl

theorem run_wordAt (hlow : 0 ≤ i) (hhigh : i + 2 ≤ memorySize) :
    (wordAt i).run m.raw = .ok (m.word i.toNat) m.raw := by
  have hnext : (i + 1).toNat = i.toNat + 1 := by omega
  rw [wordAt]
  simp only [run_bind, run_byteAt m hlow (by omega), run_byteAt m (show 0 ≤ i + 1 by omega)
    (by omega), hnext]
  rfl

/-- An operation that begins with a check fails there or not at all. -/
theorem run_checkRange {x : InPlace α} {address length : Int} {a : α} {m' : Memory}
    (hx : Memory.InRange address length → x.run m.raw = .ok a m'.raw) :
    (checkRange address length >>= fun _ => x).run m.raw =
      m.ending ((Memory.checkRange address length).map fun _ => (a, m')) := by
  unfold checkRange Memory.checkRange
  by_cases h : Memory.InRange address length
  · have hpassed : ¬(address < 0 ∨ memorySize < address + length) := by omega
    rw [run_bind, run_refuse_of_not _ _ hpassed, if_pos h]
    exact hx h
  · have hrefused : address < 0 ∨ memorySize < address + length := by
      unfold Memory.InRange at h
      omega
    rw [run_bind, run_refuse_of _ _ hrefused, if_neg h]
    rfl

theorem map_checkRange {β : Type} (address length : Int) (a : α) (g : α → β) :
    ((Memory.checkRange address length).map fun _ => a).map g =
      (Memory.checkRange address length).map fun _ => g a := by
  cases Memory.checkRange address length <;> rfl

theorem run_readByte (address : Int) :
    (readByte address).run m.raw = m.ending ((m.readByte address).map (·, m)) := by
  rw [Memory.readByte, map_checkRange]
  apply run_checkRange
  rintro ⟨hlow, hhigh⟩
  exact run_byteAt m hlow (by omega)

theorem run_readWord (address : Int) :
    (readWord address).run m.raw = m.ending ((m.readWord address).map (·, m)) := by
  rw [Memory.readWord, map_checkRange]
  apply run_checkRange
  rintro ⟨hlow, hhigh⟩
  exact run_wordAt m hlow hhigh

theorem run_readBlock (address : Int) (length : Nat) :
    (readBlock address length).run m.raw =
      m.ending ((m.readBlock address length).map (·, m)) := by
  rw [Memory.readBlock, map_checkRange]
  apply run_checkRange
  rintro ⟨hlow, hhigh⟩
  have hend : Memory.blockEnd address length = (address + length).toNat := if_neg (by omega)
  rw [run_look, Memory.toList_extract m (by omega), hend]

theorem run_writeByte (address value : Int) (pc : Option Int) :
    (writeByte address value pc).run m.raw =
      m.ending ((m.writeByte address value pc).map ((), ·)) := by
  rw [Memory.writeByte, map_checkRange]
  apply run_checkRange
  rintro ⟨hlow, hhigh⟩
  have hhigh : address < memorySize := by omega
  simp only [run_bind, run_byteAt m hlow hhigh, run_change]
  exact run_setByteAt
    { m with log := m.log.push ⟨address.toNat, UInt8.ofInt value, m.byte address.toNat, pc⟩ }
    (UInt8.ofInt value) hlow hhigh

theorem run_clearLog : clearLog.run m.raw = .ok () m.clearLog.raw := (rfl)

theorem run_load (program : List UInt8) :
    (load program).run m.raw = m.ending ((m.load program).map ((), ·)) := by
  unfold load Memory.load
  by_cases h : program.length ≤ maxProgramSize
  · have hroom : programStart + maxProgramSize = memorySize := rfl
    have hfits : programStart + program.length ≤ memorySize := by omega
    have hdata :
        RawMemory.spliced m.raw.data programStart (programStart + program.length) program =
          (Memory.setBytes m.bytes programStart program).toArray :=
      Memory.spliced_toArray m.bytes hfits
    simp only [run_bind, run_refuse_of_not _ _ (Nat.not_lt.mpr h), run_change, hdata, if_pos h]
    rfl
  · rw [run_bind, run_refuse_of _ _ (Nat.lt_of_not_le h), if_neg h]
    rfl

/-! ## How the operations on the stack end -/

/-- Every frame can be read, whether it is in use or not. -/
theorem run_frame {slot : Nat} (hslot : slot < stackDepth) :
    (wordAt (stackBase + stackFrameSize * slot)).run m.raw = .ok (m.frame slot) m.raw := by
  have hlimit : 2 * stackDepth ≤ memorySize := by decide
  have hplace : ((stackBase : Int) + stackFrameSize * slot) = 2 * (slot : Int) := Int.zero_add _
  rw [run_wordAt m (by rw [hplace]; omega) (by rw [hplace]; omega)]
  rfl

/-- The newest frame is the one below the next free byte. -/
theorem run_top (h : m.depth.val ≠ 0) :
    (wordAt m.popped.raw.sp).run m.raw = .ok m.top m.raw ∧
      (wordAt m.popped.raw.sp).run m.popped.raw = .ok m.top m.popped.raw := by
  have hslot : m.depth.val - 1 < stackDepth := by
    have hdepth := m.depth.isLt
    omega
  exact ⟨run_frame m hslot, run_frame m.popped hslot⟩

theorem run_push (address : Int) :
    (push address).run m.raw = m.ending ((m.push address).map ((), ·)) := by
  by_cases h : m.depth.val < stackDepth
  · have hroom : ¬(stackLimit : Int) ≤ m.raw.sp := mt m.limit_le_sp_raw_iff.mp (not_not_intro h)
    have hbounds := m.sp_raw_bounds
    have hlimit : stackLimit < memorySize := by decide
    have hshift : address >>> (8 : Nat) = address / 256 := Int.shiftRight_eq_div_pow address 8
    have hhi : (setByteAt m.raw.sp (UInt8.ofInt (address / 256))).run m.raw =
        .ok () (m.withByte m.sp (UInt8.ofInt (address / 256))).raw :=
      run_setByteAt m _ hbounds.1 (by omega)
    -- The first byte moves nothing, so the second is stored behind it.
    have hlo := run_setByteAt (m.withByte m.sp (UInt8.ofInt (address / 256)))
      (UInt8.ofInt address) (show 0 ≤ m.raw.sp + 1 by omega) (by omega)
    simp only [push, run_bind, run_look, run_refuse_of_not _ _ hroom, hshift, hhi, run_change,
      Memory.push_of_lt address h]
    rw [show (m.withByte m.sp (UInt8.ofInt (address / 256))).raw.sp = m.raw.sp from rfl, hlo]
    exact congrArg (fun sp => EStateM.Result.ok () { (m.pushed address).raw with sp })
      (Memory.sp_raw_pushed address h)
  · have hfull := m.limit_le_sp_raw_iff.mpr h
    simp only [push, run_bind, run_look, run_refuse_of _ _ hfull, Memory.push_of_not_lt address h]
    rfl

theorem run_pop : pop.run m.raw = m.ending m.pop := by
  by_cases h : m.depth.val = 0
  · have hempty := m.sp_raw_eq_base_iff.mpr h
    simp only [pop, run_bind, run_look, run_refuse_of _ _ hempty, Memory.pop_of_eq_zero h]
    rfl
  · have hsome := mt m.sp_raw_eq_base_iff.mp h
    simp only [pop, run_bind, run_look, run_refuse_of_not _ _ hsome, run_change,
      Memory.sp_raw_popped h, Memory.pop_of_ne_zero h]
    exact (run_top m h).2

theorem run_peek : peek.run m.raw = .ok m.peek m.raw := by
  unfold peek Memory.peek
  rw [run_bind, run_look]
  by_cases h : m.depth.val = 0
  · simp only [if_pos (m.sp_raw_eq_base_iff.mpr h), if_pos h, run_pure]
  · simp only [if_neg (mt m.sp_raw_eq_base_iff.mp h), if_neg h, Memory.sp_raw_popped h, run_bind,
      (run_top m h).1, run_pure]
    rfl

theorem run_depth : depth.run m.raw = .ok (m.depth.val : Int) m.raw := by
  have hdepth : (m.raw.sp - stackBase) / stackFrameSize = m.depth.val := by
    rw [m.sp_raw]
    simp only [stackBase, stackFrameSize]
    omega
  simp only [depth, run_bind, run_look, run_pure, hdepth]

theorem run_mapM {β : Type} {f : α → InPlace β} {g : α → β} {r : RawMemory} {as : List α}
    (h : ∀ a ∈ as, (f a).run r = .ok (g a) r) : (as.mapM f).run r = .ok (as.map g) r := by
  induction as with
  | nil => rfl
  | cons a as ih =>
      have hrest := ih fun b hb => h b (List.mem_cons_of_mem a hb)
      rw [List.mapM_cons, run_bind, h a List.mem_cons_self]
      simp only [run_bind, hrest]
      rfl

theorem run_frames : frames.run m.raw = .ok m.frames m.raw := by
  have hcount : count stackBase m.raw.sp stackFrameSize = m.depth.val := by
    rw [count, m.sp_raw]
    simp only [stackBase, stackFrameSize]
    omega
  rw [frames, run_bind, run_look]
  simp only [hcount]
  apply run_mapM
  intro slot hslot
  have hlt := List.mem_range.mp hslot
  have hdepth := m.depth.isLt
  exact run_frame m (by omega)

end InPlace

end ChipEight

import ChipEight.Proofs.Memory.Operation

/-!
# What memory remembers

Seen from outside, memory is a map from addresses to bytes and a stack of addresses. Both can be
told from the operations alone. `History` keeps the blocks of bytes that were written, whoever
wrote them, and apart from them the addresses on the stack. A byte of memory is the last that was
written at its address. The stack has no bytes but these, so it holds what was pushed only as long
as nobody else writes below the next free byte.

## Main results

* `Memory.recalls_perform`, `Memory.recalls_performAll` — memory holds the last byte written at
  every address.
* `Memory.stack_perform`, `Memory.stack_performAll` — the stack of operations that spare it.
* `Memory.refines_history` — what follows for every operation, after any others.
-/

namespace ChipEight

namespace Memory

/-! ## Histories -/

/-- Bytes that were written together. -/
structure Block where
  start : Nat
  bytes : List UInt8
  deriving DecidableEq, Repr

/-- The byte that a block has for an address, if it has one. -/
def Block.byte? (b : Block) (a : Nat) : Option UInt8 :=
  if b.start ≤ a then b.bytes[a - b.start]? else none

/-- What was written and pushed. -/
structure History where
  /-- The blocks that were written, the newest first. -/
  written : List Block
  /-- The addresses on the stack, the oldest first. -/
  stack : List Nat
  deriving DecidableEq, Repr

/-- The block that an operation writes while `depth` addresses are on the stack. There is none if
the operation fails. -/
def Op.block? (depth : Nat) : Op → Option Block
  | .writeByte address value _ =>
    if 0 ≤ address ∧ address + 1 ≤ memorySize then some ⟨address.toNat, [UInt8.ofInt value]⟩
    else none
  | .push address =>
    if depth < stackDepth then
      some ⟨stackBase + stackFrameSize * depth, [UInt8.ofInt (address / 256), UInt8.ofInt address]⟩
    else none
  | .load program =>
    if program.length ≤ maxProgramSize then some ⟨programStart, program⟩ else none
  | _ => none

/-- The stack behind an operation. -/
def Op.onStack (stack : List Nat) : Op → List Nat
  | .push address =>
    if stack.length < stackDepth then stack ++ [(address % 65536).toNat] else stack
  | .pop => stack.dropLast
  | _ => stack

namespace History

/-- At power-on the glyphs are written. -/
def start : History := { written := [⟨fontBase, font⟩], stack := [] }

/-- The last byte written at an address, zero if none was. -/
def byte (h : History) (a : Nat) : UInt8 := (h.written.findSome? (·.byte? a)).getD 0

/-- The history behind an operation. -/
def perform (h : History) (o : Op) : History where
  written := (o.block? h.stack.length).toList ++ h.written
  stack := o.onStack h.stack

/-- The history behind a sequence of operations. -/
def performAll (h : History) (ops : List Op) : History := ops.foldl perform h

theorem byte_perform (h : History) (o : Op) (a : Nat) :
    (h.perform o).byte a = ((o.block? h.stack.length).bind (·.byte? a)).getD (h.byte a) := by
  unfold byte perform
  rw [List.findSome?_append]
  cases o.block? h.stack.length with
  | none => rfl
  | some b =>
      show (([b].findSome? (·.byte? a)).or _).getD 0 = (b.byte? a).getD _
      rw [List.findSome?_singleton]
      cases b.byte? a <;> rfl

end History

/-! ## What an operation does -/

section Effect

variable (m : Memory)

theorem perform_writeByte (address value : Int) (pc : Option Int) :
    m.perform (.writeByte address value pc) =
      if 0 ≤ address ∧ address + 1 ≤ memorySize then
        m.store address.toNat (UInt8.ofInt value) pc
      else m := by
  show m.taking ((m.writeByte address value pc).map (.done, ·)) = _
  unfold writeByte checkRange
  split <;> rfl

theorem perform_push (address : Int) :
    m.perform (.push address) = if m.depth.val < stackDepth then m.pushed address else m := by
  show m.taking ((m.push address).map (.done, ·)) = _
  by_cases h : m.depth.val < stackDepth
  · rw [push_of_lt address h, if_pos h]
    rfl
  · rw [push_of_not_lt address h, if_neg h]
    rfl

/-- Nothing is popped off an empty stack. -/
theorem perform_pop : m.perform .pop = m.popped := by
  show m.taking (m.pop.map _) = _
  by_cases h : m.depth.val = 0
  · have hsame : m.popped.depth = m.depth := Fin.ext (by show m.depth.val - 1 = _; omega)
    rw [pop_of_eq_zero h]
    exact congrArg (fun depth => { m with depth }) hsame.symm
  · rw [pop_of_ne_zero h]
    rfl

theorem perform_load (program : List UInt8) :
    m.perform (.load program) =
      if program.length ≤ maxProgramSize then
        { m with bytes := setBytes m.bytes programStart program }
      else m := by
  show m.taking ((m.load program).map (.done, ·)) = _
  unfold load
  split <;> rfl

/-- Reading leaves memory as it is. -/
theorem perform_read (q : Query) : m.perform (.read q) = m := by
  show m.taking ((m.read q).map (·, m)) = m
  cases m.read q <;> rfl

end Effect

variable {m : Memory} {past : History} {a : Nat}

/-- An operation writes one block at most. -/
theorem bytes_perform (m : Memory) (o : Op) :
    (m.perform o).bytes =
      (o.block? m.depth.val).elim m.bytes fun b => setBytes m.bytes b.start b.bytes := by
  cases o with
  | writeByte address value pc =>
      rw [perform_writeByte, Op.block?]
      split <;> rfl
  | push address =>
      rw [perform_push, Op.block?]
      split <;> rfl
  | pop =>
      rw [perform_pop]
      rfl
  | load program =>
      rw [perform_load, Op.block?]
      split <;> rfl
  | read q =>
      rw [perform_read]
      rfl
  | clearLog => rfl

theorem depth_perform (o : Op) {stack : List Nat} (hdepth : m.depth.val = stack.length) :
    (m.perform o).depth.val = (o.onStack stack).length := by
  cases o with
  | writeByte address value pc =>
      rw [perform_writeByte]
      split <;> exact hdepth
  | push address =>
      rw [perform_push, Op.onStack, hdepth]
      by_cases hroom : stack.length < stackDepth
      · rw [if_pos hroom, if_pos hroom, List.length_append, List.length_singleton, ← hdepth]
        exact Nat.min_eq_left (hdepth ▸ hroom)
      · rw [if_neg hroom, if_neg hroom, hdepth]
  | pop =>
      rw [perform_pop, Op.onStack, List.length_dropLast, ← hdepth]
      rfl
  | load program =>
      rw [perform_load]
      split <;> exact hdepth
  | clearLog => exact hdepth
  | read q =>
      rw [perform_read]
      exact hdepth

/-! ## Memory as a map -/

/-- Memory is as a history tells it. -/
structure Recalls (m : Memory) (h : History) : Prop where
  depth : m.depth.val = h.stack.length
  /-- Every byte is the last that was written at its address. -/
  bytes : ∀ a, a < memorySize → m.byte a = h.byte a

/-- A block covers some addresses and leaves the others as they are. -/
theorem byte_setBytes (bytes : Vector UInt8 memorySize) (b : Block) (ha : a < memorySize) :
    (setBytes bytes b.start b.bytes)[a]?.getD 0 = (b.byte? a).getD (bytes[a]?.getD 0) := by
  unfold Block.byte?
  rw [getElem?_setBytes]
  by_cases hstart : b.start ≤ a
  · rw [if_pos hstart]
    by_cases hlength : a - b.start < b.bytes.length
    · rw [if_pos ⟨hstart, ha, hlength⟩, List.getElem?_eq_getElem hlength]
      rfl
    · rw [if_neg fun h => hlength h.2.2, List.getElem?_eq_none (Nat.le_of_not_lt hlength)]
      rfl
  · rw [if_neg hstart, if_neg fun h => hstart h.1]
    rfl

theorem byte_perform (o : Op) (ha : a < memorySize) :
    (m.perform o).byte a = ((o.block? m.depth.val).bind (·.byte? a)).getD (m.byte a) := by
  unfold byte
  rw [bytes_perform]
  cases o.block? m.depth.val with
  | none => rfl
  | some b => exact byte_setBytes m.bytes b ha

theorem recalls_powerOn (logLimit : Option Nat) : Recalls (powerOn logLimit) .start := by
  constructor
  · rfl
  · intro a ha
    have hglyphs := byte_setBytes (Vector.replicate memorySize 0) ⟨fontBase, font⟩ ha
    rw [getD_zeros] at hglyphs
    show (setBytes (Vector.replicate memorySize 0) fontBase font)[a]?.getD 0 = _
    rw [hglyphs, History.byte, History.start, List.findSome?_singleton]

/-- An operation keeps memory and history together. -/
theorem recalls_perform (h : Recalls m past) (o : Op) : Recalls (m.perform o) (past.perform o) := by
  constructor
  · exact depth_perform o h.depth
  · intro a ha
    rw [byte_perform o ha, History.byte_perform, h.depth, h.bytes a ha]

theorem recalls_performAll (h : Recalls m past) (ops : List Op) :
    Recalls (m.performAll ops) (past.performAll ops) := by
  induction ops generalizing m past with
  | nil => exact h
  | cons o ops ih => exact ih (recalls_perform h o)

/-! ## The stack as a list -/

/-- Whether an operation writes a byte below a limit, other than by pushing. -/
def Op.hits (limit : Nat) : Op → Bool
  | .writeByte address _ _ => 0 ≤ address ∧ address < limit
  | _ => false

/-- No byte is written below the next free byte of the stack. -/
def Spares (m : Memory) : List Op → Prop
  | [] => True
  | o :: ops => o.hits m.sp = false ∧ (m.perform o).Spares ops

instance decidableSpares : ∀ (m : Memory) (ops : List Op), Decidable (m.Spares ops)
  | _, [] => isTrue trivial
  | m, o :: ops =>
    have := decidableSpares (m.perform o) ops
    inferInstanceAs (Decidable (_ ∧ _))

/-- The addresses on the stack, the oldest first. -/
def stack (m : Memory) : List Nat := m.frames.map UInt16.toNat

theorem length_stack (m : Memory) : m.stack.length = m.depth.val := by
  rw [stack, List.length_map, length_frames]

/-- Whoever leaves the bytes below the next free one alone leaves the stack alone. -/
theorem stack_setBytes {m' : Memory} {b : Block} (hdepth : m'.depth = m.depth)
    (hbytes : m'.bytes = setBytes m.bytes b.start b.bytes) (habove : m.sp ≤ b.start) :
    m'.stack = m.stack := by
  unfold stack
  rw [frames_congr_of_lt hdepth]
  intro a ha
  apply byte_congr
  rw [hbytes]
  exact setBytes_outside (.inl (Nat.lt_of_lt_of_le ha habove))

theorem stack_pushed (address : Int) (h : m.depth.val < stackDepth) :
    (m.pushed address).stack = m.stack ++ [(address % 65536).toNat] := by
  have hself := frame_pushed_self address h
  rw [stack, frames_pushed address h, List.map_append, ← hself]
  rfl

theorem stack_eq_append_top (h : m.depth.val ≠ 0) :
    m.stack = m.popped.stack ++ [m.top.toNat] := by
  rw [stack, frames_eq_append_top h, List.map_append]
  rfl

theorem stack_eq_nil_iff : m.stack = [] ↔ m.depth.val = 0 := by
  rw [← List.length_eq_zero_iff, length_stack]

theorem stack_popped (m : Memory) : m.popped.stack = m.stack.dropLast := by
  by_cases h : m.depth.val = 0
  · have hstill : m.popped.depth.val = 0 := by
      show m.depth.val - 1 = 0
      omega
    rw [stack_eq_nil_iff.mpr h, stack_eq_nil_iff.mpr hstill]
    rfl
  · rw [stack_eq_append_top h, List.dropLast_concat]

/-- An operation that spares the stack does to it what it does to a list. -/
theorem stack_perform (o : Op) (hspared : o.hits m.sp = false) :
    (m.perform o).stack = o.onStack m.stack := by
  cases o with
  | writeByte address value pc =>
      rw [perform_writeByte]
      split
      · rename_i hin
        have habove : m.sp ≤ address.toNat := by
          have hmiss : ¬(0 ≤ address ∧ address < m.sp) := of_decide_eq_false hspared
          omega
        exact stack_setBytes (b := ⟨address.toNat, [UInt8.ofInt value]⟩) rfl rfl habove
      · rfl
  | push address =>
      rw [perform_push, Op.onStack, length_stack]
      split
      · rename_i hroom
        exact stack_pushed address hroom
      · rfl
  | pop =>
      rw [perform_pop]
      exact m.stack_popped
  | load program =>
      rw [perform_load]
      split
      · have habove : m.sp ≤ programStart := Nat.le_trans m.sp_le (by decide)
        exact stack_setBytes (b := ⟨programStart, program⟩) rfl rfl habove
      · rfl
  | clearLog => rfl
  | read q =>
      rw [perform_read]
      rfl

/-- The stack of operations that spare it is the one that a history tells. -/
theorem stack_performAll {past : History} (ops : List Op) (hspared : m.Spares ops)
    (hstack : m.stack = past.stack) :
    (m.performAll ops).stack = (past.performAll ops).stack := by
  induction ops generalizing m past with
  | nil => exact hstack
  | cons o ops ih =>
      apply ih hspared.2
      rw [stack_perform o hspared.1, hstack]
      rfl

/-! ## What follows for every operation -/

/-- Reads answer with the bytes of a map. They fail if they leave memory, and only then. -/
structure Holds (m : Memory) (bytes : Nat → UInt8) : Prop where
  readByte : ∀ address : Int, m.readByte address =
    if 0 ≤ address ∧ address + 1 ≤ memorySize then .ok (bytes address.toNat)
    else .error (.outOfBounds 1 address)
  readWord : ∀ address : Int, m.readWord address =
    if 0 ≤ address ∧ address + 2 ≤ memorySize then
      .ok (Word.ofBytes (bytes address.toNat) (bytes (address.toNat + 1)))
    else .error (.outOfBounds 2 address)
  readBlock : ∀ (address : Int) (length : Nat), m.readBlock address length =
    if 0 ≤ address ∧ address + length ≤ memorySize then
      .ok ((List.range' address.toNat length).map bytes)
    else .error (.outOfBounds length address)

/-- The stack is a list with the newest address at its end. -/
structure Stacks (m : Memory) (stack : List Nat) : Prop where
  frames : m.frames.map UInt16.toNat = stack
  depth : m.depth.val = stack.length
  peek : m.peek.map UInt16.toNat = stack.getLast?
  pop : ∀ rest a, stack = rest ++ [a] →
    ∃ w m', m.pop = .ok (w, m') ∧ w.toNat = a ∧ m'.frames.map UInt16.toNat = rest
  underflow : m.pop = .error .stackUnderflow ↔ stack = []
  push : ∀ address : Int, stack.length < stackDepth →
    ∃ m', m.push address = .ok m' ∧
      m'.frames.map UInt16.toNat = stack ++ [(address % 65536).toNat]
  overflow : ∀ address : Int,
    m.push address = .error (.stackOverflow address) ↔ stack.length = stackDepth

/-- What is answered behind a check is of interest only if that is passed. -/
theorem map_checkRange_eq_ite {α : Type} {address length : Int} {a b : α}
    (h : InRange address length → a = b) :
    ((checkRange address length).map fun _ => a) =
      if 0 ≤ address ∧ address + length ≤ memorySize then .ok b
      else .error (.outOfBounds length address) := by
  unfold checkRange
  by_cases hin : InRange address length
  · rw [if_pos hin, if_pos hin, ← h hin]
    rfl
  · rw [if_neg hin, if_neg hin]
    rfl

theorem Recalls.holds (h : Recalls m past) : m.Holds past.byte where
  readByte := by
    intro address
    apply map_checkRange_eq_ite
    rintro ⟨hlow, hhigh⟩
    exact h.bytes _ (by omega)
  readWord := by
    intro address
    apply map_checkRange_eq_ite
    rintro ⟨hlow, hhigh⟩
    rw [word, h.bytes _ (by omega), h.bytes _ (by omega)]
  readBlock := by
    intro address length
    apply map_checkRange_eq_ite
    rintro ⟨hlow, hhigh⟩
    have hend : blockEnd address length = (address + length).toNat := if_neg (by omega)
    have hlength : (address + length).toNat - address.toNat = length := by omega
    rw [hend, bytesBetween, hlength]
    apply List.map_congr_left
    intro a ha
    have hbound := (List.mem_range'_1.mp ha).2
    exact h.bytes a (by omega)

theorem stacks_stack (m : Memory) : m.Stacks m.stack where
  frames := rfl
  depth := m.length_stack.symm
  peek := by
    unfold Memory.peek
    by_cases h : m.depth.val = 0
    · rw [if_pos h, stack_eq_nil_iff.mpr h]
      rfl
    · rw [if_neg h, stack_eq_append_top h, List.getLast?_concat]
      rfl
  pop := by
    intro rest a hstack
    have hsome : m.depth.val ≠ 0 := by
      intro h
      rw [stack_eq_nil_iff.mpr h] at hstack
      exact List.append_ne_nil_of_right_ne_nil rest (List.cons_ne_nil a []) hstack.symm
    rw [stack_eq_append_top hsome] at hstack
    obtain ⟨hrest, htop⟩ := List.append_inj' hstack rfl
    exact ⟨m.top, m.popped, pop_of_ne_zero hsome, List.head_eq_of_cons_eq htop, hrest⟩
  underflow := by
    rw [stack_eq_nil_iff]
    constructor
    · intro hpop
      refine Decidable.byContradiction fun h => ?_
      rw [pop_of_ne_zero h] at hpop
      cases hpop
    · exact pop_of_eq_zero
  push := by
    intro address hroom
    rw [length_stack] at hroom
    exact ⟨m.pushed address, push_of_lt address hroom, stack_pushed address hroom⟩
  overflow := by
    intro address
    have hdepth := m.depth.isLt
    rw [length_stack]
    constructor
    · intro hpush
      refine Decidable.byContradiction fun h => ?_
      rw [push_of_lt address (by omega)] at hpush
      cases hpush
    · intro hfull
      exact push_of_not_lt address (by omega)

/-- Whatever was done in place since power-on, there are `memorySize` bytes, and the next free byte
of the stack is an even one up to `stackLimit`. Whatever is done next ends as memory responds, and
changes nothing if it fails. A read finds the last byte written at every address, and fails only
if it leaves memory. The stack is the list that the history tells, as long as no byte is written
below its next free byte. -/
theorem refines_history (logLimit : Option Nat) (ops : List Op) :
    let r := (RawMemory.powerOn logLimit).performAll ops
    let m := (powerOn logLimit).performAll ops
    let past := History.start.performAll ops
    (r.data.size = memorySize ∧ 0 ≤ r.sp ∧ r.sp ≤ stackLimit ∧ r.sp % 2 = 0) ∧
      (∀ o : Op, o.inPlace.run r = m.ending (m.respond o)) ∧
      (∀ (o : Op) (e : Stop) (r' : RawMemory), o.inPlace.run r = .error e r' → r' = r) ∧
      m.Holds past.byte ∧
      ((powerOn logLimit).Spares ops → m.Stacks past.stack) := by
  intro r m past
  have hraw : r = m.raw := by
    show (RawMemory.powerOn logLimit).performAll ops = _
    rw [raw_powerOn, raw_performAll]
  have hrecalls : Recalls m past := recalls_performAll (recalls_powerOn logLimit) ops
  have heven : m.raw.sp % 2 = 0 := by
    rw [m.sp_raw]
    omega
  rw [hraw]
  refine ⟨⟨m.size_raw, m.sp_raw_bounds.1, m.sp_raw_bounds.2, heven⟩, m.run_inPlace, ?_,
    hrecalls.holds, ?_⟩
  · intro o e r' herror
    exact m.unchanged_of_error herror
  · intro hspared
    have hstack : m.stack = past.stack := stack_performAll ops hspared rfl
    rw [← hstack]
    exact m.stacks_stack

/-- Addresses that are pushed over other bytes, calls that fail, and bytes that pops leave
behind. -/
def overlapping : List Op :=
  [.push 0x12345, .writeByte 2 9 none, .push (-2), .writeByte 4096 7 none, .load [0xAA, 0xBB],
    .writeByte 0x201 (-1) none, .pop, .pop, .pop, .push (-1)]

theorem overlapping_refines :
    let r := (RawMemory.powerOn none).performAll overlapping
    let m := (powerOn none).performAll overlapping
    (∃ w m', m.pop = .ok (w, m') ∧ w.toNat = 0xFFFF ∧ m'.frames.map UInt16.toNat = []) ∧
      m.readByte 2 = .ok 0xFF ∧ m.readByte 0x201 = .ok 0xFF ∧
      (Op.writeByte 4096 7 none).inPlace.run r = .error (.fault (.outOfBounds 1 4096)) r := by
  intro r m
  obtain ⟨-, hruns, hunchanged, hholds, hstacks⟩ := refines_history none overlapping
  have hstack := hstacks (by decide +kernel)
  have hpushed : (History.start.performAll overlapping).byte 2 = 0xFF := by decide +kernel
  have hwritten : (History.start.performAll overlapping).byte 0x201 = 0xFF := by decide +kernel
  have hfails : (Op.writeByte 4096 7 none).inPlace.run r =
      .error (.fault (.outOfBounds 1 4096)) m.raw := hruns (.writeByte 4096 7 none)
  have hsame := hunchanged _ _ _ hfails
  refine ⟨hstack.pop [] 0xFFFF (by decide +kernel), ?_, ?_, ?_⟩
  · exact (hholds.readByte 2).trans (congrArg Except.ok hpushed)
  · exact (hholds.readByte 0x201).trans (congrArg Except.ok hwritten)
  · exact hfails.trans (congrArg (EStateM.Result.error _) hsame)

end Memory

end ChipEight

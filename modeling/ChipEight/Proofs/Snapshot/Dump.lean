import ChipEight.Proofs.Snapshot.Field
import ChipEight.Proofs.Text.Decimal
import ChipEight.Proofs.Text.Hex
import ChipEight.Proofs.Text.Joined
import ChipEight.Snapshot.Dump

/-!
# Reading a dump

A dump can be read back. It falls into lines, since no number has a line break in it, and each
line stands at a place of its own: the registers behind the title, then the counters, the stack
and the rows of memory. In a line the number stands behind a name of known length, however many
digits it has. The words of the stack and the bytes of a row have no blanks in them, so they are
cut apart there.

`Snapshot.readDump` undoes `Snapshot.dump` up to the display, which a dump does not show. So two
machines with one dump differ in their displays at most.

## Main results

* `Snapshot.mapM_readRow?_memoryRows`, `Snapshot.readRows?_dump` — the rows of memory.
* `Snapshot.readDump_dump` — everything else as well.
* `Machine.dump_faithful` — which machines share a dump.
-/

namespace ChipEight

open Text

namespace Snapshot

/-! ## A reader -/

/-- The hexadecimal number behind the first `n` characters of a line. -/
def numberBehind (n : Nat) (line : List Char) : Int := Hex.signedValue (line.drop n)

/-- The return addresses in the line of the stack. -/
def readStack (line : List Char) : List Int :=
  if line = "stack: <empty>".toList then []
  else ((line.drop 7).splitOn ' ').map (numberBehind 2)

/-- The address in front of a row of memory, and the bytes behind it. -/
def readRow? (line : List Char) : Option (Nat × List UInt8) :=
  (((line.drop 5).splitOn ' ').mapM Hex.toBytes?).map fun bytes =>
    (Hex.value (line.take 3), bytes.flatten)

/-- The lines of a text. -/
def linesOf (text : String) : List (List Char) := text.toList.splitOn '\n'

/-- Lines in front of the title of the memory rows. -/
abbrev stateLineCount : Nat := 24

/-- The rows of memory in a dump, with their addresses. -/
def readRows? (text : String) : Option (List (Nat × List UInt8)) :=
  ((linesOf text).drop (stateLineCount + 1)).mapM readRow?

/-- What a dump tells of a snapshot: all but the display. -/
def readDump (text : String) : Snapshot :=
  let line (k : Nat) : List Char := (linesOf text).getD k []
  { registers := (List.range registerCount).map fun r => numberBehind 8 (line (1 + r))
    index := numberBehind 5 (line 17)
    soundTimer := numberBehind 6 (line 18)
    delayTimer := numberBehind 6 (line 19)
    pc := numberBehind 6 (line 20)
    sp := numberBehind 6 (line 21)
    cycle := Decimal.signedValue ((line 22).drop 7)
    stack := readStack (line 23)
    memory := ((readRows? text).getD []).flatMap (·.2)
    display := [] }

/-! ## Lines -/

variable {s : Snapshot}

/-- A fixed text and a numeral make a line. -/
theorem notMem_line {name : String} (hname : '\n' ∉ name.toList) (width : Nat) (v : Int) :
    '\n' ∉ (name ++ Hex.lower width v).toList := by
  rw [String.toList_append, List.mem_append]
  exact not_or_intro hname (Hex.notMem_lower (by decide) rfl width v)

theorem notMem_registerLine (r : Int × Nat) : '\n' ∉ (registerLine r).toList := by
  unfold registerLine
  apply notMem_line
  simp only [String.toList_append, List.mem_append, not_or]
  exact ⟨⟨by decide, Hex.notMem_lower (by decide) rfl 1 r.2⟩, by decide⟩

theorem notMem_cycleLine (v : Int) : '\n' ∉ ("cycle: " ++ toString v).toList := by
  rw [String.toList_append, List.mem_append]
  refine not_or_intro (by decide) fun hmem => ?_
  exact absurd (Decimal.of_mem_toString hmem) (by decide)

/-- Parts without a character are joined by another one without it. -/
theorem notMem_intercalate {c d : Char} (hcd : c ≠ d) {parts : List (List Char)}
    (h : ∀ part ∈ parts, c ∉ part) : c ∉ [d].intercalate parts := by
  intro hmem
  have hall : ∀ e ∈ [d].intercalate parts, c ≠ e := by
    apply forall_mem_intercalate
    · intro e he
      rwa [List.mem_singleton.mp he]
    · rintro part hpart e he rfl
      exact h part hpart he
  exact hall c hmem rfl

theorem notMem_stackLine (stack : List Int) : '\n' ∉ (stackLine stack).toList := by
  unfold stackLine
  split
  next => decide
  next =>
    rw [String.toList_append, List.mem_append, String.toList_intercalate, List.map_map]
    refine not_or_intro (by decide) (notMem_intercalate (by decide) fun part hpart => ?_)
    obtain ⟨a, -, rfl⟩ := List.mem_map.mp hpart
    exact notMem_line (by decide) 3 a

/-! ## Rows of memory -/

/-- The characters of a row of memory. -/
def rowChars (a : Nat) (bytes : List UInt8) : List Char :=
  (Hex.upper 3 a).toList ++ ": ".toList ++
    [' '].intercalate (bytes.map fun v => (Hex.upper 2 v.toNat).toList)

/-- Sixteen bytes make a row. -/
theorem memoryRows_append (a : Nat) {row rest : List UInt8} (hrow : row.length = dumpWidth) :
    (memoryRows a (row ++ rest)).map String.toList =
      rowChars a row :: (memoryRows (a + dumpWidth) rest).map String.toList := by
  cases row with
  | nil => cases hrow
  | cons b row =>
      have htake : ((b :: row) ++ rest).take dumpWidth = b :: row := List.take_left' hrow
      have hdrop : (row ++ rest).drop (dumpWidth - 1) = rest :=
        List.drop_left' (Nat.succ.inj hrow)
      rw [List.cons_append] at htake ⊢
      rw [memoryRows, htake, hdrop, List.map_cons, String.toList_append, String.toList_append,
        String.toList_intercalate, List.map_map]
      rfl

theorem toBytes?_upper (v : UInt8) : Hex.toBytes? (Hex.upper 2 v.toNat).toList = some [v] := by
  have hall : ∀ k : Fin 256, Hex.toBytes? (Hex.upper 2 k.val).toList = some [UInt8.ofNat k] := by
    decide +kernel
  rw [hall ⟨v.toNat, v.toNat_lt⟩, UInt8.ofNat_toNat]

theorem mapM_toBytes?_upper (bytes : List UInt8) :
    (bytes.map fun v => (Hex.upper 2 v.toNat).toList).mapM Hex.toBytes? =
      some (bytes.map fun v => [v]) := by
  induction bytes with
  | nil => rfl
  | cons v bytes ih =>
      rw [List.map_cons, List.mapM_cons, toBytes?_upper, ih]
      rfl

/-- A row is read back. -/
theorem readRow?_rowChars {a : Nat} (ha : a < memorySize) {bytes : List UInt8}
    (hfilled : bytes ≠ []) : readRow? (rowChars a bytes) = some (a, bytes) := by
  have hlabel : (Hex.upper 3 a).toList.length = 3 := Hex.length_upper (by decide) ha
  have hhead : ((Hex.upper 3 a).toList ++ ": ".toList).length = 5 := by
    rw [List.length_append, hlabel]
    rfl
  have hblank : ∀ part ∈ bytes.map fun v => (Hex.upper 2 v.toNat).toList, ' ' ∉ part := by
    intro part hpart
    obtain ⟨v, -, rfl⟩ := List.mem_map.mp hpart
    exact Hex.notMem_upper rfl 2 v.toNat
  have hparts : (bytes.map fun v => (Hex.upper 2 v.toNat).toList) ≠ [] :=
    fun h => hfilled (List.map_eq_nil_iff.mp h)
  have hflat : (bytes.map fun v => [v]).flatten = bytes := by
    rw [← List.flatMap_def, List.flatMap_singleton']
  unfold readRow? rowChars
  rw [List.drop_left' hhead, List.splitOn_intercalate ' ' hblank hparts, mapM_toBytes?_upper,
    Option.map_some, hflat, List.append_assoc, List.take_left' hlabel, Hex.value_upper]

/-- The rows that a piece of memory of `16 * k` bytes is printed in are read back. -/
theorem mapM_readRow?_memoryRows (k a : Nat) (bytes : List UInt8)
    (hlength : bytes.length = 16 * k) (hroom : a + bytes.length ≤ 4096) :
    ∃ rows, ((memoryRows a bytes).map String.toList).mapM readRow? = some rows ∧
      rows.map (·.1) = (List.range k).map (a + 16 * ·) ∧
      (∀ row ∈ rows, row.2.length = 16) ∧ rows.flatMap (·.2) = bytes := by
  induction k generalizing a bytes with
  | zero =>
      rw [List.eq_nil_of_length_eq_zero hlength, memoryRows]
      exact ⟨[], rfl, rfl, fun _ hrow => absurd hrow List.not_mem_nil, rfl⟩
  | succ k ih =>
      have hrow : (bytes.take 16).length = 16 := by
        rw [List.length_take]
        omega
      have hrest : (bytes.drop 16).length = 16 * k := by
        rw [List.length_drop]
        omega
      have hfilled : bytes.take 16 ≠ [] := List.ne_nil_of_length_pos (by omega)
      obtain ⟨rows, hread, hlabels, hwidths, hbytes⟩ :=
        ih (a + 16) (bytes.drop 16) hrest (by omega)
      have hstart : a < 4096 := by omega
      have hsplit := bytes.take_append_drop 16
      refine ⟨(a, bytes.take 16) :: rows, ?_, ?_, ?_, ?_⟩
      · rw [← hsplit, memoryRows_append a hrow, List.mapM_cons,
          readRow?_rowChars hstart hfilled, hread, hsplit]
        rfl
      · rw [List.map_cons, hlabels, List.range_succ_eq_map, List.map_cons, List.map_map]
        congr 1
        apply List.map_congr_left
        intro i _
        show a + 16 + 16 * i = a + 16 * (i + 1)
        omega
      · exact List.forall_mem_cons.mpr ⟨hrow, hwidths⟩
      · rw [List.flatMap_cons, hbytes, hsplit]

/-! ## Lines of a dump -/

/-- The lines behind those of the registers. -/
def counterLines (s : Snapshot) : List String :=
  [ "i: 0x" ++ Hex.lower 3 s.index
  , "st: 0x" ++ Hex.lower 2 s.soundTimer
  , "dt: 0x" ++ Hex.lower 2 s.delayTimer
  , "pc: 0x" ++ Hex.lower 3 s.pc
  , "sp: 0x" ++ Hex.lower 3 s.sp
  , "cycle: " ++ toString s.cycle
  , stackLine s.stack ]

/-- The lines that show memory, if it is shown. -/
def memoryLines (s : Snapshot) (withMemory : Bool) : List String :=
  if withMemory then "---Memory---" :: memoryRows 0 (s.memory.take memorySize) else []

theorem dumpLines_eq (s : Snapshot) (withMemory : Bool) :
    s.dumpLines withMemory = "---Registers---" :: (s.registers.zipIdx.map registerLine ++
      (s.counterLines ++ s.memoryLines withMemory)) := by
  unfold dumpLines stateLines
  rw [List.append_assoc, List.append_assoc]
  rfl

theorem notMem_memoryRows (a : Nat) (bytes : List UInt8) :
    ∀ line ∈ memoryRows a bytes, '\n' ∉ line.toList := by
  fun_induction memoryRows a bytes with
  | case1 => exact nofun
  | case2 a b rest ih =>
      refine List.forall_mem_cons.mpr ⟨?_, ih⟩
      rw [String.toList_append, String.toList_append, String.toList_intercalate, List.map_map,
        List.mem_append, List.mem_append]
      refine not_or_intro (not_or_intro (Hex.notMem_upper rfl 3 a) (by decide)) ?_
      refine notMem_intercalate (by decide) fun part hpart => ?_
      obtain ⟨v, -, rfl⟩ := List.mem_map.mp hpart
      exact Hex.notMem_upper rfl 2 v.toNat

/-- No line of a dump has a line break in it. -/
theorem notMem_dumpLines (s : Snapshot) (withMemory : Bool) :
    ∀ line ∈ s.dumpLines withMemory, '\n' ∉ line.toList := by
  intro line hline
  rw [dumpLines_eq, List.mem_cons, List.mem_append, List.mem_append] at hline
  rcases hline with rfl | hregister | hcounter | hmemory
  · decide
  · obtain ⟨r, -, rfl⟩ := List.mem_map.mp hregister
    exact notMem_registerLine r
  · simp only [counterLines, List.mem_cons, List.not_mem_nil, or_false] at hcounter
    rcases hcounter with rfl | rfl | rfl | rfl | rfl | rfl | rfl
    · exact notMem_line (by decide) 3 s.index
    · exact notMem_line (by decide) 2 s.soundTimer
    · exact notMem_line (by decide) 2 s.delayTimer
    · exact notMem_line (by decide) 3 s.pc
    · exact notMem_line (by decide) 3 s.sp
    · exact notMem_cycleLine s.cycle
    · exact notMem_stackLine s.stack
  · unfold memoryLines at hmemory
    split at hmemory
    · rcases List.mem_cons.mp hmemory with rfl | hrow
      · decide
      · exact notMem_memoryRows _ _ line hrow
    · cases hmemory

/-- A dump falls into its lines. -/
theorem linesOf_dump (s : Snapshot) (withMemory : Bool) :
    linesOf (s.dump withMemory) = (s.dumpLines withMemory).map String.toList := by
  have hbreak : ∀ line ∈ (s.dumpLines withMemory).map String.toList, '\n' ∉ line := by
    intro line hline
    obtain ⟨text, htext, rfl⟩ := List.mem_map.mp hline
    exact notMem_dumpLines s withMemory text htext
  have hfilled : (s.dumpLines withMemory).map String.toList ≠ [] := by
    rw [dumpLines_eq]
    exact List.cons_ne_nil _ _
  unfold linesOf dump
  rw [String.toList_intercalate]
  exact List.splitOn_intercalate '\n' hbreak hfilled

theorem registerLine_eq (hcount : s.registers.length = registerCount) (withMemory : Bool)
    {r : Nat} (hr : r < registerCount) :
    (linesOf (s.dump withMemory)).getD (1 + r) [] =
      (registerLine (s.registers.getD r 0, r)).toList := by
  have hr' : r < s.registers.length := Nat.lt_of_lt_of_eq hr hcount.symm
  rw [linesOf_dump, dumpLines_eq, Nat.add_comm, List.map_cons, List.getD_cons_succ,
    List.map_append, List.getD_eq_getElem?_getD, List.getElem?_append_left (by simpa using hr')]
  simp [hr']

theorem counterLine_eq (hcount : s.registers.length = registerCount) (withMemory : Bool) (j : Nat) :
    (linesOf (s.dump withMemory)).getD (17 + j) [] =
      ((s.counterLines ++ s.memoryLines withMemory).map String.toList).getD j [] := by
  have hlength : ((s.registers.zipIdx.map registerLine).map String.toList).length = 16 := by
    simpa using hcount
  have hplace : 17 + j = 16 + j + 1 := by omega
  rw [linesOf_dump, dumpLines_eq, hplace, List.map_cons, List.getD_cons_succ,
    List.map_append, List.getD_eq_getElem?_getD, List.getElem?_append_right (by omega), hlength,
    Nat.add_sub_cancel_left, ← List.getD_eq_getElem?_getD]

/-! ## Numbers in lines -/

theorem numberBehind_line {name : String} {n : Nat} (hname : name.toList.length = n) (width : Nat)
    (v : Int) : numberBehind n (name ++ Hex.lower width v).toList = v := by
  unfold numberBehind
  rw [String.toList_append, List.drop_left' hname, Hex.signedValue_lower]

theorem numberBehind_registerLine (v : Int) {r : Nat} (hr : r < registerCount) :
    numberBehind 8 (registerLine (v, r)).toList = v := by
  have hdigit : ∀ k : Fin 16, (Hex.lower 1 k.val).toList.length = 1 := by decide
  unfold registerLine
  apply numberBehind_line
  rw [String.toList_append, String.toList_append, List.length_append, List.length_append,
    hdigit ⟨r, hr⟩]
  rfl

theorem signedValue_cycleLine (v : Int) :
    Decimal.signedValue (("cycle: " ++ toString v).toList.drop 7) = v := by
  have hname : "cycle: ".toList.length = 7 := by decide
  rw [String.toList_append, List.drop_left' hname, Decimal.signedValue_toString]

/-- The stack is read back. -/
theorem readStack_stackLine (stack : List Int) : readStack (stackLine stack).toList = stack := by
  cases stack with
  | nil => rfl
  | cons a rest =>
      have hname : "stack: ".toList.length = 7 := by decide
      have hblank : ∀ part ∈ (a :: rest).map fun a => ("0x" ++ Hex.lower 3 a).toList,
          ' ' ∉ part := by
        intro part hpart
        obtain ⟨v, -, rfl⟩ := List.mem_map.mp hpart
        rw [String.toList_append, List.mem_append]
        exact not_or_intro (by decide) (Hex.notMem_lower (by decide) rfl 3 v)
      have hline : (stackLine (a :: rest)).toList = "stack: ".toList ++
          [' '].intercalate ((a :: rest).map fun a => ("0x" ++ Hex.lower 3 a).toList) := by
        unfold stackLine
        rw [String.toList_append, String.toList_intercalate, List.map_map]
        rfl
      have hwords : [' '].intercalate ((a :: rest).map fun a => ("0x" ++ Hex.lower 3 a).toList) ≠
          "<empty>".toList := by
        intro heq
        have hhead := congrArg List.head? heq
        rw [List.map_cons, String.toList_append] at hhead
        cases rest <;> cases hhead
      have hother : (stackLine (a :: rest)).toList ≠ "stack: <empty>".toList := by
        rw [hline]
        exact fun heq => hwords (List.append_cancel_left (heq : _ = "stack: ".toList ++ _))
      unfold readStack
      rw [if_neg hother, hline, List.drop_left' hname,
        List.splitOn_intercalate ' ' hblank (List.cons_ne_nil _ _), List.map_map]
      exact (List.map_congr_left fun v _ => numberBehind_line (by decide) 3 v).trans
        (List.map_id _)

/-! ## The whole dump -/

/-- The rows of memory are read back. -/
theorem readRows?_dump (hs : s.IsCapture) :
    ∃ rows, readRows? (s.dump true) = some rows ∧
      rows.map (·.1) = (List.range 256).map (16 * ·) ∧
      (∀ row ∈ rows, row.2.length = 16) ∧ rows.flatMap (·.2) = s.memory := by
  have hwhole : s.memory.take memorySize = s.memory :=
    List.take_of_length_le (Nat.le_of_eq hs.memoryLength)
  obtain ⟨rows, hread, hlabels, hwidths, hbytes⟩ :=
    mapM_readRow?_memoryRows 256 0 s.memory hs.memoryLength
      (Nat.le_of_eq ((Nat.zero_add _).trans hs.memoryLength))
  simp only [Nat.zero_add] at hlabels
  have hrows : (linesOf (s.dump true)).drop (stateLineCount + 1) =
      (memoryRows 0 s.memory).map String.toList := by
    have hfront : (("---Registers---" :: (s.registers.zipIdx.map registerLine ++
        (s.counterLines ++ ["---Memory---"]))).map String.toList).length = stateLineCount + 1 := by
      simp [hs.registerCount, counterLines]
    have hlines : (s.dumpLines true).map String.toList =
        ("---Registers---" :: (s.registers.zipIdx.map registerLine ++
          (s.counterLines ++ ["---Memory---"]))).map String.toList ++
            (memoryRows 0 s.memory).map String.toList := by
      rw [dumpLines_eq, memoryLines, if_pos rfl, hwhole, ← List.map_append, List.cons_append,
        List.append_assoc, List.append_assoc]
      rfl
    rw [linesOf_dump, hlines, List.drop_left' hfront]
  refine ⟨rows, ?_, hlabels, hwidths, hbytes⟩
  unfold readRows?
  rw [hrows, hread]

/-- Without memory there are no rows. -/
theorem readRows?_dump_false (hcount : s.registers.length = registerCount) :
    readRows? (s.dump false) = some [] := by
  have hlength : (s.dumpLines false).length = stateLineCount := by
    rw [dumpLines_eq]
    simp [hcount, counterLines, memoryLines]
  unfold readRows?
  rw [linesOf_dump, List.drop_of_length_le]
  · rfl
  · rw [List.length_map, hlength]
    omega

/-- What a dump shows is read back. -/
theorem readDump_dump (hs : s.IsCapture) (withMemory : Bool) :
    readDump (s.dump withMemory) =
      { s with memory := if withMemory then s.memory else [], display := [] } := by
  have hregisters : ((List.range registerCount).map fun r =>
      numberBehind 8 ((linesOf (s.dump withMemory)).getD (1 + r) [])) = s.registers := by
    apply List.ext_getElem
    · rw [List.length_map, List.length_range, hs.registerCount]
    · intro r hr hr'
      have hr'' : r < registerCount := Nat.lt_of_lt_of_eq hr' hs.registerCount
      rw [List.getElem_map, List.getElem_range, registerLine_eq hs.registerCount withMemory hr'',
        numberBehind_registerLine _ hr'', List.getD_eq_getElem?_getD, List.getElem?_eq_getElem hr']
      rfl
  have hmemory : ((readRows? (s.dump withMemory)).getD []).flatMap (·.2) =
      if withMemory then s.memory else [] := by
    cases withMemory with
    | true =>
        obtain ⟨rows, hread, -, -, hbytes⟩ := readRows?_dump hs
        rw [hread]
        exact hbytes
    | false =>
        rw [readRows?_dump_false hs.registerCount]
        rfl
  have hline := counterLine_eq hs.registerCount withMemory
  have hindex : numberBehind 5 ((linesOf (s.dump withMemory)).getD 17 []) = s.index := by
    rw [hline 0]
    exact numberBehind_line (by decide) 3 s.index
  have hsound : numberBehind 6 ((linesOf (s.dump withMemory)).getD 18 []) = s.soundTimer := by
    rw [hline 1]
    exact numberBehind_line (by decide) 2 s.soundTimer
  have hdelay : numberBehind 6 ((linesOf (s.dump withMemory)).getD 19 []) = s.delayTimer := by
    rw [hline 2]
    exact numberBehind_line (by decide) 2 s.delayTimer
  have hpc : numberBehind 6 ((linesOf (s.dump withMemory)).getD 20 []) = s.pc := by
    rw [hline 3]
    exact numberBehind_line (by decide) 3 s.pc
  have hsp : numberBehind 6 ((linesOf (s.dump withMemory)).getD 21 []) = s.sp := by
    rw [hline 4]
    exact numberBehind_line (by decide) 3 s.sp
  have hcycle : Decimal.signedValue (((linesOf (s.dump withMemory)).getD 22 []).drop 7) =
      s.cycle := by
    rw [hline 5]
    exact signedValue_cycleLine s.cycle
  have hstack : readStack ((linesOf (s.dump withMemory)).getD 23 []) = s.stack := by
    rw [hline 6]
    exact readStack_stackLine s.stack
  unfold readDump
  rw [Snapshot.mk.injEq]
  exact ⟨hregisters, hindex, hdelay, hsound, hpc, hsp, hcycle, hstack, hmemory, rfl⟩

/-- The snapshots agree on registers, counters and stack. -/
structure Agree (s t : Snapshot) : Prop where
  registers : s.registers = t.registers
  index : s.index = t.index
  delayTimer : s.delayTimer = t.delayTimer
  soundTimer : s.soundTimer = t.soundTimer
  pc : s.pc = t.pc
  sp : s.sp = t.sp
  cycle : s.cycle = t.cycle
  stack : s.stack = t.stack

/-- A dump shows nothing else, memory apart. -/
theorem Agree.stateLines_eq {s t : Snapshot} (h : Agree s t) : s.stateLines = t.stateLines := by
  unfold stateLines
  rw [h.registers, h.index, h.delayTimer, h.soundTimer, h.pc, h.sp, h.cycle, h.stack]

/-- Snapshots with one dump agree. -/
theorem agree_of_dump {s t : Snapshot} (hs : s.IsCapture) (ht : t.IsCapture) {withMemory : Bool}
    (h : s.dump withMemory = t.dump withMemory) :
    Agree s t ∧ (withMemory = true → s.memory = t.memory) := by
  have hread := congrArg readDump h
  rw [readDump_dump hs, readDump_dump ht, Snapshot.mk.injEq] at hread
  obtain ⟨hregisters, hindex, hdelay, hsound, hpc, hsp, hcycle, hstack, hmemory, -⟩ := hread
  refine ⟨⟨hregisters, hindex, hdelay, hsound, hpc, hsp, hcycle, hstack⟩, ?_⟩
  rintro rfl
  exact hmemory

end Snapshot

/-- A dump loses nothing but the display. Two machines have one dump iff they agree on registers,
counters, stack and memory, and one dump without memory iff they agree on all of these but the
memory. The 256 rows of memory, read back as an address and sixteen bytes each, are the memory. -/
theorem Machine.dump_faithful (m n : Machine) :
    (m.snapshot.dump true = n.snapshot.dump true ↔
      m.snapshot.Agree n.snapshot ∧ m.snapshot.memory = n.snapshot.memory) ∧
    (m.snapshot.dump false = n.snapshot.dump false ↔ m.snapshot.Agree n.snapshot) ∧
    ∃ rows, Snapshot.readRows? (m.snapshot.dump true) = some rows ∧
      rows.map (·.1) = (List.range 256).map (16 * ·) ∧
      (∀ row ∈ rows, row.2.length = 16) ∧ rows.flatMap (·.2) = m.snapshot.memory := by
  have hm := m.isCapture_snapshot
  have hn := n.isCapture_snapshot
  refine ⟨⟨?_, ?_⟩, ⟨?_, ?_⟩, Snapshot.readRows?_dump hm⟩
  · intro hdump
    obtain ⟨hagree, hmemory⟩ := Snapshot.agree_of_dump hm hn hdump
    exact ⟨hagree, hmemory rfl⟩
  · rintro ⟨hagree, hmemory⟩
    unfold Snapshot.dump Snapshot.dumpLines
    rw [hagree.stateLines_eq, hmemory]
  · intro hdump
    exact (Snapshot.agree_of_dump hm hn hdump).1
  · intro hagree
    unfold Snapshot.dump Snapshot.dumpLines
    rw [hagree.stateLines_eq]
    rfl

end ChipEight

import ChipEight.Proofs.Machine.Frame
import ChipEight.Proofs.Memory.Journal

/-!
# What a machine asks of its memory

A machine changes its memory by pushes, pops and single stores only. `Machine.asked` says which
operations an instruction asks of memory, and `Machine.Performs` collects them along a run. So what
is known of sequences of operations is known of runs: the log of stores is faithful to them, and
each of its entries was written by an instruction `Fx33` or `Fx55`, which it names.

## Main results

* `Machine.Executes.memory_asked`, `Machine.Executes.entriesOf_asked` — an instruction does to
  memory what it asks for, and its stores are the entries for that.
* `Machine.Performs.storedBy` — which instruction has written an entry.
* `Machine.Performs.journals` — the log of a machine is faithful to its run.
-/

namespace ChipEight

/-- The word is `Fx33` or `Fx55`. -/
def Word.Stores (w : Word) : Prop := w.family.val = 0xF ∧ (w.byte = 0x33 ∨ w.byte = 0x55)

instance : DecidablePred Word.Stores := fun w =>
  inferInstanceAs (Decidable (w.family.val = 0xF ∧ (_ ∨ _)))

namespace Machine

/-! ## Instructions -/

/-- What a word asks of memory. -/
def asked (m : Machine) (w : Word) : List Memory.Op :=
  if w.family.val = 0x2 then [.push m.pc]
  else if w = 0x00EE then [.pop]
  else Memory.writes m.index.toNat (some m.pc) (m.bytesStored w)

variable {m m' m'' : Machine} {divider : Int} {keys : Keyboard} {s : Step} {i : Instruction}
  {w : Word} {ops ops' : List Memory.Op} {e : ByteWrite}

/-- Nothing is asked that memory would not log or take back. -/
theorem quiet_of_mem_asked {o : Memory.Op} (ho : o ∈ m.asked w) :
    o ≠ .clearLog ∧ ∀ program, o ≠ .load program := by
  unfold asked at ho
  split at ho
  · rw [List.mem_singleton.mp ho]
    exact ⟨nofun, nofun⟩
  · split at ho
    · rw [List.mem_singleton.mp ho]
      exact ⟨nofun, nofun⟩
    · obtain ⟨address, value, rfl⟩ := Memory.mem_writes ho
      exact ⟨nofun, nofun⟩

theorem bytesStored_of_not_stores (h : ¬w.Stores) : m.bytesStored w = [] := by
  unfold bytesStored
  rw [if_neg fun hdecimal => h ⟨hdecimal.1, .inl hdecimal.2⟩,
    if_neg fun hregs => h ⟨hregs.1, .inr hregs.2⟩]

namespace Executes

/-- What is stored lies in memory. -/
theorem room_of_stores (hexec : Executes m divider keys s i) (hstores : s.word.Stores) :
    m.index.toNat + (m.bytesStored s.word).length ≤ memorySize := by
  have hword := Instruction.toWord_of_ofWord? hexec.decoded
  obtain ⟨hfamily, hbyte⟩ := hstores
  have hdecode := hexec.decoded
  rw [Instruction.ofWord?_of_family_misc hfamily] at hdecode
  rcases hbyte with hdecimal | hregs
  · rw [hdecimal] at hdecode
    cases hdecode
    obtain ⟨hlow, hroom⟩ := (allowed_storeDecimal.mp hexec.allowed).2
    rw [← hword, bytesStored_storeDecimal]
    show m.index.toNat + 3 ≤ memorySize
    omega
  · rw [hregs] at hdecode
    cases hdecode
    obtain ⟨hlow, hroom⟩ := (allowed_storeRegs.mp hexec.allowed).2
    rw [← hword, bytesStored_storeRegs, List.length_map, Action.length_upTo]
    omega

/-- An instruction does to memory what it asks for. -/
theorem memory_asked (hexec : Executes m divider keys s i) :
    s.next.memory = m.memory.performAll (m.asked s.word) := by
  unfold asked
  by_cases hcall : s.word.family.val = 0x2
  · obtain ⟨hroom, hmemory⟩ := hexec.memory_of_call hcall
    rw [if_pos hcall, hmemory]
    show _ = m.memory.perform (.push m.pc)
    rw [Memory.perform_push, if_pos hroom]
  · rw [if_neg hcall]
    by_cases hret : s.word = 0x00EE
    · rw [if_pos hret, (hexec.memory_of_ret hret).2]
      exact (Memory.perform_pop m.memory).symm
    · rw [if_neg hret, hexec.memory_of_other hcall hret]
      by_cases hstores : s.word.Stores
      · exact (Memory.performAll_writes _ (hexec.room_of_stores hstores)).symm
      · rw [bytesStored_of_not_stores hstores]
        rfl

/-- The stores of an instruction are the entries for what it asks of memory. -/
theorem entriesOf_asked (hexec : Executes m divider keys s i) :
    m.memory.entriesOf (m.asked s.word) = m.stores s.word := by
  unfold asked stores
  by_cases hstores : s.word.Stores
  · have hcall : s.word.family.val ≠ 0x2 := by
      rw [hstores.1]
      decide
    have hret : s.word ≠ 0x00EE := by
      intro hret
      rw [hret] at hstores
      exact absurd hstores.1 (by decide)
    rw [if_neg hcall, if_neg hret]
    exact Memory.entriesOf_writes _ (hexec.room_of_stores hstores)
  · rw [bytesStored_of_not_stores hstores]
    split
    · rfl
    · split <;> rfl

end Executes

/-! ## Runs -/

/-- A run from one machine to another asks the operations `ops` of memory. The random source may be
replaced on the way. -/
inductive Performs (divider : Int) : Machine → List Memory.Op → Machine → Prop
  | refl (m : Machine) : Performs divider m [] m
  | step {m m' : Machine} {keys : Keyboard} {s : Step} {i : Instruction} {ops : List Memory.Op}
    (hexec : m.Executes divider keys s i) (hrest : Performs divider s.next ops m') :
    Performs divider m (m.asked s.word ++ ops) m'
  | reseed {m m' : Machine} {ops : List Memory.Op} (random : Generator)
    (hrest : Performs divider { m with random } ops m') : Performs divider m ops m'

namespace Performs

theorem trans (h : Performs divider m ops m') (h' : Performs divider m' ops' m'') :
    Performs divider m (ops ++ ops') m'' := by
  induction h with
  | refl m => exact h'
  | @step m m' keys s i ops hexec _ ih =>
      rw [List.append_assoc]
      exact .step hexec (ih h')
  | reseed random _ ih => exact .reseed random (ih h')

/-- A run does to memory what it asks for. -/
theorem memory (h : Performs divider m ops m') : m'.memory = m.memory.performAll ops := by
  induction h with
  | refl m => rfl
  | step hexec _ ih => rw [ih, hexec.memory_asked, Memory.performAll_append]
  | reseed random _ ih => exact ih

theorem quiet (h : Performs divider m ops m') :
    .clearLog ∉ ops ∧ ∀ program, .load program ∉ ops := by
  induction h with
  | refl m => exact ⟨List.not_mem_nil, fun _ => List.not_mem_nil⟩
  | step hexec _ ih =>
      simp only [List.mem_append, not_or]
      exact ⟨⟨fun hmem => (quiet_of_mem_asked hmem).1 rfl, ih.1⟩, fun program =>
        ⟨fun hmem => (quiet_of_mem_asked hmem).2 program rfl, ih.2 program⟩⟩
  | reseed random _ ih => exact ih

/-- Every operation of a run is asked by one of its instructions. -/
theorem exists_asked {o : Memory.Op} (h : Performs divider m ops m') :
    ∀ {before after}, ops = before ++ o :: after →
      ∃ n keys s i past first last future, Performs divider m past n ∧
        Executes n divider keys s i ∧ Performs divider s.next future m' ∧
        n.asked s.word = first ++ o :: last ∧ before = past ++ first ∧ after = last ++ future := by
  induction h with
  | refl m =>
      intro before after hops
      cases before <;> cases hops
  | @step m m' keys s i ops hexec hrest ih =>
      intro before after hops
      rcases List.append_eq_append_iff.mp hops with
        ⟨front, hbefore, hlater⟩ | ⟨rear, hasked, hrear⟩
      · obtain ⟨n, keys', s', i', past, first, last, future, hpast, hnow, hfuture, hask, hfront,
          rfl⟩ := ih hlater
        have hall : before = m.asked s.word ++ past ++ first := by
          rw [hbefore, hfront, List.append_assoc]
        exact ⟨n, keys', s', i', _, first, last, future, .step hexec hpast, hnow, hfuture, hask,
          hall, rfl⟩
      · cases rear with
        | nil =>
            -- The instruction asks no more than what comes before.
            obtain ⟨n, keys', s', i', past, first, last, future, hpast, hnow, hfuture, hask, hnil,
              rfl⟩ := ih (show ops = [] ++ o :: after from hrear.symm)
            have hall : before = m.asked s.word ++ past ++ first := by
              rw [List.append_assoc, ← hnil, List.append_nil, hasked, List.append_nil]
            exact ⟨n, keys', s', i', _, first, last, future, .step hexec hpast, hnow, hfuture, hask,
              hall, rfl⟩
        | cons o' last =>
            obtain ⟨rfl, rfl⟩ := List.cons.inj hrear
            exact ⟨m, keys, s, i, [], before, last, ops, .refl m, hexec, hrest, hasked, rfl, rfl⟩
  | reseed random hrest ih =>
      intro before after hops
      obtain ⟨n, keys, s, i, past, first, last, future, hpast, hrest⟩ := ih hops
      exact ⟨n, keys, s, i, past, first, last, future, .reseed random hpast, hrest⟩

end Performs

/-! ## The log of a run -/

/-- Between the machines `m` and `m'` an instruction `Fx33` or `Fx55` has stored a byte, whose entry
holds the address of the instruction. Given are the entry, the entries that have followed it, and
memory just before the store. -/
inductive StoredBy (divider : Int) (m m' : Machine) : ByteWrite → List ByteWrite → Memory → Prop
  | intro {n : Machine} {keys : Keyboard} {s : Step} {i : Instruction} {e : ByteWrite}
    {o : Memory.Op} {past first last future : List Memory.Op}
    (hpast : Performs divider m past n) (hexec : Executes n divider keys s i)
    (hfuture : Performs divider s.next future m') (hstores : s.word.Stores)
    (hasked : n.asked s.word = first ++ o :: last)
    (hentry : o.record? (n.memory.performAll first) = some e) (hpc : e.pc = some n.pc) :
    StoredBy divider m m' e
      ((n.memory.performAll (first ++ [o])).entriesOf last ++ s.next.memory.entriesOf future)
      (n.memory.performAll first)

/-- Only `Fx33` and `Fx55` ask for operations with an entry, and they name themselves in it. -/
theorem of_entry_asked {o : Memory.Op} {n : Memory} (ho : o ∈ m.asked w)
    (hentry : o.record? n = some e) : w.Stores ∧ e.pc = some m.pc := by
  unfold asked at ho
  split at ho
  · rw [List.mem_singleton.mp ho] at hentry
    cases hentry
  · split at ho
    · rw [List.mem_singleton.mp ho] at hentry
      cases hentry
    · constructor
      · refine Decidable.byContradiction fun hno => ?_
        rw [bytesStored_of_not_stores hno] at ho
        cases ho
      · obtain ⟨address, value, rfl⟩ := Memory.mem_writes ho
        exact Memory.pc_of_entry hentry

/-- The log of the machine `m'` is a faithful record of what was stored since it was `m`. -/
structure Journals (divider : Int) (m m' : Machine) : Prop where
  /-- It holds the entries for what the run has asked of memory, as many of the latest as it has
  room for. -/
  entries : ∃ ops, Performs divider m ops m' ∧ m'.memory = m.memory.performAll ops ∧
    m'.memory.log.toList = Recent.rear m.memory.log.capacity (m.memory.entriesOf ops)
  /-- Each of them was written by an instruction that it names. -/
  written : ∀ e ∈ m'.memory.log.toList, ∃ later before, StoredBy divider m m' e later before
  /-- With what they replaced put back, memory behind the stack is what it was just before the
  oldest of these stores. -/
  undo : ∀ oldest later, m'.memory.log.toList = oldest :: later →
    ∃ before, StoredBy divider m m' oldest later before ∧
      ∀ a, stackLimit ≤ a →
        (Memory.undone m'.memory.bytes (oldest :: later))[a]? = before.bytes[a]?

namespace Performs

/-- The operation of an entry is one of an instruction that stores. -/
theorem storedBy {o : Memory.Op} {before after : List Memory.Op}
    (h : Performs divider m (before ++ o :: after) m')
    (hentry : o.record? (m.memory.performAll before) = some e) :
    StoredBy divider m m' e ((m.memory.performAll (before ++ [o])).entriesOf after)
      (m.memory.performAll before) := by
  obtain ⟨n, keys, s, i, past, first, last, future, hpast, hexec, hfuture, hasked, rfl, rfl⟩ :=
    h.exists_asked rfl
  have hmem : o ∈ n.asked s.word := by
    rw [hasked]
    exact List.mem_append_right first List.mem_cons_self
  have hnow : m.memory.performAll (past ++ first) = n.memory.performAll first := by
    rw [Memory.performAll_append, ← hpast.memory]
  have hnext : m.memory.performAll (past ++ first ++ [o]) =
      n.memory.performAll (first ++ [o]) := by
    rw [List.append_assoc, Memory.performAll_append, ← hpast.memory]
  have hbehind : (n.memory.performAll (first ++ [o])).performAll last = s.next.memory := by
    rw [hexec.memory_asked, hasked, ← Memory.performAll_append, List.append_assoc]
    rfl
  rw [hnow] at hentry ⊢
  obtain ⟨hstores, hpc⟩ := of_entry_asked hmem hentry
  rw [hnext, Memory.entriesOf_append, hbehind]
  exact .intro hpast hexec hfuture hstores hasked hentry hpc

/-- The log of a machine is faithful to a run that began when it was empty. -/
theorem journals (h : Performs divider m ops m') (hempty : m.memory.log.toList = []) :
    Journals divider m m' := by
  obtain ⟨hkeeps, hload⟩ := h.quiet
  have hlog : m'.memory.log.toList =
      Recent.rear m.memory.log.capacity (m.memory.entriesOf ops) := by
    rw [h.memory, Memory.log_performAll hkeeps, Recent.toList_foldl_push, hempty, List.nil_append]
  refine ⟨⟨ops, h, h.memory, hlog⟩, ?_, ?_⟩
  · intro e he
    rw [hlog] at he
    obtain ⟨front, hfront⟩ :=
      Memory.exists_append_rear m.memory.log.capacity (m.memory.entriesOf ops)
    have hmem : e ∈ m.memory.entriesOf ops := by
      rw [hfront]
      exact List.mem_append_right front he
    obtain ⟨earlier, later, hsplit⟩ := List.append_of_mem hmem
    obtain ⟨before, o, after, rfl, -, hentry, -⟩ := Memory.exists_op_of_entriesOf hsplit
    exact ⟨_, _, h.storedBy hentry⟩
  · intro oldest later hentries
    rw [h.memory] at hentries
    obtain ⟨before, o, after, rfl, -, hentry, hlater, hundo⟩ :=
      (Memory.journals hempty hload).undo oldest later hentries
    rw [h.memory]
    refine ⟨m.memory.performAll before, ?_, hundo⟩
    rw [← hlater]
    exact h.storedBy hentry

end Performs

end Machine

end ChipEight

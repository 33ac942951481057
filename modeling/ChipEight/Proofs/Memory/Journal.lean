import ChipEight.Proofs.Memory.History

/-!
# The log of stores as a way back

Every entry of the log holds the byte that its store replaced. Putting these bytes back, the newest
first, takes the stores back one by one. Return addresses are written without entries, but only
below `stackLimit`; a load is written without entries too. So if nothing is loaded, memory from
`stackLimit` on becomes what it was before the oldest store that is taken back, wherever the log was
cut off or emptied.

All entries, also those that the log has dropped, are read off the operations by
`Memory.entriesOf`. One operation is taken back by its entry, if it has one; everything else is
induction on the operations.

## Main results

* `Memory.log_performAll` — the log holds the last entries.
* `Memory.undone_entriesOf` — putting back what was replaced takes operations back.
* `Memory.journals` — both, whatever was done since the log was empty.
-/

namespace ChipEight

namespace Memory

variable {m : Memory} {bytes bytes' : Vector UInt8 memorySize} {a : Nat} {ops : List Op}

/-! ## Entries -/

/-- The entry for an operation on the memory `m`. Only stores that succeed have one. -/
def Op.record? (m : Memory) : Op → Option ByteWrite
  | .writeByte address value pc =>
    if InRange address 1 then
      some { address := address.toNat, value := UInt8.ofInt value,
             previous := m.byte address.toNat, pc }
    else none
  | _ => none

/-- The entry of a store has its program counter. -/
theorem pc_of_entry {address value : Int} {pc : Option Int} {e : ByteWrite}
    (h : (Op.writeByte address value pc).record? m = some e) : e.pc = pc := by
  rw [Op.record?] at h
  split at h
  · cases h
    rfl
  · cases h

/-- The entries for a sequence of operations, the oldest first. -/
def entriesOf (m : Memory) : List Op → List ByteWrite
  | [] => []
  | o :: ops => (o.record? m).toList ++ (m.perform o).entriesOf ops

theorem performAll_cons (m : Memory) (o : Op) (ops : List Op) :
    m.performAll (o :: ops) = (m.perform o).performAll ops := List.foldl_cons ..

theorem performAll_append (m : Memory) (ops ops' : List Op) :
    m.performAll (ops ++ ops') = (m.performAll ops).performAll ops' := List.foldl_append

theorem entriesOf_append (m : Memory) (ops ops' : List Op) :
    m.entriesOf (ops ++ ops') = m.entriesOf ops ++ (m.performAll ops).entriesOf ops' := by
  induction ops generalizing m with
  | nil => rfl
  | cons o ops ih =>
      rw [List.cons_append, entriesOf, entriesOf, ih, List.append_assoc]
      rfl

/-- An entry belongs to one of the operations. -/
theorem exists_op_of_entriesOf {front later : List ByteWrite} {e : ByteWrite}
    (h : m.entriesOf ops = front ++ e :: later) :
    ∃ before o after, ops = before ++ o :: after ∧ m.entriesOf before = front ∧
      o.record? (m.performAll before) = some e ∧
      (m.performAll (before ++ [o])).entriesOf after = later := by
  induction ops generalizing m front with
  | nil =>
      have hlength := congrArg List.length h
      rw [List.length_append, List.length_cons] at hlength
      exact absurd hlength (Nat.ne_of_lt (by show 0 < _; omega))
  | cons o ops ih =>
      rw [entriesOf] at h
      cases hentry : o.record? m with
      | none =>
          rw [hentry] at h
          obtain ⟨before, o', after, rfl, hfront, he, hlater⟩ := ih h
          refine ⟨o :: before, o', after, rfl, ?_, he, hlater⟩
          rw [entriesOf, hentry, hfront]
          rfl
      | some e' =>
          rw [hentry] at h
          cases front with
          | nil =>
              obtain ⟨rfl, hlater⟩ := List.cons.inj h
              exact ⟨[], o, ops, rfl, rfl, hentry, hlater⟩
          | cons e'' front =>
              obtain ⟨rfl, hrest⟩ := List.cons.inj h
              obtain ⟨before, o', after, rfl, hfront, he, hlater⟩ := ih hrest
              refine ⟨o :: before, o', after, rfl, ?_, he, hlater⟩
              rw [entriesOf, hentry, hfront]
              rfl

/-! ## The log -/

/-- An operation adds its entry to the log, unless it empties the log. -/
theorem log_perform {o : Op} (hkeeps : o ≠ .clearLog) :
    (m.perform o).log = (o.record? m).toList.foldl Recent.push m.log := by
  cases o with
  | writeByte address value pc =>
      rw [perform_writeByte, Op.record?]
      split <;> rfl
  | push address =>
      rw [perform_push]
      split <;> rfl
  | pop =>
      rw [perform_pop]
      rfl
  | load program =>
      rw [perform_load]
      split <;> rfl
  | clearLog => exact absurd rfl hkeeps
  | read q =>
      rw [perform_read]
      rfl

/-- What is added to the log as long as nobody empties it. -/
theorem log_performAll (hkeeps : .clearLog ∉ ops) :
    (m.performAll ops).log = (m.entriesOf ops).foldl Recent.push m.log := by
  induction ops generalizing m with
  | nil => rfl
  | cons o ops ih =>
      rw [List.mem_cons, not_or] at hkeeps
      rw [entriesOf, List.foldl_append, ← log_perform (Ne.symm hkeeps.1)]
      exact ih hkeeps.2

theorem capacity_perform (o : Op) : (m.perform o).log.capacity = m.log.capacity := by
  by_cases hclear : o = .clearLog
  · rw [hclear]
    rfl
  · rw [log_perform hclear, Recent.capacity_foldl_push]

theorem capacity_performAll (m : Memory) (ops : List Op) :
    (m.performAll ops).log.capacity = m.log.capacity := by
  induction ops generalizing m with
  | nil => rfl
  | cons o ops ih => exact (ih (m.perform o)).trans (capacity_perform o)

/-! ## Taking back -/

/-- The bytes with those put back that the stores of some entries have replaced, the newest
first. -/
def undone (bytes : Vector UInt8 memorySize) (entries : List ByteWrite) :
    Vector UInt8 memorySize :=
  entries.foldr (fun e bytes => bytes.setIfInBounds e.address e.previous) bytes

/-- At each address, what is put back depends on nothing but the byte there. -/
theorem undone_congr (h : bytes[a]? = bytes'[a]?) (entries : List ByteWrite) :
    (undone bytes entries)[a]? = (undone bytes' entries)[a]? := by
  induction entries with
  | nil => exact h
  | cons e entries ih =>
      show ((undone bytes entries).setIfInBounds e.address e.previous)[a]? =
        ((undone bytes' entries).setIfInBounds e.address e.previous)[a]?
      rw [Vector.getElem?_setIfInBounds, Vector.getElem?_setIfInBounds, ih]

theorem undone_append (bytes : Vector UInt8 memorySize) (entries entries' : List ByteWrite) :
    undone bytes (entries ++ entries') = undone (undone bytes entries') entries :=
  List.foldr_append

/-- Behind the stack, an operation is taken back by its entry. -/
theorem undone_entry (o : Op) (hload : ∀ program, o ≠ .load program) (ha : stackLimit ≤ a) :
    (undone (m.perform o).bytes (o.record? m).toList)[a]? = m.bytes[a]? := by
  cases o with
  | writeByte address value pc =>
      rw [perform_writeByte, Op.record?]
      split
      · show ((m.bytes.setIfInBounds address.toNat _).setIfInBounds address.toNat
          (m.byte address.toNat))[a]? = m.bytes[a]?
        rw [Vector.getElem?_setIfInBounds, Vector.getElem?_setIfInBounds]
        by_cases haddress : address.toNat = a
        · rw [if_pos haddress, haddress, byte]
          split
          · rename_i hmem
            rw [Vector.getElem?_eq_getElem hmem]
            rfl
          · rename_i hmem
            exact (Vector.getElem?_eq_none (Nat.le_of_not_lt hmem)).symm
        · rw [if_neg haddress, if_neg haddress]
      · rfl
  | push address =>
      rw [perform_push]
      show (if m.depth.val < stackDepth then m.pushed address else m).bytes[a]? = m.bytes[a]?
      split
      · rename_i hroom
        -- Both bytes of a frame lie below `stackLimit`.
        have habove : m.sp + [UInt8.ofInt (address / 256), UInt8.ofInt address].length ≤ a := by
          simp only [sp, stackBase, stackFrameSize, stackDepth, stackLimit, List.length_cons,
            List.length_nil] at *
          omega
        exact setBytes_outside (.inr habove)
      · rfl
  | load program => exact absurd rfl (hload program)
  | pop =>
      rw [perform_pop]
      rfl
  | read q =>
      rw [perform_read]
      rfl
  | clearLog => rfl

/-- Behind the stack, putting back what was replaced takes operations back, unless something was
loaded. -/
theorem undone_entriesOf (hload : ∀ program, .load program ∉ ops) (ha : stackLimit ≤ a) :
    (undone (m.performAll ops).bytes (m.entriesOf ops))[a]? = m.bytes[a]? := by
  induction ops generalizing m with
  | nil => rfl
  | cons o ops ih =>
      have hrest := ih (m := m.perform o) fun program hmem =>
        hload program (List.mem_cons_of_mem o hmem)
      rw [entriesOf, undone_append]
      calc (undone (undone (m.performAll (o :: ops)).bytes ((m.perform o).entriesOf ops))
              (o.record? m).toList)[a]?
          = (undone (m.perform o).bytes (o.record? m).toList)[a]? := undone_congr hrest _
        _ = m.bytes[a]? := undone_entry o (fun program h => hload program (by simp [h])) ha

/-! ## Stores one after another -/

/-- The operations that store bytes one after another. -/
def writes (a : Nat) (pc : Option Int) : List UInt8 → List Op
  | [] => []
  | v :: vs => .writeByte a v.toNat pc :: writes (a + 1) pc vs

section Writes

variable {pc : Option Int} {vs : List UInt8}

theorem perform_store (m : Memory) (v : UInt8) (pc : Option Int) (hroom : a < memorySize) :
    m.perform (.writeByte a v.toNat pc) = m.store a v pc := by
  rw [perform_writeByte, if_pos ⟨Int.natCast_nonneg a, by omega⟩, ofInt_toNat]
  rfl

theorem performAll_writes (m : Memory) (hroom : a + vs.length ≤ memorySize) :
    m.performAll (writes a pc vs) = m.storeAll a pc vs := by
  induction vs generalizing m a with
  | nil => rfl
  | cons v vs ih =>
      rw [List.length_cons] at hroom
      have hstore := perform_store m v pc (show a < memorySize by omega)
      have hrest := ih (m.store a v pc) (show a + 1 + vs.length ≤ memorySize by omega)
      rw [writes, performAll_cons, hstore, hrest]
      rfl

theorem entriesOf_writes (m : Memory) (hroom : a + vs.length ≤ memorySize) :
    m.entriesOf (writes a pc vs) = m.writesOf a pc vs := by
  induction vs generalizing m a with
  | nil => rfl
  | cons v vs ih =>
      rw [List.length_cons] at hroom
      have hentry : Op.record? m (.writeByte a v.toNat pc) =
          some { address := a, value := v, previous := m.byte a, pc } := by
        rw [Op.record?, if_pos ⟨Int.natCast_nonneg a, by omega⟩, ofInt_toNat]
        rfl
      have hstore := perform_store m v pc (show a < memorySize by omega)
      have hrest := ih (m.store a v pc) (show a + 1 + vs.length ≤ memorySize by omega)
      rw [writes, entriesOf, hentry, hstore, hrest,
        writesOf_store m v pc vs (a + 1) (Nat.lt_succ_self a)]
      rfl

theorem mem_writes {o : Op} (ho : o ∈ writes a pc vs) :
    ∃ address value, o = .writeByte address value pc := by
  induction vs generalizing a with
  | nil => cases ho
  | cons v vs ih =>
      rcases List.mem_cons.mp ho with rfl | hrest
      · exact ⟨_, _, rfl⟩
      · exact ih hrest

end Writes

/-! ## Faithful logs -/

/-- The log behind the operations `ops` on the memory `m` is a faithful record of them. -/
structure Journals (m : Memory) (ops : List Op) : Prop where
  /-- It holds the entries since it was last emptied, as many of the latest as it has room for. -/
  entries : ∃ past recent, ops = past ++ recent ∧
    (past = [] ∨ ∃ front, past = front ++ [.clearLog]) ∧ .clearLog ∉ recent ∧
    (m.performAll ops).log.toList =
      Recent.rear m.log.capacity ((m.performAll past).entriesOf recent)
  /-- With what they replaced put back, memory behind the stack is what it was before the operation
  of the oldest entry. -/
  undo : ∀ oldest later, (m.performAll ops).log.toList = oldest :: later →
    ∃ before o after, ops = before ++ o :: after ∧ .clearLog ∉ after ∧
      o.record? (m.performAll before) = some oldest ∧
      (m.performAll (before ++ [o])).entriesOf after = later ∧
      ∀ a, stackLimit ≤ a → (undone (m.performAll ops).bytes (oldest :: later))[a]? =
        (m.performAll before).bytes[a]?

/-- The latest entries are the rear part of all entries. -/
theorem exists_append_rear {α : Type} (capacity : Option Nat) (xs : List α) :
    ∃ front, xs = front ++ Recent.rear capacity xs := by
  cases capacity with
  | none => exact ⟨[], rfl⟩
  | some n => exact ⟨xs.take (xs.length - n), (List.take_append_drop _ xs).symm⟩

/-- The log is faithful to all that was done since it was empty. -/
theorem journals (hempty : m.log.toList = []) (hload : ∀ program, .load program ∉ ops) :
    m.Journals ops := by
  obtain ⟨past, recent, rfl, hpast, hkeeps⟩ := Recent.exists_since .clearLog ops
  have hstart : (m.performAll past).log.toList = [] := by
    rcases hpast with rfl | ⟨front, rfl⟩
    · exact hempty
    · rw [performAll_append]
      exact Recent.toList_clear _
  have hlog : (m.performAll (past ++ recent)).log.toList =
      Recent.rear m.log.capacity ((m.performAll past).entriesOf recent) := by
    rw [performAll_append, log_performAll hkeeps, Recent.toList_foldl_push, hstart,
      capacity_performAll, List.nil_append]
  refine ⟨⟨past, recent, rfl, hpast, hkeeps, hlog⟩, ?_⟩
  intro oldest later hentries
  obtain ⟨front, hfront⟩ :=
    exists_append_rear m.log.capacity ((m.performAll past).entriesOf recent)
  rw [← hlog, hentries] at hfront
  obtain ⟨before, o, after, rfl, -, he, hlater⟩ := exists_op_of_entriesOf hfront
  rw [← performAll_append] at he
  rw [← performAll_append, ← List.append_assoc] at hlater
  refine ⟨past ++ before, o, after, (List.append_assoc ..).symm, ?_, he, hlater, ?_⟩
  · intro hmem
    exact hkeeps (List.mem_append_right before (List.mem_cons_of_mem o hmem))
  · intro a ha
    have hback := @undone_entriesOf (m.performAll (past ++ before)) a (o :: after)
      (fun program hmem => hload program
        (List.mem_append_right past (List.mem_append_right before hmem))) ha
    rw [performAll_append] at hlater
    have hrest : ((m.performAll (past ++ before)).perform o).entriesOf after = later := hlater
    rw [entriesOf, he, hrest, ← performAll_append, List.append_assoc] at hback
    exact hback

end Memory

end ChipEight

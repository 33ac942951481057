import ChipEight.Machine.Perform

/-!
# Storing and loading blocks

Instructions store and load bytes one at a time and check each access again. This
module shows that the repeated checks never refuse: once the check of the whole block
has passed, the loops run to their end and leave what `Memory.storeAll` and a reading of
consecutive bytes leave.

## Main results

* `Action.run_storeBytes`, `Action.run_forM_storeReg` — the loops that store.
* `Action.run_forM_loadReg` — the loop that loads.
* `Action.run_forM_setRow` — the loop that blanks rows of the display.
-/

namespace ChipEight

/-! ## Checks -/

/-- A byte survives being read as an integer. -/
theorem ofInt_toNat (v : UInt8) : UInt8.ofInt v.toNat = v := by
  have hlt : (v.toNat : Int) < 256 := by
    have := v.toNat_lt
    omega
  have hmod : (v.toNat : Int) % 256 = v.toNat := Int.emod_eq_of_lt (by omega) hlt
  show UInt8.ofNat ((v.toNat : Int) % 256).toNat = v
  rw [hmod, Int.toNat_natCast, UInt8.ofNat_toNat]

namespace Memory

theorem checkRange_eq_ok_iff {address length : Int} :
    checkRange address length = .ok () ↔ InRange address length := by
  constructor
  · intro h
    unfold checkRange at h
    split at h
    · assumption
    · cases h
  · intro h
    exact if_pos h

/-- Blocks that may be written lie in the program region. -/
theorem checkWritable_eq_ok_iff {address length : Int} :
    checkWritable address length = .ok () ↔
      programStart ≤ address ∧ InRange address length := by
  unfold checkWritable
  by_cases hlow : address < programStart
  · rw [if_pos hlow]
    constructor
    · intro h
      cases h
    · rintro ⟨hstart, -⟩
      exact absurd hlow (Int.not_lt.mpr hstart)
  · rw [if_neg hlow, checkRange_eq_ok_iff]
    exact ⟨fun h => ⟨Int.not_lt.mp hlow, h⟩, And.right⟩

/-- A block that lies in memory is its first byte and a block behind it. -/
theorem InRange.cons {address : Int} {n : Nat} (h : InRange address (n + 1 : Nat)) :
    InRange address 1 ∧ InRange (address + 1) n ∧ (address + 1).toNat = address.toNat + 1 := by
  obtain ⟨hlow, hhigh⟩ := h
  exact ⟨⟨by omega, by omega⟩, ⟨by omega, by omega⟩, by omega⟩

theorem writeByte_of_inRange (m : Memory) {address : Int} (v : UInt8) (pc : Option Int)
    (h : InRange address 1) :
    m.writeByte address v.toNat pc = .ok (m.store address.toNat v pc) := by
  unfold writeByte
  rw [checkRange_eq_ok_iff.mpr h, ofInt_toNat]
  rfl

theorem readByte_of_inRange (m : Memory) {address : Int} (h : InRange address 1) :
    m.readByte address = .ok (m.byte address.toNat) := by
  unfold readByte
  rw [checkRange_eq_ok_iff.mpr h]
  rfl

end Memory

namespace Machine

/-- The registers after the first `k` of them were loaded from the index on. -/
def loaded (m : Machine) (k : Nat) : Vector UInt8 registerCount :=
  Vector.ofFn fun r => if r.val < k then m.memory.byte (m.index.toNat + r.val) else m.registers[r]

theorem loaded_zero (m : Machine) : m.loaded 0 = m.registers := by
  apply Vector.ext
  intro i hi
  simp [loaded]

theorem loaded_succ (m : Machine) {k : Nat} (h : k < registerCount) :
    (m.loaded k).set k (m.memory.byte (m.index.toNat + k)) h = m.loaded (k + 1) := by
  apply Vector.ext
  intro i hi
  simp only [loaded, Vector.getElem_set, Vector.getElem_ofFn]
  by_cases heq : k = i
  · subst heq
    simp
  · have hiff : i < k ↔ i < k + 1 := by omega
    simp only [if_neg heq, hiff]

theorem display_setRow (m : Machine) (row i : Fin displayHeight) (v : Row) :
    (m.setRow row v).display.get i = if row = i then v else m.display.get i := by
  show (m.setRow row v).display[i.val] = if row = i then v else m.display[i.val]
  rw [setRow, Vector.getElem_set]
  simp only [Fin.ext_iff]

end Machine

namespace Action

open Memory

/-! ## Stores -/

theorem run_storeByte {m : Machine} {address : Int} (v : UInt8) (r : Option Redraw)
    (h : InRange address 1) :
    (storeByte address v).run { machine := m, redraw := r } =
      .ok () { machine := { m with memory := m.memory.store address.toNat v (some m.pc) },
               redraw := r } := by
  simp [storeByte, writeByte_of_inRange _ _ _ h]

/-- Bytes that are stored one by one into a block that lies in memory are all stored. -/
theorem run_storeBytes (vs : List UInt8) :
    ∀ (m : Machine) (address : Int) (r : Option Redraw), InRange address vs.length →
      (storeBytes address vs).run { machine := m, redraw := r } =
        .ok () { machine := { m with memory := m.memory.storeAll address.toNat (some m.pc) vs },
                 redraw := r } := by
  induction vs with
  | nil =>
      intro m address r _
      rfl
  | cons v vs ih =>
      intro m address r h
      obtain ⟨hhead, htail, hnext⟩ := h.cons
      rw [storeBytes, run_bind, run_storeByte v r hhead]
      simp only [ih _ _ _ htail, storeAll, hnext]

/-- Registers that are stored one by one into a block that lies in memory are all
stored, and the index has moved behind them. -/
theorem run_forM_storeReg (rs : List Reg) :
    ∀ (m : Machine) (r : Option Redraw), InRange m.index rs.length →
      (rs.forM storeReg).run { machine := m, redraw := r } =
        .ok () { machine := { m with
                   memory := m.memory.storeAll m.index.toNat (some m.pc) (rs.map m.reg)
                   index := m.index + rs.length },
                 redraw := r } := by
  induction rs with
  | nil =>
      intro m r _
      simp [storeAll]
  | cons x rs ih =>
      intro m r h
      obtain ⟨hhead, htail, hnext⟩ := h.cons
      have hstep : (storeReg x).run { machine := m, redraw := r } =
          .ok () { machine := { m with
                     memory := m.memory.store m.index.toNat (m.reg x) (some m.pc)
                     index := m.index + 1 },
                   redraw := r } := by
        simp [storeReg, advanceIndex, run_storeByte _ _ hhead]
      have hlength : m.index + ((x :: rs).length : Nat) = m.index + 1 + (rs.length : Nat) := by
        rw [List.length_cons]
        omega
      show ((storeReg x >>= fun _ => rs.forM storeReg)).run _ = _
      rw [run_bind, hstep]
      refine (ih _ r ?_).trans ?_
      · exact htail
      · simp only [hnext, hlength, List.map_cons, storeAll]
        rfl

/-! ## Loads -/

/-- Registers that are loaded one by one from a block that lies in memory are all loaded,
and the index has moved behind the block. -/
theorem run_forM_loadReg (k : Nat) (m : Machine) (r : Option Redraw) (hk : k ≤ registerCount)
    (h : InRange m.index k) :
    (((List.finRange registerCount).take k).forM loadReg).run { machine := m, redraw := r } =
      .ok () { machine := { m with registers := m.loaded k, index := m.index + k },
               redraw := r } := by
  induction k with
  | zero => simp [Machine.loaded_zero]
  | succ k ih =>
      have hprev : InRange m.index k := ⟨h.1, by have := h.2; omega⟩
      have hbyte : InRange (m.index + k) 1 := ⟨by have := h.1; omega, by have := h.2; omega⟩
      have hlast : (m.index + k).toNat = m.index.toNat + k := by
        have := h.1
        omega
      have htake : (List.finRange registerCount).take (k + 1) =
          (List.finRange registerCount).take k ++ [⟨k, by omega⟩] := by
        have hlt : k < (List.finRange registerCount).length := by
          rw [List.length_finRange]
          omega
        rw [List.take_add_one, List.getElem?_eq_getElem hlt]
        simp
      rw [htake]
      simp only [List.forM_eq_forM, List.forM_append, run_bind] at ih ⊢
      rw [ih (by omega) hprev]
      simp [loadReg, advanceIndex, readByte_of_inRange _ hbyte, hlast, Machine.setReg,
        Machine.loaded_succ m hk, Int.add_assoc]

/-! ## Rows -/

/-- Rows that are blanked one by one are all blank. -/
theorem run_forM_setRow (rows : List (Fin displayHeight)) :
    ∀ (m : Machine) (r : Option Redraw),
      (rows.forM fun row => change (·.setRow row 0)).run { machine := m, redraw := r } =
        .ok () { machine := { m with
                   display := Vector.ofFn fun i => if rows.contains i then 0 else m.display.get i },
                 redraw := r } := by
  induction rows with
  | nil =>
      intro m r
      simp [Vector.get]
  | cons row rows ih =>
      intro m r
      have hrows : ∀ i, (if rows.contains i then 0 else (m.setRow row 0).display.get i) =
          if (row :: rows).contains i then (0 : Row) else m.display.get i := by
        intro i
        rw [Machine.display_setRow]
        by_cases hrow : row = i
        · simp [hrow]
        · simp [hrow, Ne.symm hrow]
      show (change (·.setRow row 0) >>= fun _ => rows.forM _).run _ = _
      rw [run_bind, run_change]
      simp only [ih, hrows]
      rfl

end Action

end ChipEight

import ChipEight.Instruction

/-!
# Words and instructions

Reading a word and writing an instruction are inverse to each other. The fields of a word
determine it in three ways, one for each layout of a word: a family with two registers and a
nibble, with a register and a byte, and with an address.

## Main results

* `Instruction.ofWord?_eq_some_iff` — a word reads as the instruction that is written as it.
-/

namespace ChipEight

namespace Word

/-! ## Words from fields -/

theorem toNat_ofRegs {f n : Nat} (x y : Reg) (hf : f < 16) (hn : n < 16) :
    (ofRegs f x y n).toNat = f * 4096 + x.val * 256 + y.val * 16 + n := by
  have hx := x.isLt
  have hy := y.isLt
  simp only [registerCount] at hx hy
  unfold ofRegs
  rw [UInt16.toNat_ofNat']
  omega

theorem toNat_ofRegByte {f : Nat} (x : Reg) (b : UInt8) (hf : f < 16) :
    (ofRegByte f x b).toNat = f * 4096 + x.val * 256 + b.toNat := by
  have hx := x.isLt
  have hb := b.toNat_lt
  simp only [registerCount] at hx
  unfold ofRegByte
  rw [UInt16.toNat_ofNat']
  omega

theorem toNat_ofTarget {f : Nat} (t : Target) (hf : f < 16) :
    (ofTarget f t).toNat = f * 4096 + t.val := by
  have ht := t.isLt
  simp only [memorySize] at ht
  unfold ofTarget
  rw [UInt16.toNat_ofNat']
  omega

/-! ## Fields of a word -/

theorem toNat_byte (w : Word) : w.byte.toNat = w.toNat % 256 := by
  unfold byte
  rw [UInt8.toNat_ofNat']
  omega

/-- The fields of a word with two registers. -/
theorem fields_ofRegs {f n : Nat} (x y : Reg) (hf : f < 16) (hn : n < 16) :
    (ofRegs f x y n).family.val = f ∧ (ofRegs f x y n).x = x ∧ (ofRegs f x y n).y = y ∧
      (ofRegs f x y n).n.val = n := by
  have hx := x.isLt
  have hy := y.isLt
  simp only [registerCount] at hx hy
  simp only [family, Word.x, Word.y, Word.n, toNat_ofRegs x y hf hn, Fin.ext_iff]
  omega

/-- The fields of a word with a register and a byte. -/
theorem fields_ofRegByte {f : Nat} (x : Reg) (b : UInt8) (hf : f < 16) :
    (ofRegByte f x b).family.val = f ∧ (ofRegByte f x b).x = x ∧ (ofRegByte f x b).byte = b := by
  have hx := x.isLt
  have hb := b.toNat_lt
  simp only [registerCount] at hx
  simp only [family, Word.x, ← UInt8.toNat_inj, toNat_byte, toNat_ofRegByte x b hf, Fin.ext_iff]
  omega

/-- The fields of a word with an address. -/
theorem fields_ofTarget {f : Nat} (t : Target) (hf : f < 16) :
    (ofTarget f t).family.val = f ∧ (ofTarget f t).target = t := by
  have ht := t.isLt
  simp only [memorySize] at ht
  simp only [family, target, toNat_ofTarget t hf, Fin.ext_iff]
  omega

/-! ## Words are their fields -/

theorem ofRegs_fields (w : Word) : ofRegs w.family.val w.x w.y w.n.val = w := by
  apply UInt16.toNat_inj.mp
  rw [toNat_ofRegs w.x w.y w.family.isLt w.n.isLt]
  simp only [family, Word.x, Word.y, Word.n]
  omega

theorem ofRegByte_fields (w : Word) : ofRegByte w.family.val w.x w.byte = w := by
  apply UInt16.toNat_inj.mp
  rw [toNat_ofRegByte w.x w.byte w.family.isLt, toNat_byte]
  simp only [family, Word.x]
  omega

theorem ofTarget_fields (w : Word) : ofTarget w.family.val w.target = w := by
  apply UInt16.toNat_inj.mp
  rw [toNat_ofTarget w.target w.family.isLt]
  simp only [family, target]
  omega

end Word

namespace Instruction

open Word

/-! ## Writing, then reading -/

theorem ofCode?_code (op : Arith) : Arith.ofCode? op.code = some op := by
  cases op <;> rfl

theorem code_lt (op : Arith) : op.code < 16 := by
  cases op <;> decide

/-- An instruction is read from the word that it is written as. -/
theorem ofWord?_toWord (i : Instruction) : ofWord? i.toWord = some i := by
  cases i with
  | clear => rfl
  | ret => rfl
  | jump t | call t | loadIndex t | jumpAlt t =>
      simp (disch := decide) only [toWord, ofWord?, fields_ofTarget]
  | skipEqByte x b | skipNeByte x b | loadByte x b | addByte x b | random x b =>
      simp (disch := decide) only [toWord, ofWord?, fields_ofRegByte]
  | skipEqReg x y | skipNeReg x y =>
      simp (disch := decide) only [toWord, ofWord?, fields_ofRegs, if_true]
  | arith op x y =>
      have hfields := fields_ofRegs x y (show 0x8 < 16 by decide) (code_lt op)
      simp only [toWord, ofWord?, hfields, ofCode?_code, Option.map_some]
  | draw x y n =>
      obtain ⟨hfamily, hx, hy, hn⟩ := fields_ofRegs x y (show 0xD < 16 by decide) n.isLt
      simp only [toWord, ofWord?, hfamily, hx, hy, Fin.ext hn]
  | skipKey x | skipNoKey x =>
      simp (disch := decide) only [toWord, ofWord?, fields_ofRegByte]
      rfl
  | getDelay x | waitKey x | setDelay x | setSound x | addIndex x | loadGlyph x
  | storeDecimal x | storeRegs x | loadRegs x =>
      simp (disch := decide) only [toWord, ofWord?, fields_ofRegByte]
      rfl

/-! ## Reading, then writing -/

theorem code_of_ofCode? {code : Nat} {op : Arith} (h : Arith.ofCode? code = some op) :
    op.code = code := by
  unfold Arith.ofCode? at h
  split at h <;> cases h <;> rfl

theorem toWord_of_ofKeyWord? {x : Reg} {b : UInt8} {i : Instruction}
    (h : ofKeyWord? x b.toNat = some i) : i.toWord = ofRegByte 0xE x b := by
  have hbyte : ∀ k : UInt8, b.toNat = k.toNat → b = k := fun k => UInt8.toNat_inj.mp
  unfold ofKeyWord? at h
  split at h
  · rename_i hb
    cases h
    rw [hbyte 0x9E hb]
    rfl
  · rename_i hb
    cases h
    rw [hbyte 0xA1 hb]
    rfl
  · cases h

theorem toWord_of_ofMiscWord? {x : Reg} {b : UInt8} {i : Instruction}
    (h : ofMiscWord? x b.toNat = some i) : i.toWord = ofRegByte 0xF x b := by
  have hbyte : ∀ k : UInt8, b.toNat = k.toNat → k = b := fun k hk => (UInt8.toNat_inj.mp hk).symm
  have hword : ∀ k : UInt8, b.toNat = k.toNat → ofRegByte 0xF x k = ofRegByte 0xF x b :=
    fun k hk => congrArg _ (hbyte k hk)
  unfold ofMiscWord? at h
  -- One case per low byte that has an instruction; the last one has none.
  split at h <;> cases h <;> rename_i hb <;> exact hword _ hb

/-- A word that is read as an instruction is written as that word. -/
theorem toWord_of_ofWord? {w : Word} {i : Instruction} (h : ofWord? w = some i) :
    i.toWord = w := by
  have htarget := ofTarget_fields w
  have hbyte := ofRegByte_fields w
  have hregs := ofRegs_fields w
  unfold ofWord? at h
  -- One case per family. The family is put into the three ways to write the word, and the
  -- layout of the family decides which of them is wanted.
  split at h <;> rename_i hfamily <;> try rw [hfamily] at htarget hbyte hregs
  · split at h
    · rename_i hclear
      cases h
      rw [← htarget, Fin.ext (b := ⟨0x0E0, by decide⟩) hclear]
      rfl
    · split at h
      · rename_i hret
        cases h
        rw [← htarget, Fin.ext (b := ⟨0x0EE, by decide⟩) hret]
        rfl
      · cases h
  · cases h
    exact htarget
  · cases h
    exact htarget
  · cases h
    exact hbyte
  · cases h
    exact hbyte
  · split at h
    · rename_i hn
      cases h
      rw [hn] at hregs
      exact hregs
    · cases h
  · cases h
    exact hbyte
  · cases h
    exact hbyte
  · obtain ⟨op, hop, rfl⟩ := Option.map_eq_some_iff.mp h
    show ofRegs 0x8 w.x w.y op.code = w
    rw [code_of_ofCode? hop]
    exact hregs
  · split at h
    · rename_i hn
      cases h
      rw [hn] at hregs
      exact hregs
    · cases h
  · cases h
    exact htarget
  · cases h
    exact htarget
  · cases h
    exact hbyte
  · cases h
    exact hregs
  · rw [toWord_of_ofKeyWord? h]
    exact hbyte
  · rw [toWord_of_ofMiscWord? h]
    exact hbyte
  · cases h

theorem ofWord?_eq_some_iff {w : Word} {i : Instruction} : ofWord? w = some i ↔ i.toWord = w := by
  constructor
  · exact toWord_of_ofWord?
  · rintro rfl
    exact ofWord?_toWord i

/-- Words that are no instruction. -/
theorem ofWord?_eq_none_iff {w : Word} : ofWord? w = none ↔ ∀ i : Instruction, i.toWord ≠ w := by
  rw [Option.eq_none_iff_forall_not_mem]
  constructor
  · intro h i hi
    exact h i (ofWord?_eq_some_iff.mpr hi)
  · intro h i hi
    exact h i (toWord_of_ofWord? hi)

end Instruction

end ChipEight

import ChipEight.Instruction.Mnemonic
import ChipEight.Proofs.Instruction.Coding

/-!
# The forms of words

The table of forms and the decoder of the machine were written apart. Here they are brought
together. A mask acts on each field of a word by itself, so what a form asks of a word is what
it asks of its fields; and since the forms of two instructions ask for different bits under
both of their masks, a word has one of them at most. The decoder looks at the same bits: all of
them in the family `0`, the family and the lowest nibble or the low byte in some families, and
nothing but the family in the others.

## Main results

* `Form.eq_of_has`, `Form.table_pairwise` — a word has one form of the table at most.
* `Word.formIn_of_perm` — the order of the table makes no difference.
* `Word.exists_has_iff` — the words of which the table has a form are the instructions.
-/

namespace ChipEight

namespace Word

/-! ## Masks and fields -/

section Masks

variable (w v : Word)

theorem family_and : (w &&& v).family.val = w.family.val &&& v.family.val := by
  show (w &&& v).toNat / 4096 = w.toNat / 4096 &&& v.toNat / 4096
  rw [UInt16.toNat_and]
  exact Nat.and_div_two_pow (n := 12)

theorem target_and : (w &&& v).target.val = w.target.val &&& v.target.val := by
  show (w &&& v).toNat % 4096 = w.toNat % 4096 &&& v.toNat % 4096
  rw [UInt16.toNat_and]
  exact Nat.and_mod_two_pow (n := 12)

theorem byte_and : (w &&& v).byte.toNat = w.byte.toNat &&& v.byte.toNat := by
  rw [toNat_byte, toNat_byte, toNat_byte, UInt16.toNat_and]
  exact Nat.and_mod_two_pow (n := 8)

theorem n_and : (w &&& v).n.val = w.n.val &&& v.n.val := by
  show (w &&& v).toNat % 16 = w.toNat % 16 &&& v.toNat % 16
  rw [UInt16.toNat_and]
  exact Nat.and_mod_two_pow (n := 4)

theorem x_and : (w &&& v).x.val = w.x.val &&& v.x.val := by
  show (w &&& v).toNat / 256 % 16 = w.toNat / 256 % 16 &&& v.toNat / 256 % 16
  rw [UInt16.toNat_and, ← Nat.and_mod_two_pow (n := 4), ← Nat.and_div_two_pow (n := 8)]

theorem y_and : (w &&& v).y.val = w.y.val &&& v.y.val := by
  show (w &&& v).toNat / 16 % 16 = w.toNat / 16 % 16 &&& v.toNat / 16 % 16
  rw [UInt16.toNat_and, ← Nat.and_mod_two_pow (n := 4), ← Nat.and_div_two_pow (n := 4)]

/-- The register with the number zero. -/
abbrev zeroReg : Reg := ⟨0, by decide⟩

/-- A field under a mask of ones is kept. -/
theorem and_ones {a k : Nat} (ha : a < Nat.pow 2 k) : a &&& (Nat.pow 2 k - 1) = a :=
  (Nat.and_two_pow_sub_one_eq_mod a k).trans (Nat.mod_eq_of_lt ha)

theorem and_family : w &&& 0xF000 = ofTarget w.family.val ⟨0, by decide⟩ := by
  have hfamily : (w &&& 0xF000).family.val = w.family.val :=
    (family_and w 0xF000).trans (and_ones (k := 4) w.family.isLt)
  have htarget : (w &&& 0xF000).target = ⟨0, by decide⟩ :=
    Fin.ext ((target_and w 0xF000).trans (Nat.and_zero _))
  rw [← ofTarget_fields (w &&& 0xF000), hfamily, htarget]

theorem and_familyNibble : w &&& 0xF00F = ofRegs w.family.val zeroReg zeroReg w.n.val := by
  have hfamily : (w &&& 0xF00F).family.val = w.family.val :=
    (family_and w 0xF00F).trans (and_ones (k := 4) w.family.isLt)
  have hx : (w &&& 0xF00F).x = zeroReg := Fin.ext ((x_and w 0xF00F).trans (Nat.and_zero _))
  have hy : (w &&& 0xF00F).y = zeroReg := Fin.ext ((y_and w 0xF00F).trans (Nat.and_zero _))
  have hn : (w &&& 0xF00F).n.val = w.n.val :=
    (n_and w 0xF00F).trans (and_ones (k := 4) w.n.isLt)
  rw [← ofRegs_fields (w &&& 0xF00F), hfamily, hx, hy, hn]

theorem and_familyByte : w &&& 0xF0FF = ofRegByte w.family.val zeroReg w.byte := by
  have hfamily : (w &&& 0xF0FF).family.val = w.family.val :=
    (family_and w 0xF0FF).trans (and_ones (k := 4) w.family.isLt)
  have hx : (w &&& 0xF0FF).x = zeroReg := Fin.ext ((x_and w 0xF0FF).trans (Nat.and_zero _))
  have hbyte : (w &&& 0xF0FF).byte = w.byte :=
    UInt8.toNat_inj.mp ((byte_and w 0xF0FF).trans (and_ones (k := 8) w.byte.toNat_lt))
  rw [← ofRegByte_fields (w &&& 0xF0FF), hfamily, hx, hbyte]

theorem and_all : w &&& 0xFFFF = w := by
  apply UInt16.toNat_inj.mp
  rw [UInt16.toNat_and]
  exact and_ones (k := 16) w.toNat_lt

end Masks

/-! ## The bits that tell an instruction -/

/-- The bits of a word that the decoder looks at in a family. -/
def tellingMask (family : Nat) : Word :=
  match family with
  | 0x0 => 0xFFFF
  | 0x5 | 0x8 | 0x9 => 0xF00F
  | 0xE | 0xF => 0xF0FF
  | _ => 0xF000

/-- The bits that tell whether a word is an instruction, with the mask that they are under. -/
def key (w : Word) : Word × Word := (tellingMask w.family.val, w &&& tellingMask w.family.val)

end Word

namespace Instruction

open Word

theorem isSome_ofKeyWord? (x y : Reg) (b : Nat) :
    (ofKeyWord? x b).isSome = (ofKeyWord? y b).isSome := by
  unfold ofKeyWord?
  split <;> rfl

theorem isSome_ofMiscWord? (x y : Reg) (b : Nat) :
    (ofMiscWord? x b).isSome = (ofMiscWord? y b).isSome := by
  unfold ofMiscWord?
  split <;> rfl

/-- In the families that are not looked at further, every word is an instruction. -/
theorem isSome_ofWord?_of_family {w : Word}
    (hfamily : w.family.val ∈ [0x1, 0x2, 0x3, 0x4, 0x6, 0x7, 0xA, 0xB, 0xC, 0xD]) :
    (ofWord? w).isSome = true := by
  simp only [List.mem_cons, List.not_mem_nil, or_false] at hfamily
  rcases hfamily with h | h | h | h | h | h | h | h | h | h <;> simp only [ofWord?, h] <;> rfl

/-- All other bits make no difference to whether a word is an instruction. -/
theorem isSome_ofWord?_key (w : Word) : (ofWord? w.key.2).isSome = (ofWord? w).isSome := by
  have hregs := fields_ofRegs zeroReg zeroReg w.family.isLt w.n.isLt
  have hbyte := fields_ofRegByte zeroReg w.byte w.family.isLt
  unfold key tellingMask
  -- What is masked off are registers, which the decoder passes on without a look at them.
  split
  next => rw [and_all]
  next hfamily =>
    rw [hfamily] at hregs
    simp only [and_familyNibble, hfamily, ofWord?, hregs]
    split <;> rfl
  next hfamily =>
    rw [hfamily] at hregs
    simp only [and_familyNibble, hfamily, ofWord?, hregs, Option.isSome_map]
  next hfamily =>
    rw [hfamily] at hregs
    simp only [and_familyNibble, hfamily, ofWord?, hregs]
    split <;> rfl
  next hfamily =>
    rw [hfamily] at hbyte
    simp only [and_familyByte, hfamily, ofWord?, hbyte]
    exact isSome_ofKeyWord? _ _ _
  next hfamily =>
    rw [hfamily] at hbyte
    simp only [and_familyByte, hfamily, ofWord?, hbyte]
    exact isSome_ofMiscWord? _ _ _
  next h0 h5 h8 h9 hE hF =>
    have hlt := w.family.isLt
    have hne : w.family.val ≠ 0x0 ∧ w.family.val ≠ 0x5 ∧ w.family.val ≠ 0x8 ∧
        w.family.val ≠ 0x9 ∧ w.family.val ≠ 0xE ∧ w.family.val ≠ 0xF :=
      ⟨h0, h5, h8, h9, hE, hF⟩
    have hwide : w.family.val ∈ [0x1, 0x2, 0x3, 0x4, 0x6, 0x7, 0xA, 0xB, 0xC, 0xD] := by
      simp only [List.mem_cons, List.not_mem_nil, or_false]
      omega
    have htarget := fields_ofTarget ⟨0, by decide⟩ w.family.isLt
    rw [isSome_ofWord?_of_family hwide, and_family, isSome_ofWord?_of_family]
    rw [htarget.1]
    exact hwide

end Instruction

namespace Form

/-! ## One form at most -/

/-- The forms of two instructions ask for different bits under both of their masks. -/
theorem table_disjoint :
    ∀ f ∈ table, ∀ g ∈ table, f.bits &&& g.mask = g.bits &&& f.mask → f = g := by
  decide +kernel

/-- A word has one form of the table at most. -/
theorem eq_of_has {f g : Form} {w : Word} (hf : f ∈ table) (hg : g ∈ table)
    (hwf : f.has w = true) (hwg : g.has w = true) : f = g := by
  apply table_disjoint f hf g hg
  calc f.bits &&& g.mask = w &&& f.mask &&& g.mask := by rw [eq_of_beq hwf]
    _ = w &&& g.mask &&& f.mask := by
      rw [UInt16.and_assoc, UInt16.and_comm f.mask, ← UInt16.and_assoc]
    _ = g.bits &&& f.mask := by rw [eq_of_beq hwg]

/-- No two entries of the table are forms of one word. -/
theorem table_pairwise : table.Pairwise fun f g => ∀ w, ¬(f.has w = true ∧ g.has w = true) := by
  have hnodup : table.Nodup := by decide +kernel
  apply hnodup.imp_of_mem
  intro f g hf hg hne w hboth
  exact hne (eq_of_has hf hg hboth.1 hboth.2)

/-! ## The forms of instructions -/

/-- A form asks for the bits that the decoder looks at, and for those of an instruction. -/
theorem table_telling :
    ∀ f ∈ table, f.mask.family.val = 0xF ∧ f.mask = Word.tellingMask f.bits.family.val ∧
      (Instruction.ofWord? f.bits).isSome = true := by
  decide +kernel

theorem key_of_has {f : Form} {w : Word} (hf : f ∈ table) (hw : f.has w = true) :
    w.key = (f.mask, f.bits) := by
  obtain ⟨hones, hmask, -⟩ := table_telling f hf
  have hbits : w &&& f.mask = f.bits := eq_of_beq hw
  have hfamily : f.bits.family.val = w.family.val := by
    rw [← hbits, Word.family_and, hones]
    exact Word.and_ones (k := 4) w.family.isLt
  have htelling : Word.tellingMask w.family.val = f.mask := by
    rw [← hfamily, hmask]
  unfold Word.key
  rw [htelling, hbits]

theorem exists_has_of_key {w : Word} (hkey : w.key ∈ table.map fun f => (f.mask, f.bits)) :
    ∃ f ∈ table, f.has w = true := by
  obtain ⟨f, hf, heq⟩ := List.mem_map.mp hkey
  have hmask : f.mask = Word.tellingMask w.family.val := congrArg Prod.fst heq
  have hbits : f.bits = w &&& Word.tellingMask w.family.val := congrArg Prod.snd heq
  refine ⟨f, hf, ?_⟩
  unfold has
  rw [hmask, hbits]
  exact beq_self_eq_true _

/-- The table has a form for every instruction. -/
theorem exists_has_toWord (i : Instruction) : ∃ f ∈ table, f.has i.toWord = true := by
  apply exists_has_of_key
  -- Behind the mask nothing is left of the operands but the byte or nibble that tells the
  -- instruction, so the entry can be looked up.
  cases i with
  | clear | ret => decide +kernel
  | jump t | call t | loadIndex t | jumpAlt t =>
      simp (disch := decide) only [Instruction.toWord, Word.key, Word.tellingMask,
        Word.and_family, Word.fields_ofTarget]
      decide +kernel
  | skipEqByte x b | skipNeByte x b | loadByte x b | addByte x b | random x b =>
      simp (disch := decide) only [Instruction.toWord, Word.key, Word.tellingMask,
        Word.and_family, Word.fields_ofRegByte]
      decide +kernel
  | skipEqReg x y | skipNeReg x y =>
      simp (disch := decide) only [Instruction.toWord, Word.key, Word.tellingMask,
        Word.and_familyNibble, Word.fields_ofRegs]
      decide +kernel
  | arith op x y =>
      have hfields := Word.fields_ofRegs x y (show 0x8 < 16 by decide) (Instruction.code_lt op)
      simp only [Instruction.toWord, Word.key, Word.tellingMask, Word.and_familyNibble, hfields]
      cases op <;> decide +kernel
  | draw x y n =>
      have hfields := Word.fields_ofRegs x y (show 0xD < 16 by decide) n.isLt
      simp only [Instruction.toWord, Word.key, Word.tellingMask, Word.and_family, hfields]
      decide +kernel
  | skipKey x | skipNoKey x | getDelay x | waitKey x | setDelay x | setSound x | addIndex x
  | loadGlyph x | storeDecimal x | storeRegs x | loadRegs x =>
      simp (disch := decide) only [Instruction.toWord, Word.key, Word.tellingMask,
        Word.and_familyByte, Word.fields_ofRegByte]
      decide +kernel

end Form

namespace Word

open Form

/-- The words of which the table has a form are the instructions. -/
theorem exists_has_iff {w : Word} :
    (∃ f ∈ table, f.has w = true) ↔ (Instruction.ofWord? w).isSome = true := by
  constructor
  · rintro ⟨f, hf, hw⟩
    obtain ⟨-, -, hsome⟩ := table_telling f hf
    rw [← Instruction.isSome_ofWord?_key, key_of_has hf hw]
    exact hsome
  · intro hsome
    obtain ⟨i, hi⟩ := Option.isSome_iff_exists.mp hsome
    rw [← Instruction.toWord_of_ofWord? hi]
    exact exists_has_toWord i

/-! ## The form of a word -/

theorem find?_inv {forms : List Form} {w : Word} {f : Form}
    (h : forms.find? (·.has w) = some f) : f ∈ forms ∧ f.has w = true :=
  ⟨List.mem_of_find?_eq_some h, List.find?_some (p := fun f : Form => f.has w) h⟩

theorem exists_find? {forms : List Form} {w : Word} (h : ∃ f ∈ forms, f.has w = true) :
    ∃ f, forms.find? (·.has w) = some f :=
  Option.isSome_iff_exists.mp (List.find?_isSome.mpr h)

/-- The form of an instruction is in the table, and the word has it. -/
theorem form_of_isSome {w : Word} (h : (Instruction.ofWord? w).isSome = true) :
    w.form ∈ table ∧ w.form.has w = true := by
  obtain ⟨f, hf⟩ := exists_find? (exists_has_iff.mpr h)
  have hform : w.form = f := by
    unfold form formIn
    rw [hf]
    rfl
  rw [hform]
  exact find?_inv hf

/-- Any other word is data. -/
theorem form_of_isSome_eq_false {w : Word} (h : (Instruction.ofWord? w).isSome = false) :
    w.form = data := by
  have hnone : table.find? (·.has w) = none := by
    rw [List.find?_eq_none]
    intro f hf hw
    have hsome := exists_has_iff.mp ⟨f, hf, hw⟩
    rw [h] at hsome
    cases hsome
  unfold form formIn
  rw [hnone]
  rfl

/-- The order of the table makes no difference. -/
theorem formIn_of_perm {forms : List Form} (hperm : forms.Perm table) (w : Word) :
    w.formIn forms = w.form := by
  unfold form formIn
  cases hfound : table.find? (·.has w) with
  | none =>
      have hnone : forms.find? (·.has w) = none := by
        rw [List.find?_eq_none]
        intro f hf
        exact List.find?_eq_none.mp hfound f (hperm.mem_iff.mp hf)
      rw [hnone]
  | some f =>
      obtain ⟨hf, hwf⟩ := find?_inv hfound
      obtain ⟨g, hfirst⟩ := exists_find? ⟨f, hperm.mem_iff.mpr hf, hwf⟩
      obtain ⟨hg, hwg⟩ := find?_inv hfirst
      rw [hfirst, eq_of_has (hperm.mem_iff.mp hg) hf hwg hwf]

end Word

end ChipEight

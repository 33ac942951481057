import ChipEight.Proofs.Machine.Word

/-!
# Sprites, pixel by pixel

The display keeps a row of pixels in one word, and a sprite reaches it as a byte that is
reversed, shifted and cut off. Here this is read back as single pixels: a sprite turns over
the pixels on which one of its bits falls, `Machine.Inks`, and no others. It meets a lit
pixel exactly if a lit one goes out.

## Main results

* `Bitmap.pixel_stamp` — what a sprite does to one pixel.
* `Machine.getLsbD_layer_iff` — where the bits of a sprite in memory fall.
* `Machine.Executes.pixel_of_draw` — the display behind `Dxyn`.
* `Machine.Executes.flag_of_draw` — the flag behind `Dxyn`.
-/

namespace ChipEight

/-! ## Rows as bits -/

namespace Bitmap

/-- The highest bit of a byte falls on the first column, the lowest on the eighth. -/
theorem getLsbD_lane_iff (byte : UInt8) (corner : Nat) (column : Fin displayWidth) :
    (lane byte corner).getLsbD column = true ↔
      ∃ j : Fin 8, column.val = corner + j.val ∧ byte.toNat.testBit (7 - j) = true := by
  have hbit : ∀ k, byte.toBitVec.getLsbD k = byte.toNat.testBit k := fun _ => rfl
  simp only [lane, BitVec.getLsbD_shiftLeft, BitVec.getLsbD_setWidth, BitVec.getLsbD_reverse,
    BitVec.getMsbD_eq_getLsbD, hbit, Bool.and_eq_true, Bool.not_eq_true', decide_eq_true_eq,
    decide_eq_false_iff_not]
  constructor
  · rintro ⟨⟨-, hleft⟩, -, hright, hset⟩
    have hcolumn : column.val = corner + (column.val - corner) := by omega
    exact ⟨⟨column.val - corner, hright⟩, hcolumn, hset⟩
  · rintro ⟨j, hcolumn, hset⟩
    have hoffset : column.val - corner = j.val := by omega
    rw [hoffset]
    exact ⟨⟨column.isLt, by omega⟩, by omega, j.isLt, hset⟩

/-- Row `k` of a sprite falls on the `k`-th row below its corner. -/
theorem getLsbD_layer_iff (sprite : List UInt8) (corner top row : Nat)
    (column : Fin displayWidth) :
    (layer sprite corner top row).getLsbD column = true ↔
      ∃ k byte, sprite[k]? = some byte ∧ row = top + k ∧
        ∃ j : Fin 8, column.val = corner + j.val ∧ byte.toNat.testBit (7 - j) = true := by
  by_cases habove : row < top
  · rw [layer_of_lt sprite corner habove]
    constructor
    · intro hset
      simp at hset
    · rintro ⟨k, byte, -, hrow, -⟩
      omega
  · have hlayer : layer sprite corner top row = (sprite[row - top]?).elim 0 (lane · corner) :=
      if_pos (Nat.le_of_not_lt habove)
    rw [hlayer]
    cases hbyte : sprite[row - top]? with
    | none =>
        constructor
        · intro hset
          simp at hset
        · rintro ⟨k, byte, hk, rfl, -⟩
          rw [Nat.add_sub_cancel_left, hk] at hbyte
          cases hbyte
    | some byte =>
        rw [Option.elim_some, getLsbD_lane_iff]
        constructor
        · intro hfalls
          exact ⟨row - top, byte, hbyte, by omega, hfalls⟩
        · rintro ⟨k, byte', hk, rfl, hfalls⟩
          rw [Nat.add_sub_cancel_left, hk] at hbyte
          cases hbyte
          exact hfalls

/-! ## Sprites on a picture -/

/-- Two pictures with the same pixels are the same. -/
theorem ext_pixel {b b' : Bitmap}
    (h : ∀ (column : Fin displayWidth) (row : Fin displayHeight),
      b'.pixel column row = b.pixel column row) : b' = b := by
  apply Vector.ext
  intro i hi
  apply BitVec.eq_of_getLsbD_eq
  intro j hj
  exact h ⟨j, hj⟩ ⟨i, hi⟩

@[simp] theorem pixel_blank (column : Nat) (row : Fin displayHeight) :
    blank.pixel column row = false := by
  simp [pixel, blank]

theorem pixel_stamp (b : Bitmap) (sprite : List UInt8) (corner top column : Nat)
    (row : Fin displayHeight) :
    (b.stamp sprite corner top).1.pixel column row =
      (b.pixel column row ^^ (layer sprite corner top row).getLsbD column) := by
  simp only [pixel, stamp, Fin.getElem_fin, Vector.getElem_ofFn, BitVec.getLsbD_xor]

/-- The flag of a sprite: one of its bits falls on a lit pixel. -/
theorem stamp_flag_iff (b : Bitmap) (sprite : List UInt8) (corner top : Nat) :
    (b.stamp sprite corner top).2 = true ↔
      ∃ (column : Fin displayWidth) (row : Fin displayHeight),
        (layer sprite corner top row).getLsbD column = true ∧ b.pixel column row = true := by
  have hrow : ∀ r : Row, (r != 0) = true ↔
      ∃ column : Fin displayWidth, r.getLsbD column = true := by
    intro r
    rw [bne_iff_ne]
    constructor
    · intro hne
      refine Classical.byContradiction fun hnone => hne ?_
      apply BitVec.eq_of_getLsbD_eq
      intro i hi
      simpa using not_exists.mp hnone ⟨i, hi⟩
    · rintro ⟨column, hset⟩ rfl
      simp at hset
  simp only [stamp, List.any_eq_true, List.mem_finRange, true_and, hrow, BitVec.getLsbD_and,
    Bool.and_eq_true, pixel]
  constructor
  · rintro ⟨row, column, hlit, hset⟩
    exact ⟨column, row, hset, hlit⟩
  · rintro ⟨column, row, hset, hlit⟩
    exact ⟨row, column, hlit, hset⟩

/-- A pixel is lit in the picture `before` and not in the picture `after`. -/
def Loses (before after : Bitmap) : Prop :=
  ∃ (column : Fin displayWidth) (row : Fin displayHeight),
    before.pixel column row = true ∧ after.pixel column row = false

instance (before after : Bitmap) : Decidable (before.Loses after) := by
  unfold Loses
  infer_instance

end Bitmap

/-! ## Sprites in memory -/

namespace Memory

/-- The bytes from one address up to another, one by one. -/
theorem getElem?_bytesBetween (m : Memory) (start stop k : Nat) :
    (m.bytesBetween start stop)[k]? =
      if start + k < stop then some (m.byte (start + k)) else none := by
  unfold bytesBetween
  by_cases hlt : k < stop - start
  · rw [List.getElem?_map, List.getElem?_range' hlt, if_pos (by omega), Nat.one_mul]
    rfl
  · rw [if_neg (by omega), List.getElem?_eq_none]
    simpa using hlt

end Memory

namespace Machine

/-- A bit of the sprite that the word `w` draws falls on a pixel. The sprite is at the index,
its top left corner in column `V[x]` of row `V[y]`, which may lie outside the display. -/
def Inks (m : Machine) (w : Word) (column row : Nat) : Prop :=
  ∃ (k : Fin w.n.val) (j : Fin 8),
    row = (m.reg w.y).toNat + k ∧ column = (m.reg w.x).toNat + j ∧
      (m.memory.byte (m.index.toNat + k)).toNat.testBit (7 - j) = true

instance (m : Machine) (w : Word) (column row : Nat) : Decidable (m.Inks w column row) := by
  unfold Inks
  infer_instance

/-- A bit of the sprite falls on a pixel of the display that is lit, or on one that is not. -/
def Meets (m : Machine) (w : Word) (lit : Bool) : Prop :=
  ∃ (column : Fin displayWidth) (row : Fin displayHeight),
    m.Inks w column row ∧ m.display.pixel column row = lit

instance (m : Machine) (w : Word) (lit : Bool) : Decidable (m.Meets w lit) := by
  unfold Meets
  infer_instance

/-- A sprite that meets no pixel at all has no bit on the display. -/
theorem not_meets_iff {m : Machine} {w : Word} :
    ¬m.Meets w true ∧ ¬m.Meets w false ↔
      ∀ (column : Fin displayWidth) (row : Fin displayHeight), ¬m.Inks w column row := by
  constructor
  · rintro ⟨hlit, hunlit⟩ column row hinks
    cases hpixel : m.display.pixel column row with
    | false => exact hunlit ⟨column, row, hinks, hpixel⟩
    | true => exact hlit ⟨column, row, hinks, hpixel⟩
  · intro hnone
    constructor
    · rintro ⟨column, row, hinks, -⟩
      exact hnone column row hinks
    · rintro ⟨column, row, hinks, -⟩
      exact hnone column row hinks

/-- Where the bits of a sprite in memory fall. -/
theorem getLsbD_layer_iff {m : Machine} {w : Word} (hrange : Memory.InRange m.index w.n.val)
    (column : Fin displayWidth) (row : Fin displayHeight) :
    (Bitmap.layer (m.memory.bytesBetween m.index.toNat (Memory.blockEnd m.index w.n.val))
      (m.reg w.x).toNat (m.reg w.y).toNat row).getLsbD column = true ↔ m.Inks w column row := by
  have hend : Memory.blockEnd m.index w.n.val = m.index.toNat + w.n.val := by
    obtain ⟨hlow, -⟩ := hrange
    unfold Memory.blockEnd
    rw [if_neg (by omega)]
    omega
  rw [Bitmap.getLsbD_layer_iff, hend]
  constructor
  · rintro ⟨k, byte, hbyte, hrow, j, hcolumn, hset⟩
    rw [Memory.getElem?_bytesBetween] at hbyte
    split at hbyte
    · cases hbyte
      exact ⟨⟨k, by omega⟩, j, hrow, hcolumn, hset⟩
    · cases hbyte
  · rintro ⟨k, j, hrow, hcolumn, hset⟩
    have hbyte := m.memory.getElem?_bytesBetween m.index.toNat (m.index.toNat + w.n.val) k.val
    rw [if_pos (by omega)] at hbyte
    exact ⟨k.val, _, hbyte, hrow, j, hcolumn, hset⟩

/-! ## Steps that draw -/

namespace Executes

variable {m : Machine} {divider : Int} {keys : Keyboard} {s : Step} {i : Instruction}

/-- `Dxyn` turns over the pixels on which a bit of the sprite falls. -/
theorem pixel_of_draw (hexec : Executes m divider keys s i) (hdraw : s.word.family.val = 0xD)
    (column : Fin displayWidth) (row : Fin displayHeight) :
    s.next.display.pixel column row =
      (m.display.pixel column row ^^ decide (m.Inks s.word column row)) := by
  obtain ⟨hrange, hdisplay, -⟩ := hexec.draw_inv hdraw
  rw [hdisplay, stamped, Bitmap.pixel_stamp, Bool.eq_iff_iff.mpr
    ((getLsbD_layer_iff hrange column row).trans decide_eq_true_iff.symm)]

/-- `Dxyn` sets the flag if a bit of the sprite falls on a lit pixel. -/
theorem flag_of_draw (hexec : Executes m divider keys s i) (hdraw : s.word.family.val = 0xD) :
    s.next.reg flagRegister = if m.Meets s.word true then 1 else 0 := by
  obtain ⟨hrange, -⟩ := hexec.draw_inv hdraw
  have hflag : (m.stamped s.word.x s.word.y s.word.n).2 = true ↔ m.Meets s.word true := by
    rw [stamped, Bitmap.stamp_flag_iff]
    simp only [getLsbD_layer_iff hrange, Meets]
  simp only [hexec.flag_of_stamped hdraw, hflag]

/-- A lit pixel goes out iff a bit of the sprite falls on it. -/
theorem loses_iff_of_draw (hexec : Executes m divider keys s i)
    (hdraw : s.word.family.val = 0xD) :
    m.display.Loses s.next.display ↔ m.Meets s.word true := by
  unfold Bitmap.Loses Meets
  simp only [hexec.pixel_of_draw hdraw]
  constructor
  · rintro ⟨column, row, hlit, hout⟩
    rw [hlit, Bool.true_xor, Bool.not_eq_false', decide_eq_true_eq] at hout
    exact ⟨column, row, hout, hlit⟩
  · rintro ⟨column, row, hinks, hlit⟩
    refine ⟨column, row, hlit, ?_⟩
    rw [hlit, decide_eq_true hinks]
    rfl

/-- On a blank display a sprite lights what it meets. -/
theorem meets_blank_iff_of_draw (hexec : Executes m divider keys s i)
    (hdraw : s.word.family.val = 0xD) (hblank : m.display = Bitmap.blank) :
    m.Meets s.word false ↔ ∃ (column : Fin displayWidth) (row : Fin displayHeight),
      s.next.display.pixel column row = true := by
  unfold Meets
  simp only [hexec.pixel_of_draw hdraw, hblank, Bitmap.pixel_blank, Bool.false_xor,
    decide_eq_true_eq, and_true]

/-- `Dxyn` changes no register but the flag. -/
theorem reg_of_draw (hexec : Executes m divider keys s i) (hdraw : s.word.family.val = 0xD)
    {x : Reg} (hx : x ≠ flagRegister) : s.next.reg x = m.reg x := by
  obtain ⟨-, -, hregisters, -⟩ := hexec.draw_inv hdraw
  have hother : flagRegister.val ≠ x.val := fun h => hx (Fin.ext h.symm)
  unfold reg
  rw [hregisters]
  exact Vector.getElem_set_ne _ _ hother

/-! ## Drawing again -/

section Again

variable {m' : Machine} {pc : Int}

/-- A drawing leaves the sprite where it was, unless a coordinate is taken from the flag. -/
theorem inks_again (hexec : Executes m divider keys s i) (hdraw : s.word.family.val = 0xD)
    (hx : s.word.x ≠ flagRegister) (hy : s.word.y ≠ flagRegister)
    (hmachine : m' = { s.next with pc }) (column row : Nat) :
    m'.Inks s.word column row ↔ m.Inks s.word column row := by
  obtain ⟨-, -, -, hindex, hmemory⟩ := hexec.draw_inv hdraw
  have hcolumn : m'.reg s.word.x = m.reg s.word.x := by
    rw [hmachine]
    exact hexec.reg_of_draw hdraw hx
  have hrow : m'.reg s.word.y = m.reg s.word.y := by
    rw [hmachine]
    exact hexec.reg_of_draw hdraw hy
  have hindex' : m'.index = m.index := by rw [hmachine, ← hindex]
  have hmemory' : m'.memory = m.memory := by rw [hmachine, ← hmemory]
  unfold Inks
  rw [hcolumn, hrow, hindex', hmemory']

/-- A drawing turns lit pixels of the sprite into unlit ones. -/
theorem meets_again (hexec : Executes m divider keys s i) (hdraw : s.word.family.val = 0xD)
    (hx : s.word.x ≠ flagRegister) (hy : s.word.y ≠ flagRegister)
    (hmachine : m' = { s.next with pc }) (lit : Bool) :
    m'.Meets s.word lit ↔ m.Meets s.word !lit := by
  have hinks := hexec.inks_again hdraw hx hy hmachine
  have hpixel : ∀ (column : Fin displayWidth) (row : Fin displayHeight),
      m.Inks s.word column row →
        (m'.display.pixel column row = lit ↔ m.display.pixel column row = !lit) := by
    intro column row hfalls
    have hturned := hexec.pixel_of_draw hdraw column row
    rw [decide_eq_true hfalls, Bool.xor_true] at hturned
    rw [hmachine, hturned, Bool.not_eq_eq_eq_not]
  unfold Meets
  constructor
  · rintro ⟨column, row, hfalls, hlit⟩
    have hfalls' := (hinks column row).mp hfalls
    exact ⟨column, row, hfalls', (hpixel column row hfalls').mp hlit⟩
  · rintro ⟨column, row, hfalls, hlit⟩
    exact ⟨column, row, (hinks column row).mpr hfalls, (hpixel column row hfalls).mpr hlit⟩

/-- A word that has drawn draws again wherever it is fetched. -/
theorem draw_again (hexec : Executes m divider keys s i) (hdraw : s.word.family.val = 0xD)
    (hmachine : m' = { s.next with pc }) (hfetch : m'.fetch = .ok s.word) (divider' : Int)
    (keys' : Keyboard) : ∃ t j, Executes m' divider' keys' t j ∧ t.word = s.word := by
  obtain ⟨hrange, -, -, hindex, -⟩ := hexec.draw_inv hdraw
  have hallowed : m'.refusal? keys' (.draw s.word.x s.word.y s.word.n) = none := by
    have hindex' : m'.index = m.index := by rw [hmachine, ← hindex]
    rw [refusal?, hindex']
    exact denied_eq_none_iff.mpr (Memory.checkRange_eq_ok_iff.mpr hrange)
  have hdecode := Instruction.ofWord?_of_family_draw hdraw
  exact ⟨⟨m'.pc, s.word, _, _⟩, .draw s.word.x s.word.y s.word.n,
    ⟨hfetch, hdecode, hallowed, rfl, rfl, rfl⟩, rfl⟩

/-- Drawn twice, a sprite leaves the display as it was. -/
theorem display_of_draw_twice (hexec : Executes m divider keys s i)
    (hdraw : s.word.family.val = 0xD) (hx : s.word.x ≠ flagRegister)
    (hy : s.word.y ≠ flagRegister) (hmachine : m' = { s.next with pc }) {divider' : Int}
    {keys' : Keyboard} {t : Step} {j : Instruction} (hagain : Executes m' divider' keys' t j)
    (hword : t.word = s.word) : t.next.display = m.display := by
  have hinks := hexec.inks_again hdraw hx hy hmachine
  have hdraw' : t.word.family.val = 0xD := by rw [hword, hdraw]
  apply Bitmap.ext_pixel
  intro column row
  have hfirst := hexec.pixel_of_draw hdraw column row
  have hsecond := hagain.pixel_of_draw hdraw' column row
  rw [hword] at hsecond
  simp only [hinks column row] at hsecond
  rw [hsecond, hmachine, hfirst, Bool.xor_assoc, Bool.xor_self, Bool.xor_false]

end Again

end Executes

end Machine

end ChipEight

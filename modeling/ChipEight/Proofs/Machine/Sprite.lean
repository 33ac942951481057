import ChipEight.Machine.Perform

/-!
# Drawing a sprite row by row

An instruction that draws works on one row of the display after the other and looks
for lost pixels through a window of eight columns. This module shows that the rows
together are one layer laid over the whole picture: `Action.stampRows` leaves
`Bitmap.stamp` behind, and it finds a collision exactly when the layer meets a lit
pixel.

## Main results

* `Bitmap.lost_iff` — a row loses a pixel, as seen through the window, iff the sprite
  row meets a lit one.
* `Action.run_stampRows` — the rows of a sprite amount to `Bitmap.stamp`.
-/

namespace ChipEight

namespace Bitmap

/-! ## One row -/

/-- A sprite row lies within its window. -/
theorem lane_and_window (byte : UInt8) (column : Nat) :
    lane byte column &&& window column = lane byte column := by
  apply BitVec.eq_of_getLsbD_eq
  intro i hi
  simp only [lane, window, BitVec.getLsbD_and, BitVec.getLsbD_shiftLeft,
    BitVec.getLsbD_setWidth, BitVec.getLsbD_reverse]
  by_cases hlt : i - column < 8
  · have hone : (0xFF : Row).getLsbD (i - column) = true := by
      have : ∀ k : Fin 8, (0xFF : Row).getLsbD k = true := by decide
      exact this ⟨i - column, hlt⟩
    simp only [hone, Bool.and_true]
    cases decide (i < column) <;> simp [hi]
  · have hzero : byte.toBitVec.getMsbD (i - column) = false :=
      BitVec.getMsbD_of_ge _ _ (by omega)
    simp [hzero]

/-- A row that is changed by `mask` keeps what was lit in a part `w` around the mask
iff the mask meets no lit pixel. -/
theorem xor_and_eq_iff {w mask : Row} (row : Row) (hmask : mask &&& w = mask) :
    (row ^^^ mask) &&& (row &&& w) = row &&& w ↔ row &&& mask = 0 := by
  have hbit : ∀ i, (mask.getLsbD i && w.getLsbD i) = mask.getLsbD i := by
    intro i
    rw [← BitVec.getLsbD_and, hmask]
  constructor
  · intro h
    apply BitVec.eq_of_getLsbD_eq
    intro i _
    have hi := congrArg (·.getLsbD i) h
    have hm := hbit i
    revert hi hm
    simp only [BitVec.getLsbD_and, BitVec.getLsbD_xor]
    cases row.getLsbD i <;> cases mask.getLsbD i <;> cases w.getLsbD i <;> simp
  · intro h
    apply BitVec.eq_of_getLsbD_eq
    intro i _
    have hi := congrArg (·.getLsbD i) h
    revert hi
    simp only [BitVec.getLsbD_and, BitVec.getLsbD_xor]
    cases row.getLsbD i <;> cases mask.getLsbD i <;> cases w.getLsbD i <;> simp

/-- Looked at through the window, a row loses a pixel iff the sprite row meets a lit
one. -/
theorem lost_iff (row : Row) (byte : UInt8) (column : Nat) :
    ((row ^^^ lane byte column) &&& (row &&& window column) != row &&& window column) =
      (row &&& lane byte column != 0) := by
  have h := xor_and_eq_iff row (lane_and_window byte column)
  rw [Bool.eq_iff_iff, bne_iff_ne, bne_iff_ne, ne_eq, ne_eq, h]

/-! ## The layer of a sprite -/

@[simp] theorem layer_nil (column top row : Nat) : layer [] column top row = 0 := by
  simp [layer]

/-- The first byte of a sprite lies on its top row, the others below it. -/
theorem layer_cons (byte : UInt8) (rest : List UInt8) (column top row : Nat) :
    layer (byte :: rest) column top row =
      if row = top then lane byte column else layer rest column (top + 1) row := by
  unfold layer
  by_cases heq : row = top
  · subst heq
    simp
  · rw [if_neg heq]
    by_cases hle : top ≤ row
    · have hlt : top + 1 ≤ row := by omega
      have hsub : row - top = row - (top + 1) + 1 := by omega
      rw [if_pos hle, if_pos hlt, hsub, List.getElem?_cons_succ]
    · rw [if_neg hle, if_neg (by omega)]

/-- A sprite adds nothing above its top row. -/
theorem layer_of_lt (sprite : List UInt8) (column : Nat) {top row : Nat} (h : row < top) :
    layer sprite column top row = 0 := by
  unfold layer
  rw [if_neg (by omega)]

/-- A sprite below the display changes nothing and meets nothing. -/
theorem stamp_of_le (b : Bitmap) (sprite : List UInt8) (column : Nat) {top : Nat}
    (h : displayHeight ≤ top) : b.stamp sprite column top = (b, false) := by
  have hzero : ∀ r : Fin displayHeight, layer sprite column top r = 0 := fun r =>
    layer_of_lt sprite column (by omega)
  refine Prod.ext ?_ ?_
  · apply Vector.ext
    intro i hi
    have hrow := hzero ⟨i, hi⟩
    simp only at hrow
    simp only [stamp, Vector.getElem_ofFn, hrow, Fin.getElem_fin,
      BitVec.ofNat_eq_ofNat, BitVec.xor_zero]
  · simp only [stamp, List.any_eq_false]
    intro r _
    simp [hzero r]

@[simp] theorem stamp_nil (b : Bitmap) (column top : Nat) : b.stamp [] column top = (b, false) := by
  refine Prod.ext ?_ ?_
  · apply Vector.ext
    intro i hi
    simp only [stamp, layer_nil, Vector.getElem_ofFn, Fin.getElem_fin,
      BitVec.ofNat_eq_ofNat, BitVec.xor_zero]
  · simp [stamp]

/-- Laying a sprite over the picture is laying its first row and then the others below
it. -/
theorem stamp_cons (b : Bitmap) (byte : UInt8) (rest : List UInt8) (column : Nat) {top : Nat}
    (h : top < displayHeight) :
    b.stamp (byte :: rest) column top =
      let below := stamp (b.set top (b[top] ^^^ lane byte column) h) rest column (top + 1)
      (below.1, b[top] &&& lane byte column != 0 || below.2) := by
  refine Prod.ext ?_ ?_
  · apply Vector.ext
    intro i hi
    simp only [stamp, Vector.getElem_ofFn, Fin.getElem_fin, layer_cons, Vector.getElem_set]
    by_cases htop : i = top
    · subst htop
      have hzero : layer rest column (i + 1) i = 0 := layer_of_lt rest column (by omega)
      simp [hzero]
    · simp [htop, Ne.symm htop]
  · -- the rows below the top one are the same before and after it was drawn
    simp only [stamp, Fin.getElem_fin, layer_cons, Vector.getElem_set]
    rw [Bool.eq_iff_iff]
    simp only [List.any_eq_true, Bool.or_eq_true, List.mem_finRange, true_and]
    constructor
    · rintro ⟨r, hr⟩
      by_cases htop : r.val = top
      · left
        simpa [htop] using hr
      · right
        exact ⟨r, by simpa [htop, Ne.symm htop] using hr⟩
    · rintro (htop | ⟨r, hr⟩)
      · exact ⟨⟨top, h⟩, by simpa using htop⟩
      · by_cases htop : r.val = top
        · have hzero : layer rest column (top + 1) r = 0 := layer_of_lt rest column (by omega)
          simp [hzero] at hr
        · exact ⟨r, by simpa [htop, Ne.symm htop] using hr⟩

end Bitmap

namespace Action

/-- The rows of a sprite, drawn one after the other, amount to one layer over the whole
picture. -/
theorem run_stampRows (column : Nat) (sprite : List UInt8) :
    ∀ (row : Nat) (collision : Bool) (m : Machine) (r : Option Redraw),
      (stampRows column row sprite collision).run { machine := m, redraw := r } =
        .ok (collision || (m.display.stamp sprite column row).2)
          { machine := { m with display := (m.display.stamp sprite column row).1 }
            redraw := r } := by
  induction sprite with
  | nil =>
      intro row collision m r
      simp [stampRows]
  | cons byte rest ih =>
      intro row collision m r
      unfold stampRows
      by_cases h : row < displayHeight
      · rw [dif_pos h, Bitmap.stamp_cons _ _ _ _ h]
        simp only [run_bind, run_machine, run_change, ih, Bitmap.lost_iff, Machine.setRow,
          Bool.or_assoc]
      · rw [dif_neg h, Bitmap.stamp_of_le _ _ _ (by omega)]
        simp

end Action

end ChipEight

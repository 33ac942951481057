import ChipEight.FrameBuffer
import ChipEight.Machine
import ChipEight.Proofs.Text.Joined
import ChipEight.Text.CodePoint

/-!
# One picture, three texts

A picture that fits the display is a table of 32 times 64 bits. `Picture.bit` is the table, and
`page` the text of a table. The grid of a picture, its text, the text of a snapshot that shows
it, and the text that is put together from single pixels are all made from the same bits, though
each finds them in a way of its own.

A text of two characters tells the picture, for every line of it has the same length: where a
pixel stands in the text does not depend on the picture.

## Main results

* `Picture.Whole.grid_eq`, `Picture.Whole.text_eq`, `Picture.Whole.displayText_eq`,
  `Picture.Whole.textByPixel_eq` — everything is read from the bits.
* `Picture.Whole.ext` — a picture is told by its bits.
* `bits_of_page` — so it is by its text.
* `Bitmap.whole_rows` — a display shows a picture of this kind.
-/

namespace ChipEight

open Text

/-! ## Tables of bits -/

/-- The text of a table of bits, one line per row. -/
def page (pixel : Nat → Nat → Bool) (on off : String) : String :=
  "\n".intercalate ((List.range displayHeight).map fun y =>
    String.join ((List.range displayWidth).map fun x => if pixel x y then on else off))

namespace Picture

/-- No row has pixels outside the display. -/
def Fits (p : Picture) : Prop := ∀ row ∈ p, 0 ≤ row ∧ row ≤ rowMask

/-- A picture of the size of the display. -/
structure Whole (p : Picture) : Prop where
  fits : p.Fits
  height : p.length = displayHeight

/-- Whether the pixel in column `x` of row `y` is lit, which is bit `x` of the row. -/
def bit (p : Picture) (x y : Nat) : Bool := (p.getD y 0).toNat.testBit x

variable {p q : Picture}

theorem Fits.any_eq_false (h : p.Fits) :
    (p.any fun row => decide (row < 0 ∨ rowMask < row)) = false := by
  rw [List.any_eq_false]
  intro row hrow
  obtain ⟨hlow, hhigh⟩ := h row hrow
  rw [decide_eq_true_eq]
  omega

/-- The rows of a picture, each read through `f`. -/
theorem Whole.map_eq (h : p.Whole) {β : Type} (f : Int → β) :
    p.map f = (List.range displayHeight).map fun y => f (p.getD y 0) := by
  apply List.ext_getElem
  · rw [List.length_map, List.length_map, List.length_range, h.height]
  · intro y hy _
    have hy' : y < p.length := by simpa using hy
    simp [hy']

/-- The array of pixels has bit `x` of row `y` in its row `y` and column `x`. -/
theorem Whole.grid_eq (h : p.Whole) : p.grid =
    .ok ((List.range displayHeight).map fun y => (List.range displayWidth).map fun x =>
      p.bit x y) := by
  unfold grid
  rw [h.fits.any_eq_false, if_neg Bool.false_ne_true, if_neg (not_not_intro h.height), h.map_eq]
  rfl

/-- A picture of another height is refused for that. -/
theorem Fits.grid_eq_error (h : p.Fits) (hheight : p.length ≠ displayHeight) :
    p.grid = .error (.wrongHeight p.length) := by
  unfold grid
  rw [h.any_eq_false, if_neg Bool.false_ne_true, if_pos hheight]

/-- Pictures with the same bits are the same. -/
theorem Whole.ext (hp : p.Whole) (hq : q.Whole)
    (h : ∀ x < displayWidth, ∀ y < displayHeight, p.bit x y = q.bit x y) : p = q := by
  apply List.ext_getElem (hp.height.trans hq.height.symm)
  intro y hy hy'
  have hmask : rowMask + 1 = 2 ^ displayWidth := rfl
  obtain ⟨hlow, hhigh⟩ := hp.fits _ (List.getElem_mem hy)
  obtain ⟨hlow', hhigh'⟩ := hq.fits _ (List.getElem_mem hy')
  have hrow : p[y].toNat = q[y].toNat := by
    apply Nat.eq_of_testBit_eq
    intro x
    by_cases hx : x < displayWidth
    · have hbit := h x hx y (Nat.lt_of_lt_of_eq hy hp.height)
      unfold bit at hbit
      rwa [List.getD_eq_getElem?_getD, List.getD_eq_getElem?_getD, List.getElem?_eq_getElem hy,
        List.getElem?_eq_getElem hy'] at hbit
    · have hbeyond : ∀ n : Nat, n < 2 ^ displayWidth → n.testBit x = false := fun n hn =>
        Nat.testBit_lt_two_pow (Nat.lt_of_lt_of_le hn
          (Nat.pow_le_pow_right (by decide) (Nat.le_of_not_lt hx)))
      rw [hbeyond _ (by omega), hbeyond _ (by omega)]
  omega

/-! ## Texts -/

theorem Whole.text_eq (h : p.Whole) (on off : String) :
    p.text on off = .ok (page p.bit on off) := by
  unfold text page
  rw [h.grid_eq]
  simp only [Except.map, List.map_map, Function.comp_def]

/-- A bit of a row that is not below zero. -/
theorem bitSet_eq {row : Int} (h : 0 ≤ row) (x : Nat) : bitSet row x = row.toNat.testBit x := by
  obtain ⟨n, rfl⟩ := Int.eq_ofNat_of_zero_le h
  have hshift : (n : Int) >>> x = ((n / 2 ^ x : Nat) : Int) := by
    rw [← Nat.shiftRight_eq_div_pow]
    rfl
  unfold bitSet
  rw [hshift, Int.toNat_natCast, Nat.testBit_eq_decide_div_mod_eq, Bool.eq_iff_iff, beq_iff_eq,
    decide_eq_true_eq]
  omega

theorem Fits.getD_nonneg (h : p.Fits) (y : Nat) : 0 ≤ p.getD y 0 := by
  rw [List.getD_eq_getElem?_getD]
  cases hrow : p[y]? with
  | none => exact Int.le_refl 0
  | some row => exact (h row (List.mem_of_getElem? hrow)).1

theorem rowText_eq (on off : String) {row : Int} (h : 0 ≤ row) :
    rowText on off row = String.join ((List.range displayWidth).map fun x =>
      if row.toNat.testBit x then on else off) := by
  unfold rowText
  simp only [bitSet_eq h]

/-- A snapshot that shows the picture has the same text. -/
theorem Whole.displayText_eq {s : Snapshot} (h : Whole s.display) (on off : String) :
    s.displayText on off = page (bit s.display) on off := by
  have hrows : s.display.map (rowText on off) = (List.range displayHeight).map fun y =>
      String.join ((List.range displayWidth).map fun x =>
        if bit s.display x y then on else off) := by
    rw [h.map_eq]
    exact List.map_congr_left fun y _ => rowText_eq on off (h.fits.getD_nonneg y)
  unfold Snapshot.displayText page
  rw [hrows]

end Picture

/-- The rows of a display are a picture of its size. -/
theorem Bitmap.whole_rows (b : Bitmap) : Picture.Whole b.rows where
  fits := by
    intro row hrow
    obtain ⟨r, -, rfl⟩ := List.mem_map.mp hrow
    have hlt : r.toNat < 2 ^ displayWidth := r.isLt
    have hmask : rowMask = 2 ^ displayWidth - 1 := rfl
    omega
  height := by simp [rows]

/-! ## Single pixels -/

namespace FrameBuffer

/-- The text of a frame that is asked for pixel by pixel. -/
def textByPixel (f : FrameBuffer) (on off : String) : Except PictureError String := do
  let lines ← (List.range displayHeight).mapM fun (y : Nat) => do
    let parts ← (List.range displayWidth).mapM fun (x : Nat) =>
      (f.pixel x y).map fun lit => if lit then on else off
    return String.join parts
  return "\n".intercalate lines

/-- A pixel of a frame is a bit of it. -/
theorem pixel_eq {f : FrameBuffer} (h : f.frame.Whole) (x : Nat) {y : Nat}
    (hy : y < displayHeight) : f.pixel x y = .ok (f.frame.bit x y) := by
  have hy' : y < f.frame.length := Nat.lt_of_lt_of_eq hy h.height.symm
  have hrow : f.row? y = some (f.frame.getD y 0) := by
    unfold row?
    rw [if_pos (Int.natCast_nonneg y), Int.toNat_natCast, List.getD_eq_getElem?_getD,
      List.getElem?_eq_getElem hy']
    rfl
  unfold pixel
  rw [hrow]
  show (if (x : Int) < 0 then Except.error PictureError.negativeColumn
    else .ok (bitSet (f.frame.getD y 0) (x : Int).toNat)) = _
  rw [if_neg (Int.not_lt.mpr (Int.natCast_nonneg x)), Int.toNat_natCast,
    Picture.bitSet_eq (h.fits.getD_nonneg y)]
  rfl

/-- A list is mapped without an error if each of its elements is. -/
theorem mapM_ok {ε α β : Type} {f : α → Except ε β} {g : α → β} {xs : List α}
    (h : ∀ x ∈ xs, f x = .ok (g x)) : xs.mapM f = .ok (xs.map g) := by
  induction xs with
  | nil => rfl
  | cons x xs ih =>
      rw [List.mapM_cons, h x List.mem_cons_self, ih fun y hy => h y (List.mem_cons_of_mem x hy)]
      rfl

theorem textByPixel_eq {f : FrameBuffer} (h : f.frame.Whole) (on off : String) :
    f.textByPixel on off = .ok (page f.frame.bit on off) := by
  have hline : ∀ y ∈ List.range displayHeight, ((List.range displayWidth).mapM fun (x : Nat) =>
      (f.pixel x y).map fun lit => if lit then on else off) =
        .ok ((List.range displayWidth).map fun x => if f.frame.bit x y then on else off) := by
    intro y hy
    apply mapM_ok
    intro x _
    rw [pixel_eq h x (List.mem_range.mp hy)]
    rfl
  unfold textByPixel
  rw [mapM_ok (g := fun y => String.join ((List.range displayWidth).map fun x =>
    if f.frame.bit x y then on else off))]
  · rfl
  · intro y hy
    rw [hline y hy]
    rfl

end FrameBuffer

/-! ## Texts of two characters -/

/-- The code points of the text of a table of bits, if one stands for each pixel. -/
def pageCodes (pixel : Nat → Nat → Bool) (on off : Nat) : List Nat :=
  ['\n'.toNat].intercalate ((List.range displayHeight).map fun y =>
    (List.range displayWidth).map fun x => if pixel x y then on else off)

theorem written_intercalate (code : Nat) (parts : List (List Nat)) :
    CodePoint.written ([code].intercalate parts) =
      (CodePoint.ofCode code).intercalate (parts.map CodePoint.written) := by
  unfold CodePoint.written
  induction parts with
  | nil => rfl
  | cons part rest ih =>
      cases rest with
      | nil => simp
      | cons next rest =>
          rw [List.intercalate_cons_cons, List.flatMap_append, List.flatMap_append, ih,
            List.flatMap_singleton]
          exact List.intercalate_cons_cons.symm

/-- A text with a code point for each pixel is the text of these code points. -/
theorem page_ofCodes (pixel : Nat → Nat → Bool) (on off : Nat) :
    page pixel (CodePoint.ofCodes [on]) (CodePoint.ofCodes [off]) =
      CodePoint.ofCodes (pageCodes pixel on off) := by
  have hcode : ∀ b : Bool,
      (if b then CodePoint.ofCodes [on] else CodePoint.ofCodes [off]).toList =
        CodePoint.ofCode (if b then on else off) := by
    intro b
    cases b <;> exact String.toList_ofList.trans (List.flatMap_singleton ..)
  have hbreak : "\n".toList = CodePoint.ofCode '\n'.toNat := by decide
  have hwritten : ∀ codes, (CodePoint.ofCodes codes).toList = CodePoint.written codes :=
    fun _ => String.toList_ofList
  have hline : ∀ y, (String.join ((List.range displayWidth).map fun x =>
      if pixel x y then CodePoint.ofCodes [on] else CodePoint.ofCodes [off])).toList =
        CodePoint.written ((List.range displayWidth).map fun x =>
          if pixel x y then on else off) := by
    intro y
    rw [String.toList_join, CodePoint.written, List.flatMap_map, List.flatMap_map]
    simp only [hcode]
  unfold page pageCodes
  rw [← String.toList_inj, String.toList_intercalate, hwritten, written_intercalate, hbreak,
    List.map_map, List.map_map]
  simp only [Function.comp_def, hline]

/-- The code points of such a text are those of its pixels and line breaks. -/
theorem codes_page (pixel : Nat → Nat → Bool) {on off : Nat} (hon : on < 0x110000)
    (hoff : off < 0x110000) :
    CodePoint.codes (page pixel (CodePoint.ofCodes [on]) (CodePoint.ofCodes [off])) =
      pageCodes pixel on off := by
  rw [page_ofCodes, CodePoint.codes, CodePoint.ofCodes, String.toList_ofList]
  apply CodePoint.codesOf_written
  apply forall_mem_intercalate
  · intro code hcode
    rw [List.mem_singleton.mp hcode]
    decide
  · intro line hline code hcode
    obtain ⟨y, -, rfl⟩ := List.mem_map.mp hline
    obtain ⟨x, -, rfl⟩ := List.mem_map.mp hcode
    split
    · exact hon
    · exact hoff

/-- The bits are told from a text with a code point for each pixel. -/
theorem bits_of_page {on off : Nat} (hon : on < 0x110000) (hoff : off < 0x110000)
    (hdiffer : on ≠ off) {f g : Nat → Nat → Bool}
    (h : page f (CodePoint.ofCodes [on]) (CodePoint.ofCodes [off]) =
      page g (CodePoint.ofCodes [on]) (CodePoint.ofCodes [off])) :
    ∀ x < displayWidth, ∀ y < displayHeight, f x y = g x y := by
  have hcodes := congrArg CodePoint.codes h
  rw [codes_page f hon hoff, codes_page g hon hoff] at hcodes
  have hlines := intercalate_inj_of_length (n := displayWidth) (by simp) (by simp) (by simp) hcodes
  intro x hx y hy
  have hline := List.map_inj_left.mp hlines y (List.mem_range.mpr hy)
  have hpixel := List.map_inj_left.mp hline x (List.mem_range.mpr hx)
  cases hf : f x y <;> cases hg : g x y
  · rfl
  · simp [hf, hg, hdiffer.symm] at hpixel
  · simp [hf, hg, hdiffer] at hpixel
  · rfl

end ChipEight

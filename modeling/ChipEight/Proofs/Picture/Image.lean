import ChipEight.Picture.Png
import ChipEight.Proofs.Machine.Block
import ChipEight.Proofs.Picture.Text

/-!
# All renderings show one picture

An image repeats every pixel `zoom` times across and every row `zoom` times down, so its point
`(x, y)` is the pixel `(x / zoom, y / zoom)`. It is made for colours of three bytes, as long as the
library repeats the pixels as often as that takes.

## Main results

* `Picture.getElem?_stretch` — where an element is after all were repeated.
* `Picture.Whole.image_eq` — the image, point by point.
* `Picture.renderings_agree` — array, texts and image of one picture.
-/

namespace ChipEight

open Text

/-- The colour as it is asked for. -/
def Colour.paint (c : Colour) : Paint := [(c.red.toNat : Int), c.green.toNat, c.blue.toNat]

/-- The point in column `x` of row `y`. -/
def Image.point? (i : Image) (x y : Nat) : Option Colour := i.rows[y]?.bind (·[x]?)

/-- Three bytes are a colour. -/
theorem Colour.ofPaint_paint (c : Colour) (pixels : Nat) : ofPaint c.paint pixels = .ok c := by
  have hbyte : ∀ v : UInt8, ¬((v.toNat : Int) < 0 ∨ 255 < (v.toNat : Int)) := by
    intro v
    have := v.toNat_lt
    omega
  have hany : c.paint.any (fun v => decide (v < 0 ∨ 255 < v)) = false := by
    unfold paint
    simp only [List.any_cons, List.any_nil, hbyte, decide_false, Bool.or_false]
  have hmap : c.paint.map UInt8.ofInt = [c.red, c.green, c.blue] := by
    unfold paint
    simp only [List.map_cons, List.map_nil, ofInt_toNat]
  unfold ofPaint
  rw [hany, if_neg Bool.false_ne_true, hmap]

namespace Picture

/-! ## Repeated elements -/

theorem length_stretch {α : Type} (times : Nat) (xs : List α) :
    (stretch times xs).length = times * xs.length := by
  unfold stretch
  induction xs with
  | nil => rfl
  | cons x xs ih =>
      rw [List.flatMap_cons, List.length_append, ih, List.length_replicate, List.length_cons,
        Nat.mul_succ, Nat.add_comm]

/-- Every element takes up `times` places. -/
theorem getElem?_stretch {α : Type} {times : Nat} (h : 0 < times) (xs : List α) (i : Nat) :
    (stretch times xs)[i]? = xs[i / times]? := by
  unfold stretch
  induction xs generalizing i with
  | nil => rfl
  | cons x xs ih =>
      rw [List.flatMap_cons]
      by_cases hfirst : i < times
      · rw [List.getElem?_append_left (by rwa [List.length_replicate]), List.getElem?_replicate,
          if_pos hfirst, Nat.div_eq_of_lt hfirst, List.getElem?_cons_zero]
      · have hle := Nat.le_of_not_lt hfirst
        rw [List.getElem?_append_right (by rwa [List.length_replicate]), List.length_replicate, ih,
          Nat.div_eq_sub_div h hle, List.getElem?_cons_succ]

/-! ## Images -/

variable {lib : Imaging} {p q : Picture}

/-- What an image of a picture is like. -/
structure Enlarges (i : Image) (zoom : Nat) (on off : Colour) (p : Picture) : Prop where
  width : i.width = displayWidth * zoom
  height : i.height = displayHeight * zoom
  rowCount : i.rows.length = i.height
  rowLength : ∀ row ∈ i.rows, row.length = i.width
  point : ∀ x < i.width, ∀ y < i.height,
    i.point? x y = some (if p.bit (x / zoom) (y / zoom) then on else off)

/-- The image of a table of bits. -/
theorem enlarges_imageOfGrid {zoom : Nat} (hzoom : 0 < zoom) (on off : Colour) (p : Picture) :
    Enlarges (imageOfGrid ((List.range displayHeight).map fun y =>
      (List.range displayWidth).map fun x => p.bit x y) zoom on off) zoom on off p where
  width := rfl
  height := rfl
  rowCount := by
    unfold imageOfGrid
    rw [length_stretch, List.length_map, List.length_map, List.length_range, Nat.mul_comm]
  rowLength := by
    intro row hrow
    obtain ⟨line, hline, hin⟩ := List.mem_flatMap.mp hrow
    obtain ⟨bits, hbits, rfl⟩ := List.mem_map.mp hline
    obtain ⟨y, -, rfl⟩ := List.mem_map.mp hbits
    rw [List.eq_of_mem_replicate hin, length_stretch, List.length_map, List.length_map,
      List.length_range, Nat.mul_comm]
    rfl
  point := by
    intro x hx y hy
    have hx' : x / zoom < displayWidth := (Nat.div_lt_iff_lt_mul hzoom).mpr hx
    have hy' : y / zoom < displayHeight := (Nat.div_lt_iff_lt_mul hzoom).mpr hy
    unfold Image.point? imageOfGrid
    rw [getElem?_stretch hzoom, List.getElem?_map, List.getElem?_map, List.getElem?_range hy']
    simp only [Option.map_some, Option.bind_some]
    rw [getElem?_stretch hzoom, List.getElem?_map, List.getElem?_map, List.getElem?_range hx']
    rfl

/-- What an image is made of, or why there is none. -/
theorem Whole.image_eq (h : p.Whole) (lib : Imaging) {zoom : Int} (hzoom : 1 ≤ zoom)
    (on off : Colour) :
    p.image lib zoom on.paint off.paint =
      match zoomRefusal? lib zoom.toNat with
      | some e => .error (.imaging e)
      | none => .ok (imageOfGrid ((List.range displayHeight).map fun y =>
          (List.range displayWidth).map fun x => p.bit x y) zoom.toNat on off) := by
  unfold image
  rw [if_neg (Int.not_lt.mpr hzoom), h.grid_eq]
  show (Colour.ofPaint on.paint _ >>= fun on' => Colour.ofPaint off.paint _ >>= fun off' => _) = _
  rw [Colour.ofPaint_paint, Colour.ofPaint_paint]
  rfl

/-- Pixels of single points are not repeated. -/
theorem zoomRefusal?_one (lib : Imaging) : zoomRefusal? lib 1 = none := rfl

/-- No library repeats points as often as a number of 64 bits cannot tell. -/
theorem zoomRefusal?_of_le {zoom : Nat} (h : 0x8000000000000000 ≤ zoom) :
    zoomRefusal? lib zoom = some .range := by
  unfold zoomRefusal?
  rw [if_pos (by omega), lib.counts zoom h]

/-- An image that the library can make is made, and enlarges the picture. -/
theorem Whole.image_of_none (h : p.Whole) {zoom : Int} (hzoom : 1 ≤ zoom) (on off : Colour)
    (hmakes : zoomRefusal? lib zoom.toNat = none) :
    ∃ i, p.image lib zoom on.paint off.paint = .ok i ∧ Enlarges i zoom.toNat on off p := by
  rw [h.image_eq lib hzoom, hmakes]
  exact ⟨_, rfl, enlarges_imageOfGrid (by omega) on off p⟩

/-- The library's refusal is the only reason why there is no image. -/
theorem Whole.image_of_some (h : p.Whole) {zoom : Int} (hzoom : 1 ≤ zoom) (on off : Colour)
    {e : ImagingError} (hrefuses : zoomRefusal? lib zoom.toNat = some e) :
    p.image lib zoom on.paint off.paint = .error (.imaging e) := by
  rw [h.image_eq lib hzoom, hrefuses]

/-- Every image of a picture enlarges it. -/
theorem Whole.enlarges (h : p.Whole) {zoom : Int} (hzoom : 1 ≤ zoom) {on off : Colour} {i : Image}
    (hi : p.image lib zoom on.paint off.paint = .ok i) : Enlarges i zoom.toNat on off p := by
  cases hrefusal : zoomRefusal? lib zoom.toNat with
  | some e => cases (h.image_of_some hzoom on off hrefusal).symm.trans hi
  | none =>
      obtain ⟨j, hj, henlarges⟩ := h.image_of_none hzoom on off hrefusal
      cases hj.symm.trans hi
      exact henlarges

/-- An image in two colours is the image of one picture only. -/
theorem Enlarges.unique {i : Image} {zoom : Nat} {on off : Colour} (hp : p.Whole) (hq : q.Whole)
    (hzoom : 0 < zoom) (hdiffer : on ≠ off) (hip : Enlarges i zoom on off p)
    (hiq : Enlarges i zoom on off q) : p = q := by
  apply hp.ext hq
  intro x hx y hy
  have hcolumn : x * zoom < i.width := by
    rw [hip.width]
    exact Nat.mul_lt_mul_of_pos_right hx hzoom
  have hrow : y * zoom < i.height := by
    rw [hip.height]
    exact Nat.mul_lt_mul_of_pos_right hy hzoom
  have hpoint := (hip.point _ hcolumn _ hrow).symm.trans (hiq.point _ hcolumn _ hrow)
  rw [Nat.mul_div_cancel _ hzoom, Nat.mul_div_cancel _ hzoom, Option.some_inj] at hpoint
  cases hbp : p.bit x y <;> cases hbq : q.bit x y
  · rfl
  · simp [hbp, hbq, hdiffer.symm] at hpoint
  · simp [hbp, hbq, hdiffer] at hpoint
  · rfl

/-! ## All renderings -/

/-- What is shown of a picture of the size of the display, in all the ways there are. -/
structure Shown (p : Picture) : Prop where
  /-- The array has bit `x` of row `y` in its row `y` and column `x`. -/
  grid : p.grid = .ok ((List.range displayHeight).map fun y =>
    (List.range displayWidth).map fun x => p.bit x y)
  text : ∀ on off, p.text on off = .ok (page p.bit on off)
  displayText : ∀ (s : Snapshot) (on off), s.display = p →
    s.displayText on off = page p.bit on off
  pixel : ∀ f : FrameBuffer, f.frame = p → ∀ x < displayWidth, ∀ y < displayHeight,
    f.pixel (x : Nat) (y : Nat) = .ok (p.bit x y)
  frameText : ∀ (f : FrameBuffer) (on off), f.frame = p →
    f.text on off = .ok (page p.bit on off) ∧ f.textByPixel on off = .ok (page p.bit on off)
  /-- Every library makes an image as long as it repeats the pixels. -/
  image : ∀ (lib : Imaging) (zoom : Int) (on off : Colour), 1 ≤ zoom →
    zoom = 1 ∨ lib.refusal? zoom.toNat = none →
    ∃ i, p.image lib zoom on.paint off.paint = .ok i ∧ Enlarges i zoom.toNat on off p
  /-- Otherwise there is no image, for the reason that the library has. -/
  noImage : ∀ (lib : Imaging) (zoom : Int) (on off : Colour) (e : ImagingError), 1 < zoom →
    lib.refusal? zoom.toNat = some e → p.image lib zoom on.paint off.paint = .error (.imaging e)
  /-- No library repeats the pixels as often as a number of 64 bits cannot tell. -/
  tooLarge : ∀ (lib : Imaging) (zoom : Int) (on off : Colour), 0x8000000000000000 ≤ zoom →
    p.image lib zoom on.paint off.paint = .error (.imaging .range)

/-- No other picture of the size of the display looks like this one. -/
structure Told (p : Picture) : Prop where
  byText : ∀ (q : Picture) (on off : Nat), q.Whole → on < 0x110000 → off < 0x110000 → on ≠ off →
    q.text (CodePoint.ofCodes [on]) (CodePoint.ofCodes [off]) =
      p.text (CodePoint.ofCodes [on]) (CodePoint.ofCodes [off]) → q = p
  byImage : ∀ (lib : Imaging) (q : Picture) (zoom : Int) (on off : Colour) (i : Image), q.Whole →
    1 ≤ zoom → on ≠ off → q.image lib zoom on.paint off.paint = .ok i →
    p.image lib zoom on.paint off.paint = .ok i → q = p

/-- A picture of another height is shown in no way. -/
structure Refused (p : Picture) : Prop where
  grid : p.grid = .error (.wrongHeight p.length)
  text : ∀ on off, p.text on off = .error (.wrongHeight p.length)
  image : ∀ (lib : Imaging) (zoom : Int) (on off : Paint), 1 ≤ zoom →
    p.image lib zoom on off = .error (.wrongHeight p.length)

theorem Whole.shown (h : p.Whole) : Shown p where
  grid := h.grid_eq
  text := h.text_eq
  displayText := by
    rintro s on off rfl
    exact h.displayText_eq on off
  pixel := by
    rintro f rfl x - y hy
    exact FrameBuffer.pixel_eq h x hy
  frameText := by
    rintro f on off rfl
    exact ⟨h.text_eq on off, FrameBuffer.textByPixel_eq h on off⟩
  image lib zoom on off hzoom hmakes := by
    refine h.image_of_none hzoom on off ?_
    rcases hmakes with rfl | hmakes
    · exact zoomRefusal?_one lib
    · unfold zoomRefusal?
      rw [hmakes, ite_self]
  noImage lib zoom on off e hzoom hrefuses := by
    refine h.image_of_some (Int.le_of_lt hzoom) on off ?_
    unfold zoomRefusal?
    rw [if_pos (by omega), hrefuses]
  tooLarge lib zoom on off hlarge :=
    h.image_of_some (by omega) on off (zoomRefusal?_of_le (by omega))

theorem Whole.told (h : p.Whole) : Told p where
  byText := by
    intro q on off hq hon hoff hdiffer htext
    rw [hq.text_eq, h.text_eq, Except.ok.injEq] at htext
    exact hq.ext h (bits_of_page hon hoff hdiffer htext)
  byImage := by
    intro lib q zoom on off i hq hzoom hdiffer hqi hpi
    exact (hq.enlarges hzoom hqi).unique hq h (by omega) hdiffer (h.enlarges hzoom hpi)

theorem Fits.refused (h : p.Fits) (hheight : p.length ≠ displayHeight) : Refused p where
  grid := h.grid_eq_error hheight
  text on off := by
    unfold text
    rw [h.grid_eq_error hheight]
    rfl
  image lib zoom on off hzoom := by
    unfold image
    rw [if_neg (Int.not_lt.mpr hzoom), h.grid_eq_error hheight]
    rfl

/-- Every machine displays a picture of the size of the display. Such a picture is shown alike by
every rendering, and told from the others by each of them; a picture of another height is
shown by none. -/
theorem renderings_agree (p : Picture) (h : p.Fits) :
    (∀ m : Machine, Whole m.snapshot.display) ∧
      (p.length = displayHeight → Shown p ∧ Told p) ∧ (p.length ≠ displayHeight → Refused p) :=
  ⟨fun m => m.display.whole_rows,
    fun hheight => ⟨Whole.shown ⟨h, hheight⟩, Whole.told ⟨h, hheight⟩⟩, h.refused⟩

/-- A picture with one pixel lit in each row, among them the first and the last of a row. -/
def diagonal : Picture :=
  (List.range displayHeight).map fun y => ((1 <<< (63 - 63 * y / 31) : Nat) : Int)

/-- The renderings of the diagonal, and of the diagonal without its first row. A library enlarges
the diagonal eight times, and refuses to do so too often. -/
theorem diagonal_shown : (Shown diagonal ∧ Told diagonal) ∧ Refused (diagonal.drop 1) ∧
    (∃ i, diagonal.image Png.imaging 8 white black = .ok i ∧
      Enlarges i 8 ⟨255, 255, 255⟩ ⟨0, 0, 0⟩ diagonal) ∧
    diagonal.image Png.imaging 0x8000000000000000 white black = .error (.imaging .range) := by
  have hfits : Fits diagonal := by
    unfold Fits
    decide
  have hrest : Fits (diagonal.drop 1) := fun row hrow => hfits row (List.mem_of_mem_drop hrow)
  have hshown := (renderings_agree diagonal hfits).2.1 (by decide)
  exact ⟨hshown, (renderings_agree (diagonal.drop 1) hrest).2.2 (by decide),
    hshown.1.image Png.imaging _ ⟨255, 255, 255⟩ ⟨0, 0, 0⟩ (by decide) (.inr rfl),
    hshown.1.tooLarge Png.imaging _ ⟨255, 255, 255⟩ ⟨0, 0, 0⟩ (by decide)⟩

/-- No library makes an image of the blank picture in which each pixel has so many points that their
number does not fit into 64 bits with a sign. -/
theorem blank_image_tooLarge : Whole blank ∧ ∀ lib : Imaging,
    blank.image lib 0x8000000000000000 white black = .error (.imaging .range) ∧
    ¬∃ i, blank.image lib 0x8000000000000000 white black = .ok i ∧
      i.width = displayWidth * 0x8000000000000000 := by
  have hwhole : Whole blank := ⟨by unfold Fits; decide, rfl⟩
  refine ⟨hwhole, fun lib => ?_⟩
  have herror : blank.image lib 0x8000000000000000 white black = .error (.imaging .range) :=
    hwhole.image_of_some (by decide) ⟨255, 255, 255⟩ ⟨0, 0, 0⟩ (zoomRefusal?_of_le (by decide))
  refine ⟨herror, ?_⟩
  rintro ⟨i, hi, -⟩
  cases herror.symm.trans hi

end Picture

end ChipEight

import ChipEight.Proofs.Console.CallStack
import ChipEight.Proofs.Machine.Pixel

/-!
# Drawing sprites

What an executed `Dxyn` does to the picture, stated with pixels and bits of the sprite only:
columns and rows are compared as numbers, so a sprite is cut off at the right and at the
bottom and never comes back on the other side. A pixel that is turned over twice is as it
was, and that is why drawing a sprite again takes it away. The flag of the second drawing
looks at the pixels that the first one has turned over, so it tells whether the sprite met
unlit ones before.

## Main results

* `Console.step_draw` — the display, the flag and all else behind `Dxyn`.
* `Console.step_draw_twice` — the same `Dxyn` twice, unless it takes a coordinate from the
  flag register, which it changes.
-/

namespace ChipEight

namespace Console

variable {c c' d : Console} {keys : Keyboard} {r : StepReport}

/-! ## One drawing -/

/-- `Dxyn` turns over the pixels of the display on which a set bit of the sprite falls, and
no others. The flag tells whether a lit pixel went out. Nothing else of registers, index and
memory is changed. -/
theorem step_draw (hstep : c.step keys = (c', .ok r)) (hdraw : r.word.family.val = 0xD) :
    (∀ (column : Fin displayWidth) (row : Fin displayHeight),
      c'.machine.display.pixel column row =
        if c.machine.Inks r.word column row then !c.machine.display.pixel column row
        else c.machine.display.pixel column row) ∧
    c'.machine.reg flagRegister =
      (if c.machine.display.Loses c'.machine.display then 1 else 0) ∧
    (∀ x, x ≠ flagRegister → c'.machine.reg x = c.machine.reg x) ∧
    c'.machine.index = c.machine.index ∧ c'.machine.memory = c.machine.memory := by
  obtain ⟨s, i, hexec, -, -, hmachine, -, hword, -⟩ := step_ok_inv hstep
  rw [hword] at hdraw ⊢
  obtain ⟨-, -, -, hindex, hmemory⟩ := hexec.draw_inv hdraw
  rw [hmachine]
  refine ⟨?_, ?_, ?_, hindex, hmemory⟩
  · intro column row
    rw [hexec.pixel_of_draw hdraw]
    by_cases hinks : c.machine.Inks s.word column row
    · rw [if_pos hinks, decide_eq_true hinks, Bool.xor_true]
    · rw [if_neg hinks, decide_eq_false hinks, Bool.xor_false]
  · rw [hexec.flag_of_draw hdraw]
    simp only [hexec.loses_iff_of_draw hdraw]
  · intro x hx
    exact hexec.reg_of_draw hdraw hx

/-- A program that draws the glyph of zero twice, four columns and two rows away from the
lower right corner. -/
def drawTwice : List UInt8 := [0x60, 0x3C, 0x61, 0x1E, 0xA0, 0x20, 0xD0, 0x15, 0xD0, 0x15]

/-- The console that is about to draw. -/
def cornered : Console :=
  Session.fresh.console.performAll [.load drawTwice, .step noKeys, .step noKeys, .step noKeys]

/-- What the first drawing finds: a blank display, and where its pixels fall. -/
theorem cornered_facts :
    (cornered.step noKeys).2.toOption = some ⟨0x206, 0xD015, 0x208, true, none⟩ ∧
    (cornered.step noKeys).1.machine.fetch.toOption = some 0xD015 ∧
    cornered.machine.display = Bitmap.blank ∧ cornered.machine.Inks 0xD015 63 31 ∧
    ¬cornered.machine.Inks 0xD015 62 31 ∧ ¬cornered.machine.Inks 0xD015 0 0 := by
  decide +kernel

/-- What fits of the glyph is drawn, and nothing comes back at the left or at the top. -/
theorem cornered_draw :
    ∃ c' r, cornered.step noKeys = (c', .ok r) ∧ r.word.family.val = 0xD ∧
      c'.machine.display.pixel 63 31 = true ∧ c'.machine.display.pixel 62 31 = false ∧
      c'.machine.display.pixel 0 0 = false ∧ c'.machine.reg flagRegister = 0 := by
  obtain ⟨hok, -, hblank, hlast, hhole, hfirst⟩ := cornered_facts
  have hstep := step_eq_of_toOption hok
  obtain ⟨hpixel, hflag, -⟩ := step_draw hstep rfl
  rw [hblank] at hpixel hflag
  have hkept : ¬Bitmap.blank.Loses (cornered.step noKeys).1.machine.display := by
    rintro ⟨column, row, hlit, -⟩
    rw [Bitmap.pixel_blank] at hlit
    cases hlit
  refine ⟨_, _, hstep, rfl, ?_, ?_, ?_, hflag.trans (if_neg hkept)⟩
  · exact (hpixel 63 31).trans (if_pos hlast)
  · exact (hpixel 62 31).trans (if_neg hhole)
  · exact (hpixel 0 0).trans (if_neg hfirst)

/-! ## The same drawing twice -/

/-- `Dxyn` executed twice leaves the display as it was, unless it takes a coordinate from
the flag register. The second time it stands behind the first, or somewhere else. The first
flag tells whether the sprite met a lit pixel, the second whether it met an unlit one. -/
theorem step_draw_twice (hfirst : c.step keys = (c', .ok r)) (hdraw : r.word.family.val = 0xD)
    (hx : r.word.x ≠ flagRegister) (hy : r.word.y ≠ flagRegister) {pc : Int}
    (hmachine : d.machine = { c'.machine with pc }) (hfetch : d.machine.fetch = .ok r.word)
    (keys' : Keyboard) :
    ∃ d' r', d.step keys' = (d', .ok r') ∧ r'.word = r.word ∧
      d'.machine.display = c.machine.display ∧
      c'.machine.reg flagRegister = (if c.machine.Meets r.word true then 1 else 0) ∧
      d'.machine.reg flagRegister = (if c.machine.Meets r.word false then 1 else 0) ∧
      (c'.machine.reg flagRegister = 0 ∧ d'.machine.reg flagRegister = 0 ↔
        ∀ (column : Fin displayWidth) (row : Fin displayHeight),
          ¬c.machine.Inks r.word column row) ∧
      (c.machine.display = Bitmap.blank →
        (d'.machine.reg flagRegister = 1 ↔
          ∃ (column : Fin displayWidth) (row : Fin displayHeight),
            c'.machine.display.pixel column row = true)) := by
  obtain ⟨s, i, hexec, -, -, hnext, -, hword, -⟩ := step_ok_inv hfirst
  rw [hword] at hdraw hx hy hfetch ⊢
  rw [hnext] at hmachine ⊢
  obtain ⟨t, j, hagain, hsame⟩ :=
    hexec.draw_again hdraw hmachine hfetch d.config.timerDivider keys'
  obtain ⟨d', hstep, hbare⟩ := step_of_executes hagain
  have hafter : d'.machine = t.next := (machine_of_bare hbare).trans (machine_behind d t)
  have hdraw' : t.word.family.val = 0xD := by rw [hsame, hdraw]
  have hflag := hexec.flag_of_draw hdraw
  have hflag' : t.next.reg flagRegister = if c.machine.Meets s.word false then 1 else 0 := by
    rw [hagain.flag_of_draw hdraw', hsame]
    simp only [hexec.meets_again hdraw hx hy hmachine, Bool.not_true]
  refine ⟨d', _, hstep, hsame, ?_⟩
  rw [hafter]
  refine ⟨?_, hflag, hflag', ?_, ?_⟩
  · exact hexec.display_of_draw_twice hdraw hx hy hmachine hagain hsame
  · rw [hflag, hflag', ← Machine.not_meets_iff]
    simp
  · intro hblank
    rw [hflag', ← hexec.meets_blank_iff_of_draw hdraw hblank]
    simp

/-- The second drawing takes the glyph away again, and reports that it went out. -/
theorem cornered_draw_twice :
    ∃ c' d' r r', cornered.step noKeys = (c', .ok r) ∧ r.word.family.val = 0xD ∧
      c'.step noKeys = (d', .ok r') ∧ r'.word = r.word ∧ d'.machine.display = Bitmap.blank ∧
      c'.machine.reg flagRegister = 0 ∧ d'.machine.reg flagRegister = 1 := by
  obtain ⟨hok, hnext, hblank, hlast, -⟩ := cornered_facts
  have hstep := step_eq_of_toOption hok
  have hfetch : (cornered.step noKeys).1.machine.fetch = .ok 0xD015 := by
    cases hword : (cornered.step noKeys).1.machine.fetch with
    | error cause =>
        rw [hword] at hnext
        cases hnext
    | ok w =>
        rw [hword] at hnext
        cases hnext
        rfl
  have hbehind : ∀ c : Console, c.machine = { c.machine with pc := c.machine.pc } := fun _ => rfl
  obtain ⟨d', r', hagain, hword, hdisplay, hflag, hflag', -⟩ :=
    step_draw_twice hstep rfl (by decide) (by decide) (hbehind _) hfetch noKeys
  have hunlit : ∀ column row, cornered.machine.display.pixel column row = false := by
    intro column row
    rw [hblank, Bitmap.pixel_blank]
  have hmeets : cornered.machine.Meets 0xD015 false := ⟨63, 31, hlast, hunlit _ _⟩
  have hmisses : ¬cornered.machine.Meets 0xD015 true := by
    rintro ⟨column, row, -, hlit⟩
    rw [hunlit] at hlit
    cases hlit
  exact ⟨_, d', _, r', hstep, rfl, hagain, hword, hdisplay.trans hblank,
    hflag.trans (if_neg hmisses), hflag'.trans (if_pos hmeets)⟩

end Console

end ChipEight

/-!
# The fixed layout of the machine

Memory is 4 KiB. The lowest 32 bytes hold the call stack, sixteen frames of two
bytes; the built-in glyphs of the hexadecimal digits follow it; programs start
at `0x200`. The display has 32 rows of 64 one-bit pixels.
-/

namespace ChipEight

/-! ## Memory map -/

/-- Bytes of addressable memory. -/
abbrev memorySize : Nat := 0x1000

/-- Programs are loaded here; everything below is reserved. -/
abbrev programStart : Nat := 0x200

/-- The largest program that fits above the reserved region. -/
abbrev maxProgramSize : Nat := memorySize - programStart

/-- First byte of the call stack. -/
abbrev stackBase : Nat := 0x00

/-- First byte behind the call stack. -/
abbrev stackLimit : Nat := 0x20

/-- A return address takes two bytes, the high one first. -/
abbrev stackFrameSize : Nat := 2

/-- How many return addresses the stack holds. -/
abbrev stackDepth : Nat := (stackLimit - stackBase) / stackFrameSize

/-- First byte of the built-in glyphs. -/
abbrev fontBase : Nat := 0x20

/-- Bytes of one glyph. -/
abbrev glyphSize : Nat := 5

/-! ## Display, registers and words -/

/-- Columns of the display, the bits of one row. -/
abbrev displayWidth : Nat := 64

/-- Rows of the display. -/
abbrev displayHeight : Nat := 32

/-- The row with every pixel lit. -/
abbrev rowMask : Nat := Nat.pow 2 displayWidth - 1

/-- General registers. -/
abbrev registerCount : Nat := 16

/-- The register that receives carries, borrows and collisions. -/
abbrev flagRegister : Fin registerCount := 0xF

/-- Keys of the hexadecimal pad. -/
abbrev keyCount : Nat := 16

/-- Bytes of one instruction. -/
abbrev wordSize : Nat := 2

/-- Additions to the index register keep these bits. -/
abbrev indexMask : Nat := 0xFFFF

/-! ## Rates -/

/-- Instructions between two decrements of the timers, unless configured. -/
abbrev defaultTimerDivider : Nat := 8

/-- Instructions per second, unless configured. -/
abbrev defaultCyclesPerSecond : Nat := 500

/-! ## Glyphs -/

/-- The glyphs of the digits `0` to `F`, five rows of eight pixels each. -/
def font : List UInt8 :=
  [ 0xF0, 0x90, 0x90, 0x90, 0xF0
  , 0x20, 0x60, 0x20, 0x20, 0x70
  , 0xF0, 0x10, 0xF0, 0x80, 0xF0
  , 0xF0, 0x10, 0xF0, 0x10, 0xF0
  , 0x90, 0x90, 0xF0, 0x10, 0x10
  , 0xF0, 0x80, 0xF0, 0x10, 0xF0
  , 0xF0, 0x80, 0xF0, 0x90, 0xF0
  , 0xF0, 0x10, 0x20, 0x40, 0x40
  , 0xF0, 0x90, 0xF0, 0x90, 0xF0
  , 0xF0, 0x90, 0xF0, 0x10, 0xF0
  , 0xF0, 0x90, 0xF0, 0x90, 0x90
  , 0xE0, 0x90, 0xE0, 0x90, 0xE0
  , 0xF0, 0x80, 0x80, 0x80, 0xF0
  , 0xE0, 0x90, 0x90, 0x90, 0xE0
  , 0xF0, 0x80, 0xF0, 0x80, 0xF0
  , 0xF0, 0x80, 0xF0, 0x80, 0x80 ]

theorem length_font : font.length = 16 * glyphSize := rfl

/-- Where the glyph of `digit` starts; digits outside `0` to `15` continue the
same progression. -/
def glyphAddress (digit : Int) : Int := fontBase + digit * glyphSize

end ChipEight

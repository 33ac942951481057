import ChipEight.Layout

/-!
# Instructions and their words

An instruction is one 16-bit word. `Instruction` lists the thirty-four forms,
`Instruction.toWord` writes a form as its word and `Instruction.ofWord?` reads a
word back; words that are no instruction read as `none`.

The fields of a word are defined for every word, whether it is an instruction or
not: the family is the highest nibble, then come the nibbles `x`, `y` and `n`;
`byte` is the low byte and `target` the low twelve bits.
-/

namespace ChipEight

/-- A 16-bit word of program text. -/
abbrev Word := UInt16

/-- The number of a general register. -/
abbrev Reg := Fin registerCount

/-- A twelve-bit address in a word. -/
abbrev Target := Fin memorySize

/-! ## Fields of a word -/

namespace Word

/-- The highest nibble. -/
def family (w : Word) : Fin 16 := ⟨w.toNat / 4096, by have := w.toNat_lt; omega⟩

/-- The second nibble. -/
def x (w : Word) : Reg := ⟨w.toNat / 256 % 16, by simp only [registerCount]; omega⟩

/-- The third nibble. -/
def y (w : Word) : Reg := ⟨w.toNat / 16 % 16, by simp only [registerCount]; omega⟩

/-- The lowest nibble. -/
def n (w : Word) : Fin 16 := ⟨w.toNat % 16, by omega⟩

/-- The low byte. -/
def byte (w : Word) : UInt8 := UInt8.ofNat (w.toNat % 256)

/-- The low twelve bits. -/
def target (w : Word) : Target := ⟨w.toNat % 4096, by simp only [memorySize]; omega⟩

/-- The word with the given high and low byte. -/
def ofBytes (hi lo : UInt8) : Word := UInt16.ofNat (hi.toNat * 256 + lo.toNat)

/-- The word made of a family, two registers and the lowest nibble. -/
def ofRegs (family : Nat) (x y : Reg) (n : Nat) : Word :=
  UInt16.ofNat (family * 4096 + x.val * 256 + y.val * 16 + n)

/-- The word made of a family, a register and a byte. -/
def ofRegByte (family : Nat) (x : Reg) (byte : UInt8) : Word :=
  UInt16.ofNat (family * 4096 + x.val * 256 + byte.toNat)

/-- The word made of a family and a twelve-bit address. -/
def ofTarget (family : Nat) (target : Target) : Word :=
  UInt16.ofNat (family * 4096 + target.val)

end Word

/-! ## Instructions -/

/-- Operations of the `8xyn` family, which combine two registers. -/
inductive Arith
  /-- Copies the second register. -/
  | copy
  /-- Bitwise or. -/
  | or
  /-- Bitwise and. -/
  | and
  /-- Bitwise exclusive or. -/
  | xor
  /-- Addition with carry. -/
  | add
  /-- First minus second. -/
  | sub
  /-- The second register shifted right. -/
  | shr
  /-- Second minus first. -/
  | subn
  /-- The second register shifted left. -/
  | shl
  deriving DecidableEq, Repr

/-- The forms of an instruction. -/
inductive Instruction
  /-- `00E0` blanks the display. -/
  | clear
  /-- `00EE` returns from a call. -/
  | ret
  /-- `1nnn` continues at an address. -/
  | jump (target : Target)
  /-- `2nnn` calls the routine at an address. -/
  | call (target : Target)
  /-- `3xkk` skips the next instruction if the register holds the byte. -/
  | skipEqByte (x : Reg) (byte : UInt8)
  /-- `4xkk` skips the next instruction unless the register holds the byte. -/
  | skipNeByte (x : Reg) (byte : UInt8)
  /-- `5xy0` skips the next instruction if the registers agree. -/
  | skipEqReg (x y : Reg)
  /-- `6xkk` loads the byte. -/
  | loadByte (x : Reg) (byte : UInt8)
  /-- `7xkk` adds the byte without touching the flag. -/
  | addByte (x : Reg) (byte : UInt8)
  /-- `8xyn` combines two registers. -/
  | arith (op : Arith) (x y : Reg)
  /-- `9xy0` skips the next instruction if the registers differ. -/
  | skipNeReg (x y : Reg)
  /-- `Annn` loads the index. -/
  | loadIndex (target : Target)
  /-- `Bnnn` continues at an address, like `1nnn`. -/
  | jumpAlt (target : Target)
  /-- `Cxkk` loads a random byte masked by the given one. -/
  | random (x : Reg) (mask : UInt8)
  /-- `Dxyn` draws the sprite of `n` rows at the index. -/
  | draw (x y : Reg) (n : Fin 16)
  /-- `Ex9E` skips the next instruction if the key is held. -/
  | skipKey (x : Reg)
  /-- `ExA1` skips the next instruction unless the key is held. -/
  | skipNoKey (x : Reg)
  /-- `Fx07` reads the delay timer. -/
  | getDelay (x : Reg)
  /-- `Fx0A` waits for a key. -/
  | waitKey (x : Reg)
  /-- `Fx15` sets the delay timer. -/
  | setDelay (x : Reg)
  /-- `Fx18` sets the sound timer. -/
  | setSound (x : Reg)
  /-- `Fx1E` adds to the index. -/
  | addIndex (x : Reg)
  /-- `Fx29` points the index at a glyph. -/
  | loadGlyph (x : Reg)
  /-- `Fx33` stores the three decimal digits of a register. -/
  | storeDecimal (x : Reg)
  /-- `Fx55` stores the registers up to `x`. -/
  | storeRegs (x : Reg)
  /-- `Fx65` loads the registers up to `x`. -/
  | loadRegs (x : Reg)
  deriving DecidableEq, Repr

/-! ## Words of instructions -/

/-- The lowest nibble of an `8xyn` word. -/
def Arith.code : Arith → Nat
  | .copy => 0x0
  | .or => 0x1
  | .and => 0x2
  | .xor => 0x3
  | .add => 0x4
  | .sub => 0x5
  | .shr => 0x6
  | .subn => 0x7
  | .shl => 0xE

/-- The operation with the given lowest nibble. -/
def Arith.ofCode? (code : Nat) : Option Arith :=
  match code with
  | 0x0 => some .copy
  | 0x1 => some .or
  | 0x2 => some .and
  | 0x3 => some .xor
  | 0x4 => some .add
  | 0x5 => some .sub
  | 0x6 => some .shr
  | 0x7 => some .subn
  | 0xE => some .shl
  | _ => none

namespace Instruction

/-- The word that encodes an instruction. -/
def toWord : Instruction → Word
  | .clear => 0x00E0
  | .ret => 0x00EE
  | .jump t => Word.ofTarget 0x1 t
  | .call t => Word.ofTarget 0x2 t
  | .skipEqByte x b => Word.ofRegByte 0x3 x b
  | .skipNeByte x b => Word.ofRegByte 0x4 x b
  | .skipEqReg x y => Word.ofRegs 0x5 x y 0x0
  | .loadByte x b => Word.ofRegByte 0x6 x b
  | .addByte x b => Word.ofRegByte 0x7 x b
  | .arith op x y => Word.ofRegs 0x8 x y op.code
  | .skipNeReg x y => Word.ofRegs 0x9 x y 0x0
  | .loadIndex t => Word.ofTarget 0xA t
  | .jumpAlt t => Word.ofTarget 0xB t
  | .random x b => Word.ofRegByte 0xC x b
  | .draw x y n => Word.ofRegs 0xD x y n.val
  | .skipKey x => Word.ofRegByte 0xE x 0x9E
  | .skipNoKey x => Word.ofRegByte 0xE x 0xA1
  | .getDelay x => Word.ofRegByte 0xF x 0x07
  | .waitKey x => Word.ofRegByte 0xF x 0x0A
  | .setDelay x => Word.ofRegByte 0xF x 0x15
  | .setSound x => Word.ofRegByte 0xF x 0x18
  | .addIndex x => Word.ofRegByte 0xF x 0x1E
  | .loadGlyph x => Word.ofRegByte 0xF x 0x29
  | .storeDecimal x => Word.ofRegByte 0xF x 0x33
  | .storeRegs x => Word.ofRegByte 0xF x 0x55
  | .loadRegs x => Word.ofRegByte 0xF x 0x65

/-- The forms of the `Exkk` family, told apart by the low byte. -/
def ofKeyWord? (x : Reg) (byte : Nat) : Option Instruction :=
  match byte with
  | 0x9E => some (.skipKey x)
  | 0xA1 => some (.skipNoKey x)
  | _ => none

/-- The forms of the `Fxkk` family, told apart by the low byte. -/
def ofMiscWord? (x : Reg) (byte : Nat) : Option Instruction :=
  match byte with
  | 0x07 => some (.getDelay x)
  | 0x0A => some (.waitKey x)
  | 0x15 => some (.setDelay x)
  | 0x18 => some (.setSound x)
  | 0x1E => some (.addIndex x)
  | 0x29 => some (.loadGlyph x)
  | 0x33 => some (.storeDecimal x)
  | 0x55 => some (.storeRegs x)
  | 0x65 => some (.loadRegs x)
  | _ => none

/-- The instruction that a word encodes, if any. -/
def ofWord? (w : Word) : Option Instruction :=
  match w.family.val with
  | 0x0 =>
    if w.target.val = 0x0E0 then some .clear
    else if w.target.val = 0x0EE then some .ret
    else none
  | 0x1 => some (.jump w.target)
  | 0x2 => some (.call w.target)
  | 0x3 => some (.skipEqByte w.x w.byte)
  | 0x4 => some (.skipNeByte w.x w.byte)
  | 0x5 => if w.n.val = 0 then some (.skipEqReg w.x w.y) else none
  | 0x6 => some (.loadByte w.x w.byte)
  | 0x7 => some (.addByte w.x w.byte)
  | 0x8 => (Arith.ofCode? w.n.val).map (.arith · w.x w.y)
  | 0x9 => if w.n.val = 0 then some (.skipNeReg w.x w.y) else none
  | 0xA => some (.loadIndex w.target)
  | 0xB => some (.jumpAlt w.target)
  | 0xC => some (.random w.x w.byte)
  | 0xD => some (.draw w.x w.y w.n)
  | 0xE => ofKeyWord? w.x w.byte.toNat
  | 0xF => ofMiscWord? w.x w.byte.toNat
  | _ => none

end Instruction

end ChipEight

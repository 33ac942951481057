import ChipEight.Instruction
import ChipEight.Text.Hex

/-!
# Assembly text of words

A table lists the forms that an instruction can have. A form says which words have it, by a
mask and the bits that are left under it, and how these are written, as a verb and operands. A
word is written in the first form that it has, and a word of no form as the data word that it
is.

The table is made for texts and knows nothing of what instructions do. `1nnn` and `Bnnn` do the
same and share their text.
-/

namespace ChipEight

open Text

/-! ## Operands -/

/-- The name of a register: `V` and its number as one hexadecimal digit. -/
def Reg.name (r : Reg) : String := "V" ++ Hex.upper 1 r.val

/-- Four hexadecimal digits. -/
def Word.hex (w : Word) : String := Hex.upper 4 w.toNat

/-- What can stand as an operand. -/
inductive Operand
  /-- A fixed text. -/
  | name (text : String)
  /-- The register `x`. -/
  | regX
  /-- The register `y`. -/
  | regY
  /-- The registers up to `x`. -/
  | upToX
  /-- The low twelve bits, as three hexadecimal digits. -/
  | address
  /-- The low byte, as two hexadecimal digits. -/
  | byte
  /-- The lowest nibble, in decimal. -/
  | count
  /-- All bits, as four hexadecimal digits. -/
  | word
  deriving DecidableEq, Repr

/-- The text of an operand of the word `w`. -/
def Operand.text (w : Word) : Operand → String
  | .name text => text
  | .regX => w.x.name
  | .regY => w.y.name
  | .upToX => "V0-" ++ w.x.name
  | .address => "0x" ++ Hex.upper 3 w.target.val
  | .byte => "0x" ++ Hex.upper 2 w.byte.toNat
  | .count => Nat.repr w.n.val
  | .word => "0x" ++ w.hex

/-! ## Forms -/

/-- One form of a word. -/
structure Form where
  /-- The bits that tell the form. -/
  mask : Word
  /-- What these bits are. -/
  bits : Word
  verb : String
  operands : List Operand := []
  deriving DecidableEq, Repr

namespace Form

/-- Whether a word has the form. -/
def has (f : Form) (w : Word) : Bool := w &&& f.mask == f.bits

/-- The text of a word in the form. -/
def text (f : Form) (w : Word) : String :=
  f.verb ++ ",".intercalate (f.operands.map fun o => " " ++ o.text w)

/-- A word of data; every word has this form. -/
def data : Form := { mask := 0, bits := 0, verb := "DW", operands := [.word] }

/-- The forms of instructions. -/
def table : List Form :=
  [ ⟨0xFFFF, 0x00E0, "CLS", []⟩
  , ⟨0xFFFF, 0x00EE, "RET", []⟩
  , ⟨0xF000, 0x1000, "JP", [.address]⟩
  , ⟨0xF000, 0x2000, "CALL", [.address]⟩
  , ⟨0xF000, 0x3000, "SE", [.regX, .byte]⟩
  , ⟨0xF000, 0x4000, "SNE", [.regX, .byte]⟩
  , ⟨0xF00F, 0x5000, "SE", [.regX, .regY]⟩
  , ⟨0xF000, 0x6000, "LD", [.regX, .byte]⟩
  , ⟨0xF000, 0x7000, "ADD", [.regX, .byte]⟩
  , ⟨0xF00F, 0x8000, "LD", [.regX, .regY]⟩
  , ⟨0xF00F, 0x8001, "OR", [.regX, .regY]⟩
  , ⟨0xF00F, 0x8002, "AND", [.regX, .regY]⟩
  , ⟨0xF00F, 0x8003, "XOR", [.regX, .regY]⟩
  , ⟨0xF00F, 0x8004, "ADD", [.regX, .regY]⟩
  , ⟨0xF00F, 0x8005, "SUB", [.regX, .regY]⟩
  , ⟨0xF00F, 0x8006, "SHR", [.regX, .regY]⟩
  , ⟨0xF00F, 0x8007, "SUBN", [.regX, .regY]⟩
  , ⟨0xF00F, 0x800E, "SHL", [.regX, .regY]⟩
  , ⟨0xF00F, 0x9000, "SNE", [.regX, .regY]⟩
  , ⟨0xF000, 0xA000, "LD", [.name "I", .address]⟩
  , ⟨0xF000, 0xB000, "JP", [.address]⟩
  , ⟨0xF000, 0xC000, "RND", [.regX, .byte]⟩
  , ⟨0xF000, 0xD000, "DRW", [.regX, .regY, .count]⟩
  , ⟨0xF0FF, 0xE09E, "SKP", [.regX]⟩
  , ⟨0xF0FF, 0xE0A1, "SKNP", [.regX]⟩
  , ⟨0xF0FF, 0xF007, "LD", [.regX, .name "DT"]⟩
  , ⟨0xF0FF, 0xF00A, "LD", [.regX, .name "K"]⟩
  , ⟨0xF0FF, 0xF015, "LD", [.name "DT", .regX]⟩
  , ⟨0xF0FF, 0xF018, "LD", [.name "ST", .regX]⟩
  , ⟨0xF0FF, 0xF01E, "ADD", [.name "I", .regX]⟩
  , ⟨0xF0FF, 0xF029, "LD", [.name "F", .regX]⟩
  , ⟨0xF0FF, 0xF033, "LD", [.name "B", .regX]⟩
  , ⟨0xF0FF, 0xF055, "LD", [.name "[I]", .upToX]⟩
  , ⟨0xF0FF, 0xF065, "LD", [.upToX, .name "[I]"]⟩ ]

end Form

/-! ## Words -/

namespace Word

/-- The first form of a list that a word has. -/
def formIn (forms : List Form) (w : Word) : Form := (forms.find? (·.has w)).getD .data

/-- The form that a word is written in. -/
def form (w : Word) : Form := w.formIn Form.table

/-- The assembly text of a word. -/
def mnemonic (w : Word) : String := w.form.text w

/-- Whether a word is written as an instruction. -/
def isKnown (w : Word) : Bool := !"DW ".toList.isPrefixOf w.mnemonic.toList

/-- The word and its assembly text. -/
def describe (w : Word) : String := w.hex ++ "  " ++ w.mnemonic

end Word

end ChipEight
